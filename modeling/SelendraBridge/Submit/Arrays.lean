import SelendraBridge.Quorums
import SelendraBridge.Store.Standard
import SelendraBridge.Submit.Keeper
import SelendraBridge.Submit.Relayer

/-!
# The arrays that are submitted are accepted

Both submitters build an array from the rows of a record, and both gates refuse an array for
any one element: one that does not recover, one out of order, one too many. Whatever the rows
are, the arrays name validators only, each once and in order, and no row can keep out a
validator that another row is genuine for. So an array is accepted as soon as the rows hold a
quorum (`SelendraBridge.arrays_accepted`).
-/

namespace SelendraBridge

open Store

/-- **A row is genuine for an address**, in one of the four encodings. -/
def GenuineRow (keccak256 : Bytes → Bytes32) (P : Parsers) (R : Recovery) (id : Bytes32)
    (kind : SigKind) (sigs : List SignerSig) (a : Address) : Prop :=
  ∃ s ∈ sigs, verifyAttestation keccak256 P R id kind s = .ok a ∧
    ∃ raw, hexBytes P "signature" s.signature = .ok raw ∧ BridgeSolana.Encoded raw

/-- **The rows hold a quorum**: genuine rows for as many distinct members as are needed. -/
def HoldsQuorum (keccak256 : Bytes → Bytes32) (P : Parsers) (R : Recovery) (id : Bytes32)
    (kind : SigKind) (sigs : List SignerSig) (members : List Address) (threshold : ℕ) : Prop :=
  ∃ names : List Address, names.Nodup ∧ threshold ≤ names.length ∧
    ∀ a ∈ names, a ∈ members ∧ GenuineRow keccak256 P R id kind sigs a

variable {σ : Type} {P : Parsers} {R : Recovery} {X : Solana.Runtime}
  {recover : Bytes32 → UInt8 → Bytes → Option Bytes}

/-- A genuine row is one that the relayer recovers. -/
theorem recovered_of_genuineRow (hR : SolanaRelayer.Recovers X recover R)
    {id : Bytes32} {kind : SigKind} {sigs : List SignerSig} {a : Address}
    (h : GenuineRow X.keccak256 P R id kind sigs a) :
    SolanaRelayer.Recovered X.keccak256 recover (kind.digest X.keccak256 id)
      (SolanaRelayer.rawSignatures P sigs) a := by
  obtain ⟨s, hs, hok, raw, hraw, henc⟩ := h
  simp only [verifyAttestation, verifySignature, Revert.bind_eq_ok, Revert.exists_unit,
    Revert.orRevert_eq_ok, Revert.revertIf_eq_ok, Revert.pure_eq_ok] at hok
  obtain ⟨claimed, -, raw', hraw', recovered, hrec, -, rfl⟩ := hok
  obtain rfl := Except.ok.inj (hraw.symm.trans hraw')
  refine ⟨raw, List.mem_filterMap.mpr ⟨s, hs, ?_⟩, _,
    SolanaRelayer.withAddr_of_recover hR hrec henc⟩
  unfold SolanaRelayer.hexBytes
  unfold hexBytes at hraw
  dsimp only
  split at hraw
  · next hnil =>
    rw [if_pos hnil, ← Except.ok.inj hraw]
  · next hnil =>
    rw [if_neg hnil, Revert.orRevert_eq_ok.mp hraw]

/-- Names that are all on a list are no more than it. -/
theorem length_le_of_quorum {keccak256 : Bytes → Bytes32} {id : Bytes32} {kind : SigKind}
    {sigs : List SignerSig} {members signers : List Address} {threshold : ℕ}
    (h : HoldsQuorum keccak256 P R id kind sigs members threshold)
    (hin : ∀ a ∈ members, GenuineRow keccak256 P R id kind sigs a → a ∈ signers) :
    threshold ≤ signers.length := by
  obtain ⟨names, hnodup, henough, hall⟩ := h
  exact henough.trans (hnodup.subperm fun a ha => hin a (hall a ha).1 (hall a ha).2).length_le

/-- **Submitted arrays are accepted.** Of any rows of any record, for every set of validators
and every threshold: what the keeper builds names, in order, exactly the validators that a row
is genuine for, and what the relayer builds names the first of the validators it recovers,
among them all that a row is genuine for; and once the rows hold a quorum, the gate accepts the
one and the program the other. -/
theorem arrays_accepted {E : Chain σ} (hP : P.Lawful)
    (hK : Keeper.Recovers E.keccak256 E.recover R) (hS : SolanaRelayer.Recovers X recover R)
    (kind : SigKind) {submissionId : Text} {id : Bytes32} (hid : P.b256 submissionId = some id)
    (sigs : List SignerSig) :
    (∀ (g : Gate) members isValidator memo, Gate.Members g members →
      Keeper.Right g.isValidator isValidator memo → ∃ out signers,
        Keeper.sortedSignatures P R (Keeper.memberSignatures E.keccak256 P R isValidator memo
          g.validatorCount.toNat submissionId kind sigs) = some out ∧
        Tally.Names (Gate.signerOf E (kind.digest E.keccak256 id)) out signers ∧
        signers.Pairwise (· < ·) ∧
        (∀ a, a ∈ signers ↔ a ∈ members ∧ Keeper.Genuine E.keccak256 P R id kind sigs a) ∧
        (HoldsQuorum E.keccak256 P R id kind sigs members g.threshold.toNat →
          Gate.verifySignatures E g (kind.digest E.keccak256 id) out = .ok ())) ∧
    ∀ cfg : Solana.Config, (0 : Address) ∉ cfg.validators → ∃ all : List Address,
      all.Pairwise (· < ·) ∧
      (∀ a, a ∈ all ↔ a ∈ cfg.validators ∧ SolanaRelayer.Recovered X.keccak256 recover
        (kind.digest X.keccak256 id) (SolanaRelayer.rawSignatures P sigs) a) ∧
      (∀ a ∈ cfg.validators, GenuineRow X.keccak256 P R id kind sigs a → a ∈ all) ∧
      Tally.Names (Solana.signerOf X (SolanaRelayer.programMessage X.keccak256 kind id))
        (SolanaRelayer.orderedSignatures X.keccak256 recover
          (SolanaRelayer.digestInput X.keccak256 kind id) (SolanaRelayer.rawSignatures P sigs) cfg)
        (all.take (min cfg.threshold.toNat cfg.validators.length)) ∧
      (HoldsQuorum X.keccak256 P R id kind sigs cfg.validators cfg.threshold.toNat →
        Solana.verifyThreshold X cfg (SolanaRelayer.programMessage X.keccak256 kind id)
          (SolanaRelayer.orderedSignatures X.keccak256 recover
            (SolanaRelayer.digestInput X.keccak256 kind id)
            (SolanaRelayer.rawSignatures P sigs) cfg) = .ok ()) := by
  refine ⟨fun g members isValidator memo hm hright => ?_, fun cfg hzero => ?_⟩
  · obtain ⟨out, signers, hout, hnames, hsorted, hmem⟩ :=
      Keeper.names_sortedSignatures hK hP hm hright hid kind sigs
    refine ⟨out, signers, hout, hnames, hsorted, hmem, fun hquorum => ?_⟩
    have henough := length_le_of_quorum hquorum fun a ha ⟨s, hs, hok, _⟩ =>
      (hmem a).mpr ⟨ha, s, hs, hok⟩
    exact Gate.verify_of_ascending hm hnames hsorted (fun v hv => ((hmem v).mp hv).1) henough
  · obtain ⟨hinput, hmessage⟩ := SolanaRelayer.digestInput_eq X.keccak256 kind id
    obtain ⟨all, hsorted, hmem, hnames⟩ := SolanaRelayer.names_orderedSignatures hS
      (kind.digest X.keccak256 id) (SolanaRelayer.rawSignatures P sigs) cfg
    have hgenuine : ∀ a ∈ cfg.validators, GenuineRow X.keccak256 P R id kind sigs a → a ∈ all :=
      fun a ha h => (hmem a).mpr ⟨ha, recovered_of_genuineRow hS h⟩
    rw [hinput, hmessage]
    refine ⟨all, hsorted, hmem, hgenuine, hnames, fun hquorum => ?_⟩
    have henough := SolanaRelayer.length_take hsorted (fun a ha => ((hmem a).mp ha).1)
      (length_le_of_quorum hquorum hgenuine)
    exact Solana.verifyThreshold_of_ascending hzero hnames (hsorted.sublist (List.take_sublist _ _))
      (fun v hv => ((hmem v).mp (List.mem_of_mem_take hv)).1) henough

/-! ### One validator, and junk -/

/-- The relayer's library, over a runtime: what is not below the order does not recover. -/
def hostRecover (X : Solana.Runtime) (digest : Bytes32) (recid : UInt8) (rs : Bytes) :
    Option Bytes :=
  if BridgeSolana.order ≤ wordAt rs 32 then none else X.secp256k1Recover digest recid rs

/-- It recovers, in one of the four encodings. -/
def hostEncoded (raw : Bytes) : Bool :=
  decide (raw.length = 65) && (raw.getD 64 0 == 0 || raw.getD 64 0 == 27 || raw.getD 64 0 == 1 ||
    raw.getD 64 0 == 28) && decide (wordAt raw 32 < BridgeSolana.order)

theorem hostEncoded_iff {raw : Bytes} : hostEncoded raw = true ↔
    BridgeSolana.Encoded raw ∧ wordAt raw 32 < BridgeSolana.order := by
  simp only [hostEncoded, Bool.and_eq_true, Bool.or_eq_true, decide_eq_true_eq, beq_iff_eq,
    or_assoc]
  exact ⟨fun h => ⟨⟨h.1.1, h.1.2⟩, h.2⟩, fun h => ⟨⟨h.1.length, h.1.v⟩, h.2⟩⟩

/-- The store's library, over a runtime: by the low form. -/
def hostRecovery (X : Solana.Runtime) : Recovery where
  recover m raw := if hostEncoded raw then
      SolanaRelayer.recoveredAddress X.keccak256 (hostRecover X)
        (toEthSignedMessageHash X.keccak256 m) (BridgeSolana.lowForm raw)
    else none
  canonical raw := if hostEncoded raw then some (BridgeSolana.lowForm raw) else none

/-- A canonical form is one of the four, below the order. -/
theorem hostEncoded_of_canonical {c : Bytes} (h : BridgeSolana.Canonical c) :
    hostEncoded c = true := by
  refine hostEncoded_iff.mpr ⟨⟨h.length, ?_⟩, ?_⟩
  · rcases h.v with hv | hv
    · exact .inr (.inl hv)
    · exact .inr (.inr (.inr hv))
  · have hpos : 0 < BridgeSolana.order := by decide
    have hlow := h.low
    omega

theorem recover_of_canonical (X : Solana.Runtime) {m : Bytes32} {c : Bytes}
    (h : BridgeSolana.Canonical c) : (hostRecovery X).recover m c =
      SolanaRelayer.recoveredAddress X.keccak256 (hostRecover X)
        (toEthSignedMessageHash X.keccak256 m) c := by
  simp only [hostRecovery, hostEncoded_of_canonical h, if_true, BridgeSolana.lowForm_of_canonical h]

/-- What recovers has a low form, which recovers to the same signer. -/
theorem recover_lowForm (X : Solana.Runtime) {m : Bytes32} {raw : Bytes} {a : Address}
    (h : (hostRecovery X).recover m raw = some a) : hostEncoded raw = true ∧
      BridgeSolana.Canonical (BridgeSolana.lowForm raw) ∧
        (hostRecovery X).recover m (BridgeSolana.lowForm raw) = some a := by
  simp only [hostRecovery, Option.ite_none_right_eq_some] at h
  obtain ⟨henc, h⟩ := h
  obtain ⟨he, hs⟩ := hostEncoded_iff.mp henc
  have hc := BridgeSolana.canonical_lowForm he.length hs
  exact ⟨henc, hc, by rw [recover_of_canonical X hc, h]⟩

/-- A chain that recovers like the cluster. -/
def likeCluster : Chain Ledger :=
  { tableChain 1 0x9a with
    recover := SolanaRelayer.recoveredAddress Solana.Cluster.runtime.keccak256
      (hostRecover Solana.Cluster.runtime) }

theorem keeper_recovers : Keeper.Recovers likeCluster.keccak256 likeCluster.recover
    (hostRecovery Solana.Cluster.runtime) where
  canonical h := by
    obtain ⟨henc, hc, hsame⟩ := recover_lowForm _ h
    exact ⟨_, if_pos henc, hc, hsame⟩
  contract h := (recover_of_canonical Solana.Cluster.runtime h).symm

theorem relayer_recovers : SolanaRelayer.Recovers Solana.Cluster.runtime
    (hostRecover Solana.Cluster.runtime) (hostRecovery Solana.Cluster.runtime) where
  lowForm h _ := by
    obtain ⟨henc, hc, hsame⟩ := recover_lowForm _ h
    exact ⟨(hostEncoded_iff.mp henc).2, hsame⟩
  agree h := (recover_of_canonical Solana.Cluster.runtime h).symm
  syscall _ hlow := by
    have hpos : 0 < BridgeSolana.order := by decide
    rw [hostRecover, if_neg (by omega)]
  overflow hover := if_pos hover

/-- A row of junk, and one of a validator, with the other `s` and the other parity. -/
def rows : List SignerSig :=
  [⟨['j', 'u', 'n', 'k'], ['0', 'x', 'f', 'f']⟩,
   ⟨hexText (addressBytes Gate.validator₁), hexText (signatureBytes
      0xbc3361f376cd00b159850c1909d28908f7a093aa511721313418a25e88fc28da
      0xca9e39f12ea14a834484ddd23492d8bf972bbb57dc0e7f6c134fc7b5845b004d 27)⟩]

/-- The record's id. -/
def rowsId : Text := hexText (wordBytes refundMessage)

/-- A config of one validator. -/
def oneSeat : Solana.Config where
  owner := 0
  bridgeDomain := 0
  guardian := 0
  validators := [Gate.validator₁]
  threshold := 1
  chainId := 1
  paused := false
  maxValidators := 1
  maxCorridors := 1
  nonceTo := []
  isSealed := true
  setupDeadline := 0

/-- **Both arrays are accepted**, though the row is in an encoding that neither gate reads. -/
theorem arrays_accepted_rows :
    (∃ out, Keeper.sortedSignatures Parsers.standard (hostRecovery Solana.Cluster.runtime)
        (Keeper.memberSignatures likeCluster.keccak256 Parsers.standard
          (hostRecovery Solana.Cluster.runtime)
          (fun a => some ((Gate.started Gate.noTokens).gate.isValidator a)) (fun _ => none)
          (Gate.started Gate.noTokens).gate.validatorCount.toNat rowsId .transfer rows) = some out ∧
      Gate.verifySignatures likeCluster (Gate.started Gate.noTokens).gate refundMessage out =
        .ok ()) ∧
    Solana.verifyThreshold Solana.Cluster.runtime oneSeat refundMessage
      (SolanaRelayer.orderedSignatures Solana.Cluster.runtime.keccak256
        (hostRecover Solana.Cluster.runtime) refundMessage
        (SolanaRelayer.rawSignatures Parsers.standard rows) oneSeat) = .ok () := by
  have hid : Parsers.standard.b256 rowsId = some refundMessage :=
    Parsers.standard_lawful.b256_iff.mpr (by rw [rowsId, stripHexPrefix_hexText, lower_hexEncode])
  obtain ⟨hkeeper, hrelayer⟩ := arrays_accepted Parsers.standard_lawful keeper_recovers
    relayer_recovers .transfer hid rows
  have hgenuine : GenuineRow digestOf Parsers.standard (hostRecovery Solana.Cluster.runtime)
      refundMessage .transfer rows Gate.validator₁ := by
    refine ⟨_, List.mem_cons_of_mem _ List.mem_cons_self, by decide +kernel, _,
      (hexBytes_eq_ok Parsers.standard_lawful).mpr
        (by rw [stripHexPrefix_hexText, lower_hexEncode]), by decide +kernel, by decide +kernel⟩
  have hquorum : ∀ members, Gate.validator₁ ∈ members → HoldsQuorum digestOf Parsers.standard
      (hostRecovery Solana.Cluster.runtime) refundMessage .transfer rows members 1 :=
    fun members hmem => ⟨[Gate.validator₁], List.pairwise_singleton _ _, le_refl 1, fun a ha =>
      List.mem_singleton.mp ha ▸ ⟨hmem, hgenuine⟩⟩
  obtain ⟨members, hm⟩ := Gate.seated_of_run (E := likeCluster)
    (Gate.initial_started Gate.noTokens) .nil
  obtain ⟨out, -, hout, -, -, -, haccepted⟩ := hkeeper _ members _ (fun _ => none) hm.toMembers
    ⟨fun _ => rfl, fun _ _ h => by cases h⟩
  obtain ⟨-, -, -, -, -, haccepted'⟩ := hrelayer oneSeat (by decide)
  exact ⟨⟨out, hout, haccepted (hquorum members ((hm.mem_iff _).mpr (by decide +kernel)))⟩,
    haccepted' (hquorum _ (List.mem_singleton.mpr rfl))⟩

end SelendraBridge
