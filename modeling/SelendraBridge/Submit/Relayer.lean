import SelendraBridge.Lib.Roster
import SelendraBridge.SameIds
import SelendraBridge.Solana.Seats
import SelendraBridge.Store.Binding
import SelendraBridge.Store.Signatures
import SelendraBridge.Submit.LowS

/-!
# The array that the Solana relayer submits

The relayer does not look at the names on the rows. It re-encodes each signature, recovers
it, keeps those of the validators in the config, one for each, and of these as many as the
threshold, from the lowest address up (`SelendraBridge.SolanaRelayer.orderedSignatures`): an
instruction has to fit a packet.
-/

namespace SelendraBridge

namespace SolanaRelayer

open Revert Store
open Solana (Config Runtime)
open BridgeSolana (Canonical Encoded lowForm order)

section Pipeline

-- The hash, and `libsecp256k1::recover` of a digest, a recovery id and 64 bytes.
variable (keccak256 : Bytes → Bytes32) (recover : Bytes32 → UInt8 → Bytes → Option Bytes)

/-- `hex_bytes`. -/
def hexBytes (P : Parsers) (s : Text) : Option Bytes :=
  let s := stripHexPrefix s
  if s = [] then some [] else P.hexDecode s

/-- `RecoveryId::parse`, of what is left after subtracting 27, if anything is. -/
def parseRecoveryId (v : UInt8) : Option UInt8 :=
  if v < 27 then none else if v - 27 < 4 then some (v - 27) else none

/-- `recovered_address`. -/
def recoveredAddress (digest : Bytes32) (sig65 : Bytes) : Option Address :=
  if sig65.length ≠ 65 then none
  else do
    let v := sig65.getD 64 0
    let recid ← parseRecoveryId v
    let pubkey ← recover digest recid (sig65.take 64)
    return (keccak256 pubkey).setWidth 160

/-- A signature re-encoded, with its signer. -/
def withAddr (digest : Bytes32) (raw : Bytes) : Option (Address × Bytes) := do
  let s ← BridgeSolana.canonicalSignature raw
  let a ← recoveredAddress keccak256 recover digest s
  return (a, s)

/-- `ordered_signatures`. -/
def orderedSignatures (digestInput : Bytes32) (raw : List Bytes) (cfg : Config) : List Bytes :=
  let digest := toEthSignedMessageHash keccak256 digestInput
  let all := raw.filterMap (withAddr keccak256 recover digest)
  let all := all.filter fun a => cfg.isValidator a.1
  let all := Roster.sortByKey Prod.fst all
  let all := Roster.dedupByKey Prod.fst all
  let all := all.take (min cfg.threshold.toNat cfg.validators.length)
  all.map Prod.snd

/-- What a signature is over, as the relayer computes it. -/
def digestInput (kind : SigKind) (id : Bytes32) : Bytes32 :=
  match kind with
  | .transfer => id
  | .cancel => BridgeSolana.domainId keccak256 BridgeSolana.CANCEL_PREFIX id
  | .refund => BridgeSolana.domainId keccak256 BridgeSolana.REFUND_PREFIX id

/-- What the program verifies a quorum over. -/
def programMessage (kind : SigKind) (id : Bytes32) : Bytes32 :=
  match kind with
  | .transfer => id
  | .cancel => Solana.cancelId keccak256 id
  | .refund => Solana.refundId keccak256 id

/-- The raw signatures of the rows, without those that are not hexadecimal. -/
def rawSignatures (P : Parsers) (sigs : List SignerSig) : List Bytes :=
  sigs.filterMap fun s => hexBytes P s.signature

end Pipeline

/-! ### What is relied on -/

/-- **What the relayer relies on of its library**, over what the program's runtime recovers and
the store's library: a signature that recovers in one of the four encodings has its `s` below
the order, and the low form recovers to the same signer; of canonical forms the relayer recovers
the same signers; what is low, the runtime recovers to the same key; and what is not below the
order does not recover. -/
structure Recovers (X : Runtime) (recover : Bytes32 → UInt8 → Bytes → Option Bytes)
    (R : Recovery) : Prop where
  lowForm : ∀ {m raw a}, R.recover m raw = some a → Encoded raw →
    wordAt raw 32 < order ∧ R.recover m (lowForm raw) = some a
  agree : ∀ {m c}, Canonical c →
    recoveredAddress X.keccak256 recover (toEthSignedMessageHash X.keccak256 m) c = R.recover m c
  syscall : ∀ {digest recid rs}, recid < 2 → wordAt rs 32 ≤ order / 2 →
    X.secp256k1Recover digest recid rs = recover digest recid rs
  overflow : ∀ {digest recid rs}, order ≤ wordAt rs 32 → recover digest recid rs = none

variable {X : Runtime} {recover : Bytes32 → UInt8 → Bytes → Option Bytes} {R : Recovery}
  {P : Parsers}

/-- **A signature that the relayer recovered, the program recovers.** -/
theorem signerOf_of_withAddr (hR : Recovers X recover R) {m : Bytes32} {raw c : Bytes}
    {a : Address} (h : withAddr X.keccak256 recover (toEthSignedMessageHash X.keccak256 m) raw =
      some (a, c)) : Solana.signerOf X m c = .ok a := by
  simp only [withAddr, Option.bind_eq_bind, Option.bind_eq_some_iff, Option.pure_def,
    Option.some.injEq, Prod.mk.injEq] at h
  obtain ⟨s, hs, a', ha, rfl, rfl⟩ := h
  obtain ⟨hlen, hv, hlow⟩ := BridgeSolana.of_canonicalSignature hs
  simp only [recoveredAddress, hlen, ne_eq, not_true_eq_false, if_false, Option.bind_eq_bind,
    Option.bind_eq_some_iff, Option.pure_def, Option.some.injEq] at ha
  obtain ⟨recid, hrecid, pubkey, hpubkey, rfl⟩ := ha
  have hword : wordAt (s.take 64) 32 = wordAt s 32 := by
    rw [wordAt, wordAt, sliceAt, sliceAt, List.drop_take, List.take_take]
    rfl
  have hrecid' : recid = s.getD 64 0 - 27 ∧ recid < 2 := by
    rcases hv with hv | hv <;> rw [hv] at hrecid ⊢ <;>
      exact ⟨(Option.some.inj hrecid).symm, by rw [← Option.some.inj hrecid]; decide⟩
  rcases hlow with hlow | hover
  · have hsys : X.secp256k1Recover (toEthSignedMessageHash X.keccak256 m) recid (s.take 64) =
        recover (toEthSignedMessageHash X.keccak256 m) recid (s.take 64) :=
      hR.syscall hrecid'.2 (by rw [hword]; exact hlow)
    rw [hpubkey, hrecid'.1] at hsys
    simp only [Solana.signerOf, Solana.recoverEvmAddress, Solana.ethSignedDigest, bind_eq_ok,
      exists_unit, Solana.check_eq_ok, orRevert_eq_ok, pure_eq_ok]
    exact ⟨hlen, hv, pubkey, hsys, rfl⟩
  · have hnone : recover (toEthSignedMessageHash X.keccak256 m) recid (s.take 64) = none :=
      hR.overflow (by rw [hword]; exact hover)
    rw [hpubkey] at hnone
    cases hnone

/-- All three compute one digest. -/
theorem digestInput_eq (keccak256 : Bytes → Bytes32) (kind : SigKind) (id : Bytes32) :
    digestInput keccak256 kind id = kind.digest keccak256 id ∧
      programMessage keccak256 kind id = kind.digest keccak256 id := by
  cases kind with
  | transfer => exact ⟨rfl, rfl⟩
  | cancel => exact ⟨Solana.cancelId_eq keccak256 id, Solana.cancelId_eq keccak256 id⟩
  | refund => exact ⟨Solana.refundId_eq keccak256 id, Solana.refundId_eq keccak256 id⟩

/-- **A genuine signature in one of the four encodings is recovered** by the relayer. -/
theorem withAddr_of_recover (hR : Recovers X recover R) {m : Bytes32} {raw : Bytes} {a : Address}
    (h : R.recover m raw = some a) (henc : Encoded raw) :
    withAddr X.keccak256 recover (toEthSignedMessageHash X.keccak256 m) raw =
      some (a, lowForm raw) := by
  obtain ⟨hs, hlow⟩ := hR.lowForm h henc
  have hagree := hR.agree (m := m) (BridgeSolana.canonical_lowForm henc.length hs)
  rw [hlow] at hagree
  rw [withAddr, BridgeSolana.canonicalSignature_eq henc hs]
  simp only [Option.bind_eq_bind, Option.bind_some, hagree]
  rfl

/-- The relayer recovers an address from some of the signatures. -/
def Recovered (keccak256 : Bytes → Bytes32) (recover : Bytes32 → UInt8 → Bytes → Option Bytes)
    (m : Bytes32) (raw : List Bytes) (a : Address) : Prop :=
  ∃ s ∈ raw, ∃ c, withAddr keccak256 recover (toEthSignedMessageHash keccak256 m) s = some (a, c)

/-- **The array that the relayer builds**, of any signatures: it names, in ascending order, the
first of the validators that the relayer recovers, as many as the threshold. -/
theorem names_orderedSignatures (hR : Recovers X recover R) (m : Bytes32) (raw : List Bytes)
    (cfg : Config) : ∃ all : List Address, all.Pairwise (· < ·) ∧
      (∀ a, a ∈ all ↔ a ∈ cfg.validators ∧ Recovered X.keccak256 recover m raw a) ∧
      Tally.Names (Solana.signerOf X m) (orderedSignatures X.keccak256 recover m raw cfg)
        (all.take (min cfg.threshold.toNat cfg.validators.length)) := by
  generalize hd : toEthSignedMessageHash X.keccak256 m = digest
  generalize hfound : (raw.filterMap (withAddr X.keccak256 recover digest)).filter
    (fun a => cfg.isValidator a.1) = found
  have hsorted := Roster.sorted_sortByKey Prod.fst found
  have hperm := Roster.perm_sortByKey Prod.fst found
  generalize hkept : Roster.dedupByKey Prod.fst (Roster.sortByKey Prod.fst found) = kept
  have hsub : kept ⊆ Roster.sortByKey Prod.fst found := hkept ▸ Roster.subset_dedupByKey _ _
  have hmem : ∀ p, p ∈ found ↔ cfg.isValidator p.1 = true ∧
      ∃ s ∈ raw, withAddr X.keccak256 recover digest s = some p := fun p => by
    rw [← hfound, List.mem_filter, List.mem_filterMap, and_comm]
  refine ⟨kept.map Prod.fst, hkept ▸ Roster.ascending_dedupByKey hsorted, fun a => ?_, ?_⟩
  · rw [← hkept, Roster.mem_keys_dedupByKey, (hperm.map Prod.fst).mem_iff, List.mem_map,
      ← Solana.isValidator_iff, Recovered, hd]
    constructor
    · rintro ⟨p, hp, rfl⟩
      obtain ⟨hval, s, hs, h⟩ := (hmem p).mp hp
      exact ⟨hval, s, hs, p.2, h⟩
    · rintro ⟨hval, s, hs, c, h⟩
      exact ⟨(a, c), (hmem _).mpr ⟨hval, s, hs, h⟩, rfl⟩
  · have hnames : ∀ p ∈ kept.take (min cfg.threshold.toNat cfg.validators.length),
        Solana.signerOf X m p.2 = .ok p.1 := by
      intro p hp
      obtain ⟨-, s, -, h⟩ := (hmem p).mp (hperm.mem_iff.mp (hsub (List.mem_of_mem_take hp)))
      rw [← hd] at h
      exact signerOf_of_withAddr hR h
    rw [orderedSignatures, hd, hfound, hkept, ← List.map_take, Tally.Names,
      List.forall₂_map_left_iff, List.forall₂_map_right_iff, List.forall₂_same]
    exact hnames

/-- **What a quorum of names comes to**: the first of them, as many as the threshold, are as
many as the threshold. -/
theorem length_take {cfg : Config} {all : List Address} (hsorted : all.Pairwise (· < ·))
    (hmem : ∀ a ∈ all, a ∈ cfg.validators) (henough : cfg.threshold.toNat ≤ all.length) :
    cfg.threshold.toNat ≤
      (all.take (min cfg.threshold.toNat cfg.validators.length)).length := by
  have hlen := Tally.length_le hsorted hmem
  rw [List.length_take]
  omega

end SolanaRelayer

end SelendraBridge
