import SelendraBridge.Solana.HostGate
import SelendraBridge.Submit.Arrays
import SelendraBridge.Submit.SameSigner

/-!
# Three verifiers of one quorum

Signatures of validators are verified in three places: by the contract, by the program, and by the
library of the relayers, of which it is said that it mirrors the contract byte for byte. All three
walk the array in the same way (`Tally.tally`), but not all refuse the same arrays before they do:

| | the contract | the program | the library |
|:--|:--|:--|:--|
| more signatures than validators | refuses | refuses | walks them |
| a high `s` | `ECDSA.recover` refuses | the system call refuses | recovers the signer |
| another length, another `v` | refuses | refuses | refuses |
| signers that do not ascend from zero | refuses | refuses | refuses |

So the library accepts all that the other two accept, and the other two agree
(`SelendraBridge.Verifiers.accepts_program_iff`, `SelendraBridge.Verifiers.accepts_gate_iff`). What the library accepts
besides is an array with too many signatures, or with an `s` that is not low
(`SelendraBridge.Verifiers.agree_iff`).
-/

namespace SelendraBridge

namespace Verifiers

open BridgeSolana Revert

/-- The call goes through. -/
def Accepts {ε α : Type} (x : Except ε α) : Prop := ∃ a, x = .ok a

/-- Both numbers of a signature are there, and below the order. -/
def InRange (rs : Bytes) : Prop :=
  (0 < wordAt rs 0 ∧ wordAt rs 0 < order) ∧ 0 < wordAt rs 32 ∧ wordAt rs 32 < order

/-- The second number is the lower one. -/
def Low (rs : Bytes) : Prop := wordAt rs 32 ≤ order / 2

/-- What `ECDSA.recover` and the system call recover from: `65` bytes, with `27` or `28` behind two
numbers in range, the second one low. -/
def Strict (sig : Bytes) : Prop :=
  sig.length = 65 ∧ (sig.getD 64 0 = 27 ∨ sig.getD 64 0 = 28) ∧ InRange sig ∧ Low sig

instance (rs : Bytes) : Decidable (InRange rs) := by
  unfold InRange
  infer_instance

instance (rs : Bytes) : Decidable (Low rs) := by
  unfold Low
  infer_instance

instance (sig : Bytes) : Decidable (Strict sig) := by
  unfold Strict
  infer_instance

variable {σ : Type} {keccak256 : Bytes → Bytes32}
  {recover : Bytes32 → UInt8 → Bytes → Option Bytes} {R : Solana.Runtime} {E : Chain σ}

/-- **Libraries that recover alike**: the one of the relayers does not mind which of `s` and
`n - s` it gets, the system call and `ECDSA.recover` do; where none of them refuses, they find the
same signer. (`ECDSA.recover` refuses the address zero; nothing is said of that one.) -/
structure Alike (keccak256 : Bytes → Bytes32) (recover : Bytes32 → UInt8 → Bytes → Option Bytes)
    (R : Solana.Runtime) (E : Chain σ) : Prop where
  programHash : R.keccak256 = keccak256
  gateHash : E.keccak256 = keccak256
  range : ∀ {digest recid rs}, rs.length = 64 → ¬InRange rs → recover digest recid rs = none
  program_none : ∀ {digest recid rs}, rs.length = 64 → ¬(InRange rs ∧ Low rs) →
    R.secp256k1Recover digest recid rs = none
  program_eq : ∀ {digest recid rs}, rs.length = 64 → recid = 0 ∨ recid = 1 → InRange rs →
    Low rs → R.secp256k1Recover digest recid rs = recover digest recid rs
  gate_none : ∀ {digest sig}, ¬Strict sig → E.recover digest sig = none
  gate_iff : ∀ {digest sig a}, Strict sig → a ≠ 0 → (E.recover digest sig = some a ↔
    ∃ pubkey, recover digest (sig.getD 64 0 - 27) (sig.take 64) = some pubkey ∧
      (keccak256 pubkey).setWidth 160 = a)

/-- **The same validators, and the same threshold**, between one and the number of them. -/
structure SameQuorum (validators : List Address) (isValidator : Address → Bool)
    (threshold : BitVec 32) (cfg : Solana.Config) (g : Gate) : Prop extends
    Gate.Seated g validators where
  host : ∀ v, isValidator v = true ↔ v ∈ validators
  hostThreshold : threshold.toNat = g.threshold.toNat
  program : cfg.validators.Perm validators
  programThreshold : cfg.threshold.toNat = g.threshold.toNat

/-! ### One signature -/

variable {digest id : Bytes32} {sig : Bytes} {signatures : List Bytes} {a : Address}

/-- What the library recovers from. -/
theorem recoverEvmAddress_eq_ok : recoverEvmAddress keccak256 recover digest sig = .ok a ↔
    sig.length = 65 ∧ (sig.getD 64 0 = 27 ∨ sig.getD 64 0 = 28) ∧
      ∃ pubkey, recover digest (sig.getD 64 0 - 27) (sig.take 64) = some pubkey ∧
        (keccak256 pubkey).setWidth 160 = a := by
  rw [recoverEvmAddress]
  dsimp only
  generalize sig.getD 64 0 = v
  by_cases hlen : sig.length = 65
  · by_cases hv : v = 27 ∨ v = 28
    · rw [if_neg (not_not.mpr hlen), if_neg (by tauto)]
      rcases recover digest (v - 27) (sig.take 64) with _ | pubkey <;> simp [hlen, hv]
    · rw [if_neg (not_not.mpr hlen), if_pos (by tauto)]
      simp [hv]
  · rw [if_pos hlen]
    simp [hlen]

/-- The numbers are in the first 64 bytes. -/
theorem inRange_take : InRange (sig.take 64) ↔ InRange sig := by
  obtain ⟨h0, h32⟩ := wordAt_take sig
  rw [InRange, InRange, h0, h32]

theorem low_take : Low (sig.take 64) ↔ Low sig := by
  rw [Low, Low, (wordAt_take sig).2]

/-- The library recovers nothing from numbers out of range. -/
theorem Alike.inRange (h : Alike keccak256 recover R E) (hlen : sig.length = 65) {recid : UInt8}
    {pubkey : Bytes} (hrec : recover digest recid (sig.take 64) = some pubkey) : InRange sig := by
  have htake : (sig.take 64).length = 64 := by
    rw [List.length_take, hlen]
    rfl
  by_contra hrange
  rw [h.range htake (inRange_take.not.mpr hrange)] at hrec
  cases hrec

/-- **What the program recovers is what the library does**, if the `s` is low. -/
theorem Alike.program_eq_ok (h : Alike keccak256 recover R E) :
    Solana.recoverEvmAddress R digest sig = .ok a ↔
      recoverEvmAddress keccak256 recover digest sig = .ok a ∧ Low sig := by
  simp only [Solana.recoverEvmAddress, bind_eq_ok, exists_unit, Solana.check_eq_ok,
    orRevert_eq_ok, pure_eq_ok, recoverEvmAddress_eq_ok, h.programHash]
  constructor
  · rintro ⟨hlen, hv, pubkey, hrec, ha⟩
    have htake : (sig.take 64).length = 64 := by
      rw [List.length_take, hlen]
      rfl
    have hstrict : InRange (sig.take 64) ∧ Low (sig.take 64) := by
      by_contra hnot
      rw [h.program_none htake hnot] at hrec
      cases hrec
    have hrecid : sig.getD 64 0 - 27 = 0 ∨ sig.getD 64 0 - 27 = 1 :=
      hv.imp (fun hv => by rw [hv]; rfl) fun hv => by rw [hv]; rfl
    rw [h.program_eq htake hrecid hstrict.1 hstrict.2] at hrec
    exact ⟨⟨hlen, hv, pubkey, hrec, ha⟩, low_take.mp hstrict.2⟩
  · rintro ⟨⟨hlen, hv, pubkey, hrec, ha⟩, hlow⟩
    have htake : (sig.take 64).length = 64 := by
      rw [List.length_take, hlen]
      rfl
    have hrecid : sig.getD 64 0 - 27 = 0 ∨ sig.getD 64 0 - 27 = 1 :=
      hv.imp (fun hv => by rw [hv]; rfl) fun hv => by rw [hv]; rfl
    have hrange := inRange_take.mpr (h.inRange hlen hrec)
    refine ⟨hlen, hv, pubkey, ?_, ha⟩
    rw [h.program_eq htake hrecid hrange (low_take.mpr hlow), hrec]

/-- **So is what the contract recovers.** -/
theorem Alike.gate_eq_some (h : Alike keccak256 recover R E) (ha : a ≠ 0) :
    E.recover digest sig = some a ↔
      recoverEvmAddress keccak256 recover digest sig = .ok a ∧ Low sig := by
  rw [recoverEvmAddress_eq_ok]
  constructor
  · intro hrec
    have hstrict : Strict sig := by
      by_contra hnot
      rw [h.gate_none hnot] at hrec
      cases hrec
    have hkey := (h.gate_iff hstrict ha).mp hrec
    obtain ⟨hlen, hv, -, hlow⟩ := hstrict
    exact ⟨⟨hlen, hv, hkey⟩, hlow⟩
  · rintro ⟨⟨hlen, hv, pubkey, hrec, hkey⟩, hlow⟩
    exact (h.gate_iff ⟨hlen, hv, h.inRange hlen hrec, hlow⟩ ha).mpr ⟨pubkey, hrec, hkey⟩

/-! ### The whole array -/

/-- The signer that the library recovers. -/
def signerOf (keccak256 : Bytes → Bytes32) (recover : Bytes32 → UInt8 → Bytes → Option Bytes)
    (id : Bytes32) (sig : Bytes) : Except VerifyError Address :=
  recoverEvmAddress keccak256 recover (ethSignedDigest keccak256 id) sig

/-- The loop of `verify_threshold` is the tally of the signers. -/
theorem countSigners_eq_tally {isValidator : Address → Bool} (signatures : List Bytes)
    (last : Address) (count : ℕ) :
    countSigners keccak256 recover isValidator (ethSignedDigest keccak256 id) signatures last
        count =
      Tally.tally (signerOf keccak256 recover id) .invalidSignerOrder isValidator signatures last
        count := by
  induction signatures generalizing last count with
  | nil => rfl
  | cons sig signatures ih =>
    rw [countSigners, Tally.tally, signerOf]
    rcases recoverEvmAddress keccak256 recover (ethSignedDigest keccak256 id) sig with e | signer
    · rfl
    · rw [ok_bind, revertIf_bind]
      simp only [ih]

/-- **A quorum in order**: signers that ascend from zero, with enough members among them. -/
def InOrder {ε : Type} (name : Bytes → Except ε Address) (isMember : Address → Bool)
    (threshold : ℕ) (signatures : List Bytes) : Prop :=
  ∃ signers, Tally.Names name signatures signers ∧ (0 :: signers).Pairwise (· < ·) ∧
    threshold ≤ signers.countP isMember

/-- It is what the loop goes through with. -/
theorem inOrder_iff {ε : Type} {name : Bytes → Except ε Address} {isMember : Address → Bool}
    {threshold : ℕ} (unordered : ε) : InOrder name isMember threshold signatures ↔
      ∃ count, Tally.tally name unordered isMember signatures 0 0 = .ok count ∧
        threshold ≤ count := by
  simp only [InOrder, Tally.tally_eq_ok, Nat.zero_add]
  constructor
  · rintro ⟨signers, hnames, hsorted, henough⟩
    exact ⟨_, ⟨signers, hnames, hsorted, rfl⟩, henough⟩
  · rintro ⟨_, ⟨signers, hnames, hsorted, rfl⟩, henough⟩
    exact ⟨signers, hnames, hsorted, henough⟩

variable {validators : List Address} {isValidator : Address → Bool} {threshold : BitVec 32}
  {cfg : Solana.Config} {g : Gate}

/-- The library accepts a quorum in order. -/
theorem accepts_host_iff : Accepts (verifyThreshold keccak256 recover id signatures isValidator
    threshold) ↔
      InOrder (signerOf keccak256 recover id) isValidator threshold.toNat signatures := by
  rw [verifyThreshold, countSigners_eq_tally, inOrder_iff .invalidSignerOrder]
  generalize Tally.tally (signerOf keccak256 recover id) .invalidSignerOrder isValidator signatures
    0 0 = x
  rcases x with e | count
  · simp [Accepts]
  · rcases lt_or_ge count threshold.toNat with hfew | henough
    · simp [Accepts, hfew]
    · simp [Accepts, henough, not_lt.mpr henough]

/-- The program accepts one that is not too long. -/
theorem accepts_program_iff : Accepts (Solana.verifyThreshold R cfg id signatures) ↔
    signatures.length ≤ cfg.validators.length ∧
      InOrder (Solana.signerOf R id) cfg.isValidator cfg.threshold.toNat signatures := by
  rw [inOrder_iff (Solana.ProgramError.custom .invalidSignerOrder)]
  simp only [Accepts, exists_unit, Solana.verifyThreshold, bind_eq_ok, Solana.check_eq_ok,
    Solana.countSigners_eq_tally, not_lt, gt_iff_lt]

/-- And so does the contract. -/
theorem accepts_gate_iff : Accepts (Gate.verifySignatures E g id signatures) ↔
    signatures.length ≤ g.validatorCount.toNat ∧
      InOrder (Gate.signerOf E id) g.isValidator g.threshold.toNat signatures := by
  rw [inOrder_iff Gate.Error.invalidSignerOrder]
  simp only [Accepts, exists_unit, Gate.verifySignatures, bind_eq_ok, revertIf_eq_ok,
    Gate.countSigners_eq_tally, not_lt, gt_iff_lt]

/-- Signers of signatures with a low `s`. -/
theorem names_low_iff {ε ε' : Type} {name : Bytes → Except ε Address}
    {strict : Bytes → Except ε' Address} {signers : List Address}
    (h : ∀ a ∈ signers, ∀ sig, strict sig = .ok a ↔ name sig = .ok a ∧ Low sig) :
    Tally.Names strict signatures signers ↔
      Tally.Names name signatures signers ∧ ∀ sig ∈ signatures, Low sig := by
  induction signatures generalizing signers with
  | nil => simp [Tally.Names]
  | cons sig signatures ih =>
    rw [Tally.Names, Tally.Names, List.forall₂_cons_left_iff, List.forall₂_cons_left_iff,
      List.forall_mem_cons]
    constructor
    · rintro ⟨a, rest, ha, hrest, rfl⟩
      obtain ⟨hfirst, hlater⟩ := List.forall_mem_cons.mp h
      obtain ⟨hname, hlow⟩ := (hfirst sig).mp ha
      obtain ⟨hnames, hall⟩ := (ih hlater).mp hrest
      exact ⟨⟨a, rest, hname, hnames, rfl⟩, hlow, hall⟩
    · rintro ⟨⟨a, rest, hname, hnames, rfl⟩, hlow, hall⟩
      obtain ⟨hfirst, hlater⟩ := List.forall_mem_cons.mp h
      exact ⟨a, rest, (hfirst sig).mpr ⟨hname, hlow⟩, (ih hlater).mpr ⟨hnames, hall⟩, rfl⟩

/-- Of those that are in order, none is the address zero. -/
theorem inOrder_low_iff {ε ε' : Type} {name : Bytes → Except ε Address}
    {strict : Bytes → Except ε' Address} {isMember : Address → Bool} {n : ℕ}
    (h : ∀ a ≠ 0, ∀ sig, strict sig = .ok a ↔ name sig = .ok a ∧ Low sig) :
    InOrder strict isMember n signatures ↔
      InOrder name isMember n signatures ∧ ∀ sig ∈ signatures, Low sig := by
  have hne : ∀ {signers : List Address}, (0 :: signers).Pairwise (· < ·) →
      ∀ a ∈ signers, a ≠ 0 := by
    rintro signers hsorted _ ha rfl
    exact BitVec.lt_irrefl 0 (List.rel_of_pairwise_cons hsorted ha)
  constructor
  · rintro ⟨signers, hnames, hsorted, henough⟩
    obtain ⟨hnames', hlow⟩ := (names_low_iff fun a ha => h a (hne hsorted a ha)).mp hnames
    exact ⟨⟨signers, hnames', hsorted, henough⟩, hlow⟩
  · rintro ⟨⟨signers, hnames, hsorted, henough⟩, hlow⟩
    have hnames' := (names_low_iff fun a ha => h a (hne hsorted a ha)).mpr ⟨hnames, hlow⟩
    exact ⟨signers, hnames', hsorted, henough⟩

/-- **What the program finds in order is what the library does**, if every `s` is low. -/
theorem Alike.inOrder_program (h : Alike keccak256 recover R E) {isMember : Address → Bool}
    {n : ℕ} : InOrder (Solana.signerOf R id) isMember n signatures ↔
      InOrder (signerOf keccak256 recover id) isMember n signatures ∧
        ∀ sig ∈ signatures, Low sig := by
  refine inOrder_low_iff fun a _ sig => ?_
  rw [Solana.signerOf, signerOf, h.program_eq_ok, Solana.ethSignedDigest, h.programHash,
    ethSignedDigest]

/-- **So is what the contract finds in order.** -/
theorem Alike.inOrder_gate (h : Alike keccak256 recover R E) {isMember : Address → Bool} {n : ℕ} :
    InOrder (Gate.signerOf E id) isMember n signatures ↔
      InOrder (signerOf keccak256 recover id) isMember n signatures ∧
        ∀ sig ∈ signatures, Low sig := by
  refine inOrder_low_iff fun a ha sig => ?_
  rw [Gate.signerOf, signerOf, orRevert_eq_ok, h.gate_eq_some ha, h.gateHash, ethSignedDigest]

/-! ### All three -/

/-- The three know the same validators. -/
theorem SameQuorum.isValidator_eq (hq : SameQuorum validators isValidator threshold cfg g) :
    cfg.isValidator = isValidator ∧ g.isValidator = isValidator := by
  constructor <;> funext v <;> rw [Bool.eq_iff_iff, hq.host]
  · rw [Solana.isValidator_iff, hq.program.mem_iff]
  · exact (hq.mem_iff v).symm

/-! ### A validator and a stranger -/

/-- The key of somebody who is not a validator. -/
def strangerKey : Bytes :=
  BigEndian.toBytes 32 0xc6047f9441ed7d6d3045406e95c07cd85c778e4b8cef3ca7abac09b95c709ee5 ++
    BigEndian.toBytes 32 0x1ae168fea63dc339a3c58419466ceaeef7f632653266d0e1236431a950cfe52a

/-- The hash, with that of the key. -/
def hash (bs : Bytes) : Bytes32 :=
  if bs = strangerKey then 0xeedf1a9c68b3f4a8b1a1032b2b5ad5c4795c026514f8317c7a215e218dccd6cf
  else digestOf bs

/-- The stranger's signature over the message. -/
def strangerSignature : Bytes :=
  signatureBytes 0x26a96bca9dbb3933548a14bc42d7797a07aa8c9d7893fadd7bc8aa138c337b80
    0x02ce0c8fc4137159de20d81ecf04613183861866c69b01e806ef2c29cdded956 28

/-- The validator's signature over it, with the high `s` and the other parity. -/
def highRefundSignature : Bytes :=
  signatureBytes 0xbc3361f376cd00b159850c1909d28908f7a093aa511721313418a25e88fc28da
    0xca9e39f12ea14a834484ddd23492d8bf972bbb57dc0e7f6c134fc7b5845b004d 27

/-- A library that recovers the keys of the two, from either `s`. -/
def keyOf (digest : Bytes32) (recid : UInt8) (rs : Bytes) : Option Bytes :=
  if InRange rs ∧ digest = toEthSignedMessageHash digestOf refundMessage then
    if lowForm (rs ++ [recid + 27]) = refundSignature then some baseKey
    else if lowForm (rs ++ [recid + 27]) = strangerSignature then some strangerKey
    else none
  else none

/-- A system call that recovers alike. -/
def strictRuntime : Solana.Runtime :=
  { Solana.Cluster.runtime with
    keccak256 := hash
    secp256k1Recover := fun digest recid rs =>
      if InRange rs ∧ Low rs then keyOf digest recid rs else none }

/-- A chain that recovers alike. -/
def strictChain : Chain Ledger :=
  { tableChain 1 0x9a with
    keccak256 := hash
    recover := fun digest sig =>
      if Strict sig then
        (keyOf digest (sig.getD 64 0 - 27) (sig.take 64)).map fun pubkey =>
          (hash pubkey).setWidth 160
      else none }

theorem alike_strict : Alike hash keyOf strictRuntime strictChain where
  programHash := rfl
  gateHash := rfl
  range _ hrange := if_neg fun h => hrange h.1
  program_none _ hnot := if_neg hnot
  program_eq _ _ hrange hlow := if_pos ⟨hrange, hlow⟩
  gate_none hnot := if_neg hnot
  gate_iff {digest sig a} hstrict _ := by
    have hrec : strictChain.recover digest sig =
        (keyOf digest (sig.getD 64 0 - 27) (sig.take 64)).map fun pubkey =>
          (hash pubkey).setWidth 160 := if_pos hstrict
    rw [hrec, Option.map_eq_some_iff]

/-- One validator, on all three. -/
theorem sameQuorum_one : SameQuorum [Gate.validator₁] (· == Gate.validator₁) 1 oneSeat
    (Gate.started Gate.noTokens).gate := by
  have hval : (Gate.started Gate.noTokens).gate.isValidator =
      Function.update (fun _ => false) Gate.validator₁ true := rfl
  refine ⟨⟨⟨List.nodup_singleton _, fun v => ?_, by decide, by decide +kernel⟩,
    by decide +kernel, by decide +kernel⟩, fun v => ?_, by decide +kernel, List.Perm.refl _, rfl⟩
  · rcases eq_or_ne v Gate.validator₁ with rfl | hne
    · simp [hval]
    · simp [hval, hne]
  · rw [beq_iff_eq, List.mem_singleton]

/-- **When the three agree**: all accept or all refuse exactly if, should the signers ascend from
zero with enough validators among them, there are no more signatures than validators and every `s`
is low. -/
theorem agree_iff (h : Alike keccak256 recover R E)
    (hq : SameQuorum validators isValidator threshold cfg g) (id : Bytes32)
    (signatures : List Bytes) :
    (Accepts (verifyThreshold keccak256 recover id signatures isValidator threshold) ∧
        Accepts (Solana.verifyThreshold R cfg id signatures) ∧
        Accepts (Gate.verifySignatures E g id signatures) ∨
      ¬Accepts (verifyThreshold keccak256 recover id signatures isValidator threshold) ∧
        ¬Accepts (Solana.verifyThreshold R cfg id signatures) ∧
        ¬Accepts (Gate.verifySignatures E g id signatures)) ↔
    ∀ signers, Tally.Names (signerOf keccak256 recover id) signatures signers →
      (0 :: signers).Pairwise (· < ·) → threshold.toNat ≤ signers.countP isValidator →
        signatures.length ≤ validators.length ∧ ∀ sig ∈ signatures, Low sig := by
  obtain ⟨hprogram, hgate⟩ := hq.isValidator_eq
  have hcondition : (∀ signers, Tally.Names (signerOf keccak256 recover id) signatures signers →
      (0 :: signers).Pairwise (· < ·) → threshold.toNat ≤ signers.countP isValidator →
        signatures.length ≤ validators.length ∧ ∀ sig ∈ signatures, Low sig) ↔
      (InOrder (signerOf keccak256 recover id) isValidator threshold.toNat signatures →
        signatures.length ≤ validators.length ∧ ∀ sig ∈ signatures, Low sig) := by
    constructor
    · rintro hall ⟨signers, hnames, hsorted, henough⟩
      exact hall signers hnames hsorted henough
    · intro hall signers hnames hsorted henough
      exact hall ⟨signers, hnames, hsorted, henough⟩
  rw [hcondition, accepts_host_iff, accepts_program_iff, accepts_gate_iff, hprogram, hgate,
    hq.programThreshold, ← hq.hostThreshold, hq.program.length_eq, hq.count, h.inOrder_program,
    h.inOrder_gate]
  tauto

/-- All three accept the validator's signature. -/
theorem agree_iff_one :
    Accepts (verifyThreshold hash keyOf refundMessage [refundSignature] (· == Gate.validator₁) 1) ∧
      Accepts (Solana.verifyThreshold strictRuntime oneSeat refundMessage [refundSignature]) ∧
      Accepts (Gate.verifySignatures strictChain (Gate.started Gate.noTokens).gate refundMessage
        [refundSignature]) := by
  have haccepted : verifyThreshold hash keyOf refundMessage [refundSignature]
      (· == Gate.validator₁) 1 = .ok 1 := by decide +kernel
  rcases (agree_iff alike_strict sameQuorum_one refundMessage [refundSignature]).mpr
    fun _ _ _ _ => ⟨le_refl 1, by decide +kernel⟩ with h | h
  · exact h
  · exact absurd ⟨1, haccepted⟩ h.1

/-- **The library accepts what the other two refuse**: the validator's signature with the high
`s`, and the validator's signature behind that of a stranger. -/
theorem not_agree : Alike hash keyOf strictRuntime strictChain ∧
    SameQuorum [Gate.validator₁] (· == Gate.validator₁) 1 oneSeat
      (Gate.started Gate.noTokens).gate ∧
    (verifyThreshold hash keyOf refundMessage [highRefundSignature] (· == Gate.validator₁) 1 =
        .ok 1 ∧
      Solana.verifyThreshold strictRuntime oneSeat refundMessage [highRefundSignature] =
        .error (.custom .badSignature) ∧
      Gate.verifySignatures strictChain (Gate.started Gate.noTokens).gate refundMessage
        [highRefundSignature] = .error .ecdsa) ∧
    verifyThreshold hash keyOf refundMessage [strangerSignature, refundSignature]
        (· == Gate.validator₁) 1 = .ok 1 ∧
      Solana.verifyThreshold strictRuntime oneSeat refundMessage
        [strangerSignature, refundSignature] = .error (.custom .tooManySignatures) ∧
      Gate.verifySignatures strictChain (Gate.started Gate.noTokens).gate refundMessage
        [strangerSignature, refundSignature] = .error (.tooManySignatures 2 1) := by
  refine ⟨alike_strict, sameQuorum_one, ⟨?_, ?_, ?_⟩, ?_, ?_, ?_⟩ <;> decide +kernel

end Verifiers

end SelendraBridge
