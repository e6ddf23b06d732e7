import SelendraBridge.Abi

/-!
# The hashes validators sign

Every identifier is the `keccak256` of a packed byte string: the submission id of
a transfer, with or without an execution payload, and the cancel and refund
digests derived from it. The hash function is a parameter of everything here, and
what is proved is about the strings *before* hashing.

The layout of a submission is packed, so the receiver – the one dynamic field –
carries no length, and a payload is 160 more bytes at the end of the very same
string:

| piece | bytes |
|---|---|
| prefix, domain, debridge id, source chain, target chain | 5 × 32 |
| decimals | 1 |
| amount | 32 |
| receiver | its own length |
| nonce | 32 |
| fee, flags and three hashes, when there is a payload | 5 × 32 |

A receiver of 180 bytes without a payload therefore has the length of a receiver
of 20 bytes with one, and the two forms are told apart by nothing but a bound on
the receiver. `SelendraBridge.Submission.preimage_inj` is the statement that a
bound of 32 bytes – which all callers enforce, each in its own way – makes the
whole string injective.
-/

namespace SelendraBridge

/-- The execution payload as it enters an id: `nativeSender` rides along with what
the payload itself decodes to. -/
structure AutoParams where
  executionFee : U256
  flags : U256
  fallbackAddress : Bytes
  data : Bytes
  nativeSender : Bytes
  deriving DecidableEq, Repr

namespace BridgeHash

/-- The prefix of a submission id. -/
def SUBMISSION_PREFIX : U256 := 1

/-- The prefix of a cancel digest. -/
def CANCEL_PREFIX : U256 := 2

/-- The prefix of a refund digest. -/
def REFUND_PREFIX : U256 := 3

/-- The packed base of every submission id. -/
def packedSubmission (bridgeDomain debridgeId : Bytes32) (bridgeDecimals : UInt8)
    (amount chainIdFrom chainIdTo nonce : U256) (receiver : Bytes) : Bytes :=
  wordBytes SUBMISSION_PREFIX ++ (wordBytes bridgeDomain ++ (wordBytes debridgeId ++
    (wordBytes chainIdFrom ++ (wordBytes chainIdTo ++ ([bridgeDecimals] ++ (wordBytes amount ++
      (receiver ++ wordBytes nonce)))))))

/-- What is appended to it for a transfer with an execution payload. -/
def packedAuto (keccak256 : Bytes → Bytes32) (autoParams : AutoParams) : Bytes :=
  wordBytes autoParams.executionFee ++ (wordBytes autoParams.flags ++
    (wordBytes (keccak256 autoParams.fallbackAddress) ++
      (wordBytes (keccak256 autoParams.data) ++ wordBytes (keccak256 autoParams.nativeSender))))

/-- The string a cancel digest hashes. -/
def packedCancel (submissionId : Bytes32) : Bytes :=
  wordBytes CANCEL_PREFIX ++ wordBytes submissionId

/-- The string a refund digest hashes. -/
def packedRefund (submissionId : Bytes32) : Bytes :=
  wordBytes REFUND_PREFIX ++ wordBytes submissionId

/-- The string the id of an asset hashes: its native chain and its address there. -/
def packedDebridgeId (nativeChainId : U256) (nativeToken : Address) : Bytes :=
  wordBytes nativeChainId ++ addressBytes nativeToken

section Hashes

variable (keccak256 : Bytes → Bytes32)

/-- The id of an asset. -/
def getDebridgeId (nativeChainId : U256) (nativeToken : Address) : Bytes32 :=
  keccak256 (packedDebridgeId nativeChainId nativeToken)

/-- The id of a transfer without an execution payload. -/
def getSubmissionId (bridgeDomain debridgeId : Bytes32) (bridgeDecimals : UInt8)
    (amount chainIdFrom chainIdTo nonce : U256) (receiver : Bytes) : Bytes32 :=
  keccak256 (packedSubmission bridgeDomain debridgeId bridgeDecimals amount chainIdFrom chainIdTo
    nonce receiver)

/-- The id of a transfer with an execution payload. -/
def getSubmissionIdWithAuto (bridgeDomain debridgeId : Bytes32) (bridgeDecimals : UInt8)
    (amount chainIdFrom chainIdTo nonce : U256) (receiver : Bytes) (autoParams : AutoParams) :
    Bytes32 :=
  keccak256 (packedSubmission bridgeDomain debridgeId bridgeDecimals amount chainIdFrom chainIdTo
    nonce receiver ++ packedAuto keccak256 autoParams)

/-- The digest that authorises burning a transfer on its target chain. -/
def getCancelId (submissionId : Bytes32) : Bytes32 := keccak256 (packedCancel submissionId)

/-- The digest that authorises returning a transfer on its source chain. -/
def getRefundId (submissionId : Bytes32) : Bytes32 := keccak256 (packedRefund submissionId)

end Hashes

theorem length_packedSubmission (bridgeDomain debridgeId : Bytes32) (bridgeDecimals : UInt8)
    (amount chainIdFrom chainIdTo nonce : U256) (receiver : Bytes) :
    (packedSubmission bridgeDomain debridgeId bridgeDecimals amount chainIdFrom chainIdTo nonce
      receiver).length = 225 + receiver.length := by
  simp only [packedSubmission, List.length_append, length_wordBytes, List.length_singleton]
  omega

@[simp] theorem length_packedAuto (keccak256 : Bytes → Bytes32) (autoParams : AutoParams) :
    (packedAuto keccak256 autoParams).length = 160 := by
  simp [packedAuto]

@[simp] theorem length_packedCancel (id : Bytes32) : (packedCancel id).length = 64 := by
  simp [packedCancel]

@[simp] theorem length_packedRefund (id : Bytes32) : (packedRefund id).length = 64 := by
  simp [packedRefund]

/-- The string of an asset names its token. -/
theorem packedDebridgeId_inj {chain chain' : U256} {token token' : Address} :
    packedDebridgeId chain token = packedDebridgeId chain' token' ↔
      chain = chain' ∧ token = token' := by
  rw [packedDebridgeId, packedDebridgeId, wordBytes_append_inj, addressBytes_inj]

/-- A cancel string names its id, and is no refund string. -/
theorem packedCancel_inj {i j : Bytes32} : packedCancel i = packedCancel j ↔ i = j := by
  simp [packedCancel]

theorem packedRefund_inj {i j : Bytes32} : packedRefund i = packedRefund j ↔ i = j := by
  simp [packedRefund]

theorem packedCancel_ne_packedRefund (i j : Bytes32) : packedCancel i ≠ packedRefund j := by
  intro h
  have hp := (wordBytes_append_inj.mp h).1
  exact absurd hp (by decide)

end BridgeHash

/-! ### What an id binds -/

/-- What the payload of a transfer contributes to its id. -/
structure Payload where
  executionFee : U256
  flags : U256
  fallbackAddressHash : Bytes32
  dataHash : Bytes32
  nativeSenderHash : Bytes32
  deriving DecidableEq, Repr

/-- The hashes of a payload's dynamic members. -/
def AutoParams.payload (keccak256 : Bytes → Bytes32) (ap : AutoParams) : Payload where
  executionFee := ap.executionFee
  flags := ap.flags
  fallbackAddressHash := keccak256 ap.fallbackAddress
  dataHash := keccak256 ap.data
  nativeSenderHash := keccak256 ap.nativeSender

/-- **What an id is about**: the values a packed string spells, as values. The
bound on the receiver is part of it, so that the string determines them. -/
structure Submission where
  bridgeDomain : Bytes32
  debridgeId : Bytes32
  bridgeDecimals : UInt8
  amount : U256
  chainIdFrom : U256
  chainIdTo : U256
  nonce : U256
  receiver : Bytes
  payload : Option Payload
  /-- What every caller of the hash enforces, one way or another. -/
  receiver_le : receiver.length ≤ 32
  deriving DecidableEq

namespace Submission

/-- The five words of a payload. -/
def payloadBytes (p : Payload) : Bytes :=
  wordBytes p.executionFee ++ (wordBytes p.flags ++ (wordBytes p.fallbackAddressHash ++
    (wordBytes p.dataHash ++ wordBytes p.nativeSenderHash)))

/-- The byte string whose hash is the id. -/
def preimage (s : Submission) : Bytes :=
  BridgeHash.packedSubmission s.bridgeDomain s.debridgeId s.bridgeDecimals s.amount s.chainIdFrom
    s.chainIdTo s.nonce s.receiver ++ (s.payload.elim [] payloadBytes)

theorem packedAuto_eq (keccak256 : Bytes → Bytes32) (ap : AutoParams) :
    BridgeHash.packedAuto keccak256 ap = payloadBytes (ap.payload keccak256) := rfl

@[simp] theorem length_payloadBytes (p : Payload) : (payloadBytes p).length = 160 := by
  simp [payloadBytes]

theorem payloadBytes_inj {p q : Payload} (h : payloadBytes p = payloadBytes q) : p = q := by
  obtain ⟨p₁, p₂, p₃, p₄, p₅⟩ := p
  obtain ⟨q₁, q₂, q₃, q₄, q₅⟩ := q
  simp only [payloadBytes, wordBytes_append_inj, wordBytes_inj] at h
  obtain ⟨rfl, rfl, rfl, rfl, rfl⟩ := h
  rfl

theorem length_preimage (s : Submission) :
    s.preimage.length = 225 + s.receiver.length + s.payload.elim 0 fun _ => 160 := by
  rw [preimage, List.length_append, BridgeHash.length_packedSubmission]
  cases s.payload <;> simp

/-- Every string starts with the prefix of its kind. -/
theorem preimage_eq_prefix (s : Submission) :
    ∃ rest, s.preimage = wordBytes BridgeHash.SUBMISSION_PREFIX ++ rest := by
  rw [preimage, BridgeHash.packedSubmission, List.append_assoc]
  exact ⟨_, rfl⟩

/-- With receivers of at most 32 bytes the length alone says whether there is a
payload, and then how long the receiver is. -/
theorem length_receiver_eq {s t : Submission} (h : s.preimage = t.preimage) :
    s.receiver.length = t.receiver.length ∧ s.payload.isSome = t.payload.isSome := by
  have hlen := congrArg List.length h
  rw [length_preimage, length_preimage] at hlen
  have hs := s.receiver_le
  have ht := t.receiver_le
  cases hp : s.payload <;> cases hq : t.payload <;>
    simp only [hp, hq, Option.elim, Option.isSome, reduceCtorEq, and_true, and_false] at hlen ⊢ <;>
    omega

/-- **The string determines the submission**: with receivers of at most 32 bytes
two submissions share a string only if they are the same. -/
theorem preimage_inj {s t : Submission} (h : s.preimage = t.preimage) : s = t := by
  obtain ⟨hrec, hpay⟩ := length_receiver_eq h
  obtain ⟨dom, deb, dec, amt, cf, ct, n, r, pl, hr⟩ := s
  obtain ⟨dom', deb', dec', amt', cf', ct', n', r', pl', hr'⟩ := t
  obtain ⟨hbase, htail⟩ :=
    List.append_inj h (by simp only [BridgeHash.length_packedSubmission, hrec])
  simp only [BridgeHash.packedSubmission, wordBytes_append_inj, List.cons_append,
    List.nil_append, List.cons.injEq, true_and] at hbase
  obtain ⟨rfl, rfl, rfl, rfl, rfl, rfl, htl⟩ := hbase
  obtain ⟨rfl, hn⟩ := List.append_inj htl hrec
  obtain rfl := wordBytes_inj.mp hn
  have hpl : pl = pl' := by
    rcases pl with _ | p <;> rcases pl' with _ | q
    · rfl
    · simp at hpay
    · simp at hpay
    · rw [payloadBytes_inj htail]
  subst hpl
  rfl

/-- A submission is never the string of a cancel or refund digest: those have 64
bytes. -/
theorem preimage_ne_packedCancel (s : Submission) (id : Bytes32) :
    s.preimage ≠ BridgeHash.packedCancel id := by
  intro h
  have hlen := congrArg List.length h
  rw [length_preimage, BridgeHash.length_packedCancel] at hlen
  omega

theorem preimage_ne_packedRefund (s : Submission) (id : Bytes32) :
    s.preimage ≠ BridgeHash.packedRefund id := by
  intro h
  have hlen := congrArg List.length h
  rw [length_preimage, BridgeHash.length_packedRefund] at hlen
  omega

end Submission

end SelendraBridge
