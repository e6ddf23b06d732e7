import SelendraBridge.Digest
import SelendraBridge.Gate.Ids
import SelendraBridge.Solana.EncodeParams
import SelendraBridge.Store.Record

/-!
# Four implementations of one id

An id is computed in four places: by the contracts, by the validators
(`SelendraBridge.BridgeCore`), by the program, and by the library that the relayers link
(`SelendraBridge.BridgeSolana`). They take the same fields in different types.

| field | contracts, validators | program | library |
|---|---|---|---|
| chain ids, nonce | words of 256 bits | 64 bits | 64 bits |
| amount | 256 bits | 64 bits | a word, from 128 bits |
| fee | 256 bits | 128 bits | a word |
| flags | 256 bits | 64 bits | a word |

On what fits the narrowest of them, which is what the parameters of the program spell
(`SelendraBridge.Solana.IdParams`), all four hash the same string
(`SelendraBridge.same_ids`), whatever the receiver. The contract asks for a receiver of 20 or
32 bytes, and reads the payload from its encoding.
-/

namespace SelendraBridge

/-! ### The validators -/

namespace BridgeCore

section Hashes

variable (keccak256 : Bytes → Bytes32)

/-- `submission_id`. -/
def submissionId (bridgeDomain debridgeId : Bytes32) (bridgeDecimals : UInt8)
    (amount chainIdFrom chainIdTo nonce : U256) (receiver : Bytes) : Bytes32 :=
  keccak256 (packedSubmission bridgeDomain debridgeId bridgeDecimals amount chainIdFrom chainIdTo
    nonce receiver)

/-- `submission_id_with_auto`. -/
def submissionIdWithAuto (bridgeDomain debridgeId : Bytes32) (bridgeDecimals : UInt8)
    (amount chainIdFrom chainIdTo nonce : U256) (receiver : Bytes) (auto : AutoParams) : Bytes32 :=
  keccak256 (packedSubmission bridgeDomain debridgeId bridgeDecimals amount chainIdFrom chainIdTo
    nonce receiver ++ packedAuto keccak256 auto)

end Hashes

/-- `CANCEL_PREFIX`. -/
def CANCEL_PREFIX : U64 := 2

/-- `REFUND_PREFIX`. -/
def REFUND_PREFIX : U64 := 3

/-- The string that `domain_id` hashes. -/
def packedDomain (tag : U64) (submissionId : Bytes32) : Bytes :=
  let packed : Bytes := []
  let packed := packed ++ wordBytes (tag.setWidth 256)
  packed ++ wordBytes submissionId

/-- `cancel_id`. -/
def cancelId (keccak256 : Bytes → Bytes32) (submissionId : Bytes32) : Bytes32 :=
  keccak256 (packedDomain CANCEL_PREFIX submissionId)

/-- `refund_id`. -/
def refundId (keccak256 : Bytes → Bytes32) (submissionId : Bytes32) : Bytes32 :=
  keccak256 (packedDomain REFUND_PREFIX submissionId)

end BridgeCore

/-! ### The library of the relayers -/

namespace BridgeSolana

open Solana (be32)

/-- `AutoParams`, with its numbers as words. -/
structure AutoParams where
  executionFee : Bytes
  flags : Bytes
  fallbackAddress : Bytes
  data : Bytes
  nativeSender : Bytes
  deriving DecidableEq, Repr

/-- `SUBMISSION_PREFIX`. -/
def SUBMISSION_PREFIX : U64 := 1

/-- `CANCEL_PREFIX`. -/
def CANCEL_PREFIX : U64 := 2

/-- `REFUND_PREFIX`. -/
def REFUND_PREFIX : U64 := 3

/-- `amount_word`. -/
def amountWord (amount : BitVec 128) : Bytes := List.replicate 16 0 ++ BigEndian.ofWord 16 amount

/-- `packed_submission`. -/
def packedSubmission (bridgeDomain debridgeId : Bytes32) (bridgeDecimals : UInt8) (amount : Bytes)
    (chainIdFrom chainIdTo nonce : U64) (receiver : Bytes) : Bytes :=
  let p : Bytes := []
  let p := p ++ be32 SUBMISSION_PREFIX
  let p := p ++ wordBytes bridgeDomain
  let p := p ++ wordBytes debridgeId
  let p := p ++ be32 chainIdFrom
  let p := p ++ be32 chainIdTo
  let p := p ++ [bridgeDecimals]
  let p := p ++ amount
  let p := p ++ receiver
  p ++ be32 nonce

/-- What a payload appends to it. -/
def packedAuto (keccak256 : Bytes → Bytes32) (auto : AutoParams) : Bytes :=
  let p := auto.executionFee
  let p := p ++ auto.flags
  let p := p ++ wordBytes (keccak256 auto.fallbackAddress)
  let p := p ++ wordBytes (keccak256 auto.data)
  p ++ wordBytes (keccak256 auto.nativeSender)

/-- `submission_id`. -/
def submissionId (keccak256 : Bytes → Bytes32) (bridgeDomain debridgeId : Bytes32)
    (bridgeDecimals : UInt8) (amount : Bytes) (chainIdFrom chainIdTo nonce : U64)
    (receiver : Bytes) : Bytes32 :=
  keccak256 (packedSubmission bridgeDomain debridgeId bridgeDecimals amount chainIdFrom chainIdTo
    nonce receiver)

/-- `submission_id_with_auto`. -/
def submissionIdWithAuto (keccak256 : Bytes → Bytes32) (bridgeDomain debridgeId : Bytes32)
    (bridgeDecimals : UInt8) (amount : Bytes) (chainIdFrom chainIdTo nonce : U64)
    (receiver : Bytes) (auto : AutoParams) : Bytes32 :=
  keccak256 (packedSubmission bridgeDomain debridgeId bridgeDecimals amount chainIdFrom chainIdTo
    nonce receiver ++ packedAuto keccak256 auto)

/-- `wire_to_auto`. -/
def wireToAuto (w : Solana.AutoParamsWire) (nativeSender : Bytes) : AutoParams where
  executionFee := List.replicate 16 0 ++ BigEndian.ofWord 16 w.executionFee
  flags := List.replicate 24 0 ++ BigEndian.ofWord 8 w.flags
  fallbackAddress := w.fallbackAddress
  data := w.data
  nativeSender := nativeSender

/-- The string that `domain_id` hashes. -/
def packedDomain (tag : U64) (submissionId : Bytes32) : Bytes := be32 tag ++ wordBytes submissionId

/-- `domain_id`. -/
def domainId (keccak256 : Bytes → Bytes32) (tag : U64) (submissionId : Bytes32) : Bytes32 :=
  keccak256 (packedDomain tag submissionId)

end BridgeSolana

/-! ### The four strings of one transfer -/

namespace Solana

/-- A payload, widened. -/
def AutoParamsWire.widened (w : AutoParamsWire) (nativeSender : Bytes) : AutoParams where
  executionFee := w.executionFee.setWidth 256
  flags := w.flags.setWidth 256
  fallbackAddress := w.fallbackAddress
  data := w.data
  nativeSender := nativeSender

namespace IdParams

variable (keccak256 : Bytes → Bytes32) (bridgeDomain : Bytes32) (p : IdParams)

/-- The parameters, widened for the contract, with the encoding of the payload. -/
def widened (autoParams : Bytes) : Gate.IdParams where
  debridgeId := p.debridgeId
  bridgeDecimals := p.bridgeDecimals
  amount := p.amount.setWidth 256
  chainIdFrom := p.chainIdFrom.setWidth 256
  chainIdTo := p.chainIdTo.setWidth 256
  nonce := p.nonce.setWidth 256
  receiver := p.receiver
  autoParams
  nativeSender := p.nativeSender

/-- The bytes encode the payload of the parameters: nothing, if there is none. -/
def EncodedBy (autoParams : Bytes) : Prop :=
  match p.auto with
  | none => autoParams = []
  | some w => autoParams ≠ [] ∧ Abi.decodeAutoParamsTo autoParams = some w.decoded

/-- The relayer's encoding of a payload is one of them. -/
theorem encodedBy_encode {p : IdParams} {w : AutoParamsWire} (hauto : p.auto = some w)
    (hlen : (encodeEvmAutoParams w).length < 2 ^ 64) : p.EncodedBy (encodeEvmAutoParams w) := by
  rw [EncodedBy, hauto]
  exact ⟨encodeEvmAutoParams_ne_nil w, decodeAutoParamsTo_encode w hlen⟩

/-- The base that the contracts hash. -/
def contractBase : Bytes :=
  BridgeHash.packedSubmission bridgeDomain p.debridgeId p.bridgeDecimals (p.amount.setWidth 256)
    (p.chainIdFrom.setWidth 256) (p.chainIdTo.setWidth 256) (p.nonce.setWidth 256) p.receiver

/-- The base that the validators hash. -/
def coreBase : Bytes :=
  BridgeCore.packedSubmission bridgeDomain p.debridgeId p.bridgeDecimals (p.amount.setWidth 256)
    (p.chainIdFrom.setWidth 256) (p.chainIdTo.setWidth 256) (p.nonce.setWidth 256) p.receiver

/-- The base that the relayers hash. -/
def relayerBase : Bytes :=
  BridgeSolana.packedSubmission bridgeDomain p.debridgeId p.bridgeDecimals
    (BridgeSolana.amountWord (p.amount.setWidth 128)) p.chainIdFrom p.chainIdTo p.nonce p.receiver

/-- **The string that the contracts hash.** -/
def contractString : Bytes :=
  match p.auto with
  | none => p.contractBase bridgeDomain
  | some w =>
    p.contractBase bridgeDomain ++ BridgeHash.packedAuto keccak256 (w.widened p.nativeSender)

/-- **The string that the validators hash.** -/
def coreString : Bytes :=
  match p.auto with
  | none => p.coreBase bridgeDomain
  | some w => p.coreBase bridgeDomain ++ BridgeCore.packedAuto keccak256 (w.widened p.nativeSender)

/-- **The string that the relayers hash.** -/
def relayerString : Bytes :=
  match p.auto with
  | none => p.relayerBase bridgeDomain
  | some w => p.relayerBase bridgeDomain ++
      BridgeSolana.packedAuto keccak256 (BridgeSolana.wireToAuto w p.nativeSender)

/-- The id of the contracts' library. -/
def contractId : Bytes32 :=
  match p.auto with
  | none => BridgeHash.getSubmissionId keccak256 bridgeDomain p.debridgeId p.bridgeDecimals
      (p.amount.setWidth 256) (p.chainIdFrom.setWidth 256) (p.chainIdTo.setWidth 256)
      (p.nonce.setWidth 256) p.receiver
  | some w => BridgeHash.getSubmissionIdWithAuto keccak256 bridgeDomain p.debridgeId
      p.bridgeDecimals (p.amount.setWidth 256) (p.chainIdFrom.setWidth 256)
      (p.chainIdTo.setWidth 256) (p.nonce.setWidth 256) p.receiver (w.widened p.nativeSender)

/-- The id of the validators. -/
def coreId : Bytes32 :=
  match p.auto with
  | none => BridgeCore.submissionId keccak256 bridgeDomain p.debridgeId p.bridgeDecimals
      (p.amount.setWidth 256) (p.chainIdFrom.setWidth 256) (p.chainIdTo.setWidth 256)
      (p.nonce.setWidth 256) p.receiver
  | some w => BridgeCore.submissionIdWithAuto keccak256 bridgeDomain p.debridgeId p.bridgeDecimals
      (p.amount.setWidth 256) (p.chainIdFrom.setWidth 256) (p.chainIdTo.setWidth 256)
      (p.nonce.setWidth 256) p.receiver (w.widened p.nativeSender)

/-- The id of the relayers. -/
def relayerId : Bytes32 :=
  match p.auto with
  | none => BridgeSolana.submissionId keccak256 bridgeDomain p.debridgeId p.bridgeDecimals
      (BridgeSolana.amountWord (p.amount.setWidth 128)) p.chainIdFrom p.chainIdTo p.nonce p.receiver
  | some w => BridgeSolana.submissionIdWithAuto keccak256 bridgeDomain p.debridgeId
      p.bridgeDecimals (BridgeSolana.amountWord (p.amount.setWidth 128)) p.chainIdFrom p.chainIdTo
      p.nonce p.receiver (BridgeSolana.wireToAuto w p.nativeSender)

end IdParams

/-! ### They agree -/

/-- A word that is written with more of its zeros. -/
theorem amountWord_setWidth (v : U64) :
    BridgeSolana.amountWord (v.setWidth 128) = amountWord v := by
  have hv : (v.setWidth 128).toNat = v.toNat := BitVec.toNat_setWidth_of_le (by omega)
  have hword := feeWord_eq (v.setWidth 128)
  have hwide : (v.setWidth 128).setWidth 256 = v.setWidth 256 :=
    BitVec.eq_of_toNat_eq (by
      rw [BitVec.toNat_setWidth_of_le (by omega), hv, BitVec.toNat_setWidth_of_le (by omega)])
  rw [amountWord_eq, ← hwide, ← hword]
  rfl

variable (keccak256 : Bytes → Bytes32) (bridgeDomain : Bytes32) (p : IdParams)

/-- The contracts and the program hash one string. -/
theorem contractString_eq :
    p.contractString keccak256 bridgeDomain = submissionPreimage keccak256 bridgeDomain p := by
  have hfront : be32 SUBMISSION_PREFIX = wordBytes BridgeHash.SUBMISSION_PREFIX := be32_eq 1
  rw [submissionPreimage, IdParams.contractString, IdParams.contractBase,
    BridgeHash.packedSubmission, hfront]
  simp only [be32_eq, amountWord_eq, feeWord_eq]
  rcases p.auto with _ | w
  · rfl
  · rfl

/-- The validators hash it too. -/
theorem coreString_eq :
    p.coreString keccak256 bridgeDomain = p.contractString keccak256 bridgeDomain := by
  rw [IdParams.coreString, IdParams.contractString, IdParams.coreBase,
    BridgeCore.packedSubmission_eq, ← IdParams.contractBase]
  simp only [BridgeCore.packedAuto_eq]

/-- And so do the relayers. -/
theorem relayerString_eq : p.relayerString keccak256 bridgeDomain =
    submissionPreimage keccak256 bridgeDomain p := by
  have hfront : be32 BridgeSolana.SUBMISSION_PREFIX = be32 SUBMISSION_PREFIX := rfl
  rw [submissionPreimage, IdParams.relayerString, IdParams.relayerBase,
    BridgeSolana.packedSubmission, amountWord_setWidth, hfront]
  rcases p.auto with _ | w
  · simp only [List.nil_append, List.append_assoc]
  · simp only [List.nil_append, List.append_assoc, BridgeSolana.packedAuto,
      BridgeSolana.wireToAuto, feeWord, be32]

/-- The contract computes the id that its library does, from any encoding of the payload. -/
theorem idFor_widened {autoParams : Bytes} (h : p.EncodedBy autoParams)
    (hreceiver : p.receiver.length = 20 ∨ p.receiver.length = 32) :
    Gate.idFor keccak256 bridgeDomain (p.widened autoParams) =
      .ok (p.contractId keccak256 bridgeDomain) := by
  have hguard : ¬((p.widened autoParams).receiver.length ≠ 20 ∧
      (p.widened autoParams).receiver.length ≠ 32) := by
    show ¬(p.receiver.length ≠ 20 ∧ p.receiver.length ≠ 32)
    omega
  rw [Gate.idFor, Revert.revertIf_bind, if_neg hguard, IdParams.contractId]
  rw [IdParams.EncodedBy] at h
  rcases hauto : p.auto with _ | w
  · rw [hauto] at h
    subst h
    rfl
  · rw [hauto] at h
    obtain ⟨hne, hdecode⟩ := h
    have hlen : ¬(p.widened autoParams).autoParams.length = 0 := fun hzero =>
      hne (List.length_eq_zero_iff.mp hzero)
    have hdecode' : Abi.decodeAutoParamsTo (p.widened autoParams).autoParams = some w.decoded :=
      hdecode
    rw [if_neg hlen, hdecode']
    rfl

/-- The submission behind an encoded payload is spelled by the string of the library. -/
theorem idPreimage_widened {autoParams : Bytes} (h : p.EncodedBy autoParams)
    (hreceiver : p.receiver.length = 20 ∨ p.receiver.length = 32) :
    Gate.idPreimage keccak256 bridgeDomain (p.widened autoParams) =
      some (p.contractString keccak256 bridgeDomain) := by
  have hlen : (p.widened autoParams).receiver.length = 20 ∨
      (p.widened autoParams).receiver.length = 32 := hreceiver
  rw [Gate.idPreimage, Gate.IdParams.submission, dif_pos hlen, Option.map_map,
    Option.map_eq_some_iff, IdParams.contractString]
  rw [IdParams.EncodedBy] at h
  rcases hauto : p.auto with _ | w
  · rw [hauto] at h
    subst h
    exact ⟨none, rfl, List.append_nil _⟩
  · rw [hauto] at h
    obtain ⟨hne, hdecode⟩ := h
    have hpos : ¬(p.widened autoParams).autoParams.length = 0 := fun hzero =>
      hne (List.length_eq_zero_iff.mp hzero)
    have hdecode' : Abi.decodeAutoParamsTo (p.widened autoParams).autoParams = some w.decoded :=
      hdecode
    refine ⟨some ((w.widened p.nativeSender).payload keccak256), ?_, ?_⟩
    · rw [Gate.IdParams.payload, if_neg hpos, hdecode']
      rfl
    · simp only [Function.comp_apply, Submission.preimage, Submission.packedAuto_eq]
      rfl

end Solana

open Solana in
/-- **The four implementations agree.** For all parameters of the common domain the contracts,
the validators, the program and the relayers hash one string, and have one id for it; the
contract computes it from any encoding of the payload; and the strings of the cancel and the
refund digests are the same. -/
theorem same_ids (keccak256 : Bytes → Bytes32) (bridgeDomain : Bytes32) (p : IdParams)
    (hreceiver : p.receiver.length = 20 ∨ p.receiver.length = 32) :
    (p.contractString keccak256 bridgeDomain = submissionPreimage keccak256 bridgeDomain p ∧
      p.coreString keccak256 bridgeDomain = submissionPreimage keccak256 bridgeDomain p ∧
      p.relayerString keccak256 bridgeDomain = submissionPreimage keccak256 bridgeDomain p) ∧
    (p.contractId keccak256 bridgeDomain = submissionId keccak256 bridgeDomain p ∧
      p.coreId keccak256 bridgeDomain = submissionId keccak256 bridgeDomain p ∧
      p.relayerId keccak256 bridgeDomain = submissionId keccak256 bridgeDomain p) ∧
    (∀ autoParams, p.EncodedBy autoParams →
      Gate.idFor keccak256 bridgeDomain (p.widened autoParams) =
          .ok (submissionId keccak256 bridgeDomain p) ∧
        Gate.idPreimage keccak256 bridgeDomain (p.widened autoParams) =
          some (submissionPreimage keccak256 bridgeDomain p)) ∧
    ∀ id : Bytes32,
      (BridgeHash.packedCancel id = be32 CANCEL_PREFIX ++ wordBytes id ∧
        BridgeCore.packedDomain BridgeCore.CANCEL_PREFIX id = BridgeHash.packedCancel id ∧
        BridgeSolana.packedDomain BridgeSolana.CANCEL_PREFIX id = BridgeHash.packedCancel id) ∧
      (BridgeHash.packedRefund id = be32 REFUND_PREFIX ++ wordBytes id ∧
        BridgeCore.packedDomain BridgeCore.REFUND_PREFIX id = BridgeHash.packedRefund id ∧
        BridgeSolana.packedDomain BridgeSolana.REFUND_PREFIX id = BridgeHash.packedRefund id) ∧
      (BridgeHash.getCancelId keccak256 id = cancelId keccak256 id ∧
        BridgeCore.cancelId keccak256 id = cancelId keccak256 id ∧
        BridgeSolana.domainId keccak256 BridgeSolana.CANCEL_PREFIX id = cancelId keccak256 id) ∧
      BridgeHash.getRefundId keccak256 id = refundId keccak256 id ∧
        BridgeCore.refundId keccak256 id = refundId keccak256 id ∧
        BridgeSolana.domainId keccak256 BridgeSolana.REFUND_PREFIX id = refundId keccak256 id := by
  have hcontract := contractString_eq keccak256 bridgeDomain p
  have hcore := (coreString_eq keccak256 bridgeDomain p).trans hcontract
  have hrelayer := relayerString_eq keccak256 bridgeDomain p
  -- Each id is the hash of its string.
  have hcontractId : p.contractId keccak256 bridgeDomain =
      keccak256 (p.contractString keccak256 bridgeDomain) := by
    rw [IdParams.contractId, IdParams.contractString]
    rcases p.auto with _ | w <;> rfl
  have hcoreId : p.coreId keccak256 bridgeDomain =
      keccak256 (p.coreString keccak256 bridgeDomain) := by
    rw [IdParams.coreId, IdParams.coreString]
    rcases p.auto with _ | w <;> rfl
  have hrelayerId : p.relayerId keccak256 bridgeDomain =
      keccak256 (p.relayerString keccak256 bridgeDomain) := by
    rw [IdParams.relayerId, IdParams.relayerString]
    rcases p.auto with _ | w <;> rfl
  rw [hcontract] at hcontractId
  rw [hcore] at hcoreId
  rw [hrelayer] at hrelayerId
  refine ⟨⟨hcontract, hcore, hrelayer⟩, ⟨hcontractId, hcoreId, hrelayerId⟩, ?_, ?_⟩
  · intro autoParams hencoded
    have hid := idFor_widened keccak256 bridgeDomain p hencoded hreceiver
    have hstring := idPreimage_widened keccak256 bridgeDomain p hencoded hreceiver
    rw [hcontractId] at hid
    rw [hcontract] at hstring
    exact ⟨hid, hstring⟩
  · intro id
    have hcancel : be32 CANCEL_PREFIX = wordBytes BridgeHash.CANCEL_PREFIX := be32_eq 2
    have hrefund : be32 REFUND_PREFIX = wordBytes BridgeHash.REFUND_PREFIX := be32_eq 3
    have hcancel' : BridgeSolana.packedDomain BridgeSolana.CANCEL_PREFIX id =
        BridgeHash.packedCancel id := congrArg (· ++ wordBytes id) hcancel
    have hrefund' : BridgeSolana.packedDomain BridgeSolana.REFUND_PREFIX id =
        BridgeHash.packedRefund id := congrArg (· ++ wordBytes id) hrefund
    refine ⟨⟨by rw [hcancel]; rfl, rfl, hcancel'⟩, ⟨by rw [hrefund]; rfl, rfl, hrefund'⟩,
      ⟨(cancelId_eq keccak256 id).symm, (cancelId_eq keccak256 id).symm, rfl⟩,
      (refundId_eq keccak256 id).symm, (refundId_eq keccak256 id).symm, rfl⟩

/-- A transfer with a payload, for a receiver of 20 bytes. -/
def withPayload : Solana.IdParams where
  debridgeId := 0xd1
  bridgeDecimals := 6
  amount := 1000000
  chainIdFrom := 7565164
  chainIdTo := 1
  nonce := 3
  receiver := addressBytes 0xbb
  auto := some
    { executionFee := 5, flags := 6, fallbackAddress := addressBytes 0xcc, data := [1, 2] }
  nativeSender := addressBytes 0xdd

/-- The contract computes the program's id for it, and the validators hash the same string. -/
theorem same_ids_withPayload :
    (∃ autoParams, Gate.idFor digestOf 0xd0 (withPayload.widened autoParams) =
      .ok (Solana.submissionId digestOf 0xd0 withPayload)) ∧
    withPayload.coreString digestOf 0xd0 = Solana.submissionPreimage digestOf 0xd0 withPayload := by
  have h := same_ids digestOf 0xd0 withPayload (.inl rfl)
  have hencoded := Solana.IdParams.encodedBy_encode (p := withPayload) rfl
    (by rw [Solana.length_encodeEvmAutoParams, Solana.length_padded, Solana.length_padded]; decide)
  exact ⟨⟨_, (h.2.2.1 _ hencoded).1⟩, h.1.2.1⟩

end SelendraBridge
