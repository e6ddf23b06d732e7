import SelendraBridge.BridgeHash
import SelendraBridge.Evm
import SelendraBridge.Solana.Frame

/-!
# Ids and quorums on Solana

The program hashes the same strings as the contracts, from narrower fields: amounts,
nonces and chain ids of 64 bits and a fee of 128, each widened into its word. Where the
receiver has at most 32 bytes there is a `SelendraBridge.Submission` behind the string
(`SelendraBridge.Solana.submissionPreimage_eq`), and so what an id binds is the same on
both machines.

Quorums are the same loop as on the other machine as well, over a list of validators.
-/

namespace SelendraBridge

namespace Solana

open Revert

/-- `AutoParamsWire`. -/
structure AutoParamsWire where
  executionFee : BitVec 128
  flags : U64
  fallbackAddress : Bytes
  data : Bytes
  deriving DecidableEq, Repr

/-- `be32`. -/
def be32 (v : U64) : Bytes := List.replicate 24 0 ++ BigEndian.ofWord 8 v

/-- `amount_word`. -/
def amountWord (v : U64) : Bytes := List.replicate 24 0 ++ BigEndian.ofWord 8 v

/-- The word of a fee. -/
def feeWord (v : BitVec 128) : Bytes := List.replicate 16 0 ++ BigEndian.ofWord 16 v

/-- `SUBMISSION_PREFIX`. -/
def SUBMISSION_PREFIX : U64 := 1

/-- `CANCEL_PREFIX`. -/
def CANCEL_PREFIX : U64 := 2

/-- `REFUND_PREFIX`. -/
def REFUND_PREFIX : U64 := 3

/-- What an id is computed from, apart from the domain. -/
structure IdParams where
  debridgeId : Bytes32
  bridgeDecimals : UInt8
  amount : U64
  chainIdFrom : U64
  chainIdTo : U64
  nonce : U64
  receiver : Bytes
  auto : Option AutoParamsWire
  nativeSender : Bytes
  deriving DecidableEq, Repr

section Ids

variable (keccak256 : Bytes → Bytes32)

/-- The string that `submission_id` hashes. -/
def submissionPreimage (bridgeDomain : Bytes32) (p : IdParams) : Bytes :=
  let base := be32 SUBMISSION_PREFIX ++ (wordBytes bridgeDomain ++ (wordBytes p.debridgeId ++
    (be32 p.chainIdFrom ++ (be32 p.chainIdTo ++ ([p.bridgeDecimals] ++ (amountWord p.amount ++
      (p.receiver ++ be32 p.nonce)))))))
  match p.auto with
  | none => base
  | some a => base ++ (feeWord a.executionFee ++ (be32 a.flags ++
      (wordBytes (keccak256 a.fallbackAddress) ++ (wordBytes (keccak256 a.data) ++
        wordBytes (keccak256 p.nativeSender)))))

/-- `submission_id`. -/
def submissionId (bridgeDomain : Bytes32) (p : IdParams) : Bytes32 :=
  keccak256 (submissionPreimage keccak256 bridgeDomain p)

/-- `cancel_id`. -/
def cancelId (submissionId : Bytes32) : Bytes32 :=
  keccak256 (be32 CANCEL_PREFIX ++ wordBytes submissionId)

/-- `refund_id`. -/
def refundId (submissionId : Bytes32) : Bytes32 :=
  keccak256 (be32 REFUND_PREFIX ++ wordBytes submissionId)

/-- The payload of the parameters, in the terms of both machines. -/
def IdParams.payload (p : IdParams) : Option Payload :=
  p.auto.map fun a =>
    { executionFee := a.executionFee.setWidth 256
      flags := a.flags.setWidth 256
      fallbackAddressHash := keccak256 a.fallbackAddress
      dataHash := keccak256 a.data
      nativeSenderHash := keccak256 p.nativeSender }

/-- **The submission behind the parameters.** -/
def IdParams.submission (bridgeDomain : Bytes32) (p : IdParams) (h : p.receiver.length ≤ 32) :
    Submission where
  bridgeDomain
  debridgeId := p.debridgeId
  bridgeDecimals := p.bridgeDecimals
  amount := p.amount.setWidth 256
  chainIdFrom := p.chainIdFrom.setWidth 256
  chainIdTo := p.chainIdTo.setWidth 256
  nonce := p.nonce.setWidth 256
  receiver := p.receiver
  payload := p.payload keccak256
  receiver_le := h

end Ids

theorem be32_eq (v : U64) : be32 v = wordBytes (v.setWidth 256) := by
  have hv : v.toNat < 256 ^ 8 := v.isLt
  rw [be32, wordBytes, BigEndian.ofWord, BigEndian.ofWord, BitVec.toNat_setWidth_of_le (by omega),
    BigEndian.toBytes_add 24 hv]

theorem amountWord_eq (v : U64) : amountWord v = wordBytes (v.setWidth 256) := be32_eq v

theorem feeWord_eq (v : BitVec 128) : feeWord v = wordBytes (v.setWidth 256) := by
  have hv : v.toNat < 256 ^ 16 := v.isLt
  rw [feeWord, wordBytes, BigEndian.ofWord, BigEndian.ofWord,
    BitVec.toNat_setWidth_of_le (by omega), BigEndian.toBytes_add 16 hv]

/-- **The string is the contracts' string** of the submission behind it. -/
theorem submissionPreimage_eq {keccak256 : Bytes → Bytes32} {bridgeDomain : Bytes32} {p : IdParams}
    (h : p.receiver.length ≤ 32) :
    submissionPreimage keccak256 bridgeDomain p =
      (p.submission keccak256 bridgeDomain h).preimage := by
  have hfront : be32 SUBMISSION_PREFIX = wordBytes BridgeHash.SUBMISSION_PREFIX := be32_eq 1
  rw [submissionPreimage, Submission.preimage, BridgeHash.packedSubmission, hfront]
  simp only [be32_eq, amountWord_eq, feeWord_eq, IdParams.submission, IdParams.payload]
  rcases p.auto with _ | a
  · simp
  · simp [Submission.payloadBytes]

/-- The string starts with the prefix of its kind, whatever the receiver. -/
theorem submissionPreimage_eq_prefix (keccak256 : Bytes → Bytes32) (bridgeDomain : Bytes32)
    (p : IdParams) : ∃ rest, submissionPreimage keccak256 bridgeDomain p =
      wordBytes BridgeHash.SUBMISSION_PREFIX ++ rest := by
  have hfront : be32 SUBMISSION_PREFIX = wordBytes BridgeHash.SUBMISSION_PREFIX := be32_eq 1
  rw [submissionPreimage, hfront]
  rcases p.auto with _ | a
  · exact ⟨_, rfl⟩
  · exact ⟨_, List.append_assoc ..⟩

/-- How long the string is, whatever the receiver. -/
theorem length_submissionPreimage (keccak256 : Bytes → Bytes32) (bridgeDomain : Bytes32)
    (p : IdParams) : (submissionPreimage keccak256 bridgeDomain p).length =
      225 + p.receiver.length + p.auto.elim 0 fun _ => 160 := by
  rcases ha : p.auto with _ | a
  · simp only [submissionPreimage, ha, be32_eq, amountWord_eq, List.length_append,
      length_wordBytes, List.length_singleton, Option.elim]
    omega
  · simp only [submissionPreimage, ha, be32_eq, amountWord_eq, feeWord_eq, List.length_append,
      length_wordBytes, List.length_singleton, Option.elim]
    omega

/-- Cancel and refund digests are the contracts'. -/
theorem cancelId_eq (keccak256 : Bytes → Bytes32) (id : Bytes32) :
    cancelId keccak256 id = BridgeHash.getCancelId keccak256 id := by
  rw [cancelId, be32_eq]
  rfl

theorem refundId_eq (keccak256 : Bytes → Bytes32) (id : Bytes32) :
    refundId keccak256 id = BridgeHash.getRefundId keccak256 id := by
  rw [refundId, be32_eq]
  rfl

/-! ### Quorums -/

variable (R : Runtime)

/-- `eth_signed_digest`. -/
def ethSignedDigest (id : Bytes32) : Bytes32 := toEthSignedMessageHash R.keccak256 id

/-- `recover_evm_address`. -/
def recoverEvmAddress (digest : Bytes32) (sig : Bytes) : Except ProgramError Address := do
  check (sig.length = 65) .badSignature
  let v := sig.getD 64 0
  check (v = 27 ∨ v = 28) .badSignature
  let pubkey ← orRevert (.custom .badSignature)
    (R.secp256k1Recover digest (v - 27) (sig.take 64))
  return (R.keccak256 pubkey).setWidth 160

/-- The loop of `verify_threshold`: how many validators signed, after `last`. -/
def countSigners (cfg : Config) (digest : Bytes32) : List Bytes → Address → ℕ →
    Except ProgramError ℕ
  | [], _, count => .ok count
  | sig :: signatures, last, count => do
    let signer ← recoverEvmAddress R digest sig
    check (¬signer ≤ last) .invalidSignerOrder
    countSigners cfg digest signatures signer (if cfg.isValidator signer then count + 1 else count)

/-- `verify_threshold`. -/
def verifyThreshold (cfg : Config) (id : Bytes32) (signatures : List Bytes) :
    Except ProgramError Unit := do
  check (¬signatures.length > cfg.validators.length) .tooManySignatures
  let digest := ethSignedDigest R id
  let count ← countSigners R cfg digest signatures 0 0
  check (¬count < cfg.threshold.toNat) .notEnoughSignatures

end Solana

end SelendraBridge
