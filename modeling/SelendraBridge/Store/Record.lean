import SelendraBridge.BridgeHash
import SelendraBridge.Lib.Revert
import SelendraBridge.Text

/-!
# Stored records and the id they are bound to

A record of the signature store describes a transfer in text, and names it by its
submission id. What keeps the two together is that the store recomputes the id from
the text (`SelendraBridge.Store.canonicalSubmissionId`) before it accepts the record.

The parsers – hexadecimal, fixed-width hashes, decimal numbers, the ABI decoder – are
library code outside the repository, and are a parameter here
(`SelendraBridge.Store.Parsers`). What the store relies on is `Parsers.Lawful`:
hexadecimal parsing is the inverse of hexadecimal printing up to the case of the
digits and an optional `0x`, and a printed number is read back. Nothing is assumed
about which *other* texts a number parser accepts, nor about the ABI decoder.
-/

namespace SelendraBridge

namespace BridgeCore

/-! ### The hashes, on the off-chain side -/

/-- The packed base of a submission id, piece by piece as it is assembled. -/
def packedSubmission (bridgeDomain debridgeId : Bytes32) (bridgeDecimals : UInt8)
    (amount chainIdFrom chainIdTo nonce : U256) (receiver : Bytes) : Bytes :=
  let packed : Bytes := []
  let packed := packed ++ wordBytes BridgeHash.SUBMISSION_PREFIX
  let packed := packed ++ wordBytes bridgeDomain
  let packed := packed ++ wordBytes debridgeId
  let packed := packed ++ wordBytes chainIdFrom
  let packed := packed ++ wordBytes chainIdTo
  let packed := packed ++ [bridgeDecimals]
  let packed := packed ++ wordBytes amount
  let packed := packed ++ receiver
  packed ++ wordBytes nonce

/-- **The two sides pack the same string.** -/
theorem packedSubmission_eq (bridgeDomain debridgeId : Bytes32) (bridgeDecimals : UInt8)
    (amount chainIdFrom chainIdTo nonce : U256) (receiver : Bytes) :
    packedSubmission bridgeDomain debridgeId bridgeDecimals amount chainIdFrom chainIdTo nonce
        receiver =
      BridgeHash.packedSubmission bridgeDomain debridgeId bridgeDecimals amount chainIdFrom
        chainIdTo nonce receiver := by
  simp only [packedSubmission, BridgeHash.packedSubmission, List.nil_append, List.append_assoc]

/-- What a payload appends to it. -/
def packedAuto (keccak256 : Bytes → Bytes32) (auto : AutoParams) : Bytes :=
  let packed := wordBytes auto.executionFee
  let packed := packed ++ wordBytes auto.flags
  let packed := packed ++ wordBytes (keccak256 auto.fallbackAddress)
  let packed := packed ++ wordBytes (keccak256 auto.data)
  packed ++ wordBytes (keccak256 auto.nativeSender)

theorem packedAuto_eq (keccak256 : Bytes → Bytes32) (auto : AutoParams) :
    packedAuto keccak256 auto = BridgeHash.packedAuto keccak256 auto := by
  simp only [packedAuto, BridgeHash.packedAuto, List.append_assoc]

/-- The id of an asset. -/
def debridgeId (keccak256 : Bytes → Bytes32) (nativeChainId : U256) (nativeToken : Address) :
    Bytes32 :=
  keccak256 (wordBytes nativeChainId ++ addressBytes nativeToken)

end BridgeCore

namespace Store

open Revert

/-! ### Records -/

/-- A stored record: a transfer in text, without the signatures collected for it. -/
structure SubmissionRecord where
  submissionId : Text
  bridgeDomain : Text
  debridgeId : Text
  amount : Text
  bridgeDecimals : Option UInt8
  chainIdFrom : U64
  chainIdTo : U64
  nonce : U64
  receiver : Text
  autoParams : Text
  nativeSender : Text
  token : Text
  deriving DecidableEq, Repr

/-- Why a record is refused. -/
inductive StoreError
  | badField (field : String)
  | idMismatch (claimed computed : Text)
  | paramsConflict (submissionId : Text)
  | badSignature
  | signerMismatch (claimed recovered : Text)
  | tokenMismatch (token debridgeId : Text) (chainId : U64)
  | tooManySignatures (kind : String)
  deriving DecidableEq, Repr

/-- The event a gate emits for a transfer, as the store's writers read it. -/
structure SentEvent where
  submissionId : Bytes32
  debridgeId : Bytes32
  amount : U256
  bridgeDecimals : UInt8
  chainIdFrom : U256
  chainIdTo : U256
  receiver : Bytes
  nonce : U256
  autoParams : Bytes
  nativeSender : Bytes
  token : Address
  deriving DecidableEq, Repr

/-- A number that fits 64 bits. -/
def u64OfU256 (n : U256) : Option U64 :=
  if n.toNat < 2 ^ 64 then some (n.setWidth 64) else none

/-- `(chainIdFrom, chainIdTo, nonce)` as 64-bit numbers, when all three fit. -/
def sentEventU64s (ev : SentEvent) : Option (U64 × U64 × U64) := do
  let chainFrom ← u64OfU256 ev.chainIdFrom
  let chainTo ← u64OfU256 ev.chainIdTo
  let nonce ← u64OfU256 ev.nonce
  return (chainFrom, chainTo, nonce)

/-- The record an honest component writes for an event. -/
def fromSentEvent (ev : SentEvent) (bridgeDomain : Bytes32) : Option SubmissionRecord := do
  let (chainIdFrom, chainIdTo, nonce) ← sentEventU64s ev
  return {
    submissionId := hexText (wordBytes ev.submissionId)
    bridgeDomain := hexText (wordBytes bridgeDomain)
    debridgeId := hexText (wordBytes ev.debridgeId)
    amount := decimalText ev.amount.toNat
    bridgeDecimals := some ev.bridgeDecimals
    chainIdFrom
    chainIdTo
    nonce
    receiver := hexText ev.receiver
    autoParams := hexText ev.autoParams
    nativeSender := hexText ev.nativeSender
    token := hexText (addressBytes ev.token) }

/-- **Whether two records carry the same parameters**: text compared as text, the
hexadecimal fields up to case. -/
def sameParams (a b : SubmissionRecord) : Bool :=
  eqIgnoreCase a.submissionId b.submissionId &&
    eqIgnoreCase a.debridgeId b.debridgeId &&
    a.amount == b.amount &&
    a.chainIdFrom == b.chainIdFrom &&
    a.chainIdTo == b.chainIdTo &&
    a.nonce == b.nonce &&
    eqIgnoreCase a.receiver b.receiver &&
    eqIgnoreCase a.autoParams b.autoParams &&
    eqIgnoreCase a.nativeSender b.nativeSender

/-! ### The write checks -/

/-- An optional `0x` and 64 hexadecimal digits. -/
def isValidSubmissionId (s : Text) : Bool :=
  (stripHexPrefix s).length == 64 && (stripHexPrefix s).all isHexDigit

/-- `receiver` and `native_sender`, in bytes. -/
def MAX_ACCOUNT_BYTES : ℕ := 32

/-- `auto_params`, in bytes. -/
def MAX_AUTO_PARAMS_BYTES : ℕ := 32 * 1024

/-- The digits of the largest `uint256`. -/
def MAX_UINT256_DECIMAL_LEN : ℕ := 78

/-- At most `maxBytes` bytes of hexadecimal. -/
def boundedHex (field : String) (s : Text) (maxBytes : ℕ) : Except StoreError Unit :=
  revertIf ((stripHexPrefix s).length > 2 * maxBytes) (.badField field)

/-- The size bounds of the store. -/
def checkStorable (r : SubmissionRecord) : Except StoreError Unit := do
  boundedHex "receiver" r.receiver MAX_ACCOUNT_BYTES
  boundedHex "native_sender" r.nativeSender MAX_ACCOUNT_BYTES
  boundedHex "auto_params" r.autoParams MAX_AUTO_PARAMS_BYTES
  boundedHex "bridge_domain" r.bridgeDomain 32
  boundedHex "debridge_id" r.debridgeId 32
  boundedHex "token" r.token 20
  revertIf (r.amount.length > MAX_UINT256_DECIMAL_LEN) (.badField "amount")

/-- The parsers of the libraries the store is built on. -/
structure Parsers where
  /-- `hex::decode`. -/
  hexDecode : Text → Option Bytes
  /-- `B256::from_str`. -/
  b256 : Text → Option Bytes32
  /-- `U256::from_str`. -/
  u256 : Text → Option U256
  /-- `Address::from_str`. -/
  address : Text → Option Address
  /-- `AutoParamsTo::abi_decode`. -/
  abiDecode : Bytes → Option AutoParamsTo

/-- **What the store relies on**: hexadecimal is read as it is written, whatever
the case of the digits; a hash or an address may also carry `0x`; and a decimal
number is read back. -/
structure Parsers.Lawful (P : Parsers) : Prop where
  hexDecode_iff : ∀ {s bs}, P.hexDecode s = some bs ↔ lower s = Hex.encode bs
  b256_iff : ∀ {s w},
    P.b256 s = some w ↔ lower (stripHexPrefix s) = Hex.encode (wordBytes w)
  address_iff : ∀ {s a},
    P.address s = some a ↔ lower (stripHexPrefix s) = Hex.encode (addressBytes a)
  u256_decimal : ∀ n : U256, P.u256 (decimalText n.toNat) = some n

section Checks

variable (keccak256 : Bytes → Bytes32) (P : Parsers)

/-- The bytes of a hexadecimal field. -/
def hexBytes (field : String) (s : Text) : Except StoreError Bytes :=
  if stripHexPrefix s = [] then .ok []
  else orRevert (.badField field) (P.hexDecode (stripHexPrefix s))

/-- The payload of a record with its native sender; `none` is a payload that does
not decode, `some none` is no payload. -/
def decodeAutoParams (autoParams nativeSender : Bytes) : Option (Option AutoParams) :=
  if autoParams = [] then some none
  else do
    let ap ← P.abiDecode autoParams
    return some {
      executionFee := ap.executionFee
      flags := ap.flags
      fallbackAddress := ap.fallbackAddress
      data := ap.data
      nativeSender }

/-- What a record's text parses to. -/
structure ParsedRecord where
  bridgeDomain : Bytes32
  debridgeId : Bytes32
  amount : U256
  bridgeDecimals : UInt8
  receiver : Bytes
  autoParams : Bytes
  nativeSender : Bytes
  auto : Option AutoParams

/-- The parsing half of the id check, in the order of the source. -/
def parseRecord (rec : SubmissionRecord) : Except StoreError ParsedRecord := do
  let bridgeDomain ← orRevert (.badField "bridge_domain") (P.b256 rec.bridgeDomain)
  let debridgeId ← orRevert (.badField "debridge_id") (P.b256 rec.debridgeId)
  let amount ← orRevert (.badField "amount") (P.u256 rec.amount)
  let bridgeDecimals ← orRevert (.badField "bridge_decimals") rec.bridgeDecimals
  let receiver ← hexBytes P "receiver" rec.receiver
  let autoParams ← hexBytes P "auto_params" rec.autoParams
  let nativeSender ← hexBytes P "native_sender" rec.nativeSender
  let auto ← orRevert (.badField "auto_params") (decodeAutoParams P autoParams nativeSender)
  return ⟨bridgeDomain, debridgeId, amount, bridgeDecimals, receiver, autoParams, nativeSender,
    auto⟩

/-- The packed string of a parsed record. -/
def packRecord (rec : SubmissionRecord) (p : ParsedRecord) : Bytes :=
  let packed := BridgeCore.packedSubmission p.bridgeDomain p.debridgeId p.bridgeDecimals p.amount
    (rec.chainIdFrom.setWidth 256) (rec.chainIdTo.setWidth 256) (rec.nonce.setWidth 256) p.receiver
  match p.auto with
  | none => packed
  | some auto => packed ++ BridgeCore.packedAuto keccak256 auto

/-- The string a record's id is the hash of. -/
def recordPreimage (rec : SubmissionRecord) : Except StoreError Bytes := do
  let p ← parseRecord P rec
  return packRecord keccak256 rec p

/-- **The id of a record's own parameters.** -/
def canonicalSubmissionId (rec : SubmissionRecord) : Except StoreError Bytes32 := do
  let p ← parseRecord P rec
  return keccak256 (packRecord keccak256 rec p)

/-- The token of a record, when it names one, must be the one its asset id hashes. -/
def verifyTokenBinding (rec : SubmissionRecord) : Except StoreError Unit :=
  if rec.token = [] then .ok ()
  else do
    let token ← orRevert (.badField "token") (P.address rec.token)
    let debridgeId ← orRevert (.badField "debridge_id") (P.b256 rec.debridgeId)
    revertIf (BridgeCore.debridgeId keccak256 (rec.chainIdFrom.setWidth 256) token ≠ debridgeId)
      (.tokenMismatch (hexText (addressBytes token)) (hexText (wordBytes debridgeId))
        rec.chainIdFrom)

end Checks

end Store

end SelendraBridge
