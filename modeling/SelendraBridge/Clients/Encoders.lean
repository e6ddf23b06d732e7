import SelendraBridge.Solana.Wire
import SelendraBridge.Text

/-!
# Three more ways to write an instruction

The program's wire format is declared again wherever an instruction is made:

| where | what it writes |
|---|---|
| the host library | every instruction, from an enumeration of its own |
| the Solana relayer | `Claim`, `Cancel` and `Refund`, with the tag by hand |
| the frontend | `Send`, byte by byte |

The types here are theirs, not the program's; what they write is compared with what the program
reads in `SelendraBridge.Clients.Agreement`.
-/

namespace SelendraBridge

open Borsh
open Solana (word address u32 u64 u128)

/-! ### The host library -/

namespace BridgeSolana

/-- `AutoParamsWire`. -/
structure AutoParamsWire where
  executionFee : BitVec 128
  flags : U64
  fallbackAddress : Bytes
  data : Bytes

/-- `SendArgs`. -/
structure SendArgs where
  debridgeId : Bytes32
  amount : U64
  chainIdTo : U64
  receiver : Bytes
  auto : Option AutoParamsWire

/-- `ClaimArgs`. -/
structure ClaimArgs where
  debridgeId : Bytes32
  amount : U64
  bridgeDecimals : UInt8
  chainIdFrom : U64
  nonce : U64
  receiver : Bytes
  auto : Option AutoParamsWire
  nativeSender : Bytes
  signatures : List Bytes

/-- `InitArgs`. -/
structure InitArgs where
  bridgeDomain : Bytes32
  validators : List Address
  threshold : BitVec 32
  chainId : U64
  maxValidators : BitVec 32
  maxCorridors : BitVec 32
  guardian : Bytes32

/-- `CancelArgs`. -/
structure CancelArgs where
  debridgeId : Bytes32
  amount : U64
  bridgeDecimals : UInt8
  chainIdFrom : U64
  nonce : U64
  receiver : Bytes
  auto : Option AutoParamsWire
  nativeSender : Bytes
  signatures : List Bytes

/-- `RefundArgs`. -/
structure RefundArgs where
  debridgeId : Bytes32
  amount : U64
  bridgeDecimals : UInt8
  chainIdTo : U64
  nonce : U64
  receiver : Bytes
  auto : Option AutoParamsWire
  nativeSender : Bytes
  signatures : List Bytes

/-- `GovernanceAction`. -/
inductive GovernanceAction
  | addValidator (validator : Address)
  | lowerThreshold (threshold : BitVec 32)
  | registerAsset (debridgeId : Bytes32) (bridgeDecimals : UInt8)
  | setGuardian (guardian : Bytes32)

/-- `GateInstruction`. -/
inductive GateInstruction
  | init (a : InitArgs)
  | send (a : SendArgs)
  | claim (a : ClaimArgs)
  | setValidator (validator : Address) (active : Bool)
  | setThreshold (threshold : BitVec 32)
  | registerAsset (debridgeId : Bytes32) (bridgeDecimals : UInt8)
  | registerCorridor (chainIdTo : U64)
  | pause
  | unpause
  | setGuardian (guardian : Bytes32)
  | cancel (a : CancelArgs)
  | refund (a : RefundArgs)
  | scheduleGovernance (actionId : Bytes32)
  | cancelScheduledGovernance (actionId : Bytes32)
  | sealGate
  | scheduleAction (action : GovernanceAction)

/-! #### What it writes -/

/-- The fields of auto-params. -/
def AutoParamsWire.serialize (p : AutoParamsWire) : Bytes :=
  u128.put p.executionFee ++ (u64.put p.flags ++
    (Codec.bytes.put p.fallbackAddress ++ Codec.bytes.put p.data))

/-- Auto-params, or that there are none. -/
def serializeAuto : Option AutoParamsWire → Bytes
  | none => [0]
  | some p => 1 :: p.serialize

/-- The fields of `InitArgs`. -/
def InitArgs.serialize (a : InitArgs) : Bytes :=
  word.put a.bridgeDomain ++ (address.vec.put a.validators ++ (u32.put a.threshold ++
    (u64.put a.chainId ++ (u32.put a.maxValidators ++ (u32.put a.maxCorridors ++
      word.put a.guardian)))))

/-- The fields of `SendArgs`. -/
def SendArgs.serialize (a : SendArgs) : Bytes :=
  word.put a.debridgeId ++ (u64.put a.amount ++ (u64.put a.chainIdTo ++
    (Codec.bytes.put a.receiver ++ serializeAuto a.auto)))

/-- The fields of `ClaimArgs`. -/
def ClaimArgs.serialize (a : ClaimArgs) : Bytes :=
  word.put a.debridgeId ++ (u64.put a.amount ++ (Codec.u8.put a.bridgeDecimals ++
    (u64.put a.chainIdFrom ++ (u64.put a.nonce ++ (Codec.bytes.put a.receiver ++
      (serializeAuto a.auto ++ (Codec.bytes.put a.nativeSender ++
        Codec.bytes.vec.put a.signatures)))))))

/-- The fields of `CancelArgs`. -/
def CancelArgs.serialize (a : CancelArgs) : Bytes :=
  word.put a.debridgeId ++ (u64.put a.amount ++ (Codec.u8.put a.bridgeDecimals ++
    (u64.put a.chainIdFrom ++ (u64.put a.nonce ++ (Codec.bytes.put a.receiver ++
      (serializeAuto a.auto ++ (Codec.bytes.put a.nativeSender ++
        Codec.bytes.vec.put a.signatures)))))))

/-- The fields of `RefundArgs`. -/
def RefundArgs.serialize (a : RefundArgs) : Bytes :=
  word.put a.debridgeId ++ (u64.put a.amount ++ (Codec.u8.put a.bridgeDecimals ++
    (u64.put a.chainIdTo ++ (u64.put a.nonce ++ (Codec.bytes.put a.receiver ++
      (serializeAuto a.auto ++ (Codec.bytes.put a.nativeSender ++
        Codec.bytes.vec.put a.signatures)))))))

/-- `GovernanceAction`, by its place in the enumeration. -/
def GovernanceAction.serialize : GovernanceAction → Bytes
  | .addValidator validator => 0 :: address.put validator
  | .lowerThreshold threshold => 1 :: u32.put threshold
  | .registerAsset debridgeId bridgeDecimals =>
    2 :: (word.put debridgeId ++ Codec.u8.put bridgeDecimals)
  | .setGuardian guardian => 3 :: word.put guardian

/-- **`GateInstruction::to_bytes`**: each variant by its place in the enumeration. -/
def GateInstruction.toBytes : GateInstruction → Bytes
  | .init a => 0 :: a.serialize
  | .send a => 1 :: a.serialize
  | .claim a => 2 :: a.serialize
  | .setValidator validator active => 3 :: (address.put validator ++ Codec.bool.put active)
  | .setThreshold threshold => 4 :: u32.put threshold
  | .registerAsset debridgeId bridgeDecimals =>
    5 :: (word.put debridgeId ++ Codec.u8.put bridgeDecimals)
  | .registerCorridor chainIdTo => 6 :: u64.put chainIdTo
  | .pause => [7]
  | .unpause => [8]
  | .setGuardian guardian => 9 :: word.put guardian
  | .cancel a => 10 :: a.serialize
  | .refund a => 11 :: a.serialize
  | .scheduleGovernance actionId => 12 :: word.put actionId
  | .cancelScheduledGovernance actionId => 13 :: word.put actionId
  | .sealGate => [14]
  | .scheduleAction action => 15 :: action.serialize

/-! #### The ids of actions -/

section Actions

variable (keccak256 : Bytes → Bytes32)

/-- `ACTION_ID_VERSION`. -/
def ACTION_ID_VERSION : Bytes := ascii "gate-governance-v2:"

/-- `set_guardian_action_id`. -/
def setGuardianActionId (guardian : Bytes32) : Bytes32 :=
  keccak256 (ACTION_ID_VERSION ++ ascii "setGuardian" ++ wordBytes guardian)

/-- `add_validator_action_id`. -/
def addValidatorActionId (v : Address) : Bytes32 :=
  keccak256 (ACTION_ID_VERSION ++ ascii "addValidator" ++ addressBytes v)

/-- `register_asset_action_id`. -/
def registerAssetActionId (debridgeId mint vault : Bytes32) (bridgeDecimals : UInt8) : Bytes32 :=
  keccak256 (ACTION_ID_VERSION ++ ascii "registerAsset" ++ wordBytes debridgeId ++
    wordBytes mint ++ wordBytes vault ++ [bridgeDecimals])

/-- `lower_threshold_action_id`: the threshold in the last eight bytes of a word. -/
def lowerThresholdActionId (t : BitVec 32) : Bytes32 :=
  keccak256 (ACTION_ID_VERSION ++ ascii "lowerThreshold" ++
    (List.replicate 24 0 ++ BigEndian.ofWord 8 (t.setWidth 64)))

/-- **`GovernanceAction::action_id`.** -/
def GovernanceAction.actionId (mint vault : Bytes32) : GovernanceAction → Bytes32
  | .addValidator validator => addValidatorActionId keccak256 validator
  | .lowerThreshold threshold => lowerThresholdActionId keccak256 threshold
  | .registerAsset debridgeId bridgeDecimals =>
    registerAssetActionId keccak256 debridgeId mint vault bridgeDecimals
  | .setGuardian guardian => setGuardianActionId keccak256 guardian

end Actions

end BridgeSolana

/-! ### The Solana relayer -/

namespace SolanaRelayer

open BridgeSolana (AutoParamsWire serializeAuto)

/-- `wire::ClaimArgs`. -/
structure ClaimArgs where
  debridgeId : Bytes32
  amount : U64
  bridgeDecimals : UInt8
  chainIdFrom : U64
  nonce : U64
  receiver : Bytes
  auto : Option AutoParamsWire
  nativeSender : Bytes
  signatures : List Bytes

/-- `wire::CancelArgs`. -/
structure CancelArgs where
  debridgeId : Bytes32
  amount : U64
  bridgeDecimals : UInt8
  chainIdFrom : U64
  nonce : U64
  receiver : Bytes
  auto : Option AutoParamsWire
  nativeSender : Bytes
  signatures : List Bytes

/-- `wire::RefundArgs`. -/
structure RefundArgs where
  debridgeId : Bytes32
  amount : U64
  bridgeDecimals : UInt8
  chainIdTo : U64
  nonce : U64
  receiver : Bytes
  auto : Option AutoParamsWire
  nativeSender : Bytes
  signatures : List Bytes

/-- **`claim_instruction_data`.** -/
def claimInstructionData (a : ClaimArgs) : Bytes :=
  2 :: (word.put a.debridgeId ++ (u64.put a.amount ++ (Codec.u8.put a.bridgeDecimals ++
    (u64.put a.chainIdFrom ++ (u64.put a.nonce ++ (Codec.bytes.put a.receiver ++
      (serializeAuto a.auto ++ (Codec.bytes.put a.nativeSender ++
        Codec.bytes.vec.put a.signatures))))))))

/-- **`cancel_instruction_data`.** -/
def cancelInstructionData (a : CancelArgs) : Bytes :=
  10 :: (word.put a.debridgeId ++ (u64.put a.amount ++ (Codec.u8.put a.bridgeDecimals ++
    (u64.put a.chainIdFrom ++ (u64.put a.nonce ++ (Codec.bytes.put a.receiver ++
      (serializeAuto a.auto ++ (Codec.bytes.put a.nativeSender ++
        Codec.bytes.vec.put a.signatures))))))))

/-- **`refund_instruction_data`.** -/
def refundInstructionData (a : RefundArgs) : Bytes :=
  11 :: (word.put a.debridgeId ++ (u64.put a.amount ++ (Codec.u8.put a.bridgeDecimals ++
    (u64.put a.chainIdTo ++ (u64.put a.nonce ++ (Codec.bytes.put a.receiver ++
      (serializeAuto a.auto ++ (Codec.bytes.put a.nativeSender ++
        Codec.bytes.vec.put a.signatures))))))))

end SolanaRelayer

/-! ### The frontend -/

namespace Frontend

open Revert

/-- What the encoder throws. -/
inductive Thrown
  | chainIdToOutOfRange
  | oddLengthHex (hex : Text)
  | u64OutOfRange (v : ℤ)
  deriving DecidableEq, Repr

/-- The white space that `parseInt` skips. -/
def isStrWhiteSpace (c : Char) : Bool :=
  let n := c.toNat
  (9 ≤ n && n ≤ 13) || n == 0x20 || n == 0xA0 || n == 0x1680 || (0x2000 ≤ n && n ≤ 0x200A) ||
    n == 0x2028 || n == 0x2029 || n == 0x202F || n == 0x205F || n == 0x3000 || n == 0xFEFF

/-- A sign, if there is one: whether it is a minus, and the rest. -/
def splitSign : Text → Bool × Text
  | '-' :: s => (true, s)
  | '+' :: s => (false, s)
  | s => (false, s)

/-- The text without a `0x` or `0X`. -/
def stripPrefixes : Text → Text
  | '0' :: 'x' :: s => s
  | '0' :: 'X' :: s => s
  | s => s

/-- `parseInt(s, 16)`: as many digits as there are from the front; `none` is `NaN`. -/
def parseInt16 (s : Text) : Option ℤ :=
  let signed := splitSign (s.dropWhile isStrWhiteSpace)
  let ds := (stripPrefixes signed.2).takeWhile isHexDigit
  if ds = [] then none
  else
    let n : ℤ := ds.foldl (fun n c => 16 * n + ((Hex.value c).getD 0 : ℕ)) 0
    some (if signed.1 then -n else n)

/-- A number, as an element of a `Uint8Array`: modulo 256, and zero if it is none. -/
def toUint8 (v : Option ℤ) : UInt8 := UInt8.ofNat ((v.getD 0 % 256).toNat)

/-- The bytes of a text, two characters each. -/
def hexPairs : Text → Bytes
  | h :: l :: s => toUint8 (parseInt16 [h, l]) :: hexPairs s
  | _ => []

/-- `hexToBytes`. -/
def hexToBytes (hex : Text) : Except Thrown Bytes :=
  let h := stripPrefixes hex
  if h.length % 2 ≠ 0 then .error (.oddLengthHex hex) else .ok (hexPairs h)

/-- The `n` lowest bytes of a number, from the lowest. -/
def lowBytes : ℕ → ℕ → Bytes
  | 0, _ => []
  | n + 1, x => UInt8.ofNat (x % 256) :: lowBytes n (x / 256)

/-- `u64le`. -/
def u64le (v : ℤ) : Except Thrown Bytes :=
  if v < 0 ∨ v > 0xffffffffffffffff then .error (.u64OutOfRange v) else .ok (lowBytes 8 v.toNat)

/-- `borshBytes`. -/
def borshBytes (b : Bytes) : Bytes := lowBytes 4 b.length ++ b

/-- The arguments of a send, in the browser. -/
structure GateSend where
  debridgeId : Text
  amount : ℤ
  chainIdTo : ℤ
  receiver : Bytes

/-- **`encodeGateSendData`.** -/
def encodeGateSendData (args : GateSend) : Except Thrown Bytes := do
  revertIf (args.chainIdTo > 0xffffffffffffffff) .chainIdToOutOfRange
  let debridgeId ← hexToBytes args.debridgeId
  let amount ← u64le args.amount
  let chainIdTo ← u64le args.chainIdTo
  return 1 :: (debridgeId ++ (amount ++ (chainIdTo ++ (borshBytes args.receiver ++ [0]))))

end Frontend

end SelendraBridge
