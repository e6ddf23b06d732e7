import SelendraBridge.Solana.Machine

/-!
# What the program reads as an instruction

The data of an instruction is one byte, the number of its variant, and then the variant's fields
in the order in which they are declared:

| tag | variant | fields |
|---|---|---|
| 0 | `Init` | domain, validators, threshold, chain, capacities, guardian |
| 1 | `Send` | asset, amount, target chain, receiver, auto-params |
| 2, 10 | `Claim`, `Cancel` | asset, amount, scale, source chain, nonce, receiver, and the rest |
| 3 | `SetValidator` | validator, active |
| 4 | `SetThreshold` | threshold |
| 5 | `RegisterAsset` | asset, scale |
| 6 | `RegisterCorridor` | target chain |
| 7, 8, 14 | `Pause`, `Unpause`, `Seal` | none |
| 9 | `SetGuardian` | guardian |
| 11 | `Refund` | as `Claim`, with the target chain for the source chain |
| 12, 13 | `ScheduleGovernance`, `CancelScheduledGovernance` | action id |
| 15 | `ScheduleAction` | an action, with a tag of its own |

The rest of a claim is its auto-params, the sender and the signatures.

The reader wants all of the data (`SelendraBridge.Solana.tryFromSlice`) and reads nothing twice:
its codec is strict (`SelendraBridge.Solana.strict_instructionCodec`), so that no two strings of
bytes are one instruction.
-/

namespace SelendraBridge

namespace Solana

open Borsh

/-! ### Fields -/

/-- The codec of a `u128`. -/
def u128 : Codec (BitVec 128) := .uint 16

theorem strict_word : word.Strict := Codec.strict_array 32

theorem strict_address : address.Strict := Codec.strict_array 20

theorem strict_u32 : u32.Strict := Codec.strict_uint 4

theorem strict_u64 : u64.Strict := Codec.strict_uint 8

theorem strict_u128 : u128.Strict := Codec.strict_uint 16

/-- The codec of `AutoParamsWire`. -/
def autoParamsCodec : Codec AutoParamsWire :=
  (u128.pair <| u64.pair <| Codec.bytes.pair Codec.bytes).iso
    (fun t => ⟨t.1, t.2.1, t.2.2.1, t.2.2.2⟩)
    (fun p => (p.executionFee, p.flags, p.fallbackAddress, p.data)) fun _ => rfl

theorem strict_autoParamsCodec : autoParamsCodec.Strict :=
  (strict_u128.pair <| strict_u64.pair <| Codec.strict_bytes.pair Codec.strict_bytes).iso
    fun _ => rfl

theorem lt_of_u32 {n : ℕ} (h : n < 4294967296) : n < 2 ^ 32 := by norm_num [h]

theorem u32_of_lt {n : ℕ} (h : n < 2 ^ 32) : n < 4294967296 := by norm_num at h; exact h

/-- The arguments of `init` from the fields. -/
def initArgs (t : Bytes32 × List Address × BitVec 32 × U64 × BitVec 32 × BitVec 32 × Pubkey) :
    Option InitArgs :=
  if h : t.2.1.length < 4294967296 then
    some ⟨t.1, t.2.1, t.2.2.1, t.2.2.2.1, t.2.2.2.2.1, t.2.2.2.2.2.1, t.2.2.2.2.2.2, lt_of_u32 h⟩
  else none

/-- The fields of the arguments of `init`. -/
def InitArgs.fields (a : InitArgs) :
    Bytes32 × List Address × BitVec 32 × U64 × BitVec 32 × BitVec 32 × Pubkey :=
  (a.bridgeDomain, a.validators, a.threshold, a.chainId, a.maxValidators, a.maxCorridors,
    a.guardian)

theorem initArgs_fields (a : InitArgs) : initArgs a.fields = some a :=
  dif_pos (u32_of_lt a.validators_lt)

theorem fields_initArgs {t : Bytes32 × List Address × BitVec 32 × U64 × BitVec 32 × BitVec 32 ×
    Pubkey} {a : InitArgs} (h : initArgs t = some a) : a.fields = t := by
  rw [initArgs] at h
  split at h
  · obtain rfl := Option.some.inj h
    rfl
  · cases h

/-- The codec of `InitArgs`. -/
def initArgsCodec : Codec InitArgs :=
  (word.pair <| address.vec.pair <| u32.pair <| u64.pair <| u32.pair <| u32.pair word).restrict
    initArgs InitArgs.fields initArgs_fields

theorem strict_initArgsCodec : initArgsCodec.Strict :=
  (strict_word.pair <| strict_address.vec.pair <| strict_u32.pair <| strict_u64.pair <|
    strict_u32.pair <| strict_u32.pair strict_word).restrict fun _ _ => fields_initArgs

/-- The codec of `SendArgs`. -/
def sendArgsCodec : Codec SendArgs :=
  (word.pair <| u64.pair <| u64.pair <| Codec.bytes.pair autoParamsCodec.option).iso
    (fun t => ⟨t.1, t.2.1, t.2.2.1, t.2.2.2.1, t.2.2.2.2⟩)
    (fun a => (a.debridgeId, a.amount, a.chainIdTo, a.receiver, a.auto)) fun _ => rfl

theorem strict_sendArgsCodec : sendArgsCodec.Strict :=
  (strict_word.pair <| strict_u64.pair <| strict_u64.pair <|
    Codec.strict_bytes.pair strict_autoParamsCodec.option).iso fun _ => rfl

/-- The codec of `ClaimArgs` and of `CancelArgs`. -/
def claimArgsCodec : Codec ClaimArgs :=
  (word.pair <| u64.pair <| Codec.u8.pair <| u64.pair <| u64.pair <| Codec.bytes.pair <|
    autoParamsCodec.option.pair <| Codec.bytes.pair Codec.bytes.vec).iso
    (fun t => ⟨t.1, t.2.1, t.2.2.1, t.2.2.2.1, t.2.2.2.2.1, t.2.2.2.2.2.1, t.2.2.2.2.2.2.1,
      t.2.2.2.2.2.2.2.1, t.2.2.2.2.2.2.2.2⟩)
    (fun a => (a.debridgeId, a.amount, a.bridgeDecimals, a.chainIdFrom, a.nonce, a.receiver, a.auto,
      a.nativeSender, a.signatures)) fun _ => rfl

theorem strict_claimArgsCodec : claimArgsCodec.Strict :=
  (strict_word.pair <| strict_u64.pair <| Codec.strict_u8.pair <| strict_u64.pair <|
    strict_u64.pair <| Codec.strict_bytes.pair <| strict_autoParamsCodec.option.pair <|
      Codec.strict_bytes.pair Codec.strict_bytes.vec).iso fun _ => rfl

/-- The codec of `RefundArgs`. -/
def refundArgsCodec : Codec RefundArgs :=
  (word.pair <| u64.pair <| Codec.u8.pair <| u64.pair <| u64.pair <| Codec.bytes.pair <|
    autoParamsCodec.option.pair <| Codec.bytes.pair Codec.bytes.vec).iso
    (fun t => ⟨t.1, t.2.1, t.2.2.1, t.2.2.2.1, t.2.2.2.2.1, t.2.2.2.2.2.1, t.2.2.2.2.2.2.1,
      t.2.2.2.2.2.2.2.1, t.2.2.2.2.2.2.2.2⟩)
    (fun a => (a.debridgeId, a.amount, a.bridgeDecimals, a.chainIdTo, a.nonce, a.receiver, a.auto,
      a.nativeSender, a.signatures)) fun _ => rfl

theorem strict_refundArgsCodec : refundArgsCodec.Strict :=
  (strict_word.pair <| strict_u64.pair <| Codec.strict_u8.pair <| strict_u64.pair <|
    strict_u64.pair <| Codec.strict_bytes.pair <| strict_autoParamsCodec.option.pair <|
      Codec.strict_bytes.pair Codec.strict_bytes.vec).iso fun _ => rfl

/-! ### Actions -/

/-- `GovernanceAction`, written. -/
def GovernanceAction.put : GovernanceAction → Bytes
  | .addValidator validator => 0 :: address.put validator
  | .lowerThreshold threshold => 1 :: u32.put threshold
  | .registerAsset debridgeId bridgeDecimals =>
    2 :: (word.pair Codec.u8).put (debridgeId, bridgeDecimals)
  | .setGuardian guardian => 3 :: word.put guardian

/-- `GovernanceAction`, read. -/
def GovernanceAction.get : Bytes → Option (GovernanceAction × Bytes)
  | [] => none
  | tag :: bs =>
    match tag.toNat with
    | 0 => address.via .addValidator bs
    | 1 => u32.via .lowerThreshold bs
    | 2 => (word.pair Codec.u8).via (fun t => .registerAsset t.1 t.2) bs
    | 3 => word.via .setGuardian bs
    | _ => none

/-- The codec of `GovernanceAction`. -/
def actionCodec : Codec GovernanceAction where
  put := GovernanceAction.put
  get := GovernanceAction.get
  Valid _ := True
  get_put {action} rest _ := by
    cases action with
    | addValidator v => exact address.via_put _ trivial rest
    | lowerThreshold t => exact u32.via_put _ trivial rest
    | registerAsset d n =>
      exact (word.pair Codec.u8).via_put (fun t => GovernanceAction.registerAsset t.1 t.2)
        (a := (d, n)) ⟨trivial, trivial⟩ rest
    | setGuardian g => exact word.via_put _ trivial rest

theorem strict_actionCodec : actionCodec.Strict := by
  rintro bs action rest h
  cases bs with
  | nil => cases h
  | cons tag bs =>
    refine ⟨trivial, ?_⟩
    simp only [actionCodec, GovernanceAction.get] at h
    split at h
    · next htag =>
      obtain ⟨a, rfl, -, rfl⟩ := strict_address.of_via h
      rw [Codec.tag_eq (k := 0) htag]
      rfl
    · next htag =>
      obtain ⟨a, rfl, -, rfl⟩ := strict_u32.of_via h
      rw [Codec.tag_eq (k := 1) htag]
      rfl
    · next htag =>
      obtain ⟨a, rfl, -, rfl⟩ := (strict_word.pair Codec.strict_u8).of_via h
      rw [Codec.tag_eq (k := 2) htag]
      rfl
    · next htag =>
      obtain ⟨a, rfl, -, rfl⟩ := strict_word.of_via h
      rw [Codec.tag_eq (k := 3) htag]
      rfl
    · cases h

/-! ### Instructions -/

/-- `GateInstruction`, written. -/
def Instruction.put : Instruction → Bytes
  | .init a => 0 :: initArgsCodec.put a
  | .send a => 1 :: sendArgsCodec.put a
  | .claim a => 2 :: claimArgsCodec.put a
  | .setValidator validator active => 3 :: (address.pair Codec.bool).put (validator, active)
  | .setThreshold threshold => 4 :: u32.put threshold
  | .registerAsset debridgeId bridgeDecimals =>
    5 :: (word.pair Codec.u8).put (debridgeId, bridgeDecimals)
  | .registerCorridor chainIdTo => 6 :: u64.put chainIdTo
  | .pause => 7 :: Codec.unit.put ()
  | .unpause => 8 :: Codec.unit.put ()
  | .setGuardian guardian => 9 :: word.put guardian
  | .cancel a => 10 :: claimArgsCodec.put a
  | .refund a => 11 :: refundArgsCodec.put a
  | .scheduleGovernance actionId => 12 :: word.put actionId
  | .cancelScheduledGovernance actionId => 13 :: word.put actionId
  | .sealGate => 14 :: Codec.unit.put ()
  | .scheduleAction action => 15 :: actionCodec.put action

/-- `GateInstruction`, read. -/
def Instruction.get : Bytes → Option (Instruction × Bytes)
  | [] => none
  | tag :: bs =>
    match tag.toNat with
    | 0 => initArgsCodec.via .init bs
    | 1 => sendArgsCodec.via .send bs
    | 2 => claimArgsCodec.via .claim bs
    | 3 => (address.pair Codec.bool).via (fun t => .setValidator t.1 t.2) bs
    | 4 => u32.via .setThreshold bs
    | 5 => (word.pair Codec.u8).via (fun t => .registerAsset t.1 t.2) bs
    | 6 => u64.via .registerCorridor bs
    | 7 => Codec.unit.via (fun _ => .pause) bs
    | 8 => Codec.unit.via (fun _ => .unpause) bs
    | 9 => word.via .setGuardian bs
    | 10 => claimArgsCodec.via .cancel bs
    | 11 => refundArgsCodec.via .refund bs
    | 12 => word.via .scheduleGovernance bs
    | 13 => word.via .cancelScheduledGovernance bs
    | 14 => Codec.unit.via (fun _ => .sealGate) bs
    | 15 => actionCodec.via .scheduleAction bs
    | _ => none

/-- The instructions that can be written: their vectors have lengths of four bytes. -/
def Instruction.Valid : Instruction → Prop
  | .init a => initArgsCodec.Valid a
  | .send a => sendArgsCodec.Valid a
  | .claim a => claimArgsCodec.Valid a
  | .cancel a => claimArgsCodec.Valid a
  | .refund a => refundArgsCodec.Valid a
  | _ => True

theorem Instruction.get_put {ix : Instruction} (rest : Bytes) (h : ix.Valid) :
    Instruction.get (ix.put ++ rest) = some (ix, rest) := by
  cases ix with
  | init a => exact initArgsCodec.via_put _ h rest
  | send a => exact sendArgsCodec.via_put _ h rest
  | claim a => exact claimArgsCodec.via_put _ h rest
  | setValidator v active =>
    exact (address.pair Codec.bool).via_put (fun t => Instruction.setValidator t.1 t.2)
      (a := (v, active)) ⟨trivial, trivial⟩ rest
  | setThreshold t => exact u32.via_put _ trivial rest
  | registerAsset d n =>
    exact (word.pair Codec.u8).via_put (fun t => Instruction.registerAsset t.1 t.2)
      (a := (d, n)) ⟨trivial, trivial⟩ rest
  | registerCorridor c => exact u64.via_put _ trivial rest
  | pause => exact Codec.unit.via_put (fun _ => Instruction.pause) (a := ()) trivial rest
  | unpause => exact Codec.unit.via_put (fun _ => Instruction.unpause) (a := ()) trivial rest
  | setGuardian g => exact word.via_put _ trivial rest
  | cancel a => exact claimArgsCodec.via_put _ h rest
  | refund a => exact refundArgsCodec.via_put _ h rest
  | scheduleGovernance id => exact word.via_put _ trivial rest
  | cancelScheduledGovernance id => exact word.via_put _ trivial rest
  | sealGate => exact Codec.unit.via_put (fun _ => Instruction.sealGate) (a := ()) trivial rest
  | scheduleAction action => exact actionCodec.via_put _ trivial rest

/-- The codec of `GateInstruction`. -/
def instructionCodec : Codec Instruction where
  put := Instruction.put
  get := Instruction.get
  Valid := Instruction.Valid
  get_put := Instruction.get_put

/-- **`GateInstruction::try_from_slice`.** -/
def tryFromSlice (data : Bytes) : Option Instruction := instructionCodec.fromSlice data

/-- What was written is read back. -/
theorem tryFromSlice_put {ix : Instruction} (h : ix.Valid) : tryFromSlice ix.put = some ix :=
  instructionCodec.fromSlice_put h

/-- **There is one way to write an instruction.** -/
theorem strict_instructionCodec : instructionCodec.Strict := by
  rintro bs ix rest h
  cases bs with
  | nil => cases h
  | cons tag bs =>
    simp only [instructionCodec, Instruction.get] at h
    split at h
    · next htag =>
      obtain ⟨a, rfl, hvalid, rfl⟩ := strict_initArgsCodec.of_via h
      exact ⟨hvalid, by rw [Codec.tag_eq (k := 0) htag]; rfl⟩
    · next htag =>
      obtain ⟨a, rfl, hvalid, rfl⟩ := strict_sendArgsCodec.of_via h
      exact ⟨hvalid, by rw [Codec.tag_eq (k := 1) htag]; rfl⟩
    · next htag =>
      obtain ⟨a, rfl, hvalid, rfl⟩ := strict_claimArgsCodec.of_via h
      exact ⟨hvalid, by rw [Codec.tag_eq (k := 2) htag]; rfl⟩
    · next htag =>
      obtain ⟨a, rfl, -, rfl⟩ := (strict_address.pair Codec.strict_bool).of_via h
      exact ⟨trivial, by rw [Codec.tag_eq (k := 3) htag]; rfl⟩
    · next htag =>
      obtain ⟨a, rfl, -, rfl⟩ := strict_u32.of_via h
      exact ⟨trivial, by rw [Codec.tag_eq (k := 4) htag]; rfl⟩
    · next htag =>
      obtain ⟨a, rfl, -, rfl⟩ := (strict_word.pair Codec.strict_u8).of_via h
      exact ⟨trivial, by rw [Codec.tag_eq (k := 5) htag]; rfl⟩
    · next htag =>
      obtain ⟨a, rfl, -, rfl⟩ := strict_u64.of_via h
      exact ⟨trivial, by rw [Codec.tag_eq (k := 6) htag]; rfl⟩
    · next htag =>
      obtain ⟨a, rfl, -, rfl⟩ := Codec.strict_unit.of_via h
      exact ⟨trivial, by rw [Codec.tag_eq (k := 7) htag]; rfl⟩
    · next htag =>
      obtain ⟨a, rfl, -, rfl⟩ := Codec.strict_unit.of_via h
      exact ⟨trivial, by rw [Codec.tag_eq (k := 8) htag]; rfl⟩
    · next htag =>
      obtain ⟨a, rfl, -, rfl⟩ := strict_word.of_via h
      exact ⟨trivial, by rw [Codec.tag_eq (k := 9) htag]; rfl⟩
    · next htag =>
      obtain ⟨a, rfl, hvalid, rfl⟩ := strict_claimArgsCodec.of_via h
      exact ⟨hvalid, by rw [Codec.tag_eq (k := 10) htag]; rfl⟩
    · next htag =>
      obtain ⟨a, rfl, hvalid, rfl⟩ := strict_refundArgsCodec.of_via h
      exact ⟨hvalid, by rw [Codec.tag_eq (k := 11) htag]; rfl⟩
    · next htag =>
      obtain ⟨a, rfl, -, rfl⟩ := strict_word.of_via h
      exact ⟨trivial, by rw [Codec.tag_eq (k := 12) htag]; rfl⟩
    · next htag =>
      obtain ⟨a, rfl, -, rfl⟩ := strict_word.of_via h
      exact ⟨trivial, by rw [Codec.tag_eq (k := 13) htag]; rfl⟩
    · next htag =>
      obtain ⟨a, rfl, -, rfl⟩ := Codec.strict_unit.of_via h
      exact ⟨trivial, by rw [Codec.tag_eq (k := 14) htag]; rfl⟩
    · next htag =>
      obtain ⟨a, rfl, -, rfl⟩ := strict_actionCodec.of_via h
      exact ⟨trivial, by rw [Codec.tag_eq (k := 15) htag]; rfl⟩
    · cases h

end Solana

end SelendraBridge
