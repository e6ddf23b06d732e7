import SelendraBridge.Clients.Encoders
import SelendraBridge.Solana.Timelock

/-!
# Every client writes what the program reads

The types that an instruction is made of in a client are those of the program under other names
(`SelendraBridge.BridgeSolana.GateInstruction.ofProgram`), and

* what the host library writes is what the program would write, so that the program reads it
  (`SelendraBridge.BridgeSolana.tryFromSlice_toBytes`) and, since there is one way to write an
  instruction, everything that the program reads is what the host library writes
  (`SelendraBridge.BridgeSolana.toBytes_of_tryFromSlice`);
* the relayer's three instructions are the host library's
  (`SelendraBridge.SolanaRelayer.claimInstructionData_eq` and the two after it);
* the frontend's bytes are a `Send` without auto-params, for every spelling of the asset in
  hexadecimal (`SelendraBridge.Frontend.tryFromSlice_encodeGateSendData`);
* the id that the host library gives an action is that of the power it is
  (`SelendraBridge.BridgeSolana.actionId_ofProgram`), which is what is scheduled and what is
  used up (`SelendraBridge.Solana.uses_of_processInstruction`).
-/

namespace SelendraBridge

open Borsh Revert

/-! ### The host library -/

namespace BridgeSolana

/-! #### The types -/

/-- `AutoParamsWire`, of the program. -/
def AutoParamsWire.ofProgram (p : Solana.AutoParamsWire) : AutoParamsWire :=
  ⟨p.executionFee, p.flags, p.fallbackAddress, p.data⟩

/-- `InitArgs`, of the program. -/
def InitArgs.ofProgram (a : Solana.InitArgs) : InitArgs :=
  ⟨a.bridgeDomain, a.validators, a.threshold, a.chainId, a.maxValidators, a.maxCorridors,
    a.guardian⟩

/-- `SendArgs`, of the program. -/
def SendArgs.ofProgram (a : Solana.SendArgs) : SendArgs :=
  ⟨a.debridgeId, a.amount, a.chainIdTo, a.receiver, a.auto.map AutoParamsWire.ofProgram⟩

/-- `ClaimArgs`, of the program. -/
def ClaimArgs.ofProgram (a : Solana.ClaimArgs) : ClaimArgs :=
  ⟨a.debridgeId, a.amount, a.bridgeDecimals, a.chainIdFrom, a.nonce, a.receiver,
    a.auto.map AutoParamsWire.ofProgram, a.nativeSender, a.signatures⟩

/-- `CancelArgs`, of the program. -/
def CancelArgs.ofProgram (a : Solana.ClaimArgs) : CancelArgs :=
  ⟨a.debridgeId, a.amount, a.bridgeDecimals, a.chainIdFrom, a.nonce, a.receiver,
    a.auto.map AutoParamsWire.ofProgram, a.nativeSender, a.signatures⟩

/-- `RefundArgs`, of the program. -/
def RefundArgs.ofProgram (a : Solana.RefundArgs) : RefundArgs :=
  ⟨a.debridgeId, a.amount, a.bridgeDecimals, a.chainIdTo, a.nonce, a.receiver,
    a.auto.map AutoParamsWire.ofProgram, a.nativeSender, a.signatures⟩

/-- `GovernanceAction`, of the program. -/
def GovernanceAction.ofProgram : Solana.GovernanceAction → GovernanceAction
  | .addValidator validator => .addValidator validator
  | .lowerThreshold threshold => .lowerThreshold threshold
  | .registerAsset debridgeId bridgeDecimals => .registerAsset debridgeId bridgeDecimals
  | .setGuardian guardian => .setGuardian guardian

/-- **`GateInstruction`, of the program**: the variant of the same name, with the same fields. -/
def GateInstruction.ofProgram : Solana.Instruction → GateInstruction
  | .init a => .init (.ofProgram a)
  | .send a => .send (.ofProgram a)
  | .claim a => .claim (.ofProgram a)
  | .setValidator validator active => .setValidator validator active
  | .setThreshold threshold => .setThreshold threshold
  | .registerAsset debridgeId bridgeDecimals => .registerAsset debridgeId bridgeDecimals
  | .registerCorridor chainIdTo => .registerCorridor chainIdTo
  | .pause => .pause
  | .unpause => .unpause
  | .setGuardian guardian => .setGuardian guardian
  | .cancel a => .cancel (.ofProgram a)
  | .refund a => .refund (.ofProgram a)
  | .scheduleGovernance actionId => .scheduleGovernance actionId
  | .cancelScheduledGovernance actionId => .cancelScheduledGovernance actionId
  | .sealGate => .sealGate
  | .scheduleAction action => .scheduleAction (.ofProgram action)

/-! #### What is written -/

theorem serializeAuto_ofProgram (auto : Option Solana.AutoParamsWire) :
    serializeAuto (auto.map AutoParamsWire.ofProgram) = Solana.autoParamsCodec.option.put auto := by
  cases auto <;> rfl

theorem ClaimArgs.serialize_ofProgram (a : Solana.ClaimArgs) :
    (ClaimArgs.ofProgram a).serialize = Solana.claimArgsCodec.put a := by
  rw [ClaimArgs.serialize, ClaimArgs.ofProgram]
  dsimp only
  rw [serializeAuto_ofProgram]
  rfl

theorem CancelArgs.serialize_ofProgram (a : Solana.ClaimArgs) :
    (CancelArgs.ofProgram a).serialize = Solana.claimArgsCodec.put a :=
  ClaimArgs.serialize_ofProgram a

theorem RefundArgs.serialize_ofProgram (a : Solana.RefundArgs) :
    (RefundArgs.ofProgram a).serialize = Solana.refundArgsCodec.put a := by
  rw [RefundArgs.serialize, RefundArgs.ofProgram]
  dsimp only
  rw [serializeAuto_ofProgram]
  rfl

theorem SendArgs.serialize_ofProgram (a : Solana.SendArgs) :
    (SendArgs.ofProgram a).serialize = Solana.sendArgsCodec.put a := by
  rw [SendArgs.serialize, SendArgs.ofProgram]
  dsimp only
  rw [serializeAuto_ofProgram]
  rfl

theorem GovernanceAction.serialize_ofProgram (a : Solana.GovernanceAction) :
    (GovernanceAction.ofProgram a).serialize = a.put := by
  cases a <;> rfl

/-- **The host library writes what the program would write.** -/
theorem toBytes_ofProgram (ix : Solana.Instruction) :
    (GateInstruction.ofProgram ix).toBytes = ix.put := by
  cases ix with
  | send a => exact congrArg (1 :: ·) (SendArgs.serialize_ofProgram a)
  | claim a => exact congrArg (2 :: ·) (ClaimArgs.serialize_ofProgram a)
  | cancel a => exact congrArg (10 :: ·) (CancelArgs.serialize_ofProgram a)
  | refund a => exact congrArg (11 :: ·) (RefundArgs.serialize_ofProgram a)
  | scheduleAction a => exact congrArg (15 :: ·) (GovernanceAction.serialize_ofProgram a)
  | _ => rfl

/-! #### What can be written -/

/-- The lengths of the vectors of auto-params. -/
def autoLengths : Option AutoParamsWire → List ℕ
  | none => []
  | some p => [p.fallbackAddress.length, p.data.length]

/-- The lengths of the vectors of a claim, a cancellation or a refund. -/
def transferLengths (receiver : Bytes) (auto : Option AutoParamsWire) (nativeSender : Bytes)
    (signatures : List Bytes) : List ℕ :=
  receiver.length :: nativeSender.length :: signatures.length ::
    (signatures.map List.length ++ autoLengths auto)

/-- **The lengths of the vectors of an instruction**, those within vectors included. -/
def GateInstruction.lengths : GateInstruction → List ℕ
  | .init a => [a.validators.length]
  | .send a => a.receiver.length :: autoLengths a.auto
  | .claim a => transferLengths a.receiver a.auto a.nativeSender a.signatures
  | .cancel a => transferLengths a.receiver a.auto a.nativeSender a.signatures
  | .refund a => transferLengths a.receiver a.auto a.nativeSender a.signatures
  | _ => []

theorem valid_bytes {bs : Bytes} (h : bs.length < 2 ^ 32) : Codec.bytes.Valid bs :=
  And.intro h fun _ _ => trivial

theorem valid_auto {auto : Option Solana.AutoParamsWire}
    (h : ∀ n ∈ autoLengths (auto.map AutoParamsWire.ofProgram), n < 2 ^ 32) :
    Solana.autoParamsCodec.option.Valid auto := by
  rintro p rfl
  have hfallback : p.fallbackAddress.length < 2 ^ 32 := h _ List.mem_cons_self
  have hdata : p.data.length < 2 ^ 32 := h _ (List.mem_cons_of_mem _ List.mem_cons_self)
  exact And.intro trivial (And.intro trivial (And.intro (valid_bytes hfallback)
    (valid_bytes hdata)))

theorem valid_signatures {signatures : List Bytes} (hlen : signatures.length < 2 ^ 32)
    (h : ∀ n ∈ signatures.map List.length, n < 2 ^ 32) : Codec.bytes.vec.Valid signatures := by
  refine And.intro hlen fun sig hsig => valid_bytes (h _ ?_)
  exact List.mem_map_of_mem hsig

/-- The vectors of a claim, a cancellation or a refund fit, one by one. -/
theorem valid_of_transferLengths {receiver nativeSender : Bytes}
    {auto : Option Solana.AutoParamsWire} {signatures : List Bytes}
    (h : ∀ n ∈ transferLengths receiver (auto.map AutoParamsWire.ofProgram) nativeSender signatures,
      n < 2 ^ 32) :
    Codec.bytes.Valid receiver ∧ Solana.autoParamsCodec.option.Valid auto ∧
      Codec.bytes.Valid nativeSender ∧ Codec.bytes.vec.Valid signatures := by
  simp only [transferLengths, List.mem_cons, List.mem_append] at h
  refine ⟨valid_bytes (h _ (.inl rfl)), valid_auto ?_, valid_bytes (h _ (.inr (.inl rfl))),
    valid_signatures (h _ (.inr (.inr (.inl rfl)))) ?_⟩
  · exact fun n hn => h n (.inr (.inr (.inr (.inr hn))))
  · exact fun n hn => h n (.inr (.inr (.inr (.inl hn))))

theorem valid_claimArgs {a : Solana.ClaimArgs}
    (h : ∀ n ∈ transferLengths a.receiver (a.auto.map AutoParamsWire.ofProgram) a.nativeSender
      a.signatures, n < 2 ^ 32) : Solana.claimArgsCodec.Valid a := by
  obtain ⟨hreceiver, hauto, hsender, hsigs⟩ := valid_of_transferLengths h
  exact And.intro trivial (And.intro trivial (And.intro trivial (And.intro trivial
    (And.intro trivial (And.intro hreceiver (And.intro hauto (And.intro hsender hsigs)))))))

theorem valid_refundArgs {a : Solana.RefundArgs}
    (h : ∀ n ∈ transferLengths a.receiver (a.auto.map AutoParamsWire.ofProgram) a.nativeSender
      a.signatures, n < 2 ^ 32) : Solana.refundArgsCodec.Valid a := by
  obtain ⟨hreceiver, hauto, hsender, hsigs⟩ := valid_of_transferLengths h
  exact And.intro trivial (And.intro trivial (And.intro trivial (And.intro trivial
    (And.intro trivial (And.intro hreceiver (And.intro hauto (And.intro hsender hsigs)))))))

theorem valid_sendArgs {a : Solana.SendArgs}
    (h : ∀ n ∈ a.receiver.length :: autoLengths (a.auto.map AutoParamsWire.ofProgram),
      n < 2 ^ 32) : Solana.sendArgsCodec.Valid a := by
  have hreceiver := valid_bytes (h _ List.mem_cons_self)
  have hauto := valid_auto fun n hn => h n (List.mem_cons_of_mem _ hn)
  exact And.intro trivial (And.intro trivial (And.intro trivial (And.intro hreceiver hauto)))

/-- An instruction whose vectors fit can be written. -/
theorem valid_of_lengths {ix : Solana.Instruction}
    (h : ∀ n ∈ (GateInstruction.ofProgram ix).lengths, n < 2 ^ 32) : ix.Valid := by
  cases ix with
  | init a =>
    have hvalidators : Solana.address.vec.Valid a.validators :=
      And.intro (h _ List.mem_cons_self) fun _ _ => trivial
    exact And.intro trivial (And.intro hvalidators (And.intro trivial (And.intro trivial
      (And.intro trivial (And.intro trivial trivial)))))
  | send a => exact valid_sendArgs h
  | claim a => exact valid_claimArgs h
  | cancel a => exact valid_claimArgs h
  | refund a => exact valid_refundArgs h
  | _ => trivial

/-! #### There is nothing else in a client -/

theorem AutoParamsWire.ofProgram_surjective (auto : Option AutoParamsWire) :
    ∃ p : Option Solana.AutoParamsWire, p.map AutoParamsWire.ofProgram = auto := by
  cases auto with
  | none => exact ⟨none, rfl⟩
  | some p => exact ⟨some ⟨p.executionFee, p.flags, p.fallbackAddress, p.data⟩, rfl⟩

theorem GovernanceAction.ofProgram_surjective :
    Function.Surjective GovernanceAction.ofProgram := by
  rintro (v | t | ⟨d, n⟩ | g)
  · exact ⟨.addValidator v, rfl⟩
  · exact ⟨.lowerThreshold t, rfl⟩
  · exact ⟨.registerAsset d n, rfl⟩
  · exact ⟨.setGuardian g, rfl⟩

/-- **The host library can write nothing else**: an instruction whose vectors fit is one of the
program's. -/
theorem GateInstruction.exists_ofProgram {ix : GateInstruction}
    (h : ∀ n ∈ ix.lengths, n < 2 ^ 32) : ∃ p, GateInstruction.ofProgram p = ix := by
  cases ix with
  | init a =>
    exact ⟨.init ⟨a.bridgeDomain, a.validators, a.threshold, a.chainId, a.maxValidators,
      a.maxCorridors, a.guardian, h _ List.mem_cons_self⟩, rfl⟩
  | send a =>
    rcases a with ⟨d, amount, chain, receiver, auto⟩
    obtain ⟨auto, rfl⟩ := AutoParamsWire.ofProgram_surjective auto
    exact ⟨.send ⟨d, amount, chain, receiver, auto⟩, rfl⟩
  | claim a =>
    rcases a with ⟨d, amount, n, chain, nonce, receiver, auto, sender, sigs⟩
    obtain ⟨auto, rfl⟩ := AutoParamsWire.ofProgram_surjective auto
    exact ⟨.claim ⟨d, amount, n, chain, nonce, receiver, auto, sender, sigs⟩, rfl⟩
  | cancel a =>
    rcases a with ⟨d, amount, n, chain, nonce, receiver, auto, sender, sigs⟩
    obtain ⟨auto, rfl⟩ := AutoParamsWire.ofProgram_surjective auto
    exact ⟨.cancel ⟨d, amount, n, chain, nonce, receiver, auto, sender, sigs⟩, rfl⟩
  | refund a =>
    rcases a with ⟨d, amount, n, chain, nonce, receiver, auto, sender, sigs⟩
    obtain ⟨auto, rfl⟩ := AutoParamsWire.ofProgram_surjective auto
    exact ⟨.refund ⟨d, amount, n, chain, nonce, receiver, auto, sender, sigs⟩, rfl⟩
  | scheduleAction action =>
    obtain ⟨p, rfl⟩ := GovernanceAction.ofProgram_surjective action
    exact ⟨.scheduleAction p, rfl⟩
  | setValidator v active => exact ⟨.setValidator v active, rfl⟩
  | setThreshold t => exact ⟨.setThreshold t, rfl⟩
  | registerAsset d n => exact ⟨.registerAsset d n, rfl⟩
  | registerCorridor c => exact ⟨.registerCorridor c, rfl⟩
  | pause => exact ⟨.pause, rfl⟩
  | unpause => exact ⟨.unpause, rfl⟩
  | setGuardian g => exact ⟨.setGuardian g, rfl⟩
  | scheduleGovernance id => exact ⟨.scheduleGovernance id, rfl⟩
  | cancelScheduledGovernance id => exact ⟨.cancelScheduledGovernance id, rfl⟩
  | sealGate => exact ⟨.sealGate, rfl⟩

/-- **What the host library writes, the program reads**, all of it, as the same instruction. -/
theorem tryFromSlice_toBytes {ix : GateInstruction} (h : ∀ n ∈ ix.lengths, n < 2 ^ 32) :
    ∃ p, Solana.tryFromSlice ix.toBytes = some p ∧ GateInstruction.ofProgram p = ix := by
  obtain ⟨p, rfl⟩ := GateInstruction.exists_ofProgram h
  refine ⟨p, ?_, rfl⟩
  rw [toBytes_ofProgram]
  exact Solana.tryFromSlice_put (valid_of_lengths h)

/-- **What the program reads, the host library writes.** -/
theorem toBytes_of_tryFromSlice {data : Bytes} {ix : Solana.Instruction}
    (h : Solana.tryFromSlice data = some ix) : (GateInstruction.ofProgram ix).toBytes = data := by
  rw [toBytes_ofProgram]
  exact (Solana.strict_instructionCodec.put_of_fromSlice h).2

end BridgeSolana

/-! ### The Solana relayer -/

namespace SolanaRelayer

open BridgeSolana (AutoParamsWire transferLengths)

/-- `wire::ClaimArgs`, of the program. -/
def ClaimArgs.ofProgram (a : Solana.ClaimArgs) : ClaimArgs :=
  ⟨a.debridgeId, a.amount, a.bridgeDecimals, a.chainIdFrom, a.nonce, a.receiver,
    a.auto.map AutoParamsWire.ofProgram, a.nativeSender, a.signatures⟩

/-- `wire::CancelArgs`, of the program. -/
def CancelArgs.ofProgram (a : Solana.ClaimArgs) : CancelArgs :=
  ⟨a.debridgeId, a.amount, a.bridgeDecimals, a.chainIdFrom, a.nonce, a.receiver,
    a.auto.map AutoParamsWire.ofProgram, a.nativeSender, a.signatures⟩

/-- `wire::RefundArgs`, of the program. -/
def RefundArgs.ofProgram (a : Solana.RefundArgs) : RefundArgs :=
  ⟨a.debridgeId, a.amount, a.bridgeDecimals, a.chainIdTo, a.nonce, a.receiver,
    a.auto.map AutoParamsWire.ofProgram, a.nativeSender, a.signatures⟩

/-- With the tag by hand, it is what the host library writes. -/
theorem claimInstructionData_eq (a : Solana.ClaimArgs) :
    claimInstructionData (ClaimArgs.ofProgram a) = (Solana.Instruction.claim a).put :=
  BridgeSolana.toBytes_ofProgram (.claim a)

theorem cancelInstructionData_eq (a : Solana.ClaimArgs) :
    cancelInstructionData (CancelArgs.ofProgram a) = (Solana.Instruction.cancel a).put :=
  BridgeSolana.toBytes_ofProgram (.cancel a)

theorem refundInstructionData_eq (a : Solana.RefundArgs) :
    refundInstructionData (RefundArgs.ofProgram a) = (Solana.Instruction.refund a).put :=
  BridgeSolana.toBytes_ofProgram (.refund a)

/-- **What the relayer writes as a claim, the program reads as that claim.** -/
theorem tryFromSlice_claimInstructionData {a : ClaimArgs}
    (h : ∀ n ∈ transferLengths a.receiver a.auto a.nativeSender a.signatures, n < 2 ^ 32) :
    ∃ p, Solana.tryFromSlice (claimInstructionData a) = some (.claim p) ∧
      ClaimArgs.ofProgram p = a := by
  rcases a with ⟨d, amount, n, chain, nonce, receiver, auto, sender, sigs⟩
  obtain ⟨auto, rfl⟩ := AutoParamsWire.ofProgram_surjective auto
  set p : Solana.ClaimArgs := ⟨d, amount, n, chain, nonce, receiver, auto, sender, sigs⟩
  have hvalid : (Solana.Instruction.claim p).Valid := BridgeSolana.valid_claimArgs h
  refine ⟨p, ?_, rfl⟩
  rw [← Solana.tryFromSlice_put hvalid, ← claimInstructionData_eq]
  rfl

/-- **What the relayer writes as a cancellation, the program reads as that cancellation.** -/
theorem tryFromSlice_cancelInstructionData {a : CancelArgs}
    (h : ∀ n ∈ transferLengths a.receiver a.auto a.nativeSender a.signatures, n < 2 ^ 32) :
    ∃ p, Solana.tryFromSlice (cancelInstructionData a) = some (.cancel p) ∧
      CancelArgs.ofProgram p = a := by
  rcases a with ⟨d, amount, n, chain, nonce, receiver, auto, sender, sigs⟩
  obtain ⟨auto, rfl⟩ := AutoParamsWire.ofProgram_surjective auto
  set p : Solana.ClaimArgs := ⟨d, amount, n, chain, nonce, receiver, auto, sender, sigs⟩
  have hvalid : (Solana.Instruction.cancel p).Valid := BridgeSolana.valid_claimArgs h
  refine ⟨p, ?_, rfl⟩
  rw [← Solana.tryFromSlice_put hvalid, ← cancelInstructionData_eq]
  rfl

/-- **What the relayer writes as a refund, the program reads as that refund.** -/
theorem tryFromSlice_refundInstructionData {a : RefundArgs}
    (h : ∀ n ∈ transferLengths a.receiver a.auto a.nativeSender a.signatures, n < 2 ^ 32) :
    ∃ p, Solana.tryFromSlice (refundInstructionData a) = some (.refund p) ∧
      RefundArgs.ofProgram p = a := by
  rcases a with ⟨d, amount, n, chain, nonce, receiver, auto, sender, sigs⟩
  obtain ⟨auto, rfl⟩ := AutoParamsWire.ofProgram_surjective auto
  set p : Solana.RefundArgs := ⟨d, amount, n, chain, nonce, receiver, auto, sender, sigs⟩
  have hvalid : (Solana.Instruction.refund p).Valid := BridgeSolana.valid_refundArgs h
  refine ⟨p, ?_, rfl⟩
  rw [← Solana.tryFromSlice_put hvalid, ← refundInstructionData_eq]
  rfl

end SolanaRelayer

/-! ### The frontend -/

namespace Frontend

/-! #### Numbers -/

/-- The lowest bytes are the bytes of the number, turned round. -/
theorem lowBytes_eq (n x : ℕ) : lowBytes n x = (BigEndian.toBytes n x).reverse := by
  induction n generalizing x with
  | zero => rfl
  | succ n ih =>
    have hbyte : UInt8.ofNat (x % 256) = UInt8.ofNat x := UInt8.ofNat_mod_size
    rw [lowBytes, ih, hbyte, BigEndian.toBytes, List.reverse_append]
    rfl

theorem lowBytes_word (v : U64) : lowBytes 8 v.toNat = Solana.u64.put v :=
  lowBytes_eq 8 v.toNat

theorem borshBytes_eq {bs : Bytes} (h : bs.length < 2 ^ 32) :
    borshBytes bs = Codec.bytes.put bs := by
  have hlen : (BitVec.ofNat 32 bs.length).toNat = bs.length := by
    rw [BitVec.toNat_ofNat, Nat.mod_eq_of_lt h]
  have hput : Codec.bytes.put bs =
      (BigEndian.toBytes 4 (BitVec.ofNat 32 bs.length).toNat).reverse ++
        bs.flatMap fun b => [b] := rfl
  rw [hput, hlen, borshBytes, lowBytes_eq, List.flatMap_singleton']

/-- A number that fits is written as the program reads it. -/
theorem u64le_eq (v : U64) : u64le v.toNat = .ok (Solana.u64.put v) := by
  have hlt := v.isLt
  rw [u64le, if_neg (by omega), Int.toNat_natCast, lowBytes_word]

/-! #### Hexadecimal -/

/-- The codes of the hexadecimal digits, of either case. -/
theorem toNat_of_toLower {c : Char} {n : ℕ} (hn : n < 16) (h : c.toLower = Hex.digit n) :
    (48 ≤ c.toNat ∧ c.toNat ≤ 57) ∨ (65 ≤ c.toNat ∧ c.toNat ≤ 70) ∨
      (97 ≤ c.toNat ∧ c.toNat ≤ 102) := by
  have hdigit : (48 ≤ c.toLower.toNat ∧ c.toLower.toNat ≤ 57) ∨
      (97 ≤ c.toLower.toNat ∧ c.toLower.toNat ≤ 102) := by
    rw [h]
    interval_cases n <;> decide
  delta Char.toLower at hdigit
  split at hdigit
  · next hupper =>
    simp only [ge_iff_le, UInt32.le_iff_toNat_le] at hupper
    have hA : 'A'.val.toNat = 65 := rfl
    have hZ : 'Z'.val.toNat = 90 := rfl
    have hgap : ('a'.val - 'A'.val).toNat = 32 := rfl
    have hsum : (c.val + ('a'.val - 'A'.val)).toNat = c.toNat + 32 := by
      rw [UInt32.toNat_add, hgap, Nat.mod_eq_of_lt (by omega)]
      rfl
    simp only [Char.toNat] at hdigit hsum ⊢
    omega
  · rcases hdigit with hdigit | hdigit
    · exact .inl hdigit
    · exact .inr (.inr hdigit)

theorem value_of_toLower {c : Char} {n : ℕ} (hn : n < 16) (h : c.toLower = Hex.digit n) :
    Hex.value c = some n := Hex.value_eq_some_iff.mpr ⟨hn, h⟩

theorem isHexDigit_of_toLower {c : Char} {n : ℕ} (hn : n < 16) (h : c.toLower = Hex.digit n) :
    isHexDigit c = true := by
  rw [isHexDigit, h]
  interval_cases n <;> decide

/-- Two hexadecimal digits, of either case, are the number they spell. -/
theorem parseInt16_digits {h l : Char} {a b : ℕ} (ha : a < 16) (hb : b < 16)
    (hh : h.toLower = Hex.digit a) (hl : l.toLower = Hex.digit b) :
    parseInt16 [h, l] = some ((16 * a + b : ℕ) : ℤ) := by
  have hcode := toNat_of_toLower ha hh
  have hcodel := toNat_of_toLower hb hl
  have hspace : isStrWhiteSpace h = false := by
    simp only [isStrWhiteSpace, Bool.or_eq_false_iff, Bool.and_eq_false_iff, beq_eq_false_iff_ne,
      decide_eq_false_iff_not]
    omega
  have hminus : h ≠ '-' := by
    rintro rfl
    exact absurd hcode (by decide)
  have hplus : h ≠ '+' := by
    rintro rfl
    exact absurd hcode (by decide)
  have hx : l ≠ 'x' := by
    rintro rfl
    exact absurd hcodel (by decide)
  have hX : l ≠ 'X' := by
    rintro rfl
    exact absurd hcodel (by decide)
  have hsign : splitSign [h, l] = (false, [h, l]) := by
    unfold splitSign
    split
    · next heq => exact absurd (List.cons.inj heq).1 hminus
    · next heq => exact absurd (List.cons.inj heq).1 hplus
    · rfl
  have hfront : stripPrefixes [h, l] = [h, l] := by
    unfold stripPrefixes
    split
    · next heq => exact absurd (List.cons.inj (List.cons.inj heq).2).1 hx
    · next heq => exact absurd (List.cons.inj (List.cons.inj heq).2).1 hX
    · rfl
  rw [parseInt16, List.dropWhile_cons_of_neg (by simp [hspace]), hsign]
  dsimp only
  rw [hfront, List.takeWhile_cons_of_pos (isHexDigit_of_toLower ha hh),
    List.takeWhile_cons_of_pos (isHexDigit_of_toLower hb hl), List.takeWhile_nil,
    if_neg (List.cons_ne_nil _ _)]
  simp only [List.foldl_cons, List.foldl_nil, value_of_toLower ha hh, value_of_toLower hb hl,
    Option.getD_some, Bool.false_eq_true, if_false]
  push_cast
  ring_nf

/-- Text that spells some bytes is read as those bytes. -/
theorem hexPairs_eq {s : Text} {bs : Bytes} (h : lower s = Hex.encode bs) : hexPairs s = bs := by
  induction bs generalizing s with
  | nil =>
    obtain rfl := List.map_eq_nil_iff.mp h
    rfl
  | cons b bs ih =>
    rw [Hex.encode_cons] at h
    obtain ⟨x, s, rfl, hx, h⟩ := List.map_eq_cons_iff.mp h
    obtain ⟨y, s, rfl, hy, h⟩ := List.map_eq_cons_iff.mp h
    have hlt := b.toNat_lt
    have hmod : ((b.toNat : ℤ) % 256).toNat = b.toNat := by omega
    rw [hexPairs, ih h, parseInt16_digits (by omega) (by omega) hx hy, toUint8,
      Nat.div_add_mod, Option.getD_some, hmod, UInt8.ofNat_toNat]

theorem hexToBytes_eq {s : Text} {bs : Bytes} (h : lower (stripPrefixes s) = Hex.encode bs) :
    hexToBytes s = .ok bs := by
  have hlen : (stripPrefixes s).length = 2 * bs.length := by
    rw [← Hex.length_encode, ← h, lower, List.length_map]
  rw [hexToBytes, if_neg (by omega), hexPairs_eq h]

/-- **What the frontend writes as a send, the program reads as that send**, without auto-params,
whichever way the asset is spelled. -/
theorem tryFromSlice_encodeGateSendData {text : Text} {receiver : Bytes} {d : Bytes32}
    {amount chainIdTo : U64} (htext : lower (stripPrefixes text) = Hex.encode (wordBytes d))
    (hreceiver : receiver.length < 2 ^ 32) :
    ∃ bs, encodeGateSendData ⟨text, amount.toNat, chainIdTo.toNat, receiver⟩ = .ok bs ∧
      Solana.tryFromSlice bs = some (.send ⟨d, amount, chainIdTo, receiver, none⟩) := by
  have hchain := chainIdTo.isLt
  have hput : encodeGateSendData ⟨text, amount.toNat, chainIdTo.toNat, receiver⟩ =
      .ok (Solana.Instruction.send ⟨d, amount, chainIdTo, receiver, none⟩).put := by
    rw [encodeGateSendData]
    dsimp only
    rw [revertIf_bind, if_neg (by omega), hexToBytes_eq htext, ok_bind, u64le_eq, ok_bind, u64le_eq,
      ok_bind, borshBytes_eq hreceiver]
    rfl
  refine ⟨_, hput, Solana.tryFromSlice_put (BridgeSolana.valid_of_lengths ?_)⟩
  rintro n hn
  obtain rfl := List.mem_singleton.mp hn
  exact hreceiver

end Frontend

/-! ### The ids of actions -/

namespace Solana

open Timelock

variable {R : Runtime} {s s' : Accounts} {clock : Clock} {accounts : List AccountInfo}
  {log : List Log}

/-- The power that an action is, with a mint and a vault. -/
def GovernanceAction.powerWith (mint vault : Pubkey) : GovernanceAction → Power
  | .addValidator validator => .addValidator validator
  | .lowerThreshold threshold => .lowerThreshold threshold
  | .registerAsset debridgeId bridgeDecimals =>
    .registerAsset debridgeId mint vault bridgeDecimals
  | .setGuardian guardian => .setGuardian guardian

/-- The instruction that takes the power. -/
def GovernanceAction.instruction : GovernanceAction → Instruction
  | .addValidator validator => .setValidator validator true
  | .lowerThreshold threshold => .setThreshold threshold
  | .registerAsset debridgeId bridgeDecimals => .registerAsset debridgeId bridgeDecimals
  | .setGuardian guardian => .setGuardian guardian

/-- What that instruction writes besides a schedule. -/
def GovernanceAction.writes (vault : Pubkey) : GovernanceAction → List (List Bytes)
  | .registerAsset debridgeId _ => [assetSeeds debridgeId, vaultSeeds vault]
  | _ => [configSeeds]

/-- **Scheduling an action** schedules its id, with the mint and the vault that it is handed. -/
theorem schedules_of_processInstruction {action : GovernanceAction}
    (h : processInstruction R clock s accounts (.scheduleAction action) = .ok (s', log)) :
    ∃ mint vault now r, action.power accounts = some (action.powerWith mint vault) ∧
      clock = some now ∧ r.toInt = now.toInt + GOVERNANCE_DELAY ∧
      scheduleOf R s' ((action.powerWith mint vault).actionId R.keccak256) = some r ∧
      log = [.scheduled ((action.powerWith mint vault).actionId R.keccak256)] := by
  obtain ⟨q, now, r, hq, hnow, hr, hs, hlog⟩ := schedules_of_processScheduleAction h
  have hpower : ∃ mint vault, q = action.powerWith mint vault := by
    cases action with
    | addValidator v => exact ⟨0, 0, (Option.some.inj hq).symm⟩
    | lowerThreshold t => exact ⟨0, 0, (Option.some.inj hq).symm⟩
    | registerAsset d n =>
      obtain ⟨a, -, rfl⟩ := Option.map_eq_some_iff.mp hq
      exact ⟨a.1.key, a.2.1.key, rfl⟩
    | setGuardian g => exact ⟨0, 0, (Option.some.inj hq).symm⟩
  obtain ⟨mint, vault, rfl⟩ := hpower
  exact ⟨mint, vault, now, r, hq, hnow, hr, hs, hlog⟩

/-- **Taking the power of an action** uses up the id of the action, or nothing if none is due. -/
theorem uses_of_processInstruction (hR : R.Lawful) {action : GovernanceAction}
    (h : processInstruction R clock s accounts action.instruction = .ok (s', log)) :
    ∃ mint vault cfg, configAt R s = some cfg ∧
      (∀ q, action.instruction.grants R clock s accounts cfg = some q →
        q = action.powerWith mint vault) ∧
      Uses R clock s s' (action.writes vault)
        (action.instruction.grants R clock s accounts cfg) := by
  cases action with
  | addValidator v =>
    obtain ⟨cfg, hcfg, hu⟩ := uses_of_processSetValidator (quiet_eq_ok.mp h).1
    refine ⟨0, 0, cfg, hcfg, ?_, hu⟩
    rintro q hq
    exact (Option.some.inj (Option.ite_none_right_eq_some.mp hq).2).symm
  | lowerThreshold t =>
    obtain ⟨cfg, hcfg, hu⟩ := uses_of_processSetThreshold (quiet_eq_ok.mp h).1
    refine ⟨0, 0, cfg, hcfg, ?_, hu⟩
    rintro q hq
    exact (Option.some.inj (Option.ite_none_right_eq_some.mp hq).2).symm
  | registerAsset d n =>
    obtain ⟨x, cfg, hx, hcfg, hu⟩ := uses_of_processRegisterAsset hR (quiet_eq_ok.mp h).1
    refine ⟨x.mint.key, x.vault.key, cfg, hcfg, ?_, hu⟩
    rintro q hq
    have hq' := (Option.ite_none_right_eq_some.mp hq).2
    rw [hx] at hq'
    exact (Option.some.inj hq').symm
  | setGuardian g =>
    obtain ⟨cfg, hcfg, hu⟩ := uses_of_processSetGuardian (quiet_eq_ok.mp h).1
    refine ⟨0, 0, cfg, hcfg, ?_, hu⟩
    rintro q hq
    exact (Option.some.inj (Option.ite_none_right_eq_some.mp hq).2).symm

end Solana

namespace Clients

open BridgeSolana Solana

/-- The id that the host library gives an action is that of the power it is. -/
theorem actionId_ofProgram (keccak256 : Bytes → Bytes32) (a : Solana.GovernanceAction)
    (mint vault : Pubkey) :
    (BridgeSolana.GovernanceAction.ofProgram a).actionId keccak256 mint vault =
      (a.powerWith mint vault).actionId keccak256 := by
  rw [Power.actionId_eq]
  cases a with
  | addValidator v =>
    exact congrArg keccak256 (List.append_assoc ..)
  | lowerThreshold t =>
    exact congrArg keccak256 (List.append_assoc ..)
  | registerAsset d n =>
    refine congrArg keccak256 ?_
    simp only [Power.hashed, GovernanceAction.powerWith, List.append_assoc]
    rfl
  | setGuardian g =>
    exact congrArg keccak256 (List.append_assoc ..)

/-- **Every client encodes the instruction the program runs.** What the host library, the relayer
and the frontend write is read by the program as the same variant with the same fields, down to
the last byte; what the program reads is what the host library writes; and the host library's id
of an action is the one that is scheduled and used up for it. -/
theorem encodings_agree (R : Runtime) (hR : R.Lawful) :
    (∀ ix : GateInstruction, (∀ n ∈ ix.lengths, n < 2 ^ 32) →
      ∃ p, tryFromSlice ix.toBytes = some p ∧ GateInstruction.ofProgram p = ix) ∧
    (∀ a : SolanaRelayer.ClaimArgs,
      (∀ n ∈ transferLengths a.receiver a.auto a.nativeSender a.signatures, n < 2 ^ 32) →
      ∃ p, tryFromSlice (SolanaRelayer.claimInstructionData a) = some (.claim p) ∧
        SolanaRelayer.ClaimArgs.ofProgram p = a) ∧
    (∀ a : SolanaRelayer.CancelArgs,
      (∀ n ∈ transferLengths a.receiver a.auto a.nativeSender a.signatures, n < 2 ^ 32) →
      ∃ p, tryFromSlice (SolanaRelayer.cancelInstructionData a) = some (.cancel p) ∧
        SolanaRelayer.CancelArgs.ofProgram p = a) ∧
    (∀ a : SolanaRelayer.RefundArgs,
      (∀ n ∈ transferLengths a.receiver a.auto a.nativeSender a.signatures, n < 2 ^ 32) →
      ∃ p, tryFromSlice (SolanaRelayer.refundInstructionData a) = some (.refund p) ∧
        SolanaRelayer.RefundArgs.ofProgram p = a) ∧
    (∀ (text : Text) (receiver : Bytes) (d : Bytes32) (amount chainIdTo : U64),
      lower (Frontend.stripPrefixes text) = Hex.encode (wordBytes d) →
      receiver.length < 2 ^ 32 →
      ∃ bs, Frontend.encodeGateSendData ⟨text, amount.toNat, chainIdTo.toNat, receiver⟩ = .ok bs ∧
        tryFromSlice bs = some (.send ⟨d, amount, chainIdTo, receiver, none⟩)) ∧
    (∀ data ix, tryFromSlice data = some ix → (GateInstruction.ofProgram ix).toBytes = data) ∧
    (∀ clock s accounts s' log (a : Solana.GovernanceAction),
      processInstruction R clock s accounts (.scheduleAction a) = .ok (s', log) →
      ∃ mint vault now r, a.power accounts = some (a.powerWith mint vault) ∧ clock = some now ∧
        r.toInt = now.toInt + GOVERNANCE_DELAY ∧
        scheduleOf R s'
          ((BridgeSolana.GovernanceAction.ofProgram a).actionId R.keccak256 mint vault) = some r ∧
        log = [.scheduled
          ((BridgeSolana.GovernanceAction.ofProgram a).actionId R.keccak256 mint vault)]) ∧
    (∀ clock s accounts s' log (a : Solana.GovernanceAction),
      processInstruction R clock s accounts a.instruction = .ok (s', log) →
      ∃ mint vault cfg, configAt R s = some cfg ∧
        (∀ q, a.instruction.grants R clock s accounts cfg = some q →
          q = a.powerWith mint vault ∧ ∃ s₁, Consumed R clock
            ((BridgeSolana.GovernanceAction.ofProgram a).actionId R.keccak256 mint vault) s s₁ ∧
            WroteSeeds R (a.writes vault) s₁ s') ∧
        (a.instruction.grants R clock s accounts cfg = none →
          WroteSeeds R (a.writes vault) s s')) := by
  refine ⟨fun ix h => tryFromSlice_toBytes h,
    fun a h => SolanaRelayer.tryFromSlice_claimInstructionData h,
    fun a h => SolanaRelayer.tryFromSlice_cancelInstructionData h,
    fun a h => SolanaRelayer.tryFromSlice_refundInstructionData h,
    fun text receiver d amount chainIdTo htext hreceiver =>
      Frontend.tryFromSlice_encodeGateSendData htext hreceiver,
    fun data ix h => toBytes_of_tryFromSlice h, ?_, ?_⟩
  · rintro clock s accounts s' log a h
    obtain ⟨mint, vault, now, r, hpower, hnow, hr, hs, hlog⟩ := schedules_of_processInstruction h
    refine ⟨mint, vault, now, r, hpower, hnow, hr, ?_, ?_⟩
    · rw [actionId_ofProgram]
      exact hs
    · rw [actionId_ofProgram]
      exact hlog
  · rintro clock s accounts s' log a h
    obtain ⟨mint, vault, cfg, hcfg, hgrants, hu⟩ := uses_of_processInstruction hR h
    refine ⟨mint, vault, cfg, hcfg, ?_, ?_⟩
    · rintro q hq
      obtain rfl := hgrants q hq
      rw [hq] at hu
      rw [actionId_ofProgram]
      exact ⟨rfl, hu⟩
    · rintro hq
      rw [hq] at hu
      exact hu

/-- A claim with auto-params and two signatures, as the relayer has it. -/
def sampleClaim : SolanaRelayer.ClaimArgs where
  debridgeId := Cluster.debridgeId
  amount := 1000
  bridgeDecimals := 6
  chainIdFrom := 1961
  nonce := 7
  receiver := List.replicate 32 9
  auto := some ⟨5, 1, [1, 2, 3], []⟩
  nativeSender := List.replicate 20 4
  signatures := [List.replicate 65 1, List.replicate 65 2]

theorem encodings_agree_sampleClaim :
    (∃ p, tryFromSlice (SolanaRelayer.claimInstructionData sampleClaim) = some (.claim p) ∧
      SolanaRelayer.ClaimArgs.ofProgram p = sampleClaim) ∧
    ∃ bs, Frontend.encodeGateSendData ⟨hexText (wordBytes Cluster.debridgeId), (1000 : U64).toNat,
        (1961 : U64).toNat, [7, 8]⟩ = .ok bs ∧
      tryFromSlice bs = some (.send ⟨Cluster.debridgeId, 1000, 1961, [7, 8], none⟩) := by
  obtain ⟨-, hclaim, -, -, hsend, -⟩ := encodings_agree Cluster.runtime Cluster.lawful
  have hfits : ∀ n ∈ transferLengths sampleClaim.receiver sampleClaim.auto sampleClaim.nativeSender
      sampleClaim.signatures, n < 2 ^ 32 := by decide
  have htext : lower (Frontend.stripPrefixes (hexText (wordBytes Cluster.debridgeId))) =
      Hex.encode (wordBytes Cluster.debridgeId) := lower_hexEncode _
  exact ⟨hclaim _ hfits, hsend _ [7, 8] Cluster.debridgeId 1000 1961 htext (by decide)⟩

end Clients

end SelendraBridge
