import SelendraBridge.Digest
import SelendraBridge.Store.Standard
import SelendraBridge.Submit.Encodable

/-!
# Which records the Solana relayer skips wrongly

A record that passes the store's checks has an id, and the program may or may not have
arguments with that id: its amounts have 64 bits, its fees 128, its flags 64, and it hashes
under its own domain (`SelendraBridge.SolanaRelayer.expressible_iff`). A skip is right if there
are none.

Where there are some, the relayer builds an instruction with them just if the record is written
the way that it reads (`SelendraBridge.SolanaRelayer.Plain`):

* the amount in decimal digits – not in one of the other notations of the store's parser, such
  as `0x3e8`;
* the payload with its tuple at `0x20`, and so that the gate's own decoder takes it – the
  library that the store decodes with follows any offset.

Records that are written otherwise are stranded. That the relayer never builds a wrong
instruction holds of all of them.

Nothing is assumed about the receiver of the program's arguments. The string that is hashed
does not say how long it is, so arguments with an overlong receiver can spell a payload, if the
hash at its end happens to be a number of 64 bits.
-/

namespace SelendraBridge

namespace SolanaRelayer

open Revert Store
open Solana (AutoParamsWire Config IdParams Narrow be32 be32_eq claimParams decodeEvmAutoParams
  refundParams submissionPreimage tryFromSlice)

/-- **What the parsers of the store are documented to do**, beyond
`SelendraBridge.Store.Parsers.Lawful`: digits are a decimal number, there are no signs, and what
the gate decodes, the library decodes alike. -/
structure Documented (P : Parsers) : Prop where
  u256_digits : ∀ {s : Text}, s ≠ [] → s.all isDigit = true →
    P.u256 s = if Nat.ofDigitChars 10 s 0 < 2 ^ 256 then
      some (BitVec.ofNat 256 (Nat.ofDigitChars 10 s 0)) else none
  u256_plus : ∀ s, P.u256 ('+' :: s) = none
  abiDecode_of_gate : ∀ {bs ap}, Abi.decodeAutoParamsTo bs = some ap → P.abiDecode bs = some ap

section Skips

variable (keccak256 : Bytes → Bytes32) (P : Parsers) (cfg : Config)

/-! ### The statement -/

/-- What the three instructions with a submission hash. -/
def instructionParams : Solana.Instruction → Option IdParams
  | .claim a => some (claimParams cfg a)
  | .cancel a => some (claimParams cfg a)
  | .refund a => some (refundParams cfg a)
  | _ => none

/-- **The instruction reproduces the id of a record**, and does so by hashing the same string
and not by a collision. -/
structure Reproduces (rec : SubmissionRecord) (id : Bytes32) (ix : Solana.Instruction)
    (p : IdParams) (string : Bytes) : Prop where
  params : instructionParams cfg ix = some p
  preimage : recordPreimage keccak256 P rec = .ok string
  id : Solana.submissionId keccak256 cfg.bridgeDomain p = id
  collisionFree :
    CollisionFree keccak256 [submissionPreimage keccak256 cfg.bridgeDomain p, string]

/-- Signatures that an instruction can carry. -/
def Carried (signatures : List Bytes) : Prop :=
  signatures.length < 2 ^ 32 ∧ ∀ s ∈ signatures, s.length < 2 ^ 32

/-- **The instructions built from a record have its id**, for the program that reads them. -/
structure Rebuilds (rec : SubmissionRecord) (id : Bytes32) (enc : EncodableRecord) : Prop where
  claim : rec.chainIdTo = cfg.chainId → ∀ signatures, Carried signatures →
    ∃ a, tryFromSlice (claimInstructionData (claimArgs rec enc signatures)) = some (.claim a) ∧
      Solana.submissionId keccak256 cfg.bridgeDomain (claimParams cfg a) = id
  cancel : rec.chainIdTo = cfg.chainId → ∀ signatures, Carried signatures →
    ∃ a, tryFromSlice (cancelInstructionData (cancelArgs rec enc signatures)) = some (.cancel a) ∧
      Solana.submissionId keccak256 cfg.bridgeDomain (claimParams cfg a) = id
  refund : rec.chainIdFrom = cfg.chainId → ∀ signatures, Carried signatures →
    ∃ a, tryFromSlice (refundInstructionData (refundArgs rec enc signatures)) = some (.refund a) ∧
      Solana.submissionId keccak256 cfg.bridgeDomain (refundParams cfg a) = id

/-- **No record is skipped wrongly**: if an instruction reproduces the id, the relayer builds
one that does, and whatever it builds does. -/
structure SkipsRightly (rec : SubmissionRecord) (id : Bytes32) : Prop where
  encodes : ∀ ix p string, Reproduces keccak256 P cfg rec id ix p string →
    ∃ enc, encodable keccak256 P rec cfg.bridgeDomain = .ok enc ∧
      Rebuilds keccak256 cfg rec id enc
  rebuilds : ∀ enc, encodable keccak256 P rec cfg.bridgeDomain = .ok enc →
    Rebuilds keccak256 cfg rec id enc

/-- **The program has room for a record.** -/
structure Expressible (p : ParsedRecord) : Prop where
  domain : p.bridgeDomain = cfg.bridgeDomain
  amount : p.amount.toNat < 2 ^ 64
  payload : ∀ a, p.auto = some a → (a.executionFee.toNat < 2 ^ 128 ∧ a.flags.toNat < 2 ^ 64) ∨
    (keccak256 a.nativeSender).toNat < 2 ^ 64

end Skips

/-- **A record as the relayer reads it**: a decimal amount, and a payload with its tuple where
an encoder puts it, that the gate decodes. -/
structure Plain (rec : SubmissionRecord) (p : ParsedRecord) : Prop where
  ne_nil : rec.amount ≠ []
  digits : rec.amount.all isDigit = true
  payload : p.autoParams ≠ [] →
    Narrow p.autoParams ∧ (Abi.decodeAutoParamsTo p.autoParams).isSome = true

variable {keccak256 : Bytes → Bytes32} {P : Parsers} {cfg : Config} {rec : SubmissionRecord}
  {id : Bytes32} {p : ParsedRecord}

/-! ### The two strings -/

/-- What is behind the nonce of the program's string. -/
def wireTail (keccak256 : Bytes → Bytes32) (q : IdParams) : Bytes :=
  q.auto.elim [] fun w => BridgeHash.packedAuto keccak256 (w.widened q.nativeSender)

/-- What is behind the nonce of the record's string. -/
def recordTail (keccak256 : Bytes → Bytes32) (p : ParsedRecord) : Bytes :=
  p.auto.elim [] (BridgeHash.packedAuto keccak256)

theorem submissionPreimage_eq_append (d : Bytes32) (q : IdParams) :
    submissionPreimage keccak256 d q = q.contractBase d ++ wireTail keccak256 q := by
  rw [← Solana.contractString_eq, IdParams.contractString, wireTail]
  rcases q.auto with _ | w
  · exact (List.append_nil _).symm
  · rfl

theorem packRecord_eq_append (rec : SubmissionRecord) (p : ParsedRecord) :
    packRecord keccak256 rec p = BridgeHash.packedSubmission p.bridgeDomain p.debridgeId
      p.bridgeDecimals p.amount (rec.chainIdFrom.setWidth 256) (rec.chainIdTo.setWidth 256)
      (rec.nonce.setWidth 256) p.receiver ++ recordTail keccak256 p := by
  rw [packRecord, BridgeCore.packedSubmission_eq, recordTail]
  rcases p.auto with _ | a
  · simp only [Option.elim, List.append_nil]
  · simp only [Option.elim, BridgeCore.packedAuto_eq]

/-- **Up to the receiver, equal strings have equal fields**, however long the receivers are. -/
theorem fields_of_string_eq {d : Bytes32} {q : IdParams}
    (h : submissionPreimage keccak256 d q = packRecord keccak256 rec p) :
    d = p.bridgeDomain ∧ q.amount.setWidth 256 = p.amount ∧
      q.receiver ++ (wordBytes (q.nonce.setWidth 256) ++ wireTail keccak256 q) =
        p.receiver ++ (wordBytes (rec.nonce.setWidth 256) ++ recordTail keccak256 p) := by
  rw [submissionPreimage_eq_append, packRecord_eq_append] at h
  simp only [IdParams.contractBase, BridgeHash.packedSubmission, List.append_assoc,
    wordBytes_append_inj, List.cons_append, List.nil_append, List.cons.injEq] at h
  obtain ⟨-, hd, -, -, -, -, hamount, htail⟩ := h
  exact ⟨hd, hamount, htail⟩

/-- **A payload behind a short receiver is one of the program's**, or its last word is a nonce
of the program's. -/
theorem payload_of_tail_eq {q : IdParams}
    (h : q.receiver ++ (wordBytes (q.nonce.setWidth 256) ++ wireTail keccak256 q) =
      p.receiver ++ (wordBytes (rec.nonce.setWidth 256) ++ recordTail keccak256 p))
    {a : AutoParams} (ha : p.auto = some a) :
    (a.executionFee.toNat < 2 ^ 128 ∧ a.flags.toNat < 2 ^ 64) ∨
      (keccak256 a.nativeSender).toNat < 2 ^ 64 := by
  rw [wireTail, recordTail, ha, Option.elim] at h
  rcases hq : q.auto with _ | w
  · -- The last word of the payload stands where the nonce of the program does.
    refine .inr ?_
    rw [hq, Option.elim, List.append_nil, BridgeHash.packedAuto] at h
    simp only [← List.append_assoc] at h
    obtain ⟨-, hword⟩ := List.append_inj' h (by rw [length_wordBytes, length_wordBytes])
    rw [← wordBytes_inj.mp hword, BitVec.toNat_setWidth_of_le (by omega)]
    exact q.nonce.isLt
  · -- Both strings end with a payload, so that the receivers have one length.
    refine .inl ?_
    rw [hq, Option.elim] at h
    have htotal := congrArg List.length h
    simp only [List.length_append, length_wordBytes, BridgeHash.length_packedAuto] at htotal
    obtain ⟨-, h⟩ := List.append_inj h (by omega)
    obtain ⟨-, h⟩ := wordBytes_append_inj.mp h
    rw [BridgeHash.packedAuto, BridgeHash.packedAuto] at h
    obtain ⟨hfee, h⟩ := wordBytes_append_inj.mp h
    obtain ⟨hflags, -⟩ := wordBytes_append_inj.mp h
    rw [← hfee, ← hflags]
    constructor
    · exact (BitVec.toNat_setWidth_of_le (by omega)).trans_lt w.executionFee.isLt
    · exact (BitVec.toNat_setWidth_of_le (by omega)).trans_lt w.flags.isLt

/-! ### What the program can express -/

/-- Some instruction hashes given parameters, if one of their chains is the program's. -/
theorem exists_instructionParams {q : IdParams}
    (h : q.chainIdTo = cfg.chainId ∨ q.chainIdFrom = cfg.chainId) :
    ∃ ix, instructionParams cfg ix = some q := by
  obtain ⟨deb, dec, amount, chainFrom, chainTo, nonce, receiver, auto, nativeSender⟩ := q
  rcases h with rfl | rfl
  · exact ⟨.claim ⟨deb, amount, dec, chainFrom, nonce, receiver, auto, nativeSender, []⟩, rfl⟩
  · exact ⟨.refund ⟨deb, amount, dec, chainTo, nonce, receiver, auto, nativeSender, []⟩, rfl⟩

/-- The parameters of a record, with a tail of their own. -/
def paramsWith (rec : SubmissionRecord) (p : ParsedRecord) (nonce : U64) (receiver : Bytes)
    (auto : Option AutoParamsWire) : IdParams where
  debridgeId := p.debridgeId
  bridgeDecimals := p.bridgeDecimals
  amount := p.amount.setWidth 64
  chainIdFrom := rec.chainIdFrom
  chainIdTo := rec.chainIdTo
  nonce
  receiver
  auto
  nativeSender := p.nativeSender

/-- With the tail of the record, they are hashed as the record is. -/
theorem submissionPreimage_paramsWith (h : p.amount.toNat < 2 ^ 64) {nonce : U64}
    {receiver : Bytes} {auto : Option AutoParamsWire}
    (htail : receiver ++ (wordBytes (nonce.setWidth 256) ++
        wireTail keccak256 (paramsWith rec p nonce receiver auto)) =
      p.receiver ++ (wordBytes (rec.nonce.setWidth 256) ++ recordTail keccak256 p)) :
    submissionPreimage keccak256 p.bridgeDomain (paramsWith rec p nonce receiver auto) =
      packRecord keccak256 rec p := by
  have hamount : (p.amount.setWidth 64).setWidth 256 = p.amount := by
    refine BitVec.eq_of_toNat_eq ?_
    rw [BitVec.toNat_setWidth_of_le (by omega), BitVec.toNat_setWidth, Nat.mod_eq_of_lt h]
  rw [submissionPreimage_eq_append, packRecord_eq_append]
  simp only [IdParams.contractBase, BridgeHash.packedSubmission, List.append_assoc, paramsWith,
    hamount]
  rw [← htail]
  rfl

/-- A payload, as the program takes it. -/
def narrowed (a : AutoParams) : AutoParamsWire :=
  ⟨a.executionFee.setWidth 128, a.flags.setWidth 64, a.fallbackAddress, a.data⟩

/-- Narrowed, a payload that fits is hashed as it was. -/
theorem tail_narrowed {a : AutoParams} (ha : p.auto = some a)
    (hsender : a.nativeSender = p.nativeSender) (hfee : a.executionFee.toNat < 2 ^ 128)
    (hflags : a.flags.toNat < 2 ^ 64) :
    p.receiver ++ (wordBytes (rec.nonce.setWidth 256) ++
        wireTail keccak256 (paramsWith rec p rec.nonce p.receiver (some (narrowed a)))) =
      p.receiver ++ (wordBytes (rec.nonce.setWidth 256) ++ recordTail keccak256 p) := by
  have hfee' : (a.executionFee.setWidth 128).setWidth 256 = a.executionFee := by
    refine BitVec.eq_of_toNat_eq ?_
    rw [BitVec.toNat_setWidth_of_le (by omega), BitVec.toNat_setWidth, Nat.mod_eq_of_lt hfee]
  have hflags' : (a.flags.setWidth 64).setWidth 256 = a.flags := by
    refine BitVec.eq_of_toNat_eq ?_
    rw [BitVec.toNat_setWidth_of_le (by omega), BitVec.toNat_setWidth, Nat.mod_eq_of_lt hflags]
  rw [wireTail, recordTail, ha]
  simp only [paramsWith, narrowed, Option.elim, BridgeHash.packedAuto, AutoParamsWire.widened,
    hfee', hflags', hsender]

/-- **What the program has room for, it has arguments for**: those of the record, or a plain
transfer to an overlong receiver. -/
theorem exists_reproduces (hgate : rec.chainIdTo = cfg.chainId ∨ rec.chainIdFrom = cfg.chainId)
    (hp : parseRecord P rec = .ok p) (hid : keccak256 (packRecord keccak256 rec p) = id)
    (hauto : ∀ a, p.auto = some a → a.nativeSender = p.nativeSender)
    (h : Expressible keccak256 cfg p) :
    ∃ ix q string, Reproduces keccak256 P cfg rec id ix q string := by
  -- It is enough to spell the tail of the record.
  suffices htail : ∃ nonce receiver auto, receiver ++ (wordBytes (BitVec.setWidth 256 nonce) ++
      wireTail keccak256 (paramsWith rec p nonce receiver auto)) =
        p.receiver ++ (wordBytes (rec.nonce.setWidth 256) ++ recordTail keccak256 p) by
    obtain ⟨nonce, receiver, auto, htail⟩ := htail
    have hstring := submissionPreimage_paramsWith h.amount htail
    rw [h.domain] at hstring
    obtain ⟨ix, hix⟩ := exists_instructionParams (q := paramsWith rec p nonce receiver auto) hgate
    refine ⟨ix, _, _, hix, recordPreimage_eq_ok.mpr ⟨p, hp, rfl⟩, ?_, ?_⟩
    · rw [Solana.submissionId, hstring, hid]
    · rw [hstring]
      simp [CollisionFree]
  rcases ha : p.auto with _ | a
  · refine ⟨rec.nonce, p.receiver, none, ?_⟩
    rw [wireTail, recordTail, ha]
    rfl
  · have hsender := hauto a ha
    rcases h.payload a ha with ⟨hfee, hflags⟩ | hsmall
    · exact ⟨rec.nonce, p.receiver, _, tail_narrowed ha hsender hfee hflags⟩
    · have hnonce : ((keccak256 a.nativeSender).setWidth 64).setWidth 256 =
          keccak256 a.nativeSender := by
        refine BitVec.eq_of_toNat_eq ?_
        rw [BitVec.toNat_setWidth_of_le (by omega), BitVec.toNat_setWidth, Nat.mod_eq_of_lt hsmall]
      refine ⟨(keccak256 a.nativeSender).setWidth 64, p.receiver ++
        (wordBytes (rec.nonce.setWidth 256) ++ (wordBytes a.executionFee ++ (wordBytes a.flags ++
          (wordBytes (keccak256 a.fallbackAddress) ++ wordBytes (keccak256 a.data))))), none, ?_⟩
      rw [wireTail, recordTail, ha, hnonce]
      simp only [paramsWith, Option.elim, BridgeHash.packedAuto, List.append_assoc, List.append_nil]

/-- **The program has arguments for what it has room for, and for nothing else.** -/
theorem expressible_iff (hgate : rec.chainIdTo = cfg.chainId ∨ rec.chainIdFrom = cfg.chainId)
    (hp : parseRecord P rec = .ok p) (hid : keccak256 (packRecord keccak256 rec p) = id)
    (hauto : ∀ a, p.auto = some a → a.nativeSender = p.nativeSender) :
    (∃ ix q string, Reproduces keccak256 P cfg rec id ix q string) ↔
      Expressible keccak256 cfg p := by
  refine ⟨?_, exists_reproduces hgate hp hid hauto⟩
  rintro ⟨ix, q, string, h⟩
  obtain ⟨p', hp', rfl⟩ := recordPreimage_eq_ok.mp h.preimage
  obtain rfl := Except.ok.inj (hp.symm.trans hp')
  have hstring := h.collisionFree _ List.mem_cons_self _
    (List.mem_cons_of_mem _ List.mem_cons_self) (h.id.trans hid.symm)
  obtain ⟨hd, hamount, htail⟩ := fields_of_string_eq hstring
  refine ⟨hd.symm, ?_, fun a ha => payload_of_tail_eq htail ha⟩
  rw [← hamount, BitVec.toNat_setWidth_of_le (by omega)]
  exact q.amount.isLt

/-! ### What the relayer reads -/

/-- A payload comes with the native sender of its record. -/
theorem nativeSender_of_parseRecord (hp : parseRecord P rec = .ok p) {a : AutoParams}
    (ha : p.auto = some a) : a.nativeSender = p.nativeSender := by
  have h := (parseRecord_eq_ok.mp hp).2.2.2.2.2.2.2
  rw [decodeAutoParams, ha] at h
  split at h
  · cases h
  · obtain ⟨ap, -, h⟩ := Option.bind_eq_some_iff.mp h
    obtain rfl := Option.some.inj (Option.some.inj h)
    rfl

/-- **A plain amount is read as the store reads it.** -/
theorem parseU64_of_plain (hdoc : Documented P) (hp : parseRecord P rec = .ok p)
    (hne : rec.amount ≠ []) (hdigits : rec.amount.all isDigit = true)
    (hlt : p.amount.toNat < 2 ^ 64) : parseU64 rec.amount = some (p.amount.setWidth 64) := by
  have hamount := (parseRecord_eq_ok.mp hp).2.2.1
  rw [hdoc.u256_digits hne hdigits, Option.ite_none_right_eq_some] at hamount
  obtain ⟨hsmall, hval⟩ := hamount
  have hnat := congrArg BitVec.toNat (Option.some.inj hval)
  rw [BitVec.toNat_ofNat, Nat.mod_eq_of_lt hsmall] at hnat
  rw [parseU64_eq_some, unsignedDigits_of_digits hdigits, hnat, BitVec.toNat_setWidth,
    Nat.mod_eq_of_lt hlt]
  exact ⟨hne, hdigits, rfl⟩

/-- **A plain payload is read as the store reads it.** -/
theorem auto_of_plain (hdoc : Documented P) (hp : parseRecord P rec = .ok p)
    (hlen : p.autoParams.length < 2 ^ 64) (h : Plain rec p) :
    decodeEvmAutoParams p.autoParams = .ok (p.auto.map narrowed) ∧
      ∀ a, p.auto = some a → a.executionFee.toNat < 2 ^ 128 ∧ a.flags.toNat < 2 ^ 64 := by
  have hdecode := (parseRecord_eq_ok.mp hp).2.2.2.2.2.2.2
  rw [decodeAutoParams] at hdecode
  by_cases hne : p.autoParams = []
  · rw [if_pos hne] at hdecode
    rw [← Option.some.inj hdecode, hne]
    exact ⟨rfl, fun a ha => by cases ha⟩
  · obtain ⟨hnarrow, hsome⟩ := h.payload hne
    obtain ⟨ap, hap⟩ := Option.isSome_iff_exists.mp hsome
    rw [if_neg hne, hdoc.abiDecode_of_gate hap] at hdecode
    rw [← Option.some.inj hdecode]
    refine ⟨(Solana.decodeEvmAutoParams_eq_ok hne hlen hap).mpr ⟨hnarrow, rfl⟩, ?_⟩
    rintro a ha
    obtain rfl := Option.some.inj ha
    exact hnarrow.lt hap

/-- **A plain record that the program has room for is encodable.** -/
theorem encodable_of_plain (hP : P.Lawful) (hdoc : Documented P)
    (hname : P.b256 rec.submissionId = some id) (hp : parseRecord P rec = .ok p)
    (hid : keccak256 (packRecord keccak256 rec p) = id) (hlen : p.autoParams.length < 2 ^ 64)
    (hexp : Expressible keccak256 cfg p) (h : Plain rec p) :
    ∃ enc, encodable keccak256 P rec cfg.bridgeDomain = .ok enc := by
  obtain ⟨hdom, hdeb, -, hdec, hrcv, hap, hns, -⟩ := parseRecord_eq_ok.mp hp
  obtain ⟨hauto, hfits⟩ := auto_of_plain hdoc hp hlen h
  refine ⟨⟨id, p.debridgeId, p.amount.setWidth 64, p.bridgeDecimals, p.receiver, p.nativeSender,
    p.auto.map narrowed⟩, encodable_eq_ok.mpr ⟨?_, ?_, ?_, (hexBytes_iff_store hP).mpr hrcv,
      (hexBytes_iff_store hP).mpr hns, parseU64_of_plain hdoc hp h.ne_nil h.digits hexp.amount,
      hdec, ⟨_, (hexBytes_iff_store hP).mpr hap, hauto⟩, ?_⟩⟩
  · rw [hex32_eq hP, hname]
  · rw [hex32_eq hP, hdom, hexp.domain]
  · rw [hex32_eq hP, hdeb]
  · have htail : p.receiver ++ (wordBytes (rec.nonce.setWidth 256) ++ wireTail keccak256
        (paramsWith rec p rec.nonce p.receiver (p.auto.map narrowed))) =
        p.receiver ++ (wordBytes (rec.nonce.setWidth 256) ++ recordTail keccak256 p) := by
      rcases ha : p.auto with _ | a
      · rw [wireTail, recordTail, ha]
        rfl
      · exact tail_narrowed ha (nativeSender_of_parseRecord hp ha) (hfits a ha).1 (hfits a ha).2
    have hstring := submissionPreimage_paramsWith hexp.amount htail
    rw [← hid, ← hstring, hexp.domain]
    rfl

/-- **An encodable record is plain.** -/
theorem plain_of_encodable (hP : P.Lawful) (hdoc : Documented P) (hp : parseRecord P rec = .ok p)
    (hlen : p.autoParams.length < 2 ^ 64) {d : Bytes32} {enc : EncodableRecord}
    (h : encodable keccak256 P rec d = .ok enc) : Plain rec p := by
  obtain ⟨-, -, hamount, -, -, hap, -, -⟩ := parseRecord_eq_ok.mp hp
  obtain ⟨-, -, -, -, -, hread, -, ⟨blob, hblob, hdecode⟩, -⟩ := encodable_eq_ok.mp h
  -- The store has no sign to read.
  have hsign : unsignedDigits rec.amount = rec.amount := by
    unfold unsignedDigits
    split
    · next hplus =>
      rw [hplus, hdoc.u256_plus] at hamount
      cases hamount
    · rfl
  rw [parseU64_eq_some, hsign] at hread
  obtain rfl : blob = p.autoParams := Option.some.inj
    (hblob.symm.trans ((hexBytes_iff_store hP).mpr hap))
  refine ⟨hread.1, hread.2.1, fun hne => ?_⟩
  rcases hauto : enc.auto with _ | w
  · rw [hauto, decodeEvmAutoParams, if_neg hne] at hdecode
    simp only [bind_eq_ok, pure_eq_ok, reduceCtorEq, and_false, exists_false] at hdecode
  · rw [hauto] at hdecode
    obtain ⟨hnarrow, ap, hap, -⟩ := Solana.decode_of_decodeEvmAutoParams hlen hdecode
    exact ⟨hnarrow, by rw [hap]; rfl⟩

/-! ### What the relayer builds -/

/-- Text within the bounds of the store has few bytes. -/
theorem length_le_of_hexBytes (hP : P.Lawful) {s : Text} {bs : Bytes} {n : ℕ}
    (hs : (stripHexPrefix s).length ≤ 2 * n) (h : hexBytes P s = some bs) : bs.length ≤ n := by
  have hlen := congrArg List.length ((hexBytes_eq_some hP).mp h)
  rw [lower, List.length_map, Hex.length_encode] at hlen
  omega

/-- A string of a payload lies within it. -/
theorem length_le_of_decodeMember {blob b : Bytes} {base i : ℕ}
    (h : Abi.decodeMember blob base i = some b) : b.length ≤ blob.length := by
  obtain ⟨-, -, -, -, rfl⟩ := Abi.decodeMember_eq_some.mp h
  rw [sliceAt, List.length_take, List.length_drop]
  omega

/-- And so do both of them. -/
theorem length_le_of_decode {blob : Bytes} {ap : AutoParamsTo}
    (h : Abi.decodeAutoParamsTo blob = some ap) :
    ap.fallbackAddress.length ≤ blob.length ∧ ap.data.length ≤ blob.length := by
  simp only [Abi.decodeAutoParamsTo, Option.ite_none_left_eq_some] at h
  obtain ⟨-, -, -, h⟩ := h
  obtain ⟨fallbackAddress, hfb, h⟩ := Option.bind_eq_some_iff.mp h
  obtain ⟨d, hd, h⟩ := Option.bind_eq_some_iff.mp h
  obtain rfl := Option.some.inj h
  exact ⟨length_le_of_decodeMember hfb, length_le_of_decodeMember hd⟩

/-- **The vectors of an instruction fit**, for a record within the bounds of the store. -/
theorem lengths_of_encodable (hP : P.Lawful) (hs : checkStorable rec = .ok ()) {d : Bytes32}
    {enc : EncodableRecord} (h : encodable keccak256 P rec d = .ok enc) {signatures : List Bytes}
    (hsigs : Carried signatures) : ∀ n ∈ BridgeSolana.transferLengths enc.receiver
      (enc.auto.map BridgeSolana.AutoParamsWire.ofProgram) enc.nativeSender signatures,
      n < 2 ^ 32 := by
  simp only [checkStorable, boundedHex_bind_eq_ok] at hs
  obtain ⟨hreceiver, hsender, hblob, -⟩ := hs
  obtain ⟨-, -, -, hrcv, hns, -, -, ⟨blob, hread, hdecode⟩, -⟩ := encodable_eq_ok.mp h
  have hreceiver' := length_le_of_hexBytes hP hreceiver hrcv
  have hsender' := length_le_of_hexBytes hP hsender hns
  have hblob' := length_le_of_hexBytes hP hblob hread
  simp only [MAX_ACCOUNT_BYTES, MAX_AUTO_PARAMS_BYTES] at hreceiver' hsender' hblob'
  intro n hn
  simp only [BridgeSolana.transferLengths, List.mem_cons, List.mem_append, List.mem_map] at hn
  rcases hn with rfl | rfl | rfl | ⟨sig, hsig, rfl⟩ | hn
  · omega
  · omega
  · exact hsigs.1
  · exact hsigs.2 sig hsig
  · rcases hauto : enc.auto with _ | w
    · rw [hauto] at hn
      cases hn
    · rw [hauto] at hn hdecode
      obtain ⟨-, ap, hap, rfl⟩ := Solana.decode_of_decodeEvmAutoParams (by omega) hdecode
      obtain ⟨hfb, hd⟩ := length_le_of_decode hap
      simp only [BridgeSolana.autoLengths, Option.map_some, BridgeSolana.AutoParamsWire.ofProgram,
        List.mem_cons, List.not_mem_nil, or_false] at hn
      omega

/-- **What the relayer builds has the id of the record**, for the program that reads it. -/
theorem rebuilds_of_encodable (hP : P.Lawful) (hs : checkStorable rec = .ok ())
    (hname : P.b256 rec.submissionId = some id) {enc : EncodableRecord}
    (h : encodable keccak256 P rec cfg.bridgeDomain = .ok enc) :
    Rebuilds keccak256 cfg rec id enc := by
  obtain ⟨hid, -, -, -, -, -, -, -, hhash⟩ := encodable_eq_ok.mp h
  rw [hex32_eq hP, hname] at hid
  rw [← Option.some.inj hid] at hhash
  refine ⟨fun hchain signatures hsigs => ?_, fun hchain signatures hsigs => ?_,
    fun hchain signatures hsigs => ?_⟩
  · set a : Solana.ClaimArgs := ⟨enc.debridgeId, enc.amount, enc.bridgeDecimals, rec.chainIdFrom,
      rec.nonce, enc.receiver, enc.auto, enc.nativeSender, signatures⟩
    have hvalid : (Solana.Instruction.claim a).Valid :=
      BridgeSolana.valid_claimArgs (lengths_of_encodable hP hs h hsigs)
    refine ⟨a, ?_, ?_⟩
    · rw [← Solana.tryFromSlice_put hvalid, ← claimInstructionData_eq]
      rfl
    · rw [← hhash, claimParams, ← hchain]
      rfl
  · set a : Solana.ClaimArgs := ⟨enc.debridgeId, enc.amount, enc.bridgeDecimals, rec.chainIdFrom,
      rec.nonce, enc.receiver, enc.auto, enc.nativeSender, signatures⟩
    have hvalid : (Solana.Instruction.cancel a).Valid :=
      BridgeSolana.valid_claimArgs (lengths_of_encodable hP hs h hsigs)
    refine ⟨a, ?_, ?_⟩
    · rw [← Solana.tryFromSlice_put hvalid, ← cancelInstructionData_eq]
      rfl
    · rw [← hhash, claimParams, ← hchain]
      rfl
  · set a : Solana.RefundArgs := ⟨enc.debridgeId, enc.amount, enc.bridgeDecimals, rec.chainIdTo,
      rec.nonce, enc.receiver, enc.auto, enc.nativeSender, signatures⟩
    have hvalid : (Solana.Instruction.refund a).Valid :=
      BridgeSolana.valid_refundArgs (lengths_of_encodable hP hs h hsigs)
    refine ⟨a, ?_, ?_⟩
    · rw [← Solana.tryFromSlice_put hvalid, ← refundInstructionData_eq]
      rfl
    · rw [← hhash, refundParams, ← hchain]
      rfl

/-! ### The result -/

/-- **When no record is skipped wrongly**: just if what the program has room for is written the
way that the relayer reads. -/
theorem skipsRightly_iff (hP : P.Lawful) (hdoc : Documented P)
    (hstored : Db.verifyBinding keccak256 P rec = .ok id)
    (hgate : rec.chainIdTo = cfg.chainId ∨ rec.chainIdFrom = cfg.chainId) :
    SkipsRightly keccak256 P cfg rec id ↔
      ∀ p, parseRecord P rec = .ok p → Expressible keccak256 cfg p → Plain rec p := by
  obtain ⟨-, hs, hcanonical, hname, -⟩ := Db.verifyBinding_eq_ok.mp hstored
  obtain ⟨p, hp, hid⟩ := canonicalSubmissionId_eq_ok.mp hcanonical
  have hlen : p.autoParams.length < 2 ^ 64 := by
    simp only [checkStorable, boundedHex_bind_eq_ok] at hs
    have hap := (parseRecord_eq_ok.mp hp).2.2.2.2.2.1
    have hle := length_le_of_hexBytes hP hs.2.2.1 ((hexBytes_iff_store hP).mpr hap)
    simp only [MAX_AUTO_PARAMS_BYTES] at hle
    omega
  have hexp := expressible_iff hgate hp hid fun a => nativeSender_of_parseRecord hp
  constructor
  · rintro ⟨hencodes, -⟩ p' hp' h
    obtain rfl := Except.ok.inj (hp.symm.trans hp')
    obtain ⟨ix, q, string, hix⟩ := hexp.mpr h
    obtain ⟨enc, henc, -⟩ := hencodes ix q string hix
    exact plain_of_encodable hP hdoc hp hlen henc
  · intro h
    refine ⟨fun ix q string hix => ?_, fun enc => rebuilds_of_encodable hP hs hname⟩
    have hroom := hexp.mp ⟨ix, q, string, hix⟩
    obtain ⟨enc, henc⟩ := encodable_of_plain hP hdoc hname hp hid hlen hroom (h p hp hroom)
    exact ⟨enc, henc, rebuilds_of_encodable hP hs hname henc⟩

/-! #### Two texts of one transfer -/

theorem radix_documented : Documented Parsers.radix where
  u256_digits := fun _ => uintFromStr_digits
  u256_plus := uintFromStr_plus
  abiDecode_of_gate := id

/-- A gate with no validators yet, on chain 2. -/
def gateOfTwo : Config where
  owner := 0
  bridgeDomain := 0xd0
  guardian := 0
  validators := []
  threshold := 0
  chainId := 2
  paused := false
  maxValidators := 1
  maxCorridors := 1
  nonceTo := []
  isSealed := false
  setupDeadline := 0

/-- The id of a plain transfer of 1000 units to it. -/
def thousandId : Bytes32 := 0x9e8cb09615e2006ffc6af70c125561c4d19ec6dfdad8e85727bb98b29b609dce

/-- The transfer, with its amount in decimal. -/
def decimalThousand : SubmissionRecord where
  submissionId := hexText (wordBytes thousandId)
  bridgeDomain := hexText (wordBytes 0xd0)
  debridgeId := hexText
    (wordBytes 0xafdef99c1704a7d5f4cacc1c621cef270dae98e2ea1f2add9fa0fd4e7201018a)
  amount := ['1', '0', '0', '0']
  bridgeDecimals := some 6
  chainIdFrom := 1
  chainIdTo := 2
  nonce := 0
  receiver := hexText (addressBytes 0xbb)
  autoParams := ['0', 'x']
  nativeSender := hexText (addressBytes 0xcc)
  token := hexText (addressBytes 0xaa)

/-- The transfer, with its amount in hexadecimal. -/
def hexThousand : SubmissionRecord := { decimalThousand with amount := ['0', 'x', '3', 'e', '8'] }

/-- What the store reads in both. -/
def parsedThousand : ParsedRecord where
  bridgeDomain := 0xd0
  debridgeId := 0xafdef99c1704a7d5f4cacc1c621cef270dae98e2ea1f2add9fa0fd4e7201018a
  amount := 1000
  bridgeDecimals := 6
  receiver := addressBytes 0xbb
  autoParams := []
  nativeSender := addressBytes 0xcc
  auto := none

theorem expressible_thousand (keccak256 : Bytes → Bytes32) :
    Expressible keccak256 gateOfTwo parsedThousand where
  domain := rfl
  amount := by decide
  payload := fun _ h => by cases h

/-- In decimal it is delivered. -/
theorem skipsRightly_decimalThousand :
    SkipsRightly digestOf Parsers.radix gateOfTwo decimalThousand thousandId := by
  have hstored : Db.verifyBinding digestOf Parsers.radix decimalThousand = .ok thousandId := by
    decide +kernel
  refine (skipsRightly_iff Parsers.radix_lawful radix_documented hstored (.inl rfl)).mpr ?_
  intro p hp _
  have hap := (parseRecord_eq_ok.mp hp).2.2.2.2.2.1
  exact ⟨by decide, by decide, fun hne => absurd (Except.ok.inj hap).symm hne⟩

/-- In hexadecimal it is stored under the same id, and stranded. -/
theorem not_skipsRightly_hexThousand :
    Db.verifyBinding digestOf Parsers.radix hexThousand = .ok thousandId ∧
      encodable digestOf Parsers.radix hexThousand gateOfTwo.bridgeDomain = .error .amount ∧
      ¬SkipsRightly digestOf Parsers.radix gateOfTwo hexThousand thousandId := by
  have herror : encodable digestOf Parsers.radix hexThousand gateOfTwo.bridgeDomain =
      .error .amount := by decide +kernel
  have hp : parseRecord Parsers.radix hexThousand = .ok parsedThousand :=
    parseRecord_eq_ok.mpr ⟨by decide +kernel, by decide +kernel, by decide +kernel, rfl,
      by decide +kernel, by decide +kernel, by decide +kernel, rfl⟩
  have hid : digestOf (packRecord digestOf hexThousand parsedThousand) = thousandId := by
    decide +kernel
  have hroom : Expressible digestOf gateOfTwo parsedThousand := expressible_thousand digestOf
  refine ⟨by decide +kernel, herror, ?_⟩
  rintro ⟨hencodes, -⟩
  obtain ⟨ix, q, string, hix⟩ := exists_reproduces (.inl rfl) hp hid
    (fun a => nativeSender_of_parseRecord hp) hroom
  obtain ⟨enc, henc, -⟩ := hencodes ix q string hix
  rw [herror] at henc
  cases henc

end SolanaRelayer

end SelendraBridge
