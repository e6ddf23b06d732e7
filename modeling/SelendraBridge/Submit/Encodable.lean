import SelendraBridge.Clients.Agreement
import SelendraBridge.Db.Submissions
import SelendraBridge.Submit.Relayer

/-!
# From a stored record to an instruction

The store and the Solana relayer read the same record, each with parsers of its own.

| field | the store | the relayer |
|---|---|---|
| ids, domain | a hash | hexadecimal of 32 bytes |
| receiver, sender, payload | hexadecimal | hexadecimal |
| amount | a number of 256 bits, in any notation of its parser | decimal, of 64 bits |
| what the payload says | the ABI decoder of its library | a decoder written by hand |

The relayer recomputes the id from what it reads, and builds an instruction only if it is the
one of the record (`SelendraBridge.SolanaRelayer.encodable`). Everything else is skipped for
good, and logged once (`SelendraBridge.SolanaRelayer.nodup_warnings`).

The rows with hashes and hexadecimal agree on every text
(`SelendraBridge.SolanaRelayer.hex32_eq`, `SelendraBridge.SolanaRelayer.hexBytes_eq_some`);
the last two do not.
-/

namespace SelendraBridge

namespace SolanaRelayer

open Revert Store
open Solana (AutoParamsError AutoParamsWire Config IdParams decodeEvmAutoParams)

/-! ### The relayer's reading of a record -/

/-- `hex32`. -/
def hex32 (P : Parsers) (s : Text) : Option Bytes32 := (hexBytes P s).bind (BigEndian.toWord 32)

/-- The digits of an unsigned number, after a sign that says nothing. -/
def unsignedDigits : Text → Text
  | '+' :: s => s
  | s => s

/-- `u64::from_str`. -/
def parseU64 (s : Text) : Option U64 :=
  let digits := unsignedDigits s
  if digits ≠ [] ∧ digits.all isDigit ∧ Nat.ofDigitChars 10 digits 0 < 2 ^ 64 then
    some (BitVec.ofNat 64 (Nat.ofDigitChars 10 digits 0))
  else none

/-- The text of an `AutoParamsError`. -/
def autoParamsErrorText : AutoParamsError → String
  | .malformed reason => "autoParams blob is not a valid abi.encode(AutoParamsTo): " ++ reason
  | .unrepresentable field =>
    "autoParams " ++ field ++ " exceeds what the Solana gate can encode"

/-- `Unencodable`. -/
inductive Unencodable
  | autoParams (e : String)
  | amount
  | field (name : String)
  | idMismatch
  | domainMismatch (record gate : Bytes32)
  deriving DecidableEq, Repr

/-- `EncodableRecord`. -/
structure EncodableRecord where
  id : Bytes32
  debridgeId : Bytes32
  amount : U64
  bridgeDecimals : UInt8
  receiver : Bytes
  nativeSender : Bytes
  auto : Option AutoParamsWire
  deriving DecidableEq, Repr

section Encodable

variable (keccak256 : Bytes → Bytes32) (P : Parsers)

/-- The id of what was read. -/
def recomputed (rec : SubmissionRecord) (bridgeDomain debridgeId : Bytes32)
    (receiver nativeSender : Bytes) (amount : U64) (bridgeDecimals : UInt8)
    (auto : Option AutoParamsWire) : Bytes32 :=
  let amountWord := BridgeSolana.amountWord (amount.setWidth 128)
  match auto with
  | none =>
    BridgeSolana.submissionId keccak256 bridgeDomain debridgeId bridgeDecimals amountWord
      rec.chainIdFrom rec.chainIdTo rec.nonce receiver
  | some w =>
    BridgeSolana.submissionIdWithAuto keccak256 bridgeDomain debridgeId bridgeDecimals amountWord
      rec.chainIdFrom rec.chainIdTo rec.nonce receiver (BridgeSolana.wireToAuto w nativeSender)

/-- `encodable`. -/
def encodable (rec : SubmissionRecord) (gateDomain : Bytes32) :
    Except Unencodable EncodableRecord := do
  let id ← orRevert (.field "submission_id") (hex32 P rec.submissionId)
  let bridgeDomain ← orRevert (.field "bridge_domain") (hex32 P rec.bridgeDomain)
  revertIf (bridgeDomain ≠ gateDomain) (.domainMismatch bridgeDomain gateDomain)
  let debridgeId ← orRevert (.field "debridge_id") (hex32 P rec.debridgeId)
  let receiver ← orRevert (.field "receiver") (hexBytes P rec.receiver)
  let nativeSender ← orRevert (.field "native_sender") (hexBytes P rec.nativeSender)
  let amount ← orRevert .amount (parseU64 rec.amount)
  let bridgeDecimals ← orRevert (.field "bridge_decimals") rec.bridgeDecimals
  let blob ← orRevert (.field "auto_params") (hexBytes P rec.autoParams)
  let auto ← withReason (fun e => .autoParams (autoParamsErrorText e)) (decodeEvmAutoParams blob)
  revertIf (recomputed keccak256 rec bridgeDomain debridgeId receiver nativeSender amount
    bridgeDecimals auto ≠ id) .idMismatch
  return ⟨id, debridgeId, amount, bridgeDecimals, receiver, nativeSender, auto⟩

/-- What is logged of a record that is skipped. -/
structure Skipped where
  submissionId : Text
  chainFrom : U64
  chainTo : U64
  why : Unencodable

/-- `encodable_or_skip`, with the ids that were warned about, and the warning. -/
def encodableOrSkip (seen : List Text) (rec : SubmissionRecord) (gateCfg : Config) :
    Option EncodableRecord × List Text × List Skipped :=
  match encodable keccak256 P rec gateCfg.bridgeDomain with
  | .ok e => (some e, seen, [])
  | .error why =>
    if seen.contains rec.submissionId then (none, seen, [])
    else (none, rec.submissionId :: seen, [⟨rec.submissionId, rec.chainIdFrom, rec.chainIdTo, why⟩])

/-- The warnings of a submitter, over the records and configs that it comes across. -/
def warnings : List Text → List (SubmissionRecord × Config) → List Skipped
  | _, [] => []
  | seen, (rec, gateCfg) :: rest =>
    let (_, seen, warned) := encodableOrSkip keccak256 P seen rec gateCfg
    warned ++ warnings seen rest

end Encodable

/-! ### The instructions -/

/-- The arguments of `try_claim`. -/
def claimArgs (rec : SubmissionRecord) (enc : EncodableRecord) (signatures : List Bytes) :
    ClaimArgs where
  debridgeId := enc.debridgeId
  amount := enc.amount
  bridgeDecimals := enc.bridgeDecimals
  chainIdFrom := rec.chainIdFrom
  nonce := rec.nonce
  receiver := enc.receiver
  auto := enc.auto.map BridgeSolana.AutoParamsWire.ofProgram
  nativeSender := enc.nativeSender
  signatures

/-- The arguments of `try_cancel`. -/
def cancelArgs (rec : SubmissionRecord) (enc : EncodableRecord) (signatures : List Bytes) :
    CancelArgs where
  debridgeId := enc.debridgeId
  amount := enc.amount
  bridgeDecimals := enc.bridgeDecimals
  chainIdFrom := rec.chainIdFrom
  nonce := rec.nonce
  receiver := enc.receiver
  auto := enc.auto.map BridgeSolana.AutoParamsWire.ofProgram
  nativeSender := enc.nativeSender
  signatures

/-- The arguments of `try_refund`. -/
def refundArgs (rec : SubmissionRecord) (enc : EncodableRecord) (signatures : List Bytes) :
    RefundArgs where
  debridgeId := enc.debridgeId
  amount := enc.amount
  bridgeDecimals := enc.bridgeDecimals
  chainIdTo := rec.chainIdTo
  nonce := rec.nonce
  receiver := enc.receiver
  auto := enc.auto.map BridgeSolana.AutoParamsWire.ofProgram
  nativeSender := enc.nativeSender
  signatures

/-- What the program hashes for an encodable record. -/
def EncodableRecord.params (enc : EncodableRecord) (rec : SubmissionRecord) : IdParams where
  debridgeId := enc.debridgeId
  bridgeDecimals := enc.bridgeDecimals
  amount := enc.amount
  chainIdFrom := rec.chainIdFrom
  chainIdTo := rec.chainIdTo
  nonce := rec.nonce
  receiver := enc.receiver
  auto := enc.auto
  nativeSender := enc.nativeSender

/-! ### Where the two readings agree -/

variable {keccak256 : Bytes → Bytes32} {P : Parsers}

theorem hexBytes_eq_some (hP : P.Lawful) {s : Text} {bs : Bytes} :
    hexBytes P s = some bs ↔ lower (stripHexPrefix s) = Hex.encode bs := by
  rw [← hP.hexDecode_iff, hexBytes]
  split
  · next h =>
    rw [h, Option.some.injEq, hP.hexDecode_iff]
    constructor
    · rintro rfl
      rfl
    · intro hbs
      exact Hex.encode_inj hbs
  · rfl

/-- Hexadecimal is read alike. -/
theorem hexBytes_iff_store (hP : P.Lawful) {field : String} {s : Text} {bs : Bytes} :
    hexBytes P s = some bs ↔ Store.hexBytes P field s = .ok bs := by
  rw [hexBytes_eq_some hP, Store.hexBytes_eq_ok hP]

/-- And so are hashes. -/
theorem hex32_eq (hP : P.Lawful) (s : Text) : hex32 P s = P.b256 s := by
  ext w
  rw [hP.b256_iff, hex32, Option.bind_eq_some_iff]
  constructor
  · rintro ⟨bs, hbs, hw⟩
    rw [hexBytes_eq_some hP] at hbs
    rw [hbs, BigEndian.toWord_eq_some_iff.mp hw]
    rfl
  · intro h
    exact ⟨wordBytes w, (hexBytes_eq_some hP).mpr h, BigEndian.toWord_eq_some_iff.mpr rfl⟩

/-- A text of digits has no sign. -/
theorem unsignedDigits_of_digits {s : Text} (h : s.all isDigit = true) : unsignedDigits s = s := by
  unfold unsignedDigits
  split
  · have hplus := List.all_eq_true.mp h '+' List.mem_cons_self
    exact absurd hplus (by decide)
  · rfl

/-- **What the relayer reads as an amount**: digits, after a plus sign perhaps. -/
theorem parseU64_eq_some {s : Text} {v : U64} : parseU64 s = some v ↔
    unsignedDigits s ≠ [] ∧ (unsignedDigits s).all isDigit = true ∧
      Nat.ofDigitChars 10 (unsignedDigits s) 0 = v.toNat := by
  simp only [parseU64, Option.ite_none_right_eq_some, Option.some.injEq]
  constructor
  · rintro ⟨⟨hne, hdigits, hlt⟩, rfl⟩
    refine ⟨hne, hdigits, ?_⟩
    rw [BitVec.toNat_ofNat, Nat.mod_eq_of_lt hlt]
  · rintro ⟨hne, hdigits, hv⟩
    rw [hv, BitVec.ofNat_toNat, BitVec.setWidth_eq]
    exact ⟨⟨hne, hdigits, v.isLt⟩, rfl⟩

/-! ### What an encodable record is -/

theorem recomputed_eq (rec : SubmissionRecord) (d : Bytes32) (enc : EncodableRecord) :
    recomputed keccak256 rec d enc.debridgeId enc.receiver enc.nativeSender enc.amount
      enc.bridgeDecimals enc.auto = Solana.submissionId keccak256 d (enc.params rec) := by
  rw [Solana.submissionId, ← Solana.relayerString_eq]
  unfold recomputed IdParams.relayerString
  rcases hauto : enc.auto with _ | w
  · simp only [EncodableRecord.params, hauto]
    rfl
  · simp only [EncodableRecord.params, hauto]
    rfl

/-- **An encodable record, check by check.** The last one says that the program has the id of
the record for it. -/
theorem encodable_eq_ok {rec : SubmissionRecord} {d : Bytes32} {enc : EncodableRecord} :
    encodable keccak256 P rec d = .ok enc ↔
      hex32 P rec.submissionId = some enc.id ∧ hex32 P rec.bridgeDomain = some d ∧
      hex32 P rec.debridgeId = some enc.debridgeId ∧
      hexBytes P rec.receiver = some enc.receiver ∧
      hexBytes P rec.nativeSender = some enc.nativeSender ∧
      parseU64 rec.amount = some enc.amount ∧ rec.bridgeDecimals = some enc.bridgeDecimals ∧
      (∃ blob, hexBytes P rec.autoParams = some blob ∧ decodeEvmAutoParams blob = .ok enc.auto) ∧
      Solana.submissionId keccak256 d (enc.params rec) = enc.id := by
  obtain ⟨id, deb, amt, dec, rcv, ns, auto⟩ := enc
  rw [← recomputed_eq]
  simp only [encodable, bind_eq_ok, exists_unit, orRevert_eq_ok, revertIf_eq_ok, withReason_eq_ok,
    pure_eq_ok, not_not, EncodableRecord.mk.injEq]
  constructor
  · rintro ⟨_, h₁, _, h₂, rfl, _, h₃, _, h₄, _, h₅, _, h₆, _, h₇, _, h₈, _, h₉, h₁₀, rfl, rfl, rfl,
      rfl, rfl, rfl, rfl⟩
    exact ⟨h₁, h₂, h₃, h₄, h₅, h₆, h₇, ⟨_, h₈, h₉⟩, h₁₀⟩
  · rintro ⟨h₁, h₂, h₃, h₄, h₅, h₆, h₇, ⟨_, h₈, h₉⟩, h₁₀⟩
    exact ⟨_, h₁, _, h₂, rfl, _, h₃, _, h₄, _, h₅, _, h₆, _, h₇, _, h₈, _, h₉, h₁₀, rfl, rfl, rfl,
      rfl, rfl, rfl, rfl⟩

/-! ### One warning for each record -/

theorem seen_of_encodableOrSkip {seen : List Text} {rec : SubmissionRecord} {gateCfg : Config} :
    (∀ s ∈ seen, s ∈ (encodableOrSkip keccak256 P seen rec gateCfg).2.1) ∧
      (∀ w ∈ (encodableOrSkip keccak256 P seen rec gateCfg).2.2, w.submissionId ∉ seen ∧
        w.submissionId ∈ (encodableOrSkip keccak256 P seen rec gateCfg).2.1) ∧
      (encodableOrSkip keccak256 P seen rec gateCfg).2.2.length ≤ 1 := by
  unfold encodableOrSkip
  split
  · simp
  · by_cases hseen : rec.submissionId ∈ seen
    · simp [hseen]
    · simp [hseen]
      exact fun s hs => .inr hs

/-- What was seen is not warned about again. -/
theorem notMem_of_warnings (seen : List Text) (rest : List (SubmissionRecord × Config)) :
    ∀ w ∈ warnings keccak256 P seen rest, w.submissionId ∉ seen := by
  induction rest generalizing seen with
  | nil => simp [warnings]
  | cons next rest ih =>
    obtain ⟨rec, gateCfg⟩ := next
    obtain ⟨hkeep, hwarned, -⟩ := @seen_of_encodableOrSkip keccak256 P seen rec gateCfg
    intro w hw
    rw [warnings, List.mem_append] at hw
    rcases hw with hw | hw
    · exact (hwarned w hw).1
    · exact fun hmem => ih _ w hw (hkeep _ hmem)

/-- **A record is warned about once**, however often it comes back. -/
theorem nodup_warnings (seen : List Text) (rest : List (SubmissionRecord × Config)) :
    ((warnings keccak256 P seen rest).map Skipped.submissionId).Nodup := by
  induction rest generalizing seen with
  | nil => simp [warnings]
  | cons next rest ih =>
    obtain ⟨rec, gateCfg⟩ := next
    obtain ⟨-, hwarned, hlen⟩ := @seen_of_encodableOrSkip keccak256 P seen rec gateCfg
    rw [warnings, List.map_append, List.nodup_append]
    refine ⟨?_, ih _, ?_⟩
    · rcases hw : (encodableOrSkip keccak256 P seen rec gateCfg).2.2 with _ | ⟨w, _ | ⟨w', ws⟩⟩
      · simp
      · simp
      · rw [hw] at hlen
        simp at hlen
    · rintro s hs s' hs' rfl
      obtain ⟨w, hw, rfl⟩ := List.mem_map.mp hs
      obtain ⟨w', hw', heq⟩ := List.mem_map.mp hs'
      have hnew := @notMem_of_warnings keccak256 P _ rest w' hw'
      rw [heq] at hnew
      exact hnew (hwarned w hw).2

end SolanaRelayer

end SelendraBridge
