import SelendraBridge.AbiTuples
import SelendraBridge.Api.ClientIp
import SelendraBridge.Indexer.GateLog
import SelendraBridge.Lib.Base64
import SelendraBridge.SameIds
import SelendraBridge.Solana.Cluster
import SelendraBridge.Solana.LogLines
import SelendraBridge.Solana.Wire
import SelendraBridge.Store.Signatures
import SelendraBridge.Store.Standard
import SelendraBridge.Value

/-!
# From a line of the log to a record

A send on Solana reaches the store in five forms, each with widths of its own.

| | where | what it carries |
|---|---|---|
| the event | the program | numbers of 64 and 128 bits, byte strings |
| its bytes | the log | little-endian numbers, lengths of 32 bits |
| a line | the log | two words of base 64 |
| `SelendraBridge.SolanaSource.Sent` | the relayer | the payload's numbers as words of 256 bits |
| a record | the store | hexadecimal and decimal text, the payload as the contracts encode it |

The relayer recomputes the id from the third, and the store from the last. For everything that the
program emits they find the id that the program computed
(`SelendraBridge.SolanaSource.sent_round_trips`): what each form is made from the one before by, is
undone by how the next one reads it.
-/

namespace SelendraBridge

namespace SolanaSource

open Borsh Revert Solana Solana.Logs Transition
open Store hiding SentEvent
open Api (split_append split_single trim_blank)
open SigStore (isWhitespace split trim)

/-! ### Lines -/

/-- The codec of `SentEvent`. -/
def sentEventCodec : Codec SentEvent :=
  (Codec.u8.pair <| word.pair <| word.pair <| word.pair <| u64.pair <| Codec.u8.pair <| u64.pair <|
    u64.pair <| u64.pair <| Codec.bytes.pair <| Codec.bytes.pair autoParamsCodec.option).iso
    (fun (version, submissionId, debridgeId, mint, amount, bridgeDecimals, chainIdFrom, chainIdTo,
        nonce, receiver, nativeSender, auto) =>
      ⟨version, submissionId, debridgeId, mint, amount, bridgeDecimals, chainIdFrom, chainIdTo,
        nonce, receiver, nativeSender, auto⟩)
    (fun e => (e.version, e.submissionId, e.debridgeId, e.mint, e.amount, e.bridgeDecimals,
      e.chainIdFrom, e.chainIdTo, e.nonce, e.receiver, e.nativeSender, e.auto))
    fun _ => rfl

/-- `SENT_EVENT_TAG`. -/
def SENT_EVENT_TAG : Bytes := ascii "BRIDGE_SENT"

/-- **The line that `emit_sent` leaves in the log**: what the runtime prints for `sol_log_data` of
the tag and the event. -/
def sentEventToProgramDataLine (e : SentEvent) : Text :=
  dataLine (Base64.encode SENT_EVENT_TAG ++ ' ' :: Base64.encode (sentEventCodec.put e))

/-- `str::split_whitespace`. -/
def splitWhitespace (s : Text) : List Text := (split isWhitespace s).filter fun w => !w.isEmpty

/-- What is wrong with a line that is an event's by its tag. -/
inductive LineError
  /-- `BRIDGE_SENT program data missing its payload field`. -/
  | missingPayload
  /-- The payload is not base 64. -/
  | base64
  /-- The payload is no event. -/
  | borsh
  deriving DecidableEq, Repr

/-- The event in the fields that follow the tag. -/
def parsePayload (fields : List Text) : Except LineError SentEvent := do
  let payload ← orRevert .missingPayload fields.head?
  let bytes ← orRevert .base64 (Base64.decode payload)
  orRevert .borsh (sentEventCodec.fromSlice bytes)

/-- **`parse_sent_event_line`**: nothing for a line that is not an event's by its tag. -/
def parseSentEventLine (line : Text) : Option (Except LineError SentEvent) := do
  let rest ← stripText PROGRAM_DATA_PREFIX (trim line)
  let fields := splitWhitespace (trim rest)
  let tag ← fields.head?.bind Base64.decode
  if tag = SENT_EVENT_TAG then some (parsePayload fields.tail) else none

/-! ### The relayer's transfer -/

/-- `Sent`. -/
structure Sent where
  submissionId : Bytes32
  debridgeId : Bytes32
  amount : U64
  bridgeDecimals : UInt8
  chainIdFrom : U64
  chainIdTo : U64
  receiver : Bytes
  nonce : U64
  nativeSender : Bytes
  auto : Option BridgeSolana.AutoParams
  deriving DecidableEq, Repr

/-- The transfer of an event. -/
def sentOf (e : SentEvent) : Sent where
  submissionId := e.submissionId
  debridgeId := e.debridgeId
  amount := e.amount
  bridgeDecimals := e.bridgeDecimals
  chainIdFrom := e.chainIdFrom
  chainIdTo := e.chainIdTo
  receiver := e.receiver
  nonce := e.nonce
  nativeSender := e.nativeSender
  auto := e.auto.map fun w => BridgeSolana.wireToAuto w e.nativeSender

/-- **`to_sent`**. -/
def toSent (e : SentEvent) : Except String Sent :=
  if e.version ≠ SENT_EVENT_VERSION then
    .error ("unsupported SentEvent version " ++ toString e.version.toNat ++ " (expected " ++
      toString SENT_EVENT_VERSION.toNat ++ ")")
  else .ok (sentOf e)

/-- `auto_to_wire`. -/
def autoToWire (a : BridgeSolana.AutoParams) : AutoParamsWire where
  executionFee := BitVec.ofNat 128 (BigEndian.ofBytes (a.executionFee.drop 16))
  flags := BitVec.ofNat 64 (BigEndian.ofBytes (a.flags.drop 24))
  fallbackAddress := a.fallbackAddress
  data := a.data

section Checks

variable (keccak256 : Bytes → Bytes32)

/-- **`recompute`**: the id of a transfer's own fields. -/
def recompute (sent : Sent) (bridgeDomain : Bytes32) : Bytes32 :=
  match sent.auto with
  | none => BridgeSolana.submissionId keccak256 bridgeDomain sent.debridgeId sent.bridgeDecimals
      (BridgeSolana.amountWord (sent.amount.setWidth 128)) sent.chainIdFrom sent.chainIdTo
      sent.nonce sent.receiver
  | some auto => BridgeSolana.submissionIdWithAuto keccak256 bridgeDomain sent.debridgeId
      sent.bridgeDecimals (BridgeSolana.amountWord (sent.amount.setWidth 128)) sent.chainIdFrom
      sent.chainIdTo sent.nonce sent.receiver auto

/-- Hexadecimal without a prefix. -/
def bareHex (w : Bytes32) : String := String.ofList (Hex.encode (wordBytes w))

/-- **`signable`**. -/
def signable (sent : Sent) (bridgeDomain : Bytes32) (chainId : U64) : Except String Unit := do
  let computed := recompute keccak256 sent bridgeDomain
  revertIf (computed ≠ sent.submissionId)
    ("submissionId MISMATCH: emitted " ++ bareHex sent.submissionId ++ " computed " ++
      bareHex computed ++ " — refusing to sign")
  revertIf (sent.chainIdFrom ≠ chainId)
    ("event chain_id_from " ++ toString sent.chainIdFrom.toNat ++ " != configured " ++
      toString chainId.toNat ++ " — refusing to sign")

end Checks

/-- The record that `signed_record` posts, without its signature. -/
def recordOf (bridgeDomain : Bytes32) (sent : Sent) : SubmissionRecord where
  submissionId := hexText (wordBytes sent.submissionId)
  bridgeDomain := hexText (wordBytes bridgeDomain)
  debridgeId := hexText (wordBytes sent.debridgeId)
  amount := decimalText sent.amount.toNat
  bridgeDecimals := some sent.bridgeDecimals
  chainIdFrom := sent.chainIdFrom
  chainIdTo := sent.chainIdTo
  nonce := sent.nonce
  receiver := hexText sent.receiver
  autoParams :=
    match sent.auto with
    | none => ['0', 'x']
    | some auto => hexText (encodeEvmAutoParams (autoToWire auto))
  nativeSender := hexText sent.nativeSender
  -- The token of a record is an EVM one, and a mint is none.
  token := []

/-- **`signed_record`**, with the relayer's address and its signature of the id. -/
def signedRecord (signer : Text) (sign : Bytes32 → Text) (bridgeDomain : Bytes32) (sent : Sent) :
    SignedRecord where
  params := recordOf bridgeDomain sent
  signatures := [⟨signer, sign sent.submissionId⟩]
  cancelSignatures := []
  refundSignatures := []

/-! ### The line is read back -/

/-- Two words, and a blank between them. -/
theorem splitWhitespace_pair {s t : Text} (hs : ∀ c ∈ s, isWhitespace c = false)
    (ht : ∀ c ∈ t, isWhitespace c = false) (hs' : s ≠ []) (ht' : t ≠ []) :
    splitWhitespace (s ++ ' ' :: t) = [s, t] := by
  rw [splitWhitespace, split_append _ (by decide), split_single _ hs, split_single _ ht,
    List.singleton_append, List.filter_eq_self]
  rintro w hw
  rw [Bool.not_eq_true', List.isEmpty_eq_false_iff]
  rcases List.mem_cons.mp hw with rfl | hw
  · exact hs'
  · exact List.mem_singleton.mp hw ▸ ht'

/-- An encoding is made of characters of base 64. -/
theorem isBase64_of_mem_encode {bs : Bytes} {c : Char} (h : c ∈ Base64.encode bs) :
    isBase64 c = true := by
  have hall : (Base64.alphabet.all isBase64) = true := by decide
  rcases Base64.mem_of_mem_encode h with hmem | rfl
  · exact List.all_eq_true.mp hall c hmem
  · decide

theorem not_whitespace_of_mem_encode {bs : Bytes} {c : Char} (h : c ∈ Base64.encode bs) :
    isWhitespace c = false := isWhitespace_of_isBase64 (isBase64_of_mem_encode h)

/-- Nothing is trimmed from a text that does not begin with white space, or end with it. -/
theorem trim_eq_self {s : Text} (h : ∀ c ∈ s.head?, isWhitespace c = false)
    (h' : ∀ c ∈ s.getLast?, isWhitespace c = false) : trim s = s := by
  have hkept : ∀ t : Text, (∀ c ∈ t.head?, isWhitespace c = false) →
      t.dropWhile isWhitespace = t := by
    intro t ht
    cases t with
    | nil => rfl
    | cons c t =>
      exact List.dropWhile_cons_of_neg (by rw [ht c rfl]; exact Bool.false_ne_true)
  rw [trim, hkept s h, hkept s.reverse (by rwa [List.head?_reverse]), List.reverse_reverse]

/-- The bytes of an event. -/
theorem put_ne_nil (e : SentEvent) : sentEventCodec.put e ≠ [] := List.cons_ne_nil _ _

/-- **A line of an event is read back**, if the byte strings have lengths that can be written. -/
theorem parseSentEventLine_line {e : SentEvent} (h : sentEventCodec.Valid e) :
    parseSentEventLine (sentEventToProgramDataLine e) = some (.ok e) := by
  have htag : Base64.encode SENT_EVENT_TAG ∈ gateTags := by decide +kernel
  have htag' : Base64.encode SENT_EVENT_TAG ≠ [] := Base64.encode_ne_nil (by decide)
  have hpayload : Base64.encode (sentEventCodec.put e) ≠ [] := Base64.encode_ne_nil (put_ne_nil e)
  have hdata : GateData
      (Base64.encode SENT_EVENT_TAG ++ ' ' :: Base64.encode (sentEventCodec.put e)) :=
    ⟨_, htag, _, rfl, hpayload, List.all_eq_true.mpr fun c hc => isBase64_of_mem_encode hc⟩
  -- the blank after the colon goes, and the rest stays
  have hstrip : stripText PROGRAM_DATA_PREFIX (sentEventToProgramDataLine e) =
      some (' ' :: (Base64.encode SENT_EVENT_TAG ++
        ' ' :: Base64.encode (sentEventCodec.put e))) := by
    have hline : sentEventToProgramDataLine e = PROGRAM_DATA_PREFIX ++ ' ' ::
        (Base64.encode SENT_EVENT_TAG ++ ' ' :: Base64.encode (sentEventCodec.put e)) := by
      rw [sentEventToProgramDataLine, dataLine, PROGRAM_DATA_PREFIX]
      simp only [List.append_assoc, List.cons_append, List.nil_append]
    rw [hline, stripText_append]
  have htrim : trim (' ' :: (Base64.encode SENT_EVENT_TAG ++
      ' ' :: Base64.encode (sentEventCodec.put e))) =
        Base64.encode SENT_EVENT_TAG ++ ' ' :: Base64.encode (sentEventCodec.put e) := by
    rw [trim_blank]
    refine trim_eq_self ?_ ?_
    · rintro c hc
      rw [List.head?_append_of_ne_nil _ htag'] at hc
      exact not_whitespace_of_mem_encode (List.mem_of_mem_head? hc)
    · rintro c hc
      rw [List.getLast?_append_of_ne_nil _ (List.cons_ne_nil _ _),
        List.getLast?_cons_of_ne_nil hpayload] at hc
      exact not_whitespace_of_mem_encode (List.mem_of_mem_getLast? hc)
  have hfields := splitWhitespace_pair (fun c => not_whitespace_of_mem_encode (c := c))
    (fun c => not_whitespace_of_mem_encode (c := c)) htag' hpayload
  rw [parseSentEventLine, sentEventToProgramDataLine, hdata.trim_eq, ← sentEventToProgramDataLine,
    hstrip]
  simp only [Option.bind_eq_bind, Option.bind_some, htrim, hfields, List.head?_cons,
    Base64.decode_encode, if_true, List.tail_cons, parsePayload, orRevert, ok_bind,
    Codec.fromSlice_put _ h]

/-! ### The id is found again -/

section Ids

variable (keccak256 : Bytes → Bytes32) (d : Bytes32)

/-- **The relayer finds the program's id** of what an event says. -/
theorem recompute_sentOf (e : SentEvent) :
    recompute keccak256 (sentOf e) d = submissionId keccak256 d e.params := by
  have hid : recompute keccak256 (sentOf e) d =
      keccak256 (e.params.relayerString keccak256 d) := by
    rw [recompute, IdParams.relayerString, sentOf, SentEvent.params]
    rcases e.auto with _ | w <;> rfl
  rw [hid, relayerString_eq, submissionId]

/-- **What is signable**: an event whose id is that of its fields, of this chain. -/
theorem signable_sentOf {e : SentEvent} {chainId : U64} :
    signable keccak256 (sentOf e) d chainId = .ok () ↔
      submissionId keccak256 d e.params = e.submissionId ∧ e.chainIdFrom = chainId := by
  rw [signable, revertIf_bind_eq_ok, revertIf_eq_ok, not_not, not_not, recompute_sentOf]
  rfl

end Ids

/-- A payload is narrowed to what it was. -/
theorem autoToWire_wireToAuto (w : AutoParamsWire) (nativeSender : Bytes) :
    autoToWire (BridgeSolana.wireToAuto w nativeSender) = w := by
  have hword : ∀ {n : ℕ} (v : BitVec (8 * n)) (k : ℕ), BitVec.ofNat (8 * n)
      (BigEndian.ofBytes ((List.replicate k 0 ++ BigEndian.ofWord n v).drop k)) = v := by
    intro n v k
    rw [List.drop_left' (List.length_replicate ..)]
    have hv := (BigEndian.toWord_eq_some_iff (w := v)).mpr rfl
    rw [BigEndian.toWord, if_pos (BigEndian.length_ofWord v)] at hv
    exact Option.some.inj hv
  have hfee := hword (n := 16) w.executionFee 16
  have hflags := hword (n := 8) w.flags 24
  rw [autoToWire, BridgeSolana.wireToAuto]
  exact AutoParamsWire.mk.injEq .. ▸ ⟨hfee, hflags, rfl, rfl⟩

section Encoding

/-- A number of 128 bits in a word. -/
theorem encodeWord_ofNat {n : ℕ} (h : n < 2 ^ 128) :
    encodeWord (BitVec.ofNat 128 n) = Abi.natWord n := by
  have hword : encodeWord (BitVec.ofNat 128 n) = wordBytes ((BitVec.ofNat 128 n).setWidth 256) :=
    feeWord_eq _
  rw [hword, Abi.natWord]
  congr 1
  apply BitVec.eq_of_toNat_eq
  rw [BitVec.toNat_setWidth_of_le (by omega), BitVec.toNat_ofNat, BitVec.toNat_ofNat,
    Nat.mod_eq_of_lt h, Nat.mod_eq_of_lt (by omega)]

theorem padded_eq_encodeBytes {b : Bytes} (h : b.length < 2 ^ 64) :
    padded b = Abi.encodeBytes b := by
  rw [padded_eq, Abi.encodeBytes, encodeWord_ofNat (by omega)]
  rfl

/-- **The relayer encodes a payload as the contracts do.** -/
theorem encodeEvmAutoParams_eq_abi (w : AutoParamsWire)
    (h : (encodeEvmAutoParams w).length < 2 ^ 64) :
    encodeEvmAutoParams w = Abi.encodeAutoParamsTo w.decoded := by
  have htotal := length_encodeEvmAutoParams w
  have hfb := length_padded w.fallbackAddress
  have hd := length_padded w.data
  have hfblt : w.fallbackAddress.length < 2 ^ 64 := by omega
  have hdlt : w.data.length < 2 ^ 64 := by omega
  have hoff : 128 + (padded w.fallbackAddress).length < 2 ^ 128 := by omega
  have hfee : encodeWord w.executionFee = wordBytes w.decoded.executionFee := feeWord_eq _
  have hflags : encodeWord (w.flags.setWidth 128) = wordBytes w.decoded.flags := by
    have hword : encodeWord (w.flags.setWidth 128) =
        wordBytes ((w.flags.setWidth 128).setWidth 256) := feeWord_eq _
    have htwice : (w.flags.setWidth 128).setWidth 256 = w.flags.setWidth 256 := by
      apply BitVec.eq_of_toNat_eq
      rw [BitVec.toNat_setWidth_of_le (by omega), BitVec.toNat_setWidth_of_le (by omega),
        BitVec.toNat_setWidth_of_le (by omega)]
    rw [hword, htwice]
    rfl
  have h32 : encodeWord 32 = Abi.natWord 32 := encodeWord_ofNat (n := 32) (by omega)
  have h128 : encodeWord 128 = Abi.natWord 128 := encodeWord_ofNat (n := 128) (by omega)
  rw [encodeEvmAutoParams_eq, Abi.encodeAutoParamsTo, h32, h128, hfee, hflags,
    encodeWord_ofNat hoff, padded_eq_encodeBytes hfblt, padded_eq_encodeBytes hdlt]
  rfl

end Encoding

/-! ### The record passes -/

/-- The payload's encoding, if there is a payload, is no longer than the store takes. -/
def Fits (e : SentEvent) : Prop :=
  ∀ w, e.auto = some w → (encodeEvmAutoParams w).length ≤ MAX_AUTO_PARAMS_BYTES

/-- The payload of an event as the contracts have it, in bytes. -/
def autoBytes (e : SentEvent) : Bytes := (e.auto.map encodeEvmAutoParams).getD []

/-- The text of a record's payload. -/
theorem autoParams_recordOf (d : Bytes32) (e : SentEvent) :
    (recordOf d (sentOf e)).autoParams = hexText (autoBytes e) := by
  rw [recordOf, sentOf, autoBytes]
  rcases e.auto with _ | w
  · rfl
  · simp only [Option.map_some, autoToWire_wireToAuto, Option.getD_some]

/-- **The store takes the record** of an event in its bounds. -/
theorem checkStorable_recordOf {d : Bytes32} {e : SentEvent} (hreceiver : e.receiver.length ≤ 32)
    (hsender : e.nativeSender.length ≤ 32) (hfits : Fits e) :
    checkStorable (recordOf d (sentOf e)) = .ok () := by
  have hauto : (autoBytes e).length ≤ MAX_AUTO_PARAMS_BYTES := by
    rw [autoBytes]
    rcases hw : e.auto with _ | w
    · exact Nat.zero_le _
    · exact hfits w hw
  have hamount : (decimalText e.amount.toNat).length ≤ MAX_UINT256_DECIMAL_LEN := by
    have hle := Indexer.length_decimalText_le (e.amount.setWidth 256)
    rwa [toNat_word] at hle
  have htoken : boundedHex "token" [] 20 = .ok () := by decide
  simp only [checkStorable, bind_eq_ok, exists_unit, autoParams_recordOf]
  exact ⟨Indexer.boundedHex_hexText.mpr hreceiver, Indexer.boundedHex_hexText.mpr hsender,
    Indexer.boundedHex_hexText.mpr hauto, Indexer.boundedHex_hexText.mpr (length_wordBytes d).le,
    Indexer.boundedHex_hexText.mpr (length_wordBytes e.debridgeId).le, htoken,
    revertIf_eq_ok.mpr (not_lt.mpr hamount)⟩

/-- What the record of an event parses to. -/
def parsedOf (d : Bytes32) (e : SentEvent) : ParsedRecord where
  bridgeDomain := d
  debridgeId := e.debridgeId
  amount := e.amount.setWidth 256
  bridgeDecimals := e.bridgeDecimals
  receiver := e.receiver
  autoParams := autoBytes e
  nativeSender := e.nativeSender
  auto := e.auto.map fun w => w.widened e.nativeSender

section Parsing

variable {P : Parsers} (habi : ∀ ap, (Abi.encodeAutoParamsTo ap).length < 2 ^ 64 →
  P.abiDecode (Abi.encodeAutoParamsTo ap) = some ap)

include habi

/-- The payload of an event is decoded from its bytes. -/
theorem decodeAutoParams_autoBytes {e : SentEvent} (hfits : Fits e) :
    decodeAutoParams P (autoBytes e) e.nativeSender =
      some (e.auto.map fun w => w.widened e.nativeSender) := by
  rw [autoBytes]
  rcases hw : e.auto with _ | w
  · rfl
  · have hle := hfits w hw
    have hlen : (encodeEvmAutoParams w).length < 2 ^ 64 := by
      rw [MAX_AUTO_PARAMS_BYTES] at hle
      omega
    have hdecode : P.abiDecode (encodeEvmAutoParams w) = some w.decoded := by
      have heq := encodeEvmAutoParams_eq_abi w hlen
      rw [heq] at hlen ⊢
      exact habi _ hlen
    rw [Option.map_some, Option.getD_some, decodeAutoParams,
      if_neg (encodeEvmAutoParams_ne_nil w), hdecode]
    rfl

theorem parseRecord_recordOf (hP : P.Lawful) (d : Bytes32) {e : SentEvent} (hfits : Fits e) :
    parseRecord P (recordOf d (sentOf e)) = .ok (parsedOf d e) := by
  have hhex : ∀ (field : String) (bs : Bytes), hexBytes P field (hexText bs) = .ok bs :=
    fun field bs => (hexBytes_eq_ok hP).mpr (by rw [stripHexPrefix_hexText, lower_hexEncode])
  have hb256 : ∀ w : Bytes32, P.b256 (hexText (wordBytes w)) = some w :=
    fun w => hP.b256_iff.mpr (by rw [stripHexPrefix_hexText, lower_hexEncode])
  have hamount : P.u256 (decimalText e.amount.toNat) = some (e.amount.setWidth 256) := by
    rw [← toNat_word]
    exact hP.u256_decimal _
  rw [parseRecord_eq_ok, autoParams_recordOf]
  exact ⟨hb256 d, hb256 e.debridgeId, hamount, rfl, hhex _ _, hhex _ _, hhex _ _,
    decodeAutoParams_autoBytes habi hfits⟩

end Parsing

/-- What the store packs is the string that the validators hash. -/
theorem packRecord_recordOf (keccak256 : Bytes → Bytes32) (d : Bytes32) (e : SentEvent) :
    packRecord keccak256 (recordOf d (sentOf e)) (parsedOf d e) =
      e.params.coreString keccak256 d := by
  rw [packRecord, IdParams.coreString, SentEvent.params, parsedOf, recordOf, sentOf]
  rcases e.auto with _ | w <;> rfl

/-- **The store finds the program's id** of what an event says. -/
theorem canonicalSubmissionId_recordOf {keccak256 : Bytes → Bytes32} {P : Parsers} (hP : P.Lawful)
    (habi : ∀ ap, (Abi.encodeAutoParamsTo ap).length < 2 ^ 64 →
      P.abiDecode (Abi.encodeAutoParamsTo ap) = some ap)
    (d : Bytes32) {e : SentEvent} (hfits : Fits e) :
    canonicalSubmissionId keccak256 P (recordOf d (sentOf e)) =
      .ok (submissionId keccak256 d e.params) := by
  refine canonicalSubmissionId_eq_ok.mpr ⟨_, parseRecord_recordOf habi hP d hfits, ?_⟩
  rw [packRecord_recordOf, coreString_eq, contractString_eq, submissionId]

/-! ### A send in all its forms -/

/-- What goes out can be written: lengths of 32 bits are enough for it. -/
theorem valid_sentEvent {e : SentEvent} (hreceiver : e.receiver.length ≤ 32)
    (hsender : e.nativeSender.length ≤ 32) (hfits : Fits e) : sentEventCodec.Valid e := by
  have hbytes : ∀ {bs : Bytes}, bs.length ≤ MAX_AUTO_PARAMS_BYTES → Codec.bytes.Valid bs := by
    intro bs hbs
    rw [MAX_AUTO_PARAMS_BYTES] at hbs
    exact And.intro (show bs.length < 2 ^ 32 by omega) fun _ _ => trivial
  have hauto : autoParamsCodec.option.Valid e.auto := by
    rintro w hw
    have hlen := hfits w hw
    rw [length_encodeEvmAutoParams, length_padded, length_padded] at hlen
    have hfallback : w.fallbackAddress.length ≤ MAX_AUTO_PARAMS_BYTES := by omega
    have hdata : w.data.length ≤ MAX_AUTO_PARAMS_BYTES := by omega
    exact And.intro trivial (And.intro trivial (And.intro (hbytes hfallback) (hbytes hdata)))
  have hshort : 32 ≤ MAX_AUTO_PARAMS_BYTES := by decide
  -- The numbers and the words have no bounds.
  exact And.intro trivial <| And.intro trivial <| And.intro trivial <| And.intro trivial <|
    And.intro trivial <| And.intro trivial <| And.intro trivial <| And.intro trivial <|
    And.intro trivial <| And.intro (hbytes (hreceiver.trans hshort)) <|
    And.intro (hbytes (hsender.trans hshort)) hauto

/-- **A send makes the round trip.** Of an event that a successful send emits, with a payload that
the store has room for:

* its line in the log is read back, and is a transfer to the relayer;
* the relayer may sign it, under the domain and the chain that the gate is configured with;
* the record that it posts is under a well-formed id, is within the bounds of the store, and the
  store computes the emitted id from it.

And whatever the payload, the relayer decodes what it encodes. -/
theorem sent_round_trips {R : Runtime} {clock : Clock} {s s' : Accounts}
    {accounts : List AccountInfo} {a : SendArgs} {log : List Log} {e : SentEvent} {cfg : Config}
    {P : Parsers} (h : processSend R clock s accounts a = .ok (s', log)) (he : Log.sent e ∈ log)
    (hfits : Fits e) (hcfg : configOf R s = some cfg) (hP : P.Lawful)
    (habi : ∀ ap, (Abi.encodeAutoParamsTo ap).length < 2 ^ 64 →
      P.abiDecode (Abi.encodeAutoParamsTo ap) = some ap) :
    parseSentEventLine (sentEventToProgramDataLine e) = some (.ok e) ∧
    toSent e = .ok (sentOf e) ∧
    signable R.keccak256 (sentOf e) cfg.bridgeDomain cfg.chainId = .ok () ∧
    (∀ signer sign, ∃ record,
      (signedRecord signer sign cfg.bridgeDomain (sentOf e)).params = record ∧
      record.submissionId = hexText (wordBytes e.submissionId) ∧
      isValidSubmissionId record.submissionId = true ∧ checkStorable record = .ok () ∧
      canonicalSubmissionId R.keccak256 P record = .ok e.submissionId) ∧
    ∀ p : AutoParamsWire, (encodeEvmAutoParams p).length < 2 ^ 64 →
      decodeEvmAutoParams (encodeEvmAutoParams p) = .ok (some p) := by
  obtain ⟨x, cfg', asset, wire, id, -, S⟩ := sends_of_processSend h
  obtain rfl : cfg' = cfg := Option.some.inj ((configOf_eq_some S.config).symm.trans hcfg)
  -- of the two entries of the log, the other one is the transfer of the tokens
  rw [S.log] at he
  obtain rfl : e = _ := by
    rcases List.mem_cons.mp he with he | he
    · exact Log.sent.inj he
    · exact absurd (List.mem_singleton.mp he) Log.noConfusion
  have hreceiver : a.receiver.length ≤ 32 := by
    rcases S.receiver with h20 | h32 <;> omega
  have hsender : (wordBytes x.payer.key).length ≤ 32 := (length_wordBytes _).le
  have hid := S.id_eq
  refine ⟨parseSentEventLine_line (valid_sentEvent hreceiver hsender hfits), rfl,
    (signable_sentOf _ _).mpr ⟨hid.symm, rfl⟩, ?_, decodeEvmAutoParams_encode⟩
  intro signer sign
  refine ⟨_, rfl, rfl, Indexer.isValidSubmissionId_hexText _,
    checkStorable_recordOf hreceiver hsender hfits, ?_⟩
  refine (canonicalSubmissionId_recordOf hP habi _ hfits).trans ?_
  exact congrArg Except.ok hid.symm

/-- Whatever goes through says so, with the payload that it was given. -/
theorem exists_sent {R : Runtime} {clock : Clock} {s s' : Accounts} {accounts : List AccountInfo}
    {a : SendArgs} {log : List Log} (h : processSend R clock s accounts a = .ok (s', log)) :
    ∃ e cfg, Log.sent e ∈ log ∧ e.auto = a.auto ∧ configOf R s = some cfg := by
  obtain ⟨x, cfg, asset, wire, id, -, S⟩ := sends_of_processSend h
  exact ⟨_, cfg, S.log ▸ List.mem_cons_self, rfl, configOf_eq_some S.config⟩

theorem processSend_of_exec {R : Runtime} {clock : Clock} {s s' : Accounts}
    {accounts : List AccountInfo} {a : SendArgs} {log : List Log}
    (h : exec R s (.instruction clock accounts (.send a)) = some (s', log)) :
    processSend R clock s accounts a = .ok (s', log) := exec_instruction h

/-- The gate before the first transfer. -/
def wired : Accounts := (traceOf (exec Cluster.runtime) Cluster.deployed Cluster.wiring).2

/-- The million units of the first transfer, under the parsers as documented. -/
theorem sent_round_trips_first : ∃ (s' : Accounts) (log : List Log) (e : SentEvent)
    (cfg : Config), exec Cluster.runtime wired Cluster.sending = some (s', log) ∧
      Log.sent e ∈ log ∧
      parseSentEventLine (sentEventToProgramDataLine e) = some (.ok e) ∧
      signable Cluster.runtime.keccak256 (sentOf e) cfg.bridgeDomain cfg.chainId = .ok () ∧
      canonicalSubmissionId Cluster.runtime.keccak256 Parsers.standard
        (recordOf cfg.bridgeDomain (sentOf e)) = .ok e.submissionId := by
  have hsome : (exec Cluster.runtime wired Cluster.sending).isSome = true := by decide +kernel
  obtain ⟨⟨s', log⟩, hexec⟩ := Option.isSome_iff_exists.mp hsome
  have hsend := processSend_of_exec hexec
  obtain ⟨e, cfg, he, hauto, hcfg⟩ := exists_sent hsend
  have hfits : Fits e := by
    rintro w hw
    rw [hauto] at hw
    exact absurd hw (Option.some_ne_none w).symm
  have habi : ∀ ap : AutoParamsTo, (Abi.encodeAutoParamsTo ap).length < 2 ^ 64 →
      Parsers.standard.abiDecode (Abi.encodeAutoParamsTo ap) = some ap := by
    intro ap hlen
    have hdecode : Parsers.standard.abiDecode = Abi.decodeAutoParamsTo := rfl
    rw [hdecode]
    exact Abi.decodeAutoParamsTo_encodeAutoParamsTo hlen
  obtain ⟨hline, -, hsignable, hrecord, -⟩ :=
    sent_round_trips hsend he hfits hcfg Parsers.standard_lawful habi
  obtain ⟨_, rfl, -, -, -, hid⟩ := hrecord [] fun _ => []
  exact ⟨s', log, e, cfg, hexec, he, hline, hsignable, hid⟩

end SolanaSource

end SelendraBridge
