import Mathlib.Tactic.IntervalCases
import SelendraBridge.AbiTuples
import SelendraBridge.Frontend.Base58
import SelendraBridge.Frontend.Units

/-!
# Calldata by hand

The frontend builds calldata as text: a selector, and words of 64 hexadecimal digits, each of
them a shorter text padded with zeros in front. Nothing looks at how long the text was before.

| argument | its word | what is checked |
|---|---|---|
| an address | `encAddress` | 40 digits |
| a hash | `encBytes32` | 64 digits |
| an integer | `encUint` | that it is not negative |
| a string of bytes | an offset, from the tails before it, and `encBytesTail` | pairs of digits |

A text of more than 64 digits is not padded, and not refused: an integer of more than 256 bits
takes more than its word, and everything behind it moves. Below that, what is built is the
standard encoding of the arguments (`SelendraBridge.Frontend.Call.encode_eq`), and so the gate
decodes them (`SelendraBridge.Frontend.calldata_iff`).
-/

namespace SelendraBridge

namespace Frontend

open Abi Revert

/-- What the builders throw. -/
inductive CalldataError
  | badAddress (addr : Text)
  | negativeUint
  | badBytes32 (hex : Text)
  | badBytes (hexData : Text)
  | badReceiver (receiver : Text)
  | badBase58Character (ch : Char)
  | badSolanaReceiver (length : ℕ)
  | amountTooWide (amount wireAmount : ℤ)
  deriving DecidableEq, Repr

/-! ### The builders -/

/-- `U64_MAX`. -/
def U64_MAX : ℤ := 18446744073709551615

/-- Whether a text matches `[^0-9a-f]`. -/
def hasNonDigit (s : Text) : Bool := s.any fun c => !Hex.digits.contains c

/-- `word`. -/
def word (hex : Text) : Text := padStart 64 '0' hex

/-- `encAddress`. The lower case of a letter beyond ASCII is no digit either, so that lowering
ASCII alone throws at the same texts. -/
def encAddress (addr : Text) : Except CalldataError Text :=
  let a := lower (stripPrefixes addr)
  if a.length ≠ 40 ∨ hasNonDigit a = true then .error (.badAddress addr) else .ok (word a)

/-- `encUint`. -/
def encUint (v : ℤ) : Except CalldataError Text :=
  if v < 0 then .error .negativeUint else .ok (word (Nat.toDigits 16 v.toNat))

/-- `encBytes32`. -/
def encBytes32 (hex : Text) : Except CalldataError Text :=
  let h := lower (stripPrefixes hex)
  if h.length ≠ 64 ∨ hasNonDigit h = true then .error (.badBytes32 hex) else .ok h

/-- `encBytesTail`. -/
def encBytesTail (hexData : Text) : Except CalldataError Text := do
  let data := lower (stripPrefixes hexData)
  revertIf (data.length % 2 ≠ 0 ∨ hasNonDigit data = true) (.badBytes hexData)
  let padded := if data.length % 64 = 0 then data
    else data ++ List.replicate (64 - data.length % 64) '0'
  let length ← encUint (data.length / 2 : ℕ)
  return length ++ padded

/-- Whether a text starts with `0x` or `0X`. -/
def startsWithPrefix : Text → Bool
  | '0' :: 'x' :: _ => true
  | '0' :: 'X' :: _ => true
  | _ => false

/-- Whether a text matches `^[1-9A-HJ-NP-Za-km-z]{32,44}$`. -/
def isKeyText (v : Text) : Bool :=
  32 ≤ v.length && v.length ≤ 44 && v.all fun c =>
    ('1' ≤ c && c ≤ '9') || ('A' ≤ c && c ≤ 'H') || ('J' ≤ c && c ≤ 'N') || ('P' ≤ c && c ≤ 'Z') ||
      ('a' ≤ c && c ≤ 'k') || ('m' ≤ c && c ≤ 'z')

/-- `encodeReceiver`. -/
def encodeReceiver (receiver : Text) : Except CalldataError Text :=
  let v := trim receiver
  if startsWithPrefix v then .ok v
  else do
    revertIf (isKeyText v = false) (.badReceiver receiver)
    let bytes ← withReason CalldataError.badBase58Character (b58decode v)
    revertIf (bytes.length ≠ 32) (.badSolanaReceiver bytes.length)
    return hexText bytes

/-- The selectors, as `cast sig` gives them. -/
def SEL_approve : Text := ['0', '9', '5', 'e', 'a', '7', 'b', '3']

def SEL_swap : Text := ['d', '5', 'b', 'c', 'b', '9', 'b', '5']

def SEL_send : Text := ['5', '6', '5', '4', '4', '3', 'e', '9']

def SEL_swapAndBridge : Text := ['0', '7', 'c', '1', '4', '6', '2', 'd']

def SEL_finalize : Text := ['7', '0', '5', 'f', '6', 'b', '6', '2']

/-- `encodeApprove`. -/
def encodeApprove (spender : Text) (amount : ℤ) : Except CalldataError Text := do
  let spender ← encAddress spender
  let amount ← encUint amount
  return ['0', 'x'] ++ (SEL_approve ++ (spender ++ amount))

/-- `encodeSwap`. -/
def encodeSwap (tokenIn tokenOut : Text) (amountIn minAmountOut : ℤ) (target : Text) :
    Except CalldataError Text := do
  let tokenIn ← encAddress tokenIn
  let tokenOut ← encAddress tokenOut
  let amountIn ← encUint amountIn
  let minAmountOut ← encUint minAmountOut
  let target ← encAddress target
  return ['0', 'x'] ++ (SEL_swap ++ (tokenIn ++ (tokenOut ++ (amountIn ++
    (minAmountOut ++ target)))))

/-- `s || "0x"`. -/
def orEmptyHex (s : Text) : Text := if s = [] then ['0', 'x'] else s

/-- `encodeSend`. -/
def encodeSend (token : Text) (amount chainIdTo : ℤ) (receiver autoParamsHex : Text)
    (bridgeUnit : ℤ) : Except CalldataError Text := do
  let receiverHex ← encodeReceiver receiver
  let wireAmount := if bridgeUnit > 0 then amount.tdiv bridgeUnit else amount
  revertIf ((stripPrefixes receiverHex).length = 64 ∧ wireAmount > U64_MAX)
    (.amountTooWide amount wireAmount)
  let recvTail ← encBytesTail receiverHex
  let autoTail ← encBytesTail (orEmptyHex autoParamsHex)
  let offReceiver : ℕ := 5 * 32
  let offAuto := offReceiver + recvTail.length / 2
  let token ← encAddress token
  let amount ← encUint amount
  let chainIdTo ← encUint chainIdTo
  let offReceiver ← encUint offReceiver
  let offAuto ← encUint offAuto
  return ['0', 'x'] ++ (SEL_send ++ (token ++ (amount ++ (chainIdTo ++ (offReceiver ++ (offAuto ++
    (recvTail ++ autoTail)))))))

/-- `encodeSwapAndBridge`. -/
def encodeSwapAndBridge (tokenIn : Text) (amountIn minStableOut chainIdTo : ℤ)
    (finalToken finalReceiver : Text) (finalMinOut : ℤ) : Except CalldataError Text := do
  let tokenIn ← encAddress tokenIn
  let amountIn ← encUint amountIn
  let minStableOut ← encUint minStableOut
  let chainIdTo ← encUint chainIdTo
  let finalToken ← encAddress finalToken
  let finalReceiver ← encAddress finalReceiver
  let finalMinOut ← encUint finalMinOut
  return ['0', 'x'] ++ (SEL_swapAndBridge ++ (tokenIn ++ (amountIn ++ (minStableOut ++ (chainIdTo ++
    (finalToken ++ (finalReceiver ++ finalMinOut)))))))

/-- `encodeFinalize`. -/
def encodeFinalize (debridgeId : Text) (amount bridgeDecimals chainIdFrom nonce : ℤ)
    (receiverHex autoParamsHex nativeSenderHex : Text) : Except CalldataError Text := do
  let recvTail ← encBytesTail receiverHex
  let autoTail ← encBytesTail autoParamsHex
  let nsTail ← encBytesTail nativeSenderHex
  let offReceiver : ℕ := 8 * 32
  let offAuto := offReceiver + recvTail.length / 2
  let offNs := offAuto + autoTail.length / 2
  let debridgeId ← encBytes32 debridgeId
  let amount ← encUint amount
  let bridgeDecimals ← encUint bridgeDecimals
  let chainIdFrom ← encUint chainIdFrom
  let nonce ← encUint nonce
  let offReceiver ← encUint offReceiver
  let offAuto ← encUint offAuto
  let offNs ← encUint offNs
  return ['0', 'x'] ++ (SEL_finalize ++ (debridgeId ++ (amount ++ (bridgeDecimals ++ (chainIdFrom ++
    (nonce ++ (offReceiver ++ (offAuto ++ (offNs ++ (recvTail ++ (autoTail ++ nsTail)))))))))))

/-! ### Calls -/

/-- A call with its arguments. -/
inductive Call
  | approve (spender : Text) (amount : ℤ)
  | swap (tokenIn tokenOut : Text) (amountIn minAmountOut : ℤ) (target : Text)
  | send (token : Text) (amount chainIdTo : ℤ) (receiver autoParamsHex : Text) (bridgeUnit : ℤ)
  | swapAndBridge (tokenIn : Text) (amountIn minStableOut chainIdTo : ℤ)
      (finalToken finalReceiver : Text) (finalMinOut : ℤ)
  | finalize (debridgeId : Text) (amount bridgeDecimals chainIdFrom nonce : ℤ)
      (receiverHex autoParamsHex nativeSenderHex : Text)

/-- The calldata of a call. -/
def Call.encode : Call → Except CalldataError Text
  | .approve spender amount => encodeApprove spender amount
  | .swap tokenIn tokenOut amountIn minAmountOut target =>
    encodeSwap tokenIn tokenOut amountIn minAmountOut target
  | .send token amount chainIdTo receiver autoParamsHex bridgeUnit =>
    encodeSend token amount chainIdTo receiver autoParamsHex bridgeUnit
  | .swapAndBridge tokenIn amountIn minStableOut chainIdTo finalToken finalReceiver finalMinOut =>
    encodeSwapAndBridge tokenIn amountIn minStableOut chainIdTo finalToken finalReceiver finalMinOut
  | .finalize debridgeId amount bridgeDecimals chainIdFrom nonce receiverHex autoParamsHex
      nativeSenderHex =>
    encodeFinalize debridgeId amount bridgeDecimals chainIdFrom nonce receiverHex autoParamsHex
      nativeSenderHex

/-- The signature of the function that is called. -/
def Call.types : Call → List Ty
  | .approve .. => [.address, .uint256]
  | .swap .. => [.address, .address, .uint256, .uint256, .address]
  | .send .. => [.address, .uint256, .uint256, .bytes, .bytes]
  | .swapAndBridge .. =>
    [.address, .uint256, .uint256, .uint256, .address, .address, .uint256]
  | .finalize .. =>
    [.bytes32, .uint256, .uint8, .uint256, .uint256, .bytes, .bytes, .bytes]

/-- Its selector. -/
def Call.selector : Call → Text
  | .approve .. => SEL_approve
  | .swap .. => SEL_swap
  | .send .. => SEL_send
  | .swapAndBridge .. => SEL_swapAndBridge
  | .finalize .. => SEL_finalize

/-- The bytes that a hexadecimal text spells, in either case, with or without a prefix. -/
def spelled (s : Text) : Bytes := (Hex.decode (stripPrefixes s)).getD []

/-- The argument that it stands for, as a word. -/
def wordArg (s : Text) : Arg := .word (BigEndian.ofBytes (spelled s))

/-- An integer argument. -/
def intArg (v : ℤ) : Arg := .word v.toNat

/-- The receiver that a text names: bytes in hexadecimal, or a key in base 58. -/
def receiverBytes (receiver : Text) : Bytes :=
  if startsWithPrefix (trim receiver) then spelled (trim receiver)
  else base58Bytes (trim receiver)

/-- **The arguments that were given.** -/
def Call.args : Call → List Arg
  | .approve spender amount => [wordArg spender, intArg amount]
  | .swap tokenIn tokenOut amountIn minAmountOut target =>
    [wordArg tokenIn, wordArg tokenOut, intArg amountIn, intArg minAmountOut, wordArg target]
  | .send token amount chainIdTo receiver autoParamsHex _ =>
    [wordArg token, intArg amount, intArg chainIdTo, .bytes (receiverBytes receiver),
      .bytes (spelled autoParamsHex)]
  | .swapAndBridge tokenIn amountIn minStableOut chainIdTo finalToken finalReceiver finalMinOut =>
    [wordArg tokenIn, intArg amountIn, intArg minStableOut, intArg chainIdTo, wordArg finalToken,
      wordArg finalReceiver, intArg finalMinOut]
  | .finalize debridgeId amount bridgeDecimals chainIdFrom nonce receiverHex autoParamsHex
      nativeSenderHex =>
    [wordArg debridgeId, intArg amount, intArg bridgeDecimals, intArg chainIdFrom, intArg nonce,
      .bytes (spelled receiverHex), .bytes (spelled autoParamsHex),
      .bytes (spelled nativeSenderHex)]

/-- The strings of bytes among them, as texts. -/
def Call.byteTexts : Call → List Text
  | .send _ _ _ receiver autoParamsHex _ => [receiver, autoParamsHex]
  | .finalize _ _ _ _ _ receiverHex autoParamsHex nativeSenderHex =>
    [receiverHex, autoParamsHex, nativeSenderHex]
  | _ => []

/-- **Every integer fits its word**, and the decimals fit theirs. -/
def Call.Fits : Call → Prop
  | .approve _ amount => amount < 2 ^ 256
  | .swap _ _ amountIn minAmountOut _ => amountIn < 2 ^ 256 ∧ minAmountOut < 2 ^ 256
  | .send _ amount chainIdTo _ _ _ => amount < 2 ^ 256 ∧ chainIdTo < 2 ^ 256
  | .swapAndBridge _ amountIn minStableOut chainIdTo _ _ finalMinOut =>
    amountIn < 2 ^ 256 ∧ minStableOut < 2 ^ 256 ∧ chainIdTo < 2 ^ 256 ∧ finalMinOut < 2 ^ 256
  | .finalize _ amount bridgeDecimals chainIdFrom nonce _ _ _ =>
    amount < 2 ^ 256 ∧ bridgeDecimals < 2 ^ 8 ∧ chainIdFrom < 2 ^ 256 ∧ nonce < 2 ^ 256

/-- What the standard coder decodes behind the selector. -/
def decodeCall (ts : List Ty) (text : Text) : Option (List Arg) :=
  (Hex.decode (text.drop 10)).bind (decodeArgs ts)

/-! ### Words -/

/-- The lowest `n` hexadecimal digits of a number. -/
def lowDigits : ℕ → ℕ → Text
  | 0, _ => []
  | n + 1, v => lowDigits n (v / 16) ++ [Hex.digit (v % 16)]

theorem encode_toBytes (n v : ℕ) : Hex.encode (BigEndian.toBytes n v) = lowDigits (2 * n) v := by
  induction n generalizing v with
  | zero => rfl
  | succ n ih =>
    have hbyte : (UInt8.ofNat v).toNat = v % 256 := UInt8.toNat_ofNat'
    rw [BigEndian.toBytes, Hex.encode_append, ih, Nat.mul_succ, lowDigits, lowDigits,
      List.append_assoc, Nat.div_div_eq_div_mul]
    have hdigits : Hex.encode [UInt8.ofNat v] = [Hex.digit (v / 16 % 16), Hex.digit (v % 16)] := by
      have hhigh : v % 256 / 16 = v / 16 % 16 := by omega
      have hlow : v % 256 % 16 = v % 16 := by omega
      rw [Hex.encode_cons, Hex.encode_nil, hbyte, hhigh, hlow]
    rw [hdigits]
    rfl

theorem digit_eq_digitChar {n : ℕ} (h : n < 16) : Hex.digit n = n.digitChar := by
  interval_cases n <;> rfl

/-- **Padding the digits of a number gives its low digits**, if it has no more. -/
theorem padStart_toDigits {n v : ℕ} (hn : 0 < n) (hv : v < 16 ^ n) :
    padStart n '0' (Nat.toDigits 16 v) = lowDigits n v := by
  induction n generalizing v with
  | zero => omega
  | succ n ih =>
    rw [lowDigits]
    rcases Nat.lt_or_ge v 16 with hsmall | hlarge
    · have hzeros : ∀ m, lowDigits m 0 = List.replicate m '0' := by
        intro m
        induction m with
        | zero => rfl
        | succ m ih =>
          rw [lowDigits, Nat.zero_div, ih, List.replicate_succ']
          rfl
      rw [Nat.toDigits_of_lt_base hsmall, Nat.div_eq_of_lt hsmall, Nat.mod_eq_of_lt hsmall, hzeros,
        digit_eq_digitChar hsmall]
      rfl
    · have hpos : 0 < v / 16 := Nat.div_pos hlarge (by omega)
      have hmod : v % 16 < 16 := Nat.mod_lt _ (by omega)
      have hdigits : Nat.toDigits 16 v = Nat.toDigits 16 (v / 16) ++ [(v % 16).digitChar] := by
        have h := Nat.toDigits_append_toDigits (b := 16) (by omega) hpos hmod
        rw [Nat.div_add_mod, Nat.toDigits_of_lt_base hmod] at h
        exact h.symm
      have hn' : 0 < n := by
        rcases Nat.eq_zero_or_pos n with rfl | h
        · omega
        · exact h
      have hrest : v / 16 < 16 ^ n := by
        rw [Nat.pow_succ] at hv
        omega
      rw [hdigits, padStart, List.length_append, List.length_singleton, Nat.add_sub_add_right,
        ← List.append_assoc, digit_eq_digitChar hmod, ← ih hn' hrest]
      rfl

/-- **A number below 2²⁵⁶ has a word.** -/
theorem word_toDigits {n : ℕ} (h : n < 2 ^ 256) :
    word (Nat.toDigits 16 n) = Hex.encode (natWord n) := by
  have hnat : (BitVec.ofNat 256 n).toNat = n := by
    rw [BitVec.toNat_ofNat, Nat.mod_eq_of_lt h]
  rw [word, padStart_toDigits (by omega) (lt_of_lt_of_le h (by norm_num)), natWord, wordBytes,
    BigEndian.ofWord, hnat, encode_toBytes]

theorem natWord_eq (n : ℕ) (h : n < 2 ^ 256) : natWord n = BigEndian.toBytes 32 n := by
  rw [natWord, wordBytes, BigEndian.ofWord, BitVec.toNat_ofNat, Nat.mod_eq_of_lt h]

/-- **A short string has a word**, with zeros in front. -/
theorem natWord_ofBytes {bs : Bytes} (h : bs.length ≤ 32) :
    natWord (BigEndian.ofBytes bs) = List.replicate (32 - bs.length) 0 ++ bs := by
  have hlt := BigEndian.ofBytes_lt bs
  have hle : 256 ^ bs.length ≤ 256 ^ 32 := Nat.pow_le_pow_right (by omega) h
  rw [natWord_eq _ (lt_of_lt_of_le (lt_of_lt_of_le hlt hle) (by norm_num)),
    ← Nat.sub_add_cancel h, BigEndian.toBytes_add _ hlt, BigEndian.toBytes_ofBytes,
    Nat.sub_add_cancel h]

/-- What the digits of a text spell. -/
theorem lower_eq_encode {s : Text} (hdigits : hasNonDigit (lower (stripPrefixes s)) = false)
    (heven : (lower (stripPrefixes s)).length % 2 = 0) :
    lower (stripPrefixes s) = Hex.encode (spelled s) := by
  have hmem : ∀ c ∈ lower (stripPrefixes s), c ∈ Hex.digits := by
    intro c hc
    by_contra hnot
    have htrue : hasNonDigit (lower (stripPrefixes s)) = true :=
      List.any_eq_true.mpr ⟨c, hc, by simpa using hnot⟩
    simp [htrue] at hdigits
  obtain ⟨bs, hbs⟩ := Hex.exists_encode hmem heven
  have hdecode : Hex.decode (stripPrefixes s) = some bs := Hex.decode_eq_some_iff.mpr hbs.symm
  rw [spelled, hdecode, Option.getD_some, hbs]

/-- **The word of an address.** -/
theorem encAddress_eq_ok {addr t : Text} (h : encAddress addr = .ok t) :
    Hex.encode (natWord (BigEndian.ofBytes (spelled addr))) = t ∧
      Arg.Of .address (wordArg addr) := by
  simp only [encAddress] at h
  split at h
  · cases h
  · next hok =>
    rw [not_or, not_not, Bool.not_eq_true] at hok
    obtain ⟨hlen, hdigits⟩ := hok
    have hspelled := lower_eq_encode hdigits (by rw [hlen])
    have hbytes : (spelled addr).length = 20 := by
      rw [hspelled, Hex.length_encode] at hlen
      omega
    constructor
    · rw [← Except.ok.inj h, natWord_ofBytes (by omega), hbytes, Hex.encode_append,
        Hex.encode_replicate_zero, ← hspelled, word, padStart, hlen]
    · have hlt := BigEndian.ofBytes_lt (spelled addr)
      have hpow : (256 : ℕ) ^ 20 = 2 ^ 160 := by norm_num
      rw [hbytes, hpow] at hlt
      exact .word (by decide) hlt

/-- **The word of a hash.** -/
theorem encBytes32_eq_ok {hex t : Text} (h : encBytes32 hex = .ok t) :
    Hex.encode (natWord (BigEndian.ofBytes (spelled hex))) = t ∧
      Arg.Of .bytes32 (wordArg hex) := by
  simp only [encBytes32] at h
  split at h
  · cases h
  · next hok =>
    rw [not_or, not_not, Bool.not_eq_true] at hok
    obtain ⟨hlen, hdigits⟩ := hok
    have hspelled := lower_eq_encode hdigits (by rw [hlen])
    have hbytes : (spelled hex).length = 32 := by
      rw [hspelled, Hex.length_encode] at hlen
      omega
    constructor
    · rw [← Except.ok.inj h, natWord_ofBytes (by omega), hbytes, hspelled]
      rfl
    · have hlt := BigEndian.ofBytes_lt (spelled hex)
      have hpow : (256 : ℕ) ^ 32 = 2 ^ 256 := by norm_num
      rw [hbytes, hpow] at hlt
      exact .word (by decide) hlt

/-- **The word of an integer**, if it fits. -/
theorem encUint_eq_ok {v : ℤ} {t : Text} (h : encUint v = .ok t) (hfits : v < 2 ^ 256) :
    Hex.encode (natWord v.toNat) = t ∧ Arg.Of .uint256 (intArg v) := by
  have hnat : v.toNat < 2 ^ 256 := by omega
  rw [encUint] at h
  split at h
  · cases h
  · rw [← Except.ok.inj h, word_toDigits hnat]
    exact ⟨rfl, .word (by decide) hnat⟩

/-- **The tail of a string of bytes.** -/
theorem encBytesTail_eq_ok {s t : Text} (h : encBytesTail s = .ok t) (hlen : s.length < 2 ^ 53) :
    Hex.encode (encodeBytes (spelled s)) = t ∧ (spelled s).length < 2 ^ 53 := by
  simp only [encBytesTail, bind_eq_ok, exists_unit, revertIf_eq_ok, pure_eq_ok, not_or, not_not,
    Bool.not_eq_true] at h
  obtain ⟨⟨heven, hdigits⟩, lengthWord, hlength, rfl⟩ := h
  have hspelled := lower_eq_encode hdigits heven
  have hle : (stripPrefixes s).length ≤ s.length := by
    rw [stripPrefixes.eq_def]
    split <;> simp <;> omega
  have hbytes : (lower (stripPrefixes s)).length = 2 * (spelled s).length := by
    rw [hspelled, Hex.length_encode]
  have hlower : (lower (stripPrefixes s)).length = (stripPrefixes s).length := List.length_map _
  have hhalf : 2 * (spelled s).length / 2 = (spelled s).length := by omega
  rw [hbytes, hhalf] at hlength
  obtain ⟨rfl, -⟩ := encUint_eq_ok hlength (by omega)
  refine ⟨?_, by omega⟩
  rw [Int.toNat_natCast, encodeBytes, Hex.encode_append, Hex.encode_append,
    Hex.encode_replicate_zero, hspelled, Hex.length_encode]
  congr 1
  -- the digits are padded to 64, the bytes to 32
  split
  · have hzero : 2 * (((spelled s).length + 31) / 32 * 32 - (spelled s).length) = 0 := by omega
    rw [hzero, List.replicate_zero, List.append_nil]
  · have hpad : 2 * (((spelled s).length + 31) / 32 * 32 - (spelled s).length) =
        64 - 2 * (spelled s).length % 64 := by
      omega
    rw [hpad]

theorem stripPrefixes_hexText (bs : Bytes) : stripPrefixes (hexText bs) = Hex.encode bs := rfl

theorem spelled_hexText (bs : Bytes) : spelled (hexText bs) = bs := by
  rw [spelled, stripPrefixes_hexText, Hex.decode_encode, Option.getD_some]

theorem spelled_orEmptyHex (s : Text) : spelled (orEmptyHex s) = spelled s := by
  rw [orEmptyHex]
  split
  · next h =>
    rw [h]
    rfl
  · rfl

theorem length_orEmptyHex_lt {s : Text} (h : s.length < 2 ^ 53) :
    (orEmptyHex s).length < 2 ^ 53 := by
  rw [orEmptyHex]
  split
  · exact (by norm_num : 2 < 2 ^ 53)
  · exact h

theorem length_trim_le (s : Text) : (trim s).length ≤ s.length :=
  le_trans (List.rdropWhile_prefix ..).length_le (List.dropWhile_suffix _).length_le

/-- **A receiver is its bytes**, however it is written. -/
theorem encodeReceiver_eq_ok {receiver v : Text} (h : encodeReceiver receiver = .ok v)
    (hlen : receiver.length < 2 ^ 53) :
    spelled v = receiverBytes receiver ∧ v.length < 2 ^ 53 := by
  have htrim := length_trim_le receiver
  simp only [encodeReceiver] at h
  split at h
  · next hfront =>
    obtain rfl := Except.ok.inj h
    rw [receiverBytes, if_pos hfront]
    exact ⟨rfl, by omega⟩
  · next hfront =>
    simp only [bind_eq_ok, exists_unit, revertIf_eq_ok, withReason_eq_ok, pure_eq_ok,
      not_not] at h
    obtain ⟨-, bytes, hdecode, hbytes, rfl⟩ := h
    have htext := b58decode_eq_ok.mp hdecode
    rw [receiverBytes, if_neg hfront, spelled_hexText, htext, base58Bytes_base58, hexText,
      List.length_cons, List.length_cons, Hex.length_encode, hbytes]
    exact ⟨rfl, by omega⟩

/-! ### The encoding -/

theorem length_encodeBytes_le {bs : Bytes} (h : bs.length < 2 ^ 53) :
    (encodeBytes bs).length ≤ 2 ^ 54 := by
  rw [length_encodeBytes]
  omega

theorem length_encodeTail_le {as : List Arg} (h : ∀ bs, Arg.bytes bs ∈ as → bs.length < 2 ^ 53) :
    (encodeTail as).length ≤ as.length * 2 ^ 54 := by
  induction as with
  | nil => exact le_rfl
  | cons a as ih =>
    have hrest := ih fun bs hbs => h bs (List.mem_cons_of_mem _ hbs)
    have htail : encodeTail (a :: as) = a.tail ++ encodeTail as := rfl
    rw [htail, List.length_append, List.length_cons, Nat.add_mul]
    cases a with
    | word n =>
      rw [Arg.tail, List.length_nil]
      omega
    | bytes bs =>
      have hbs := length_encodeBytes_le (h bs List.mem_cons_self)
      rw [Arg.tail]
      omega

theorem length_encodeTuple_lt {as : List Arg} (hcount : as.length ≤ 8)
    (h : ∀ bs, Arg.bytes bs ∈ as → bs.length < 2 ^ 53) : (encodeTuple as).length < 2 ^ 64 := by
  have htail := length_encodeTail_le h
  rw [encodeTuple, List.length_append, length_encodeHead]
  omega

/-- The text of a call is its selector and the encoding of its arguments, and these are of its
types. -/
structure Call.Encoded (c : Call) (text : Text) : Prop where
  text_eq : text = ['0', 'x'] ++ (c.selector ++ Hex.encode (encodeTuple c.args))
  types : List.Forall₂ Arg.Of c.types c.args
  length_lt : (encodeTuple c.args).length < 2 ^ 64

theorem encodeApprove_eq {spender text : Text} {amount : ℤ}
    (h : encodeApprove spender amount = .ok text) (hfits : (Call.approve spender amount).Fits) :
    (Call.approve spender amount).Encoded text := by
  simp only [encodeApprove, bind_eq_ok, pure_eq_ok] at h
  obtain ⟨_, hspender, _, hamount, rfl⟩ := h
  obtain ⟨rfl, hspenderOf⟩ := encAddress_eq_ok hspender
  obtain ⟨rfl, hamountOf⟩ := encUint_eq_ok hamount hfits
  constructor
  · simp only [Call.selector, Call.args, wordArg, intArg, encodeTuple, encodeHead, encodeTail,
      Arg.tail, List.flatMap_cons, List.flatMap_nil, List.append_nil, Hex.encode_append]
  · exact .cons hspenderOf (.cons hamountOf .nil)
  · exact length_encodeTuple_lt (by simp [Call.args]) (by simp [Call.args, wordArg, intArg])

theorem encodeSwap_eq {tokenIn tokenOut target text : Text} {amountIn minAmountOut : ℤ}
    (h : encodeSwap tokenIn tokenOut amountIn minAmountOut target = .ok text)
    (hfits : (Call.swap tokenIn tokenOut amountIn minAmountOut target).Fits) :
    (Call.swap tokenIn tokenOut amountIn minAmountOut target).Encoded text := by
  obtain ⟨hin, hout⟩ := hfits
  simp only [encodeSwap, bind_eq_ok, pure_eq_ok] at h
  obtain ⟨_, htokenIn, _, htokenOut, _, hamountIn, _, hminAmountOut, _, htarget, rfl⟩ := h
  obtain ⟨rfl, htokenInOf⟩ := encAddress_eq_ok htokenIn
  obtain ⟨rfl, htokenOutOf⟩ := encAddress_eq_ok htokenOut
  obtain ⟨rfl, hamountInOf⟩ := encUint_eq_ok hamountIn hin
  obtain ⟨rfl, hminAmountOutOf⟩ := encUint_eq_ok hminAmountOut hout
  obtain ⟨rfl, htargetOf⟩ := encAddress_eq_ok htarget
  constructor
  · simp only [Call.selector, Call.args, wordArg, intArg, encodeTuple, encodeHead, encodeTail,
      Arg.tail, List.flatMap_cons, List.flatMap_nil, List.append_nil, Hex.encode_append]
  · exact .cons htokenInOf (.cons htokenOutOf (.cons hamountInOf (.cons hminAmountOutOf
      (.cons htargetOf .nil))))
  · exact length_encodeTuple_lt (by simp [Call.args]) (by simp [Call.args, wordArg, intArg])

theorem encodeSwapAndBridge_eq {tokenIn finalToken finalReceiver text : Text}
    {amountIn minStableOut chainIdTo finalMinOut : ℤ}
    (h : encodeSwapAndBridge tokenIn amountIn minStableOut chainIdTo finalToken finalReceiver
      finalMinOut = .ok text)
    (hfits : (Call.swapAndBridge tokenIn amountIn minStableOut chainIdTo finalToken finalReceiver
      finalMinOut).Fits) :
    (Call.swapAndBridge tokenIn amountIn minStableOut chainIdTo finalToken finalReceiver
      finalMinOut).Encoded text := by
  obtain ⟨hin, hstable, hchain, hfinal⟩ := hfits
  simp only [encodeSwapAndBridge, bind_eq_ok, pure_eq_ok] at h
  obtain ⟨_, htokenIn, _, hamountIn, _, hminStableOut, _, hchainIdTo, _, hfinalToken, _,
    hfinalReceiver, _, hfinalMinOut, rfl⟩ := h
  obtain ⟨rfl, htokenInOf⟩ := encAddress_eq_ok htokenIn
  obtain ⟨rfl, hamountInOf⟩ := encUint_eq_ok hamountIn hin
  obtain ⟨rfl, hminStableOutOf⟩ := encUint_eq_ok hminStableOut hstable
  obtain ⟨rfl, hchainIdToOf⟩ := encUint_eq_ok hchainIdTo hchain
  obtain ⟨rfl, hfinalTokenOf⟩ := encAddress_eq_ok hfinalToken
  obtain ⟨rfl, hfinalReceiverOf⟩ := encAddress_eq_ok hfinalReceiver
  obtain ⟨rfl, hfinalMinOutOf⟩ := encUint_eq_ok hfinalMinOut hfinal
  constructor
  · simp only [Call.selector, Call.args, wordArg, intArg, encodeTuple, encodeHead, encodeTail,
      Arg.tail, List.flatMap_cons, List.flatMap_nil, List.append_nil, Hex.encode_append]
  · exact .cons htokenInOf (.cons hamountInOf (.cons hminStableOutOf (.cons hchainIdToOf
      (.cons hfinalTokenOf (.cons hfinalReceiverOf (.cons hfinalMinOutOf .nil))))))
  · exact length_encodeTuple_lt (by simp [Call.args]) (by simp [Call.args, wordArg, intArg])

/-- The word of an offset. -/
theorem encUint_offset {off : ℕ} {t : Text} (h : encUint (off : ℤ) = .ok t)
    (hlt : off < 2 ^ 256) : Hex.encode (natWord off) = t := by
  obtain ⟨rfl, -⟩ := encUint_eq_ok h (by omega)
  rw [Int.toNat_natCast]

theorem length_encode_half (bs : Bytes) : (Hex.encode bs).length / 2 = bs.length := by
  rw [Hex.length_encode]
  omega

theorem encodeSend_eq {token receiver autoParamsHex text : Text} {amount chainIdTo bridgeUnit : ℤ}
    (h : encodeSend token amount chainIdTo receiver autoParamsHex bridgeUnit = .ok text)
    (hreceiver : receiver.length < 2 ^ 53) (hauto : autoParamsHex.length < 2 ^ 53)
    (hfits : (Call.send token amount chainIdTo receiver autoParamsHex bridgeUnit).Fits) :
    (Call.send token amount chainIdTo receiver autoParamsHex bridgeUnit).Encoded text := by
  obtain ⟨hamountFits, hchainFits⟩ := hfits
  simp only [encodeSend, bind_eq_ok, exists_unit, revertIf_eq_ok, pure_eq_ok] at h
  obtain ⟨receiverHex, hhex, -, _, hrecvTail, _, hautoTail, _, htoken, _, hamount, _, hchainIdTo,
    _, hoffReceiver, _, hoffAuto, rfl⟩ := h
  obtain ⟨hbytes, hhexLen⟩ := encodeReceiver_eq_ok hhex hreceiver
  obtain ⟨rfl, hrecv⟩ := encBytesTail_eq_ok hrecvTail hhexLen
  obtain ⟨rfl, hautoBytes⟩ := encBytesTail_eq_ok hautoTail (length_orEmptyHex_lt hauto)
  obtain ⟨rfl, htokenOf⟩ := encAddress_eq_ok htoken
  obtain ⟨rfl, hamountOf⟩ := encUint_eq_ok hamount hamountFits
  obtain ⟨rfl, hchainIdToOf⟩ := encUint_eq_ok hchainIdTo hchainFits
  rw [hbytes] at hrecv hoffAuto
  rw [spelled_orEmptyHex] at hautoBytes
  rw [length_encode_half] at hoffAuto
  have hbound := length_encodeBytes_le hrecv
  obtain rfl := encUint_offset hoffReceiver (by norm_num)
  obtain rfl := encUint_offset hoffAuto (by omega)
  constructor
  · simp only [Call.selector, Call.args, wordArg, intArg, encodeTuple, encodeHead, encodeTail,
      Arg.tail, List.flatMap_cons, List.flatMap_nil, List.append_nil, List.nil_append,
      Hex.encode_append, List.append_assoc, hbytes, spelled_orEmptyHex, List.length_cons,
      List.length_nil]
  · exact .cons htokenOf (.cons hamountOf (.cons hchainIdToOf (.cons (.bytes _)
      (.cons (.bytes _) .nil))))
  · refine length_encodeTuple_lt (by simp [Call.args]) ?_
    simp only [Call.args, wordArg, intArg, List.mem_cons, List.not_mem_nil, or_false, reduceCtorEq,
      false_or, Arg.bytes.injEq]
    rintro bs (rfl | rfl)
    · exact hrecv
    · exact hautoBytes

theorem encodeFinalize_eq {debridgeId receiverHex autoParamsHex nativeSenderHex text : Text}
    {amount bridgeDecimals chainIdFrom nonce : ℤ}
    (h : encodeFinalize debridgeId amount bridgeDecimals chainIdFrom nonce receiverHex autoParamsHex
      nativeSenderHex = .ok text)
    (hreceiver : receiverHex.length < 2 ^ 53) (hauto : autoParamsHex.length < 2 ^ 53)
    (hsender : nativeSenderHex.length < 2 ^ 53)
    (hfits : (Call.finalize debridgeId amount bridgeDecimals chainIdFrom nonce receiverHex
      autoParamsHex nativeSenderHex).Fits) :
    (Call.finalize debridgeId amount bridgeDecimals chainIdFrom nonce receiverHex autoParamsHex
      nativeSenderHex).Encoded text := by
  obtain ⟨hamountFits, hdecimalsFits, hchainFits, hnonceFits⟩ := hfits
  simp only [encodeFinalize, bind_eq_ok, pure_eq_ok] at h
  obtain ⟨_, hrecvTail, _, hautoTail, _, hnsTail, _, hid, _, hamount, _, hdecimals, _, hchainIdFrom,
    _, hnonce, _, hoffReceiver, _, hoffAuto, _, hoffNs, rfl⟩ := h
  obtain ⟨rfl, hrecv⟩ := encBytesTail_eq_ok hrecvTail hreceiver
  obtain ⟨rfl, hautoBytes⟩ := encBytesTail_eq_ok hautoTail hauto
  obtain ⟨rfl, hnsBytes⟩ := encBytesTail_eq_ok hnsTail hsender
  obtain ⟨rfl, hidOf⟩ := encBytes32_eq_ok hid
  obtain ⟨rfl, hamountOf⟩ := encUint_eq_ok hamount hamountFits
  obtain ⟨rfl, -⟩ := encUint_eq_ok hdecimals (by omega)
  obtain ⟨rfl, hchainIdFromOf⟩ := encUint_eq_ok hchainIdFrom hchainFits
  obtain ⟨rfl, hnonceOf⟩ := encUint_eq_ok hnonce hnonceFits
  rw [length_encode_half] at hoffAuto hoffNs
  rw [length_encode_half] at hoffNs
  have hrecvLen := length_encodeBytes_le hrecv
  have hautoLen := length_encodeBytes_le hautoBytes
  obtain rfl := encUint_offset hoffReceiver (by norm_num)
  obtain rfl := encUint_offset hoffAuto (by omega)
  obtain rfl := encUint_offset hoffNs (by omega)
  constructor
  · simp only [Call.selector, Call.args, wordArg, intArg, encodeTuple, encodeHead, encodeTail,
      Arg.tail, List.flatMap_cons, List.flatMap_nil, List.append_nil, List.nil_append,
      Hex.encode_append, List.append_assoc, List.length_cons, List.length_nil]
  · have hlt : bridgeDecimals.toNat < 2 ^ 8 := by omega
    have hdecimalsOf : Arg.Of .uint8 (intArg bridgeDecimals) := .word (by decide) hlt
    exact .cons hidOf (.cons hamountOf (.cons hdecimalsOf (.cons hchainIdFromOf (.cons hnonceOf
      (.cons (.bytes _) (.cons (.bytes _) (.cons (.bytes _) .nil)))))))
  · refine length_encodeTuple_lt (by simp [Call.args]) ?_
    simp only [Call.args, wordArg, intArg, List.mem_cons, List.not_mem_nil, or_false, reduceCtorEq,
      false_or, Arg.bytes.injEq]
    rintro bs (rfl | rfl | rfl)
    · exact hrecv
    · exact hautoBytes
    · exact hnsBytes

/-- **What is built is the standard encoding**, where every integer fits its word. -/
theorem Call.encode_eq {c : Call} {text : Text} (hlen : ∀ t ∈ c.byteTexts, t.length < 2 ^ 53)
    (h : c.encode = .ok text) (hfits : c.Fits) : c.Encoded text := by
  cases c with
  | approve spender amount => exact encodeApprove_eq h hfits
  | swap tokenIn tokenOut amountIn minAmountOut target => exact encodeSwap_eq h hfits
  | send token amount chainIdTo receiver autoParamsHex bridgeUnit =>
    exact encodeSend_eq h (hlen receiver (by simp [Call.byteTexts]))
      (hlen autoParamsHex (by simp [Call.byteTexts])) hfits
  | swapAndBridge tokenIn amountIn minStableOut chainIdTo finalToken finalReceiver finalMinOut =>
    exact encodeSwapAndBridge_eq h hfits
  | finalize debridgeId amount bridgeDecimals chainIdFrom nonce receiverHex autoParamsHex
      nativeSenderHex =>
    exact encodeFinalize_eq h (hlen receiverHex (by simp [Call.byteTexts]))
      (hlen autoParamsHex (by simp [Call.byteTexts]))
      (hlen nativeSenderHex (by simp [Call.byteTexts])) hfits

/-! ### Decoding what is built -/

theorem decodeCall_selector {ts : List Ty} {c : Call} {bs : Bytes} :
    decodeCall ts (['0', 'x'] ++ (c.selector ++ Hex.encode bs)) = decodeArgs ts bs := by
  have hdrop : (['0', 'x'] ++ (c.selector ++ Hex.encode bs)).drop 10 = Hex.encode bs := by
    cases c with
    | _ => rfl
  rw [decodeCall, hdrop, Hex.decode_encode, Option.bind_some]

theorem lt_of_intArg {t : Ty} {v : ℤ} (h : Arg.Of t (intArg v)) : v < t.bound := by
  cases h with
  | word static lt => omega

/-- Arguments of the types of the signature fit. -/
theorem Call.fits_of_types {c : Call} (h : List.Forall₂ Arg.Of c.types c.args) : c.Fits := by
  cases c with
  | approve spender amount =>
    simp only [types, args, List.forall₂_cons, List.forall₂_nil_left_iff, and_true] at h
    exact lt_of_intArg h.2
  | swap tokenIn tokenOut amountIn minAmountOut target =>
    simp only [types, args, List.forall₂_cons, List.forall₂_nil_left_iff, and_true] at h
    exact ⟨lt_of_intArg h.2.2.1, lt_of_intArg h.2.2.2.1⟩
  | send token amount chainIdTo receiver autoParamsHex bridgeUnit =>
    simp only [types, args, List.forall₂_cons, List.forall₂_nil_left_iff, and_true] at h
    exact ⟨lt_of_intArg h.2.1, lt_of_intArg h.2.2.1⟩
  | swapAndBridge tokenIn amountIn minStableOut chainIdTo finalToken finalReceiver finalMinOut =>
    simp only [types, args, List.forall₂_cons, List.forall₂_nil_left_iff, and_true] at h
    exact ⟨lt_of_intArg h.2.1, lt_of_intArg h.2.2.1, lt_of_intArg h.2.2.2.1,
      lt_of_intArg h.2.2.2.2.2.2⟩
  | finalize debridgeId amount bridgeDecimals chainIdFrom nonce receiverHex autoParamsHex
      nativeSenderHex =>
    simp only [types, args, List.forall₂_cons, List.forall₂_nil_left_iff, and_true] at h
    exact ⟨lt_of_intArg h.2.1, lt_of_intArg h.2.2.1, lt_of_intArg h.2.2.2.1,
      lt_of_intArg h.2.2.2.2.1⟩

/-- **The gate decodes the arguments that were given exactly when every integer fits its word.**
A text has fewer than 2⁵³ characters, as the language has it. -/
theorem calldata_iff (c : Call) {text : Text} (hlen : ∀ t ∈ c.byteTexts, t.length < 2 ^ 53)
    (h : c.encode = .ok text) : decodeCall c.types text = some c.args ↔ c.Fits := by
  constructor
  · intro hdecode
    obtain ⟨bs, -, hargs⟩ := Option.bind_eq_some_iff.mp hdecode
    exact Call.fits_of_types (of_decodeArgs hargs)
  · intro hfits
    obtain ⟨htext, htypes, hlt⟩ := Call.encode_eq hlen h hfits
    rw [htext, decodeCall_selector]
    exact decodeArgs_encodeTuple htypes hlt

/-- An address of one digit. -/
def repeatedAddress (c : Char) : Text := ['0', 'x'] ++ List.replicate 40 c

/-- A transfer to the key of 32 zeros. -/
def zeroKeySend : Call :=
  .send (repeatedAddress 'C') 5000000 102 (List.replicate 32 '1') [] 1000000

theorem calldata_zeroKeySend : ∃ text, zeroKeySend.encode = .ok text ∧
    decodeCall zeroKeySend.types text = some zeroKeySend.args := by
  have hsome : zeroKeySend.encode.toOption.isSome = true := by decide +kernel
  obtain ⟨text, htext⟩ := Option.isSome_iff_exists.mp hsome
  have henc := toOption_eq_some.mp htext
  have hlen : ∀ t ∈ zeroKeySend.byteTexts, t.length < 2 ^ 53 := by
    simp [zeroKeySend, Call.byteTexts]
  have hfits : zeroKeySend.Fits := by
    constructor
    · norm_num
    · norm_num
  exact ⟨text, henc, (calldata_iff zeroKeySend hlen henc).mpr hfits⟩

/-- A swap of an amount with 66 digits. -/
def wideSwap : Call :=
  .swap (repeatedAddress '1') (repeatedAddress '2') (2 ^ 260) 256 (repeatedAddress '3')

/-- The words behind it have moved by a byte: the router would take another amount, another
minimum and another recipient. -/
theorem not_calldata_wideSwap : ∃ text, wideSwap.encode = .ok text ∧
    decodeCall wideSwap.types text =
      some [wordArg (repeatedAddress '1'), wordArg (repeatedAddress '2'), .word (2 ^ 252), .word 1,
        wordArg (['0', 'x', '0', '0'] ++ List.replicate 38 '3')] ∧
    decodeCall wideSwap.types text ≠ some wideSwap.args := by
  have hdecode : wideSwap.encode.toOption.bind (decodeCall wideSwap.types) =
      some [wordArg (repeatedAddress '1'), wordArg (repeatedAddress '2'), .word (2 ^ 252), .word 1,
        wordArg (['0', 'x', '0', '0'] ++ List.replicate 38 '3')] := by
    decide +kernel
  obtain ⟨text, htext, hargs⟩ := Option.bind_eq_some_iff.mp hdecode
  refine ⟨text, toOption_eq_some.mp htext, hargs, ?_⟩
  rw [hargs]
  decide +kernel

end Frontend

end SelendraBridge
