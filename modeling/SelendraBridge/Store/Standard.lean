import SelendraBridge.Store.Record

/-!
# Parsers that do what is relied on

`SelendraBridge.Store.Parsers` is a parameter, and its laws would say nothing if no
parsers met them. These do: mixed-case hexadecimal with an optional `0x` for hashes
and addresses, plain decimal for numbers, and the ABI decoder of the gate.

The number parser of the library takes more than decimal: a prefix names another radix, and
underscores do not count (`SelendraBridge.Store.uintFromStr`).
-/

namespace SelendraBridge

namespace Store

/-- A decimal number that fits a word. -/
def parseDecimal (s : Text) : Option U256 :=
  if s ≠ [] ∧ s.all isDigit ∧ Nat.ofDigitChars 10 s 0 < 2 ^ 256 then
    some (BitVec.ofNat 256 (Nat.ofDigitChars 10 s 0))
  else none

/-- Hexadecimal of a fixed width, with an optional `0x`. -/
def parseFixed (n : ℕ) (s : Text) : Option (BitVec (8 * n)) :=
  (Hex.decode (stripHexPrefix s)).bind (BigEndian.toWord n)

/-- The parsers as documented. -/
def Parsers.standard : Parsers where
  hexDecode := Hex.decode
  b256 := parseFixed 32
  u256 := parseDecimal
  address := parseFixed 20
  abiDecode := Abi.decodeAutoParamsTo

theorem parseFixed_eq_some_iff {n : ℕ} {s : Text} {w : BitVec (8 * n)} :
    parseFixed n s = some w ↔ lower (stripHexPrefix s) = Hex.encode (BigEndian.ofWord n w) := by
  simp only [parseFixed, Option.bind_eq_some_iff, Hex.decode_eq_some_iff,
    BigEndian.toWord_eq_some_iff]
  constructor
  · rintro ⟨_, hs, rfl⟩
    exact hs
  · intro h
    exact ⟨_, h, rfl⟩

theorem all_isDigit_decimalText (n : ℕ) : (decimalText n).all isDigit = true := by
  rw [List.all_eq_true]
  intro c hc
  exact Nat.isDigit_of_mem_toDigits (by decide) (by decide) hc

theorem parseDecimal_decimalText (n : U256) : parseDecimal (decimalText n.toNat) = some n := by
  have hval : Nat.ofDigitChars 10 (decimalText n.toNat) 0 = n.toNat :=
    Nat.ofDigitChars_ten_toDigits
  have hlt : Nat.ofDigitChars 10 (decimalText n.toNat) 0 < 2 ^ 256 := by
    rw [hval]
    exact n.isLt
  rw [parseDecimal, if_pos ⟨Nat.toDigits_ne_nil, all_isDigit_decimalText _, hlt⟩, hval]
  simp

/-- **The laws hold of the parsers as documented.** -/
theorem Parsers.standard_lawful : Parsers.standard.Lawful where
  hexDecode_iff := Hex.decode_eq_some_iff
  b256_iff := parseFixed_eq_some_iff (n := 32)
  address_iff := parseFixed_eq_some_iff (n := 20)
  u256_decimal := parseDecimal_decimalText

/-! ### Numbers in any radix -/

/-- The value of a digit, of any radix up to 36. -/
def radixDigit (c : Char) : Option ℕ :=
  if isDigit c then some (c.toNat - 48)
  else if c.isLower then some (c.toNat - 87)
  else if c.isUpper then some (c.toNat - 55)
  else none

/-- The digits of a number, and underscores, after what was read so far. -/
def readRadix (radix : ℕ) : ℕ → Text → Option ℕ
  | n, [] => some n
  | n, c :: s =>
    if c = '_' then readRadix radix n s
    else match radixDigit c with
      | some d => if d < radix then readRadix radix (radix * n + d) s else none
      | none => none

/-- The radix that a letter names. -/
def radixOf (c : Char) : Option ℕ :=
  if c = 'x' ∨ c = 'X' then some 16
  else if c = 'o' ∨ c = 'O' then some 8
  else if c = 'b' ∨ c = 'B' then some 2
  else none

/-- The radix of a number and its digits. -/
def splitRadix : Text → ℕ × Text
  | '0' :: c :: s =>
    match radixOf c with
    | some radix => (radix, s)
    | none => (10, '0' :: c :: s)
  | s => (10, s)

/-- `U256::from_str`. -/
def uintFromStr (s : Text) : Option U256 := do
  let n ← readRadix (splitRadix s).1 0 (splitRadix s).2
  if n < 2 ^ 256 then some (BitVec.ofNat 256 n) else none

theorem readRadix_digits {n : ℕ} {s : Text} (h : s.all isDigit = true) :
    readRadix 10 n s = some (Nat.ofDigitChars 10 s n) := by
  induction s generalizing n with
  | nil => rw [readRadix, Nat.ofDigitChars_nil]
  | cons c s ih =>
    rw [List.all_cons, Bool.and_eq_true] at h
    obtain ⟨hc, hs⟩ := h
    have hunderscore : c ≠ '_' := by
      rintro rfl
      exact absurd hc (by decide)
    have hval : c.toNat - 48 < 10 := by
      simp only [isDigit, Char.isDigit, Bool.and_eq_true, decide_eq_true_eq,
        UInt32.le_iff_toNat_le, ge_iff_le, Char.toNat_val] at hc
      have hnine : '9'.toNat = 57 := rfl
      omega
    rw [readRadix, if_neg hunderscore, radixDigit, if_pos hc]
    dsimp only
    rw [if_pos hval, ih hs, Nat.ofDigitChars_cons]
    rfl

/-- A text of digits names no radix. -/
theorem splitRadix_digits {s : Text} (h : s.all isDigit = true) : splitRadix s = (10, s) := by
  unfold splitRadix
  split
  · next c s =>
    have hc : isDigit c = true := List.all_eq_true.mp h c (by simp)
    have hradix : radixOf c = none := by
      rw [radixOf, if_neg, if_neg, if_neg]
      · rintro (rfl | rfl) <;> exact absurd hc (by decide)
      · rintro (rfl | rfl) <;> exact absurd hc (by decide)
      · rintro (rfl | rfl) <;> exact absurd hc (by decide)
    rw [hradix]
  · rfl

/-- **Digits are a decimal number.** -/
theorem uintFromStr_digits {s : Text} (h : s.all isDigit = true) :
    uintFromStr s = if Nat.ofDigitChars 10 s 0 < 2 ^ 256 then
      some (BitVec.ofNat 256 (Nat.ofDigitChars 10 s 0)) else none := by
  rw [uintFromStr, splitRadix_digits h, readRadix_digits h]
  rfl

/-- There are no signs. -/
theorem uintFromStr_plus (s : Text) : uintFromStr ('+' :: s) = none := rfl

theorem uintFromStr_decimalText (n : U256) : uintFromStr (decimalText n.toNat) = some n := by
  have hval : Nat.ofDigitChars 10 (decimalText n.toNat) 0 = n.toNat :=
    Nat.ofDigitChars_ten_toDigits
  rw [uintFromStr_digits (all_isDigit_decimalText _), hval, if_pos n.isLt]
  simp

/-- The parsers as documented, with the numbers of the library. -/
def Parsers.radix : Parsers := { Parsers.standard with u256 := uintFromStr }

theorem Parsers.radix_lawful : Parsers.radix.Lawful where
  hexDecode_iff := Parsers.standard_lawful.hexDecode_iff
  b256_iff := Parsers.standard_lawful.b256_iff
  address_iff := Parsers.standard_lawful.address_iff
  u256_decimal := uintFromStr_decimalText

end Store

end SelendraBridge
