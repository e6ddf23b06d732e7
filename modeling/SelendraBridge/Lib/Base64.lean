import Mathlib.Data.List.Basic
import Mathlib.Data.List.GetD
import Mathlib.Tactic.Common

/-!
# Base64

Three bytes are four characters of six bits each. What is left at the end, one byte or two, is
filled up with zero bits to whole characters, and with `=` to four of them; the reader insists on
both, so that no text but the encoding is read as some bytes.

What was encoded is read back (`Base64.decode_encode`), and an encoding is made of the sixty-four
characters and of `=` only (`Base64.mem_of_mem_encode`), so that it can stand in a text between
blanks.
-/

namespace Base64

/-- The characters, in the order of their values. -/
def alphabet : List Char :=
  ['A', 'B', 'C', 'D', 'E', 'F', 'G', 'H', 'I', 'J', 'K', 'L', 'M', 'N', 'O', 'P',
    'Q', 'R', 'S', 'T', 'U', 'V', 'W', 'X', 'Y', 'Z', 'a', 'b', 'c', 'd', 'e', 'f',
    'g', 'h', 'i', 'j', 'k', 'l', 'm', 'n', 'o', 'p', 'q', 'r', 's', 't', 'u', 'v',
    'w', 'x', 'y', 'z', '0', '1', '2', '3', '4', '5', '6', '7', '8', '9', '+', '/']

/-- The character of a value below 64. -/
def char (n : ℕ) : Char := alphabet.getD n 'A'

/-- The value of a character. -/
def value (c : Char) : Option ℕ := alphabet.idxOf? c

/-- Four characters for three bytes. -/
def encode : List UInt8 → List Char
  | [] => []
  | [a] => [char (a.toNat / 4), char (a.toNat % 4 * 16), '=', '=']
  | [a, b] => [char (a.toNat / 4), char (a.toNat % 4 * 16 + b.toNat / 16),
      char (b.toNat % 16 * 4), '=']
  | a :: b :: c :: bs => char (a.toNat / 4) :: char (a.toNat % 4 * 16 + b.toNat / 16) ::
      char (b.toNat % 16 * 4 + c.toNat / 64) :: char (c.toNat % 64) :: encode bs

/-- The byte of two values: the low bits of the one, the high bits of the other. -/
def join (x k y l : ℕ) : UInt8 := UInt8.ofNat (x % (256 / k) * k + y / l)

/-- The bytes of a last group, whose fourth character is padding: what fills it up has to be zero. -/
def decodeLast (p q r : Char) : Option (List UInt8) := do
  let x ← value p
  let y ← value q
  if r = '=' then
    if y % 16 = 0 then some [join x 4 y 16] else none
  else do
    let z ← value r
    if z % 4 = 0 then some [join x 4 y 16, join y 16 z 4] else none

/-- Three bytes for four characters; nothing on another length or another character, or if the
padding is not what it has to be. -/
def decode : List Char → Option (List UInt8)
  | [] => some []
  | p :: q :: r :: s :: cs =>
    if s = '=' ∧ cs = [] then decodeLast p q r
    else do
      let x ← value p
      let y ← value q
      let z ← value r
      let w ← value s
      let bs ← decode cs
      return join x 4 y 16 :: join y 16 z 4 :: join z 64 w 1 :: bs
  | _ => none

/-! ### What is read back -/

@[simp] theorem value_char {n : ℕ} (h : n < 64) : value (char n) = some n := by
  have hall : ∀ n : Fin 64, value (char n) = some n.val := by decide
  exact hall ⟨n, h⟩

theorem char_ne_padding {n : ℕ} (h : n < 64) : char n ≠ '=' := by
  intro heq
  have hvalue := value_char h
  have hnone : value '=' = none := by decide
  rw [heq, hnone] at hvalue
  cases hvalue

/-- A byte, cut into two values and put together again. -/
theorem join_eq {a : UInt8} {x k y l : ℕ} (h : x % (256 / k) * k + y / l = a.toNat) :
    join x k y l = a := by
  rw [join, h]
  exact UInt8.ofNat_toNat

/-- **What was encoded is read back.** -/
theorem decode_encode (bs : List UInt8) : decode (encode bs) = some bs := by
  induction bs using encode.induct with
  | case1 => rfl
  | case2 a =>
    have ha := a.toNat_lt
    rw [encode, decode, if_pos ⟨rfl, rfl⟩, decodeLast, value_char (by omega),
      value_char (by omega)]
    simp only [Option.bind_eq_bind, Option.bind_some, if_true]
    rw [if_pos (by omega), join_eq (a := a) (by omega)]
  | case3 a b =>
    have ha := a.toNat_lt
    have hb := b.toNat_lt
    rw [encode, decode, if_pos ⟨rfl, rfl⟩, decodeLast, value_char (by omega),
      value_char (by omega), value_char (by omega)]
    simp only [Option.bind_eq_bind, Option.bind_some]
    rw [if_neg (char_ne_padding (by omega)), if_pos (by omega), join_eq (a := a) (by omega),
      join_eq (a := b) (by omega)]
  | case4 a b c bs ih =>
    have ha := a.toNat_lt
    have hb := b.toNat_lt
    have hc := c.toNat_lt
    have hlast : ¬(char (c.toNat % 64) = '=' ∧ encode bs = []) :=
      fun h => char_ne_padding (by omega) h.1
    rw [encode, decode, if_neg hlast, value_char (by omega), value_char (by omega),
      value_char (by omega), value_char (by omega), ih]
    simp only [Option.bind_eq_bind, Option.bind_some, Option.pure_def, Option.some.injEq,
      List.cons.injEq, and_true]
    exact ⟨join_eq (by omega), join_eq (by omega), join_eq (by omega)⟩

/-! ### What an encoding is made of -/

theorem char_mem {n : ℕ} (h : n < 64) : char n ∈ alphabet := by
  rw [char, List.getD_eq_getElem _ _ h]
  exact List.getElem_mem h

/-- An encoding is made of the characters and of padding. -/
theorem mem_of_mem_encode {bs : List UInt8} {c : Char} (h : c ∈ encode bs) :
    c ∈ alphabet ∨ c = '=' := by
  induction bs using encode.induct with
  | case1 => cases h
  | case2 a =>
    have ha := a.toNat_lt
    simp only [encode, List.mem_cons, List.not_mem_nil, or_false] at h
    rcases h with rfl | rfl | rfl | rfl
    · exact .inl (char_mem (by omega))
    · exact .inl (char_mem (by omega))
    · exact .inr rfl
    · exact .inr rfl
  | case3 a b =>
    have ha := a.toNat_lt
    have hb := b.toNat_lt
    simp only [encode, List.mem_cons, List.not_mem_nil, or_false] at h
    rcases h with rfl | rfl | rfl | rfl
    · exact .inl (char_mem (by omega))
    · exact .inl (char_mem (by omega))
    · exact .inl (char_mem (by omega))
    · exact .inr rfl
  | case4 a b d bs ih =>
    have ha := a.toNat_lt
    have hb := b.toNat_lt
    have hd := d.toNat_lt
    rw [encode, List.mem_cons, List.mem_cons, List.mem_cons, List.mem_cons] at h
    rcases h with rfl | rfl | rfl | rfl | h
    · exact .inl (char_mem (by omega))
    · exact .inl (char_mem (by omega))
    · exact .inl (char_mem (by omega))
    · exact .inl (char_mem (by omega))
    · exact ih h

theorem encode_ne_nil {bs : List UInt8} (h : bs ≠ []) : encode bs ≠ [] := by
  intro hnil
  have hback := decode_encode bs
  rw [hnil] at hback
  exact h (Option.some.inj hback).symm

end Base64
