import Mathlib.Algebra.Order.Floor.Semifield
import Mathlib.Data.List.DropRight
import Mathlib.Data.Rat.Floor
import Mathlib.Tactic.FieldSimp
import Mathlib.Tactic.Ring

/-!
# Decimal text and the numbers it spells

A text of decimal digits is a number (`Decimal.value`), and a text with a point in it is a
fraction (`Decimal.Denotes`). What programs do to such texts – cut them, pad them with zeros,
drop zeros at either end – is division, multiplication, or nothing at all:

* keeping the first digits divides (`Decimal.value_take`), and so the digits of a fraction up to
  a place are its integral part at that place (`Decimal.floor_eq`);
* zeros in front say nothing (`Decimal.value_stripZeros`), and neither do zeros behind the point
  (`Decimal.value_rdropWhile`).
-/

namespace Decimal

/-- Digits only. -/
def AllDigits (s : List Char) : Prop := ∀ c ∈ s, c.isDigit = true

/-- The number that digits spell. -/
def value (s : List Char) : ℕ := Nat.ofDigitChars 10 s 0

/-- A digit is below ten. -/
theorem digit_lt {c : Char} (h : c.isDigit = true) : c.toNat - '0'.toNat < 10 := by
  simp only [Char.isDigit, Bool.and_eq_true, decide_eq_true_eq, UInt32.le_iff_toNat_le, ge_iff_le,
    Char.toNat_val] at h
  have hzero : '0'.toNat = 48 := rfl
  have hnine : '9'.toNat = 57 := rfl
  omega

@[simp] theorem value_nil : value [] = 0 := rfl

/-- **Digits behind digits** are lower places. -/
theorem value_append (s t : List Char) : value (s ++ t) = 10 ^ t.length * value s + value t := by
  rw [value, Nat.ofDigitChars_append, Nat.ofDigitChars_eq_ofDigitChars_zero]
  rfl

@[simp] theorem value_replicate_zero (n : ℕ) : value (List.replicate n '0') = 0 := by
  rw [value, Nat.ofDigitChars_replicate_zero, Nat.mul_zero]

theorem value_cons (c : Char) (s : List Char) :
    value (c :: s) = 10 ^ s.length * (c.toNat - '0'.toNat) + value s := by
  have h := value_append [c] s
  rw [List.singleton_append] at h
  rw [h, value, Nat.ofDigitChars_cons, Nat.ofDigitChars_nil, Nat.mul_zero, Nat.zero_add]

theorem AllDigits.append {s t : List Char} (hs : AllDigits s) (ht : AllDigits t) :
    AllDigits (s ++ t) := fun c hc => (List.mem_append.mp hc).elim (hs c) (ht c)

theorem AllDigits.of_subset {s t : List Char} (ht : AllDigits t) (h : s ⊆ t) : AllDigits s :=
  fun c hc => ht c (h hc)

theorem allDigits_replicate (n : ℕ) : AllDigits (List.replicate n '0') := by
  intro c hc
  rw [List.eq_of_mem_replicate hc]
  rfl

theorem allDigits_toDigits (n : ℕ) : AllDigits (Nat.toDigits 10 n) := fun _ hc =>
  Nat.isDigit_of_mem_toDigits (by decide) (by decide) hc

theorem value_toDigits (n : ℕ) : value (Nat.toDigits 10 n) = n := Nat.ofDigitChars_ten_toDigits

/-- A number has no more places than digits. -/
theorem AllDigits.value_lt {s : List Char} (h : AllDigits s) : value s < 10 ^ s.length := by
  induction s with
  | nil => simp
  | cons c s ih =>
    have hc := digit_lt (h c List.mem_cons_self)
    have hs := ih fun d hd => h d (List.mem_cons_of_mem c hd)
    rw [value_cons, List.length_cons, pow_succ]
    calc 10 ^ s.length * (c.toNat - '0'.toNat) + value s
        < 10 ^ s.length * (c.toNat - '0'.toNat) + 10 ^ s.length := by omega
      _ = 10 ^ s.length * (c.toNat - '0'.toNat + 1) := by ring
      _ ≤ 10 ^ s.length * 10 := Nat.mul_le_mul_left _ (by omega)

/-- **The first digits are a quotient.** -/
theorem value_take {s : List Char} (h : AllDigits s) (n : ℕ) :
    value (s.take n) = value s / 10 ^ (s.length - n) := by
  have hdrop : AllDigits (s.drop n) := h.of_subset (List.drop_subset n s)
  have hlt := hdrop.value_lt
  rw [List.length_drop] at hlt
  conv_rhs => rw [← List.take_append_drop n s, value_append, List.length_drop]
  rw [List.take_append_drop, Nat.mul_add_div (Nat.pow_pos (by omega)),
    Nat.div_eq_of_lt hlt, Nat.add_zero]

/-! ### Zeros -/

/-- Without the zeros that stand in front of a digit. -/
def stripZeros : List Char → List Char
  | '0' :: c :: s => if c.isDigit then stripZeros (c :: s) else '0' :: c :: s
  | s => s

theorem value_stripZeros (s : List Char) : value (stripZeros s) = value s := by
  induction s using stripZeros.induct with
  | case1 c s hc ih =>
    rw [stripZeros, if_pos hc, ih, value_cons '0', Nat.sub_self, Nat.mul_zero, Nat.zero_add]
  | case2 c s hc => rw [stripZeros, if_neg hc]
  | case3 s hs => rw [stripZeros.eq_2 s hs]

theorem stripZeros_ne_nil {s : List Char} (h : s ≠ []) : stripZeros s ≠ [] := by
  induction s using stripZeros.induct with
  | case1 c s hc ih =>
    rw [stripZeros, if_pos hc]
    exact ih (List.cons_ne_nil c s)
  | case2 c s hc =>
    rw [stripZeros, if_neg hc]
    exact List.cons_ne_nil _ _
  | case3 s hs => rwa [stripZeros.eq_2 s hs]

theorem AllDigits.stripZeros {s : List Char} (h : AllDigits s) : AllDigits (stripZeros s) := by
  induction s using stripZeros.induct with
  | case1 c s hc ih =>
    rw [Decimal.stripZeros, if_pos hc]
    exact ih fun d hd => h d (List.mem_cons_of_mem _ hd)
  | case2 c s hc => rwa [Decimal.stripZeros, if_neg hc]
  | case3 s hs => rwa [Decimal.stripZeros.eq_2 s hs]

/-- Zeros at the end are places. -/
theorem rdropWhile_append_replicate (s : List Char) :
    s = s.rdropWhile (· == '0') ++
      List.replicate (s.length - (s.rdropWhile (· == '0')).length) '0' := by
  have hsplit : s.rdropWhile (· == '0') ++ s.rtakeWhile (· == '0') = s :=
    List.rdropWhile_append_rtakeWhile
  have hlen := congrArg List.length hsplit
  rw [List.length_append] at hlen
  have hzeros : s.rtakeWhile (· == '0') =
      List.replicate (s.rtakeWhile (· == '0')).length '0' := by
    refine List.eq_replicate_of_mem fun c hc => ?_
    have hzero := List.mem_rtakeWhile_imp (p := (· == '0')) hc
    exact eq_of_beq hzero
  have hcount : s.length - (s.rdropWhile (· == '0')).length =
      (s.rtakeWhile (· == '0')).length := by omega
  rw [hcount, ← hzeros]
  exact hsplit.symm

/-! ### Fractions -/

/-- **A text denotes a fraction**: digits, with a point before, between or behind them, or
without one. -/
def Denotes (s : List Char) (v : ℚ) : Prop :=
  (AllDigits s ∧ v = value s) ∨
    ∃ w f, s = w ++ '.' :: f ∧ AllDigits w ∧ AllDigits f ∧
      v = value w + (value f : ℚ) / 10 ^ f.length

/-- **The integral part, after shifting the point**: the digits up to a place, filled up with
zeros. -/
theorem floor_eq {w f : List Char} (hf : AllDigits f) (d : ℕ) :
    ⌊((value w : ℚ) + (value f : ℚ) / 10 ^ f.length) * 10 ^ d⌋₊ =
      value (w ++ (f ++ List.replicate d '0').take d) := by
  have hpad := value_take (hf.append (allDigits_replicate d)) d
  have hlen : (f ++ List.replicate d '0').length - d = f.length := by
    rw [List.length_append, List.length_replicate, Nat.add_sub_cancel]
  have hkept : ((f ++ List.replicate d '0').take d).length = d := by
    rw [List.length_take, List.length_append, List.length_replicate]
    omega
  rw [hlen, value_append, value_replicate_zero, List.length_replicate, Nat.add_zero] at hpad
  rw [value_append, hkept, hpad]
  have hfrac : ((value w : ℚ) + (value f : ℚ) / 10 ^ f.length) * 10 ^ d =
      ((10 ^ f.length * (10 ^ d * value w) + 10 ^ d * value f : ℕ) : ℚ) /
        ((10 ^ f.length : ℕ) : ℚ) := by
    push_cast
    field_simp
  rw [hfrac, Nat.floor_div_eq_div, Nat.mul_add_div (Nat.pow_pos (by omega))]

end Decimal
