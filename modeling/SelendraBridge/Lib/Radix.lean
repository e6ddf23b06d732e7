import Mathlib.Data.List.TakeWhile
import Mathlib.Data.Nat.Digits.Lemmas
import Mathlib.Tactic.Ring

/-!
# Strings of digits from one base to another

A string of digits is not just a number: zeros in front of it do not change the number, but they
are there. What it is, then, is a number *and* how many zeros are in front
(`Radix.toPair`), and this much is the same in every base. Recoding a string keeps both
(`Radix.recode`), and undoes itself (`Radix.recode_recode`).

Programs recode digit by digit: they keep the digits of the number so far, lowest first, multiply
them by the old base, and add the next digit as a carry, which runs through and off the end
(`Radix.mulAdd`). That is the number they compute (`Radix.convert_eq`).
-/

namespace Radix

variable {b c : ℕ}

/-! ### Number and zeros -/

/-- How many zeros are in front. -/
def zeros (ds : List ℕ) : ℕ := (ds.takeWhile (· == 0)).length

/-- The zeros in front, and the number, of digits with the highest first. -/
def toPair (b : ℕ) (ds : List ℕ) : ℕ × ℕ := (zeros ds, Nat.ofDigits b ds.reverse)

/-- The digits of a number, behind some zeros. -/
def ofPair (b : ℕ) (p : ℕ × ℕ) : List ℕ := List.replicate p.1 0 ++ (Nat.digits b p.2).reverse

/-- **The same string in another base.** -/
def recode (b c : ℕ) (ds : List ℕ) : List ℕ := ofPair c (toPair b ds)

theorem eq_replicate_append (ds : List ℕ) :
    ds = List.replicate (zeros ds) 0 ++ ds.dropWhile (· == 0) := by
  have hzeros : ds.takeWhile (· == 0) = List.replicate (zeros ds) 0 := by
    refine List.eq_replicate_of_mem fun d hd => ?_
    have hzero := List.mem_takeWhile_imp (p := (· == 0)) hd
    exact eq_of_beq hzero
  conv_lhs => rw [← List.takeWhile_append_dropWhile (p := (· == 0)) (l := ds), hzeros]

/-- Zeros in front do not change the number. -/
theorem ofDigits_reverse_replicate (n : ℕ) (ds : List ℕ) :
    Nat.ofDigits b (List.replicate n 0 ++ ds).reverse = Nat.ofDigits b ds.reverse := by
  rw [List.reverse_append, List.reverse_replicate, Nat.ofDigits_append_replicate_zero]

/-- **Digits are those of their number, behind their zeros.** -/
theorem ofPair_toPair (hb : 1 < b) {ds : List ℕ} (hds : ∀ d ∈ ds, d < b) :
    ofPair b (toPair b ds) = ds := by
  have hsplit := eq_replicate_append ds
  have hrest : ∀ d ∈ (ds.dropWhile (· == 0)).reverse, d < b := fun d hd =>
    hds d ((List.dropWhile_suffix _).subset (List.mem_reverse.mp hd))
  have hlast : ∀ h : (ds.dropWhile (· == 0)).reverse ≠ [],
      (ds.dropWhile (· == 0)).reverse.getLast h ≠ 0 := by
    intro h hzero
    rw [List.getLast_reverse] at hzero
    have hhead := List.head_dropWhile_not (· == 0) (l := ds) (by simpa using h)
    simp [hzero] at hhead
  have hnumber : Nat.ofDigits b ds.reverse =
      Nat.ofDigits b (ds.dropWhile (· == 0)).reverse := by
    conv_lhs => rw [hsplit, ofDigits_reverse_replicate]
  rw [ofPair, toPair]
  dsimp only
  rw [hnumber, Nat.digits_ofDigits b hb _ hrest hlast, List.reverse_reverse]
  exact hsplit.symm

theorem zeros_replicate_append (n : ℕ) {ds : List ℕ} (h : ds.head? ≠ some 0) :
    zeros (List.replicate n 0 ++ ds) = n := by
  have htake : ds.takeWhile (· == 0) = [] := by
    cases ds with
    | nil => rfl
    | cons d ds =>
      refine List.takeWhile_cons_of_neg ?_
      rintro hd
      exact h (congrArg some (eq_of_beq hd))
  rw [zeros, List.takeWhile_append_of_pos (by simp), htake, List.append_nil,
    List.length_replicate]

/-- The digits of a number do not begin with a zero. -/
theorem head?_reverse_digits (b n : ℕ) : (Nat.digits b n).reverse.head? ≠ some 0 := by
  rw [List.head?_reverse]
  intro h
  have hne : Nat.digits b n ≠ [] := by
    intro hnil
    rw [hnil] at h
    cases h
  rw [List.getLast?_eq_some_getLast hne] at h
  exact Nat.getLast_digit_ne_zero b (Nat.digits_ne_nil_iff_ne_zero.mp hne) (Option.some.inj h)

theorem toPair_ofPair (b : ℕ) (p : ℕ × ℕ) : toPair b (ofPair b p) = p := by
  rw [toPair, ofPair, zeros_replicate_append p.1 (head?_reverse_digits b p.2),
    ofDigits_reverse_replicate, List.reverse_reverse, Nat.ofDigits_digits]

theorem lt_of_mem_ofPair (hb : 1 < b) {p : ℕ × ℕ} {d : ℕ} (h : d ∈ ofPair b p) : d < b := by
  rcases List.mem_append.mp h with h | h
  · rw [List.eq_of_mem_replicate h]
    omega
  · exact Nat.digits_lt_base hb (List.mem_reverse.mp h)

/-- **Recoding undoes itself.** -/
theorem recode_recode (hb : 1 < b) {ds : List ℕ} (hds : ∀ d ∈ ds, d < b) :
    recode c b (recode b c ds) = ds := by
  rw [recode, recode, toPair_ofPair, ofPair_toPair hb hds]

theorem lt_of_mem_recode (hc : 1 < c) {ds : List ℕ} {d : ℕ} (h : d ∈ recode b c ds) : d < c :=
  lt_of_mem_ofPair hc h

/-! ### Digit by digit -/

/-- Digits, lowest first, times `r`, plus a carry. -/
def mulAdd (b r : ℕ) : List ℕ → ℕ → List ℕ
  | [], carry => Nat.digits b carry
  | d :: ds, carry => ((carry + d * r) % b) :: mulAdd b r ds ((carry + d * r) / b)

/-- The digits of a number whose digits in base `r` come in one by one, highest first. -/
def convert (b r : ℕ) (ds : List ℕ) : List ℕ := ds.foldl (mulAdd b r) []

/-- **Multiplying the digits of a number and adding gives the digits of the result.** -/
theorem mulAdd_digits (hb : 1 < b) {r : ℕ} (hr : 0 < r) (n carry : ℕ) :
    mulAdd b r (Nat.digits b n) carry = Nat.digits b (n * r + carry) := by
  induction n using Nat.strongRecOn generalizing carry with
  | ind n ih =>
    rcases Nat.eq_zero_or_pos n with rfl | hn
    · rw [Nat.digits_zero, mulAdd, Nat.zero_mul, Nat.zero_add]
    · rw [Nat.digits_def' hb hn, mulAdd, ih (n / b) (Nat.div_lt_self hn hb),
        Nat.digits_def' hb (Nat.add_pos_left (Nat.mul_pos hn hr) carry)]
      have hsum : n * r + carry = carry + n % b * r + b * (n / b * r) := by
        conv_lhs => rw [← Nat.mod_add_div n b]
        ring
      rw [hsum, Nat.add_mul_mod_self_left, Nat.add_mul_div_left _ _ (by omega),
        Nat.add_comm (n / b * r)]

/-- **The loop computes the digits of the number.** -/
theorem convert_eq (hb : 1 < b) {r : ℕ} (hr : 0 < r) (ds : List ℕ) :
    convert b r ds = Nat.digits b (Nat.ofDigits r ds.reverse) := by
  induction ds using List.reverseRecOn with
  | nil =>
    rw [List.reverse_nil, Nat.ofDigits_nil, Nat.digits_zero]
    rfl
  | append_singleton ds d ih =>
    rw [convert, List.foldl_append, ← convert, ih, List.reverse_append, List.reverse_singleton,
      List.singleton_append, Nat.ofDigits_cons, List.foldl_cons, List.foldl_nil,
      mulAdd_digits hb hr, Nat.mul_comm, Nat.add_comm]

end Radix
