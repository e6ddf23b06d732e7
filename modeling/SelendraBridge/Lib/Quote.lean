import Mathlib.Algebra.Order.Floor.Div
import SelendraBridge.Lib.Market

/-!
# A quote, computed

What a market gives for an amount, as a function on natural numbers: the worth of the input
rounded down, the fee rounded up, the output rounded down. No machine computes it on natural
numbers, but every machine that rounds alike, and does not run out of bits, computes this
(`Market.quote`). It is a trade at the quotes (`Market.quoted_quote`), and gives no less for
more (`Market.quote_mono`).
-/

namespace Market

/-- The worth of an amount, rounded down. -/
def Listing.usd (i : Listing) (a : ℕ) : ℕ := a * i.price / i.unit

/-- The fee of `f` in `D` on a worth, rounded up. -/
def feeUsd (D f usd : ℕ) : ℕ := (usd * f) ⌈/⌉ D

/-- What the fee leaves. -/
def netUsd (D f usd : ℕ) : ℕ := usd - feeUsd D f usd

/-- **What an amount is traded for.** -/
def quote (D f : ℕ) (i o : Listing) (a : ℕ) : ℕ := netUsd D f (i.usd a) * o.unit / o.price

variable {D f a b : ℕ} {i o : Listing}

/-! ### Rounding up -/

/-- A machine rounds up by rounding down and adding one to what does not divide. -/
theorem ceilDiv_eq {n d : ℕ} (hd : 0 < d) : n ⌈/⌉ d = n / d + if n % d ≠ 0 then 1 else 0 := by
  have hdiv := Nat.div_add_mod n d
  have hmod := Nat.mod_lt n hd
  refine le_antisymm ((ceilDiv_le_iff_le_mul hd).mpr ?_) ?_
  · rw [Nat.mul_add]
    split <;> omega
  · by_cases hzero : n % d = 0
    · rw [if_neg (not_not.mpr hzero), Nat.add_zero, ← Nat.floorDiv_eq_div]
      exact floorDiv_le_ceilDiv
    · rw [if_pos hzero]
      have hle : n ≤ d * (n ⌈/⌉ d) := (ceilDiv_le_iff_le_mul hd).mp le_rfl
      exact Nat.div_lt_of_lt_mul (lt_of_le_of_ne hle fun heq =>
        hzero (Nat.mod_eq_zero_of_dvd ⟨_, heq⟩))

/-- A fee of at most everything is at most the worth. -/
theorem feeUsd_le (hD : 0 < D) (hf : f ≤ D) (usd : ℕ) : feeUsd D f usd ≤ usd := by
  refine (ceilDiv_le_iff_le_mul hD).mpr ?_
  rw [Nat.mul_comm D]
  exact Nat.mul_le_mul_left usd hf

/-- No fee, nothing off. -/
theorem netUsd_zero (D usd : ℕ) : netUsd D 0 usd = usd := by
  rw [netUsd, feeUsd, Nat.mul_zero, zero_ceilDiv, Nat.sub_zero]

/-! ### More for more -/

/-- More worth leaves more after the fee: what is added pays at most itself. -/
theorem netUsd_mono (hD : 0 < D) (hf : f ≤ D) {usd usd' : ℕ} (h : usd ≤ usd') :
    netUsd D f usd ≤ netUsd D f usd' := by
  obtain ⟨k, rfl⟩ := Nat.exists_eq_add_of_le h
  have hfee : feeUsd D f (usd + k) ≤ feeUsd D f usd + k := by
    refine (ceilDiv_le_iff_le_mul hD).mpr ?_
    have hle : usd * f ≤ D * feeUsd D f usd := (ceilDiv_le_iff_le_mul hD).mp le_rfl
    calc (usd + k) * f = usd * f + k * f := Nat.add_mul _ _ _
      _ ≤ D * feeUsd D f usd + k * D := Nat.add_le_add hle (Nat.mul_le_mul_left k hf)
      _ = D * (feeUsd D f usd + k) := by ring
  have hle := feeUsd_le hD hf usd
  rw [netUsd, netUsd]
  omega

/-- **A quote gives no less for more.** -/
theorem quote_mono (hD : 0 < D) (hf : f ≤ D) (h : a ≤ b) : quote D f i o a ≤ quote D f i o b :=
  Nat.div_le_div_right (Nat.mul_le_mul_right _
    (netUsd_mono hD hf (Nat.div_le_div_right (Nat.mul_le_mul_right _ h))))

/-- **A quote is a trade.** -/
theorem quoted_quote (hD : 0 < D) (hf : f ≤ D) (hi : 0 < i.unit) (ho : 0 < o.unit)
    (hprice : 0 < o.price) (a : ℕ) : Quoted D f i o a (quote D f i o a) := by
  refine ⟨hi, ho, hprice, i.usd a, netUsd D f (i.usd a), Nat.div_mul_le_self _ _, ?_,
    Nat.div_mul_le_self _ _⟩
  have hle := feeUsd_le hD hf (i.usd a)
  have hceil : i.usd a * f ≤ D * feeUsd D f (i.usd a) := (ceilDiv_le_iff_le_mul hD).mp le_rfl
  have hsplit : netUsd D f (i.usd a) * D + feeUsd D f (i.usd a) * D = i.usd a * D := by
    rw [← Nat.add_mul, netUsd, Nat.sub_add_cancel hle]
  rw [Nat.mul_comm D] at hceil
  omega

end Market
