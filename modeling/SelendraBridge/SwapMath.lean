import SelendraBridge.Lib.Quote
import SelendraBridge.Pool.State

/-!
# One price on both machines

The two pools compute what a swap gives in the same three steps, on words of different
widths. Both compute `Market.quote`, as long as they do not run out of bits:

| | the contract | the program |
|---|---|---|
| an amount | 256 bits | 64 bits |
| a price | 256 bits | 128 bits |
| the worth in between | 256 bits | 128 bits |
| a price of zero | bought with, not bought | refused |

(`SelendraBridge.SwapPool.amountOut_eq_ok`, `SelendraBridge.SwapMath.amountOut_eq_some`). So
what the program computes is what the contract computes, and it refuses where it has no room,
where the contract refuses, and where the input is priced at zero
(`SelendraBridge.SwapMath.amountOut_agrees`). No pool lists a token at that price.
-/

namespace SelendraBridge

open Revert

/-- A word of 128 bits. -/
abbrev U128 := BitVec 128

/-- A number that fits a word is one. -/
theorem exists_word {n w : ℕ} (h : n < 2 ^ w) : ∃ v : BitVec w, v.toNat = n :=
  ⟨BitVec.ofNat w n, by rw [BitVec.toNat_ofNat, Nat.mod_eq_of_lt h]⟩

/-! ### The contract -/

namespace SwapPool

/-- Rounding up, on words. -/
theorem mulDivUp_eq_ok {x y d r : U256} :
    mulDivUp x y d = .ok r ↔ d ≠ 0 ∧ r.toNat = (x.toNat * y.toNat) ⌈/⌉ d.toNat := by
  simp only [mulDivUp, bind_eq_ok, mulDiv_eq_ok, checked_eq_ok]
  constructor
  · rintro ⟨down, ⟨hd, hdown⟩, hr⟩
    have hpos : 0 < d.toNat := Nat.pos_of_ne_zero fun h0 => hd (BitVec.eq_of_toNat_eq h0)
    rw [Market.ceilDiv_eq hpos, ← hdown]
    exact ⟨hd, hr⟩
  · rintro ⟨hd, hr⟩
    have hpos : 0 < d.toNat := Nat.pos_of_ne_zero fun h0 => hd (BitVec.eq_of_toNat_eq h0)
    rw [Market.ceilDiv_eq hpos] at hr
    have hlt := r.isLt
    have hdown : (BitVec.ofNat 256 (x.toNat * y.toNat / d.toNat)).toNat =
        x.toNat * y.toNat / d.toNat := by
      rw [BitVec.toNat_ofNat, Nat.mod_eq_of_lt]
      split at hr <;> omega
    exact ⟨_, ⟨hd, hdown⟩, by rw [hdown]; exact hr⟩

/-- **What the fee leaves**, of any worth. -/
theorem lessFee_eq_ok {usd net : U256} {fee : UInt16} (hfee : fee.toNat ≤ BPS_DENOM) :
    lessFee usd fee = .ok net ↔ net.toNat = Market.netUsd BPS_DENOM fee.toNat usd.toNat := by
  have hD : 0 < BPS_DENOM := by decide
  have hwide : (BitVec.ofNat 256 fee.toNat).toNat = fee.toNat := by
    rw [BitVec.toNat_ofNat, Nat.mod_eq_of_lt (lt_of_lt_of_le fee.toNat_lt (by decide))]
  have hdenom : (BitVec.ofNat 256 BPS_DENOM).toNat = BPS_DENOM := by decide
  have hne : BitVec.ofNat 256 BPS_DENOM ≠ 0 := by decide
  have hle := Market.feeUsd_le hD hfee usd.toNat
  unfold lessFee
  split
  · next hzero =>
    have hzero' : fee.toNat = 0 := congrArg UInt16.toNat hzero
    rw [hzero', Market.netUsd_zero, Except.ok.injEq]
    exact ⟨fun h => congrArg BitVec.toNat h.symm, fun h => BitVec.eq_of_toNat_eq h.symm⟩
  · simp only [bind_eq_ok, mulDivUp_eq_ok, checkedSub_eq_ok, hwide, hdenom]
    rw [Market.netUsd, Market.feeUsd] at *
    constructor
    · rintro ⟨feeUsd, ⟨-, hfeeUsd⟩, hsub⟩
      omega
    · intro hnet
      have hlt := usd.isLt
      have hfeeUsd : (BitVec.ofNat 256 ((usd.toNat * fee.toNat) ⌈/⌉ BPS_DENOM)).toNat =
          (usd.toNat * fee.toNat) ⌈/⌉ BPS_DENOM := by
        rw [BitVec.toNat_ofNat, Nat.mod_eq_of_lt (by omega)]
      exact ⟨_, ⟨hne, hfeeUsd⟩, by omega⟩

/-- **What the contract computes**, when it has room for the worth of the input and for the
output. -/
theorem amountOut_eq_ok {i o : Market.Listing} {amountIn priceIn priceOut out : U256}
    {decIn decOut : UInt8} {fee : UInt16} (hfee : fee.toNat ≤ BPS_DENOM)
    (hin : 10 ^ decIn.toNat < 2 ^ 256) (hout : 10 ^ decOut.toNat < 2 ^ 256)
    (hi : i = ⟨priceIn.toNat, 10 ^ decIn.toNat⟩) (ho : o = ⟨priceOut.toNat, 10 ^ decOut.toNat⟩) :
    amountOut amountIn priceIn decIn priceOut decOut fee = .ok out ↔
      priceOut ≠ 0 ∧ i.usd amountIn.toNat < 2 ^ 256 ∧
        out.toNat = Market.quote BPS_DENOM fee.toNat i o amountIn.toNat := by
  subst hi ho
  simp only [amountOut, bind_eq_ok, checked_eq_ok, mulDiv_eq_ok, lessFee_eq_ok hfee, Market.quote,
    Market.Listing.usd]
  constructor
  · rintro ⟨unitIn, huIn, usd, ⟨-, husd⟩, net, hnet, unitOut, huOut, hprice, hresult⟩
    rw [huIn] at husd
    rw [huOut] at hresult
    rw [← husd, ← hnet]
    exact ⟨hprice, usd.isLt, hresult⟩
  · rintro ⟨hprice, hroom, hresult⟩
    -- Every number on the way fits its word.
    obtain ⟨unitIn, huIn⟩ := exists_word hin
    obtain ⟨unitOut, huOut⟩ := exists_word hout
    obtain ⟨usd, husd⟩ := exists_word hroom
    obtain ⟨net, hnet⟩ := exists_word (lt_of_le_of_lt
      (Nat.sub_le _ (Market.feeUsd BPS_DENOM fee.toNat usd.toNat)) usd.isLt)
    have hne : unitIn ≠ 0 := fun h0 => by
      have hten : 0 < 10 ^ decIn.toNat := by positivity
      rw [h0] at huIn
      exact hten.ne huIn
    refine ⟨unitIn, huIn, usd, ⟨hne, by rw [huIn, husd]⟩, net, hnet, unitOut, huOut, hprice, ?_⟩
    rw [huOut, hnet, ← Market.netUsd, husd]
    exact hresult

end SwapPool

/-! ### The program -/

namespace SwapMath

/-- `PRICE_ONE`. -/
def PRICE_ONE : U128 := 1000000000000000000

/-- `BPS_DENOM`. -/
def BPS_DENOM : UInt16 := 10000

/-- `MAX_FEE_BPS`. -/
def MAX_FEE_BPS : UInt16 := 1000

/-- `checked_mul`. -/
def checkedMul (x y : U256) : Option U256 :=
  if x.toNat * y.toNat < 2 ^ 256 then some (x * y) else none

/-- `checked_add`. -/
def checkedAdd (x y : U256) : Option U256 :=
  if x.toNat + y.toNat < 2 ^ 256 then some (x + y) else none

/-- `checked_sub`. -/
def checkedSub (x y : U128) : Option U128 := if y ≤ x then some (x - y) else none

/-- The quotient of `mul_div`, one more if it is to be rounded up. -/
def rounded (ceil : Bool) (n dd q : U256) : Option U256 :=
  if ceil && q * dd != n then checkedAdd q 1 else some q

/-- `mul_div`. -/
def mulDiv (a b d : U128) (ceil : Bool) : Option U128 :=
  if d = 0 then none
  else do
    let n ← checkedMul (a.setWidth 256) (b.setWidth 256)
    let dd : U256 := d.setWidth 256
    let q := n / dd
    let q ← rounded ceil n dd q
    if (BitVec.allOnes 128).setWidth 256 < q then none else some (q.setWidth 128)

/-- `mul_div_floor`. -/
def mulDivFloor (a b d : U128) : Option U128 := mulDiv a b d false

/-- `mul_div_ceil`. -/
def mulDivCeil (a b d : U128) : Option U128 := mulDiv a b d true

/-- `pow10`. -/
def pow10 (dec : UInt8) : Option U128 :=
  if dec > 38 then none
  else if 10 ^ dec.toNat < 2 ^ 128 then some (BitVec.ofNat 128 (10 ^ dec.toNat)) else none

/-- The worth of an input, less the fee. -/
def lessFee (usd : U128) (feeBps : UInt16) : Option U128 :=
  if feeBps ≠ 0 then do
    let fee ← mulDivCeil usd (BitVec.ofNat 128 feeBps.toNat) (BitVec.ofNat 128 BPS_DENOM.toNat)
    checkedSub usd fee
  else some usd

/-- `amount_out`. -/
def amountOut (amountIn : U64) (priceIn : U128) (decIn : UInt8) (priceOut : U128) (decOut : UInt8)
    (feeBps : UInt16) : Option U64 :=
  if priceIn = 0 ∨ priceOut = 0 then none
  else do
    let unitIn ← pow10 decIn
    let usd ← mulDivFloor (amountIn.setWidth 128) priceIn unitIn
    let usd ← lessFee usd feeBps
    let unitOut ← pow10 decOut
    let out ← mulDivFloor usd unitOut priceOut
    if out.toNat < 2 ^ 64 then some (out.setWidth 64) else none

/-- A product of two halves of a word. -/
theorem checkedMul_setWidth (a b : U128) : ∃ n : U256,
    checkedMul (a.setWidth 256) (b.setWidth 256) = some n ∧ n.toNat = a.toNat * b.toNat := by
  have ha : (a.setWidth 256).toNat = a.toNat := BitVec.toNat_setWidth_of_le (by omega)
  have hb : (b.setWidth 256).toNat = b.toNat := BitVec.toNat_setWidth_of_le (by omega)
  have hlt : a.toNat * b.toNat < 2 ^ 256 := calc
    a.toNat * b.toNat < 2 ^ 128 * 2 ^ 128 := Nat.mul_lt_mul_of_lt_of_lt a.isLt b.isLt
    _ = 2 ^ 256 := by norm_num
  refine ⟨a.setWidth 256 * b.setWidth 256, by rw [checkedMul, ha, hb, if_pos hlt], ?_⟩
  rw [BitVec.toNat_mul, ha, hb, Nat.mod_eq_of_lt hlt]

/-- What does not divide. -/
theorem div_mul_ne_iff {m d : ℕ} : m / d * d ≠ m ↔ m % d ≠ 0 := by
  have h := Nat.div_add_mod m d
  rw [Nat.mul_comm] at h
  omega

/-- The quotient always has room for the one more. -/
theorem rounded_eq (ceil : Bool) (n : U256) {d : U256} (hd : 0 < d.toNat) :
    ∃ q, rounded ceil n d (n / d) = some q ∧
      q.toNat = if ceil then n.toNat ⌈/⌉ d.toNat else n.toNat / d.toNat := by
  have hq : (n / d).toNat = n.toNat / d.toNat := BitVec.toNat_udiv
  have hback : (n / d * d).toNat = n.toNat / d.toNat * d.toNat := by
    rw [BitVec.toNat_mul, hq, Nat.mod_eq_of_lt (lt_of_le_of_lt (Nat.div_mul_le_self _ _) n.isLt)]
  have hne : n / d * d = n ↔ n.toNat % d.toNat = 0 := by
    rw [← BitVec.toNat_inj, hback, ← not_iff_not]
    exact div_mul_ne_iff
  have hceil := Market.ceilDiv_eq (n := n.toNat) hd
  cases ceil with
  | false => exact ⟨n / d, rfl, hq⟩
  | true =>
    by_cases hzero : n / d * d = n
    · refine ⟨n / d, by simp [rounded, hzero], ?_⟩
      rw [if_neg (not_not.mpr (hne.mp hzero)), Nat.add_zero] at hceil
      rw [hq, if_pos rfl, hceil]
    · rw [if_pos (fun h => hzero (hne.mpr h))] at hceil
      have hle : n.toNat ⌈/⌉ d.toNat ≤ n.toNat :=
        (ceilDiv_le_iff_le_mul hd).mpr (Nat.le_mul_of_pos_left _ hd)
      have hlt := n.isLt
      have hone : (1 : U256).toNat = 1 := rfl
      have hroom : (n / d).toNat + (1 : U256).toNat < 2 ^ 256 := by
        rw [hone, hq, ← hceil]
        omega
      refine ⟨n / d + 1, by simp only [rounded, checkedAdd, if_pos hroom]; simp [hzero], ?_⟩
      rw [BitVec.toNat_add, Nat.mod_eq_of_lt hroom, hone, hq, if_pos rfl, hceil]

/-- **What the division is**, rounded down or up. -/
theorem mulDiv_eq_some {a b d r : U128} {ceil : Bool} : mulDiv a b d ceil = some r ↔
    d ≠ 0 ∧ r.toNat = if ceil then (a.toNat * b.toNat) ⌈/⌉ d.toNat
      else a.toNat * b.toNat / d.toNat := by
  by_cases hd : d = 0
  · rw [mulDiv, if_pos hd]
    exact ⟨nofun, fun h => absurd hd h.1⟩
  have hdd : (d.setWidth 256).toNat = d.toNat := BitVec.toNat_setWidth_of_le (by omega)
  have hpos : 0 < (d.setWidth 256).toNat :=
    hdd ▸ Nat.pos_of_ne_zero fun h0 => hd (BitVec.eq_of_toNat_eq h0)
  have hmax : ((BitVec.allOnes 128).setWidth 256).toNat = 2 ^ 128 - 1 := by decide
  obtain ⟨n, hmul, hn⟩ := checkedMul_setWidth a b
  obtain ⟨q, hrounded, hq⟩ := rounded_eq ceil n hpos
  rw [hn, hdd] at hq
  simp only [mulDiv, if_neg hd, hmul, hrounded, Option.bind_eq_bind, Option.bind_some,
    Option.ite_none_left_eq_some, BitVec.lt_def, hmax, Option.some.injEq, ← hq]
  constructor
  · rintro ⟨hroom, rfl⟩
    refine ⟨hd, ?_⟩
    rw [BitVec.toNat_setWidth, Nat.mod_eq_of_lt (by omega)]
  · rintro ⟨-, hr⟩
    have hlt := r.isLt
    refine ⟨by omega, BitVec.eq_of_toNat_eq ?_⟩
    rw [BitVec.toNat_setWidth, ← hr, Nat.mod_eq_of_lt hlt]

/-- Powers of ten that a token can have. -/
theorem pow10_eq_some {dec : UInt8} {r : U128} :
    pow10 dec = some r ↔ dec.toNat ≤ 38 ∧ r.toNat = 10 ^ dec.toNat := by
  have hdec : dec > 38 ↔ ¬dec.toNat ≤ 38 := by
    rw [gt_iff_lt, UInt8.lt_iff_toNat_lt]
    exact not_le.symm
  by_cases h : dec.toNat ≤ 38
  · have hroom : 10 ^ dec.toNat < 2 ^ 128 :=
      lt_of_le_of_lt (Nat.pow_le_pow_right (by omega) h) (by norm_num)
    rw [pow10, if_neg (by rw [hdec]; exact not_not.mpr h), if_pos hroom, Option.some.injEq,
      ← BitVec.toNat_inj, BitVec.toNat_ofNat, Nat.mod_eq_of_lt hroom]
    exact ⟨fun hr => ⟨h, hr.symm⟩, fun hr => hr.2.symm⟩
  · rw [pow10, if_pos (hdec.mpr h)]
    exact ⟨nofun, fun hr => absurd hr.1 h⟩

/-- **What the fee leaves**, of any worth. -/
theorem lessFee_eq_some {usd net : U128} {feeBps : UInt16}
    (hfee : feeBps.toNat ≤ SwapPool.BPS_DENOM) :
    lessFee usd feeBps = some net ↔
      net.toNat = Market.netUsd SwapPool.BPS_DENOM feeBps.toNat usd.toNat := by
  have hD : 0 < SwapPool.BPS_DENOM := by decide
  have hwide : (BitVec.ofNat 128 feeBps.toNat).toNat = feeBps.toNat := by
    rw [BitVec.toNat_ofNat, Nat.mod_eq_of_lt (lt_of_lt_of_le feeBps.toNat_lt (by decide))]
  have hdenom : (BitVec.ofNat 128 BPS_DENOM.toNat).toNat = SwapPool.BPS_DENOM := by decide
  have hne : BitVec.ofNat 128 BPS_DENOM.toNat ≠ 0 := by decide
  have hle := Market.feeUsd_le hD hfee usd.toNat
  unfold lessFee
  split
  · simp only [Option.bind_eq_bind, Option.bind_eq_some_iff, mulDivCeil, mulDiv_eq_some, hwide,
      hdenom, if_true, checkedSub, Option.ite_none_right_eq_some, Option.some.injEq]
    rw [Market.netUsd, Market.feeUsd] at *
    constructor
    · rintro ⟨fee, ⟨-, hfeeUsd⟩, hsub, rfl⟩
      rw [BitVec.toNat_sub_of_le hsub, hfeeUsd]
    · intro hnet
      obtain ⟨fee, hfeeUsd⟩ := exists_word (lt_of_le_of_lt hle usd.isLt)
      have hsub : fee ≤ usd := by
        rw [BitVec.le_def, hfeeUsd]
        exact hle
      refine ⟨fee, ⟨hne, hfeeUsd⟩, hsub, BitVec.eq_of_toNat_eq ?_⟩
      rw [BitVec.toNat_sub_of_le hsub, hfeeUsd, hnet]
  · next hzero =>
    have hzero' : feeBps.toNat = 0 := congrArg UInt16.toNat (not_not.mp hzero)
    rw [hzero', Market.netUsd_zero, Option.some.injEq, ← BitVec.toNat_inj, eq_comm]

/-- **What the program computes**, when it has room for the worth of the input and for the
output. -/
theorem amountOut_eq_some {i o : Market.Listing} {amountIn out : U64} {priceIn priceOut : U128}
    {decIn decOut : UInt8} {feeBps : UInt16} (hfee : feeBps.toNat ≤ SwapPool.BPS_DENOM)
    (hin : decIn.toNat ≤ 38) (hout : decOut.toNat ≤ 38)
    (hi : i = ⟨priceIn.toNat, 10 ^ decIn.toNat⟩) (ho : o = ⟨priceOut.toNat, 10 ^ decOut.toNat⟩) :
    amountOut amountIn priceIn decIn priceOut decOut feeBps = some out ↔
      priceIn ≠ 0 ∧ priceOut ≠ 0 ∧ i.usd amountIn.toNat < 2 ^ 128 ∧
        out.toNat = Market.quote SwapPool.BPS_DENOM feeBps.toNat i o amountIn.toNat := by
  subst hi ho
  have hamount : (amountIn.setWidth 128).toNat = amountIn.toNat :=
    BitVec.toNat_setWidth_of_le (by omega)
  by_cases hzero : priceIn = 0 ∨ priceOut = 0
  · rw [amountOut, if_pos hzero]
    exact ⟨nofun, fun h => absurd hzero (not_or.mpr ⟨h.1, h.2.1⟩)⟩
  have hprices := not_or.mp hzero
  simp only [amountOut, if_neg hzero, Option.bind_eq_bind, Option.bind_eq_some_iff, pow10_eq_some,
    mulDivFloor, mulDiv_eq_some, lessFee_eq_some hfee, Option.ite_none_right_eq_some,
    Option.some.injEq, Market.quote, Market.Listing.usd, Bool.false_eq_true, if_false, hamount]
  constructor
  · rintro ⟨unitIn, ⟨-, huIn⟩, usd, ⟨-, husd⟩, net, hnet, unitOut, ⟨-, huOut⟩, o, ⟨-, ho⟩, hroom,
      rfl⟩
    rw [huIn] at husd
    rw [huOut, hnet, husd] at ho
    refine ⟨hprices.1, hprices.2, husd ▸ usd.isLt, ?_⟩
    rw [BitVec.toNat_setWidth, Nat.mod_eq_of_lt hroom, ho]
  · rintro ⟨-, -, hroom, hresult⟩
    -- Every number on the way fits its word.
    have hten : ∀ {n : ℕ}, n ≤ 38 → 10 ^ n < 2 ^ 128 := fun h =>
      lt_of_le_of_lt (Nat.pow_le_pow_right (by omega) h) (by norm_num)
    obtain ⟨unitIn, huIn⟩ := exists_word (hten hin)
    obtain ⟨unitOut, huOut⟩ := exists_word (hten hout)
    obtain ⟨usd, husd⟩ := exists_word hroom
    obtain ⟨net, hnet⟩ := exists_word (lt_of_le_of_lt
      (Nat.sub_le _ (Market.feeUsd SwapPool.BPS_DENOM feeBps.toNat usd.toNat)) usd.isLt)
    have hlt := out.isLt
    have hwide : (out.setWidth 128).toNat = out.toNat := BitVec.toNat_setWidth_of_le (by omega)
    have hne : unitIn ≠ 0 := fun h0 => by
      have hpos : 0 < 10 ^ decIn.toNat := by positivity
      rw [h0] at huIn
      exact hpos.ne huIn
    refine ⟨unitIn, ⟨hin, huIn⟩, usd, ⟨hne, by rw [huIn, husd]⟩, net, hnet, unitOut,
      ⟨hout, huOut⟩, out.setWidth 128, ⟨hprices.2, ?_⟩, hwide ▸ hlt, ?_⟩
    · rw [hwide, huOut, hnet, ← Market.netUsd, husd]
      exact hresult
    · exact BitVec.eq_of_toNat_eq (by rw [BitVec.toNat_setWidth, hwide, Nat.mod_eq_of_lt hlt])

/-- **One price on both machines.** What the program computes is what the contract computes;
the program refuses exactly where the input is priced at zero, where the contract refuses or
its result has no room on the other machine, and where the worth of the input has none; and it
gives no less for more. -/
theorem amountOut_agrees {priceIn priceOut : U128} {decIn decOut : UInt8} {feeBps : UInt16}
    (hin : decIn ≤ 38) (hout : decOut ≤ 38) (hfee : feeBps ≤ MAX_FEE_BPS) (amountIn : U64) :
    (∀ v, amountOut amountIn priceIn decIn priceOut decOut feeBps = some v →
      SwapPool.amountOut (amountIn.setWidth 256) (priceIn.setWidth 256) decIn
        (priceOut.setWidth 256) decOut feeBps = .ok (v.setWidth 256)) ∧
    (amountOut amountIn priceIn decIn priceOut decOut feeBps = none ↔ priceIn = 0 ∨
      (∃ e, SwapPool.amountOut (amountIn.setWidth 256) (priceIn.setWidth 256) decIn
        (priceOut.setWidth 256) decOut feeBps = .error e) ∨
      (∃ v, SwapPool.amountOut (amountIn.setWidth 256) (priceIn.setWidth 256) decIn
        (priceOut.setWidth 256) decOut feeBps = .ok v ∧ 2 ^ 64 ≤ v.toNat) ∨
      2 ^ 128 ≤ amountIn.toNat * priceIn.toNat / 10 ^ decIn.toNat) ∧
    ∀ more v w, amountIn ≤ more →
      amountOut amountIn priceIn decIn priceOut decOut feeBps = some v →
      amountOut more priceIn decIn priceOut decOut feeBps = some w → v ≤ w := by
  have hfee' : feeBps.toNat ≤ SwapPool.BPS_DENOM :=
    le_trans (UInt16.le_iff_toNat_le.mp hfee) (by decide)
  have hin' : decIn.toNat ≤ 38 := UInt8.le_iff_toNat_le.mp hin
  have hout' : decOut.toNat ≤ 38 := UInt8.le_iff_toNat_le.mp hout
  have hten : ∀ {n : ℕ}, n ≤ 38 → 10 ^ n < 2 ^ 256 := fun h =>
    lt_of_le_of_lt (Nat.pow_le_pow_right (by omega) h) (by norm_num)
  have hwide : ∀ {n : ℕ} (v : BitVec n), n ≤ 256 → (v.setWidth 256).toNat = v.toNat :=
    fun v hn => BitVec.toNat_setWidth_of_le hn
  obtain ⟨i, hi⟩ : ∃ i : Market.Listing, i = ⟨priceIn.toNat, 10 ^ decIn.toNat⟩ := ⟨_, rfl⟩
  obtain ⟨o, ho⟩ : ∃ o : Market.Listing, o = ⟨priceOut.toNat, 10 ^ decOut.toNat⟩ := ⟨_, rfl⟩
  have husd : i.usd amountIn.toNat = amountIn.toNat * priceIn.toNat / 10 ^ decIn.toNat := by
    rw [hi, Market.Listing.usd]
  have hprogram : ∀ a v : U64, amountOut a priceIn decIn priceOut decOut feeBps = some v ↔
      priceIn ≠ 0 ∧ priceOut ≠ 0 ∧ i.usd a.toNat < 2 ^ 128 ∧
        v.toNat = Market.quote SwapPool.BPS_DENOM feeBps.toNat i o a.toNat := fun a v =>
    amountOut_eq_some hfee' hin' hout' hi ho
  have hcontract : ∀ v : U256, SwapPool.amountOut (amountIn.setWidth 256) (priceIn.setWidth 256)
      decIn (priceOut.setWidth 256) decOut feeBps = .ok v ↔
        priceOut.setWidth 256 ≠ 0 ∧ i.usd amountIn.toNat < 2 ^ 256 ∧
          v.toNat = Market.quote SwapPool.BPS_DENOM feeBps.toNat i o amountIn.toNat := fun v => by
    rw [SwapPool.amountOut_eq_ok hfee' (hten hin') (hten hout') (i := i) (o := o)
      (by rw [hwide _ (by omega), hi]) (by rw [hwide _ (by omega), ho]), hwide _ (by omega)]
  have hprice : priceOut.setWidth 256 = 0 ↔ priceOut = 0 := by
    rw [← BitVec.toNat_inj, ← BitVec.toNat_inj, hwide _ (by omega)]
    rfl
  have hagree : ∀ v, amountOut amountIn priceIn decIn priceOut decOut feeBps = some v →
      SwapPool.amountOut (amountIn.setWidth 256) (priceIn.setWidth 256) decIn
        (priceOut.setWidth 256) decOut feeBps = .ok (v.setWidth 256) := fun v hv => by
    obtain ⟨-, hp, hroom, hquote⟩ := (hprogram amountIn v).mp hv
    exact (hcontract _).mpr ⟨fun h => hp (hprice.mp h), by omega,
      by rw [hwide _ (by omega), hquote]⟩
  refine ⟨hagree, ⟨fun hnone => ?_, fun hrefuse => ?_⟩, fun more v w hle hv hw => ?_⟩
  · rcases hresult : SwapPool.amountOut (amountIn.setWidth 256) (priceIn.setWidth 256) decIn
      (priceOut.setWidth 256) decOut feeBps with e | v
    · exact .inr (.inl ⟨e, rfl⟩)
    -- The contract has a result; the program had one too, with the room for it.
    · obtain ⟨hp, -, hquote⟩ := (hcontract v).mp hresult
      by_contra hcon
      simp only [not_or, reduceCtorEq, exists_false, not_exists, Except.ok.injEq] at hcon
      obtain ⟨hzero, -, hbig, hroom⟩ := hcon
      have hsmall : v.toNat < 2 ^ 64 := Nat.lt_of_not_le fun h => hbig v ⟨rfl, h⟩
      obtain ⟨v', hv'⟩ := exists_word hsmall
      have hsome := (hprogram amountIn v').mpr ⟨hzero, fun h => hp (hprice.mpr h),
        by rw [husd]; exact Nat.lt_of_not_le hroom, by rw [hv', hquote]⟩
      rw [hnone] at hsome
      cases hsome
  · rcases hsome : amountOut amountIn priceIn decIn priceOut decOut feeBps with _ | v
    · rfl
    · obtain ⟨hzero, -, hroom, -⟩ := (hprogram amountIn v).mp hsome
      have hok := hagree v hsome
      rw [husd] at hroom
      rw [hok] at hrefuse
      rcases hrefuse with h | ⟨e, h⟩ | ⟨v', h, hbig⟩ | h
      · exact absurd h hzero
      · cases h
      · obtain rfl := Except.ok.inj h
        have hlt := v.isLt
        rw [hwide _ (by omega)] at hbig
        omega
      · omega
  · obtain ⟨-, -, -, hv⟩ := (hprogram amountIn v).mp hv
    obtain ⟨-, -, -, hw⟩ := (hprogram more w).mp hw
    rw [BitVec.le_def, hv, hw]
    exact Market.quote_mono (by decide) hfee' (BitVec.le_def.mp hle)

/-- A whole of a token at two dollars, for one at one, less three thousandths. -/
theorem amountOut_agrees_twoForOne :
    SwapPool.amountOut ((1000000000 : U64).setWidth 256) ((2 * PRICE_ONE).setWidth 256) 9
      (PRICE_ONE.setWidth 256) 6 30 = .ok ((1994000 : U64).setWidth 256) :=
  (amountOut_agrees (by decide) (by decide) (by decide) 1000000000).1 1994000 (by decide +kernel)

/-- **A token priced at zero** buys nothing from the contract; the program refuses it, with all
the room there is. -/
theorem zero_priced : amountOut 1000000000 0 9 PRICE_ONE 6 30 = none ∧
    SwapPool.amountOut ((1000000000 : U64).setWidth 256) ((0 : U128).setWidth 256) 9
      (PRICE_ONE.setWidth 256) 6 30 = .ok 0 ∧
    (1000000000 : U64).toNat * (0 : U128).toNat / 10 ^ (9 : UInt8).toNat < 2 ^ 128 := by
  decide +kernel

end SwapMath

end SelendraBridge
