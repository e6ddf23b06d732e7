import Mathlib.Data.Nat.Dist
import SelendraBridge.Pool.Trades
import SelendraBridge.SwapMath

/-!
# What a refresher plans

A pool refuses a price that is too old, so somebody has to set it again before that, and to move
it where it should be. What to send is planned from what the chain says
(`SelendraBridge.Refresh.plan`):

| the price | the cooldown | the plan |
|---|---|---|
| at its target, not due | | nothing |
| away from it, or due | still runs | to wait |
| within one step of its target | over | the target |
| further away | over | one step towards it |

A step is as wide as the pool allows, which is a share of the price rounded down; where that is
zero, a price that is due is set again and one that is not is left
(`SelendraBridge.Refresh.Towards`). The planner counts seconds in 64-bit integers that saturate and
the pool in words that do not: past the end of the range a sum that saturated is reached, and the
pool refuses what is planned (`SelendraBridge.Refresh.refused_at_the_end`). Below it every planned
call goes through (`SelendraBridge.Refresh.plan_sound`), and enough of them reach the target or a
price that no step moves.
-/

namespace SelendraBridge

namespace Refresh

open Revert SwapMath

/-! ### Seconds, and amounts that saturate -/

/-- `i64::saturating_add`. -/
def saturatingAdd (a b : Int64) : Int64 := .ofIntClamp (a.toInt + b.toInt)

/-- `i64::saturating_sub`. -/
def saturatingSub (a b : Int64) : Int64 := .ofIntClamp (a.toInt - b.toInt)

/-- `Ord::max`. -/
def secondsMax (a b : Int64) : Int64 := if a ≤ b then b else a

/-- `u128::saturating_add`. -/
def priceUp (a b : U128) : U128 := if BitVec.uaddOverflow a b then BitVec.allOnes 128 else a + b

/-- `u128::saturating_sub`. -/
def priceDown (a b : U128) : U128 := if a < b then 0 else a - b

/-- `u128::abs_diff`. -/
def absDiff (a b : U128) : U128 := if a < b then b - a else a - b

/-! ### The planner -/

/-- `PriceState`: the price of a token and the guards of its pool, as read just now. -/
structure PriceState where
  now : Int64
  price : U128
  priceSetAt : Int64
  /-- Zero if the price was never moved. -/
  lastPriceUpdate : Int64
  maxAge : Option Int64
  minUpdateInterval : Int64
  maxDeviationBps : UInt16
  feeBps : UInt16

/-- `step_cap_bps`. -/
def PriceState.stepCapBps (s : PriceState) : UInt16 :=
  if s.maxDeviationBps ≤ s.feeBps then s.maxDeviationBps else s.feeBps

/-- `Plan`. -/
inductive Plan
  | idle
  | wait (ends : Int64)
  /-- The price it is planned from, the price to set, and whether that is a step on the way. -/
  | set (source price : U128) (step : Bool)
  deriving DecidableEq

/-- Is the price due to be set again, whatever it is? -/
def PriceState.refreshDue (s : PriceState) (margin : Int64) : Bool :=
  match s.maxAge with
  | some maxAge =>
    decide (saturatingSub s.now s.priceSetAt ≥ secondsMax (saturatingSub maxAge margin) 0)
  | none => false

/-- The widest step. -/
def PriceState.cap (s : PriceState) : U128 :=
  (mulDivFloor s.price (BitVec.ofNat 128 s.stepCapBps.toNat)
    (BitVec.ofNat 128 BPS_DENOM.toNat)).getD 0

/-- The price after one step, and whether it is one on the way. -/
def PriceState.next (s : PriceState) (target : U128) : U128 × Bool :=
  if absDiff s.price target ≤ s.cap then (target, false)
  else if target > s.price then (priceUp s.price s.cap, true)
  else (priceDown s.price s.cap, true)

/-- The end of the cooldown, if it still runs. -/
def PriceState.cooldown (s : PriceState) : Option Int64 :=
  if s.lastPriceUpdate ≠ 0 then
    let ends := saturatingAdd s.lastPriceUpdate s.minUpdateInterval
    if s.now < ends then some ends else none
  else none

/-- **`plan`.** -/
def plan (s : PriceState) (target : U128) (margin : Int64) : Plan :=
  let moving := s.price ≠ target
  let due := s.refreshDue margin
  if ¬moving ∧ due = false then .idle
  else
    match s.cooldown with
    | some ends => .wait ends
    | none =>
      let r := s.next target
      if r.1 = s.price ∧ due = false then .idle else .set s.price r.1 r.2

/-- **`due_in`.** -/
def dueIn (s : PriceState) (margin : Int64) : Option Int64 := do
  let maxAge ← s.maxAge
  let dueAt := saturatingAdd s.priceSetAt (secondsMax (saturatingSub maxAge margin) 0)
  return secondsMax (saturatingSub dueAt s.now) 0

/-! ### Reading the arithmetic off -/

theorem toInt_ofIntClamp (x : ℤ) : (Int64.ofIntClamp x).toInt =
    max (-9223372036854775808) (min x 9223372036854775807) := by
  have hmin : Int64.minValue.toInt = -9223372036854775808 := rfl
  have hmax : Int64.maxValue.toInt = 9223372036854775807 := rfl
  rw [Int64.ofIntClamp]
  split
  · split
    · rw [Int64.toInt_ofIntLE]
      omega
    · rw [hmax]
      omega
  · rw [hmin]
    omega

@[simp] theorem toInt_saturatingAdd (a b : Int64) : (saturatingAdd a b).toInt =
    max (-9223372036854775808) (min (a.toInt + b.toInt) 9223372036854775807) := toInt_ofIntClamp _

@[simp] theorem toInt_saturatingSub (a b : Int64) : (saturatingSub a b).toInt =
    max (-9223372036854775808) (min (a.toInt - b.toInt) 9223372036854775807) := toInt_ofIntClamp _

@[simp] theorem toInt_secondsMax (a b : Int64) :
    (secondsMax a b).toInt = max a.toInt b.toInt := by
  rw [secondsMax, apply_ite Int64.toInt, max_def]
  simp only [Int64.le_iff_toInt_le]

theorem toInt_bounds (a : Int64) :
    -9223372036854775808 ≤ a.toInt ∧ a.toInt ≤ 9223372036854775807 := by
  have hlt := a.toInt_lt
  have hle := a.le_toInt
  omega

theorem toNat_absDiff (a b : U128) : (absDiff a b).toNat = Nat.dist a.toNat b.toNat := by
  rw [absDiff, apply_ite BitVec.toNat, Nat.dist]
  by_cases h : a < b
  · have hlt := BitVec.lt_def.mp h
    rw [if_pos h, BitVec.toNat_sub_of_le (BitVec.le_of_lt h)]
    omega
  · have hge := BitVec.le_def.mp (BitVec.not_lt.mp h)
    rw [if_neg h, BitVec.toNat_sub_of_le (BitVec.not_lt.mp h)]
    omega

theorem toNat_priceUp {a b : U128} (h : a.toNat + b.toNat < 2 ^ 128) :
    (priceUp a b).toNat = a.toNat + b.toNat := by
  have hno : BitVec.uaddOverflow a b = false := by
    rw [BitVec.uaddOverflow, decide_eq_false_iff_not]
    omega
  rw [priceUp, hno, if_neg (by simp), BitVec.toNat_add, Nat.mod_eq_of_lt h]

theorem toNat_priceDown {a b : U128} (h : b.toNat ≤ a.toNat) :
    (priceDown a b).toNat = a.toNat - b.toNat := by
  have hle : b ≤ a := BitVec.le_def.mpr h
  rw [priceDown, if_neg (BitVec.not_lt.mpr hle), BitVec.toNat_sub_of_le hle]

/-- **When the cooldown still runs.** -/
theorem cooldown_eq_none {s : PriceState} : s.cooldown = none ↔
    s.lastPriceUpdate ≠ 0 →
      (saturatingAdd s.lastPriceUpdate s.minUpdateInterval).toInt ≤ s.now.toInt := by
  rw [PriceState.cooldown]
  split
  · next hlast => simp [hlast, Int64.le_iff_toInt_le]
  · next hlast => simp [not_not.mp hlast]

/-- **When a price is due.** -/
theorem refreshDue_iff {s : PriceState} {margin maxAge : Int64} (h : s.maxAge = some maxAge) :
    s.refreshDue margin = true ↔
      (secondsMax (saturatingSub maxAge margin) 0).toInt ≤
        (saturatingSub s.now s.priceSetAt).toInt := by
  rw [PriceState.refreshDue, h]
  simp only [decide_eq_true_eq, ge_iff_le, Int64.le_iff_toInt_le]

/-! ### A step -/

/-- The widest step is a share of the price, rounded down. -/
theorem toNat_cap {s : PriceState} (hfee : s.feeBps.toNat ≤ 10000) :
    s.cap.toNat = s.price.toNat * s.stepCapBps.toNat / 10000 := by
  have hbps : s.stepCapBps.toNat ≤ 10000 := by
    rw [PriceState.stepCapBps]
    split
    · next hle => exact (UInt16.le_iff_toNat_le.mp hle).trans hfee
    · exact hfee
  have hwide : (BitVec.ofNat 128 s.stepCapBps.toNat).toNat = s.stepCapBps.toNat := by
    rw [BitVec.toNat_ofNat, Nat.mod_eq_of_lt (by omega)]
  have hdenom : (BitVec.ofNat 128 BPS_DENOM.toNat).toNat = 10000 := by decide
  have hle : s.price.toNat * s.stepCapBps.toNat / 10000 ≤ s.price.toNat := by
    rw [Nat.div_le_iff_le_mul_add_pred (by norm_num)]
    nlinarith
  have hlt : s.price.toNat * s.stepCapBps.toNat / 10000 < 2 ^ 128 :=
    lt_of_le_of_lt hle s.price.isLt
  have hsome : mulDivFloor s.price (BitVec.ofNat 128 s.stepCapBps.toNat)
      (BitVec.ofNat 128 BPS_DENOM.toNat) =
      some (BitVec.ofNat 128 (s.price.toNat * s.stepCapBps.toNat / 10000)) := by
    rw [mulDivFloor, mulDiv_eq_some]
    refine ⟨by decide, ?_⟩
    rw [hwide, hdenom, BitVec.toNat_ofNat, Nat.mod_eq_of_lt hlt]
    rfl
  rw [PriceState.cap, hsome, Option.getD_some, BitVec.toNat_ofNat, Nat.mod_eq_of_lt hlt]

/-- **Where a step leads.** -/
theorem toNat_next (s : PriceState) (target : U128) : (s.next target).1.toNat =
    if Nat.dist s.price.toNat target.toNat ≤ s.cap.toNat then target.toNat
    else if s.price.toNat < target.toNat then s.price.toNat + s.cap.toNat
    else s.price.toNat - s.cap.toNat := by
  have hdist := toNat_absDiff s.price target
  have hlt := target.isLt
  rw [PriceState.next]
  by_cases hnear : absDiff s.price target ≤ s.cap
  · rw [if_pos hnear, if_pos (hdist ▸ BitVec.le_def.mp hnear)]
  · have hfar : ¬Nat.dist s.price.toNat target.toNat ≤ s.cap.toNat :=
      fun h => hnear (BitVec.le_def.mpr (hdist ▸ h))
    rw [if_neg hnear, if_neg hfar]
    rw [Nat.dist] at hfar
    by_cases hup : target > s.price
    · have hlt' := BitVec.lt_def.mp hup
      rw [if_pos hup, if_pos hlt', toNat_priceUp (by omega)]
    · have hge := BitVec.le_def.mp (BitVec.not_lt.mp hup)
      rw [if_neg hup, if_neg (by omega), toNat_priceDown (by omega)]

/-- **A price on its way**: strictly closer to the target and not past it, or, if no step is that
small, where it was. -/
inductive Towards (target old new : ℕ) : Prop
  | up (above : old < new) (within : new ≤ target)
  | down (below : new < old) (within : target ≤ new)
  | stays (same : new = old)

theorem towards_next (s : PriceState) (target : U128) :
    Towards target.toNat s.price.toNat (s.next target).1.toNat := by
  have hnext := toNat_next s target
  rw [Nat.dist] at hnext
  rcases lt_trichotomy s.price.toNat (s.next target).1.toNat with h | h | h
  · refine .up h ?_
    split_ifs at hnext <;> omega
  · exact .stays h.symm
  · refine .down h ?_
    split_ifs at hnext <;> omega

/-- A step is no wider than the widest. -/
theorem dist_next_le (s : PriceState) (target : U128) :
    Nat.dist (s.next target).1.toNat s.price.toNat ≤ s.cap.toNat := by
  have hnext := toNat_next s target
  rw [Nat.dist] at hnext ⊢
  split_ifs at hnext <;> omega

/-- **What is left after a step**: nothing, or less by a whole step. -/
theorem dist_target_next (s : PriceState) (target : U128) :
    (s.next target).1 = target ∨
      Nat.dist (s.next target).1.toNat target.toNat + s.cap.toNat =
        Nat.dist s.price.toNat target.toNat := by
  have hnext := toNat_next s target
  rw [Nat.dist] at hnext
  split at hnext
  · exact .inl (BitVec.eq_of_toNat_eq hnext)
  · refine .inr ?_
    rw [Nat.dist, Nat.dist]
    split_ifs at hnext <;> omega

/-- With a step of no width the price stays. -/
theorem next_of_cap_zero {s : PriceState} {target : U128} (hcap : s.cap = 0) :
    (s.next target).1 = s.price := by
  have hdist := dist_next_le s target
  have hzero : s.cap.toNat = 0 := by
    rw [hcap]
    rfl
  rw [Nat.dist] at hdist
  exact BitVec.eq_of_toNat_eq (by omega)

/-- At its target the price stays. -/
theorem next_of_at_target {s : PriceState} {target : U128} (hat : s.price = target) :
    (s.next target).1 = s.price := by
  refine BitVec.eq_of_toNat_eq ?_
  cases towards_next s target with
  | up above within =>
    rw [hat] at above
    omega
  | down below within =>
    rw [hat] at below
    omega
  | stays same => exact same

/-! ### What is planned -/

/-- **A planned call**: what it is planned from, where it leads, and that something is to do. -/
structure Planned (s : PriceState) (target : U128) (margin : Int64) (source price : U128) :
    Prop where
  source_eq : source = s.price
  price_eq : price = (s.next target).1
  ready : s.cooldown = none
  /-- A price that is not due is moved. -/
  moves : s.refreshDue margin = true ∨ price ≠ source

theorem planned_of_plan {s : PriceState} {target source price : U128} {margin : Int64} {step : Bool}
    (h : plan s target margin = .set source price step) : Planned s target margin source price := by
  simp only [plan] at h
  split at h
  · cases h
  · next hsome =>
    split at h
    · cases h
    · next hover =>
      split at h
      · cases h
      · next hmoves =>
        obtain ⟨rfl, rfl, -⟩ := Plan.set.inj h
        refine ⟨rfl, rfl, hover, ?_⟩
        rcases hdue : s.refreshDue margin with _ | _
        · exact .inr fun heq => hmoves ⟨heq, hdue⟩
        · exact .inl rfl

/-- With the cooldown over, a price that is due is set. -/
theorem plan_of_due {s : PriceState} {target : U128} {margin : Int64}
    (hdue : s.refreshDue margin = true) (hover : s.cooldown = none) :
    ∃ price step, plan s target margin = .set s.price price step := by
  refine ⟨(s.next target).1, (s.next target).2, ?_⟩
  simp only [plan, hdue, hover, Bool.true_eq_false, and_false, if_false]

/-- With the cooldown over, a price that a step can move is moved. -/
theorem plan_of_moving {s : PriceState} {target : U128} {margin : Int64}
    (hmoving : (s.next target).1 ≠ s.price) (hover : s.cooldown = none) :
    ∃ step, plan s target margin = .set s.price (s.next target).1 step := by
  refine ⟨(s.next target).2, ?_⟩
  have haway : s.price ≠ target := fun heq => hmoving (next_of_at_target heq)
  simp only [plan, haway, hmoving, hover, ne_eq, not_true_eq_false, false_and, if_false,
    not_false_eq_true]

/-! ### What the pool makes of it -/

/-- **The rules of a pool**: what its setters and its listings check. -/
structure Ruled (p : SwapPool) : Prop where
  fee : p.feeBps.toNat ≤ 1000
  deviation : p.maxPriceDeviationBps ≠ 0 ∧ p.maxPriceDeviationBps.toNat ≤ SwapPool.BPS_DENOM
  price : ∀ token, (p.tokens token).listed = true → (p.tokens token).price ≠ 0

/-- **What is read off a pool** at a time, about a token. -/
structure Reads (p : SwapPool) (token : Address) (now : ℕ) (s : PriceState) : Prop where
  now : s.now.toInt = now
  price : s.price.toNat = (p.tokens token).price.toNat
  priceSetAt : s.priceSetAt.toInt = p.priceSetAt token
  lastPriceUpdate : s.lastPriceUpdate.toInt = p.lastPriceUpdate token
  maxAge : s.maxAge.map Int64.toInt =
    if p.maxPriceAge = 0 then none else some (p.maxPriceAge.toNat : ℤ)
  minUpdateInterval : s.minUpdateInterval.toInt = p.minPriceUpdateInterval.toNat
  maxDeviationBps : s.maxDeviationBps = p.maxPriceDeviationBps
  feeBps : s.feeBps = p.feeBps

/-- **The price of a token and its guards are what they were.** -/
structure Unmoved (token : Address) (p p' : SwapPool) : Prop where
  listed : (p'.tokens token).listed = (p.tokens token).listed
  price : (p'.tokens token).price = (p.tokens token).price
  lastPriceUpdate : p'.lastPriceUpdate token = p.lastPriceUpdate token
  stable : p'.stable = p.stable
  minPriceUpdateInterval : p'.minPriceUpdateInterval = p.minPriceUpdateInterval
  maxPriceDeviationBps : p'.maxPriceDeviationBps = p.maxPriceDeviationBps
  feeBps : p'.feeBps = p.feeBps

theorem Unmoved.refl (token : Address) (p : SwapPool) : Unmoved token p p :=
  ⟨rfl, rfl, rfl, rfl, rfl, rfl, rfl⟩

/-- The planner's step cap is the pool's. -/
theorem stepCapBps_eq {p : SwapPool} {s : PriceState}
    (hdeviation : s.maxDeviationBps = p.maxPriceDeviationBps) (hfee : s.feeBps = p.feeBps) :
    s.stepCapBps.toNat = p.priceStepCapBps.toNat := by
  rw [PriceState.stepCapBps, SwapPool.priceStepCapBps, hdeviation, hfee,
    apply_ite UInt16.toNat, apply_ite UInt16.toNat]
  simp only [UInt16.le_iff_toNat_le, UInt16.lt_iff_toNat_lt]
  split_ifs <;> omega

theorem toNat_priceDiff (newPrice oldPrice : U256) :
    (SwapPool.priceDiff newPrice oldPrice).toNat = Nat.dist newPrice.toNat oldPrice.toNat := by
  rw [SwapPool.priceDiff, apply_ite BitVec.toNat, Nat.dist]
  by_cases h : newPrice > oldPrice
  · have hlt := BitVec.lt_def.mp h
    rw [if_pos h, BitVec.toNat_sub_of_le (BitVec.le_of_lt h)]
    omega
  · have hle := BitVec.le_def.mp (BitVec.not_lt.mp h)
    rw [if_neg h, BitVec.toNat_sub_of_le (BitVec.not_lt.mp h)]
    omega

/-- **The pool's cap** on a move, rounded down. -/
theorem checkDeviation_eq_ok {oldPrice newPrice : U256} {bps : UInt16} (hbps : bps.toNat ≤ 10000) :
    SwapPool.checkDeviation oldPrice newPrice bps = .ok () ↔
      Nat.dist newPrice.toNat oldPrice.toNat ≤ oldPrice.toNat * bps.toNat / 10000 := by
  have hwide : (BitVec.ofNat 256 bps.toNat).toNat = bps.toNat := by
    rw [BitVec.toNat_ofNat, Nat.mod_eq_of_lt (by omega)]
  have hdenom : (BitVec.ofNat 256 SwapPool.BPS_DENOM).toNat = 10000 := by decide
  have hle : oldPrice.toNat * bps.toNat / 10000 ≤ oldPrice.toNat := by
    rw [Nat.div_le_iff_le_mul_add_pred (by norm_num)]
    nlinarith
  have hfits : (BitVec.ofNat 256 (oldPrice.toNat * bps.toNat / 10000)).toNat =
      oldPrice.toNat * bps.toNat / 10000 := by
    rw [BitVec.toNat_ofNat, Nat.mod_eq_of_lt (lt_of_le_of_lt hle oldPrice.isLt)]
  have hcap : SwapPool.mulDiv oldPrice (BitVec.ofNat 256 bps.toNat)
      (BitVec.ofNat 256 SwapPool.BPS_DENOM) =
      .ok (BitVec.ofNat 256 (oldPrice.toNat * bps.toNat / 10000)) := by
    rw [SwapPool.mulDiv_eq_ok, hwide, hdenom, hfits]
    exact ⟨by decide, rfl⟩
  rw [SwapPool.checkDeviation, hcap, ok_bind, revertIf_eq_ok, gt_iff_lt,
    BitVec.not_lt, BitVec.le_def, toNat_priceDiff, hfits]

/-- The pool once it has taken a price. -/
def repriced (c : Call) (p : SwapPool) (token : Address) (newPrice : U256) : SwapPool :=
  { p.setToken token { p.tokens token with price := newPrice } with
    lastPriceUpdate := Function.update p.lastPriceUpdate token c.timestamp
    priceSetAt := Function.update p.priceSetAt token c.timestamp }

/-- **The pool takes a price** within the cap, once the cooldown is over. -/
theorem setPrice_eq_ok {c : Call} {p : SwapPool} {token : Address} {newPrice : U256}
    (hsender : c.sender = p.oracle) (hlisted : (p.tokens token).listed = true)
    (hstable : token ≠ p.stable) (hnew : newPrice ≠ 0)
    (hcooldown : p.lastPriceUpdate token ≠ 0 →
      p.lastPriceUpdate token + p.minPriceUpdateInterval.toNat < 2 ^ 256 ∧
        p.lastPriceUpdate token + p.minPriceUpdateInterval.toNat ≤ c.timestamp)
    (hbps : p.priceStepCapBps.toNat ≤ 10000)
    (hcap : Nat.dist newPrice.toNat (p.tokens token).price.toNat ≤
      (p.tokens token).price.toNat * p.priceStepCapBps.toNat / 10000) :
    SwapPool.setPrice c p token (p.tokens token).price newPrice =
      .ok (repriced c p token newPrice, [.priceSet token (p.tokens token).price newPrice]) := by
  have hover : SwapPool.checkCooldown c p token = .ok () := by
    rw [SwapPool.checkCooldown]
    split
    · rfl
    · next hlast =>
      obtain ⟨hroom, hle⟩ := hcooldown hlast
      rw [revertIf_bind, if_neg (not_le.mpr hroom), revertIf, if_neg (not_lt.mpr hle)]
  simp only [SwapPool.setPrice, SwapPool.onlyOracle, bind_eq_ok, exists_unit, revertIf_eq_ok,
    pure_eq_ok, not_not, Prod.mk.injEq, Bool.not_eq_false]
  exact ⟨hsender, hlisted, hstable, hnew, trivial, hover, (checkDeviation_eq_ok hbps).mpr hcap, rfl,
    trivial⟩

/-- The step cap of a pool is within its fee. -/
theorem Ruled.stepCap_le {p : SwapPool} (hp : Ruled p) : p.priceStepCapBps.toNat ≤ 1000 :=
  p.priceStepCapBps_le.trans hp.fee

/-- A state that was read off a ruled pool has a cap that leaves something of the price. -/
theorem Reads.cap_eq {p : SwapPool} {token : Address} {now : ℕ} {s : PriceState}
    (hreads : Reads p token now s) (hp : Ruled p) : s.cap.toNat =
      (p.tokens token).price.toNat * p.priceStepCapBps.toNat / 10000 := by
  have hfee := hp.fee
  rw [toNat_cap (by rw [hreads.feeBps]; omega), hreads.price,
    stepCapBps_eq hreads.maxDeviationBps hreads.feeBps]

/-- A planned price is one: no step leads down to zero. -/
theorem Reads.next_ne_zero {p : SwapPool} {token : Address} {now : ℕ} {s : PriceState}
    (target : U128) (hreads : Reads p token now s) (hp : Ruled p)
    (hlisted : (p.tokens token).listed = true) : (s.next target).1.toNat ≠ 0 := by
  have hcap := hreads.cap_eq hp
  have hbps := hp.stepCap_le
  have hdist := dist_next_le s target
  have hpos : 0 < (p.tokens token).price.toNat :=
    Nat.pos_of_ne_zero fun h => hp.price token hlisted (BitVec.eq_of_toNat_eq h)
  have hsmall : (p.tokens token).price.toNat * p.priceStepCapBps.toNat / 10000 <
      (p.tokens token).price.toNat := by
    rw [Nat.div_lt_iff_lt_mul (by norm_num)]
    nlinarith
  rw [Nat.dist, hreads.price] at hdist
  omega

/-- **What is planned goes through**, then and later, as long as the price is what it was. -/
theorem accepted_of_plan {p p' : SwapPool} {token : Address} {now : ℕ} {s : PriceState}
    {target source price : U128} {margin : Int64} {step : Bool} {c : Call} (hp : Ruled p)
    (hlisted : (p.tokens token).listed = true) (hstable : token ≠ p.stable)
    (hreads : Reads p token now s)
    (hroom : s.lastPriceUpdate ≠ 0 →
      s.lastPriceUpdate.toInt + s.minUpdateInterval.toInt ≤ 9223372036854775807)
    (hplan : plan s target margin = .set source price step) (hsame : Unmoved token p p')
    (hsender : c.sender = p'.oracle) (hlater : now ≤ c.timestamp) :
    SwapPool.setPrice c p' token (source.setWidth 256) (price.setWidth 256) =
      .ok (repriced c p' token (price.setWidth 256),
        [.priceSet token (p'.tokens token).price (price.setWidth 256)]) := by
  obtain ⟨rfl, rfl, hover, -⟩ := planned_of_plan hplan
  have hwide : ∀ v : U128, (v.setWidth 256).toNat = v.toNat := fun v =>
    BitVec.toNat_setWidth_of_le (by omega)
  have hsource : s.price.setWidth 256 = (p'.tokens token).price := by
    refine BitVec.eq_of_toNat_eq ?_
    rw [hwide, hreads.price, hsame.price]
  have hcapBps : p'.priceStepCapBps = p.priceStepCapBps := by
    rw [SwapPool.priceStepCapBps, SwapPool.priceStepCapBps, hsame.feeBps,
      hsame.maxPriceDeviationBps]
  have hbps := hp.stepCap_le
  rw [hsource]
  refine setPrice_eq_ok hsender (hsame.listed.trans hlisted) (hsame.stable ▸ hstable) ?_ ?_
    (by rw [hcapBps]; omega) ?_
  · intro hzero
    refine hreads.next_ne_zero target hp hlisted ?_
    rw [← hwide, hzero]
    rfl
  · rw [hsame.lastPriceUpdate, hsame.minPriceUpdateInterval]
    intro hlast
    have hread := hreads.lastPriceUpdate
    have hinterval := hreads.minUpdateInterval
    have hnow := hreads.now
    have hne : s.lastPriceUpdate ≠ 0 := by
      intro hzero
      rw [hzero] at hread
      have hzero' : (0 : Int64).toInt = 0 := rfl
      omega
    have hend := cooldown_eq_none.mp hover hne
    have hfits := hroom hne
    rw [toInt_saturatingAdd] at hend
    have hbound := (toInt_bounds s.now).2
    norm_num
    omega
  · rw [hwide, hcapBps, hsame.price, ← hreads.price]
    refine (dist_next_le s target).trans ?_
    rw [hreads.cap_eq hp, hreads.price]

/-! ### One plan after another -/

/-- The state once a price was set at some time. -/
def PriceState.after (s : PriceState) (price : U128) (time : Int64) : PriceState :=
  { s with now := time, price, priceSetAt := time, lastPriceUpdate := time }

/-- The state some time later. -/
def PriceState.at (s : PriceState) (time : Int64) : PriceState := { s with now := time }

/-- **The pool that took a price reads as it should.** -/
theorem Reads.repriced {p p' : SwapPool} {token : Address} {now : ℕ} {s : PriceState} {price : U128}
    {c : Call} (hreads : Reads p token now s) (hsame : Unmoved token p p')
    (hage : p'.maxPriceAge = p.maxPriceAge) (htime : c.timestamp < 2 ^ 63) :
    Reads (repriced c p' token (price.setWidth 256)) token c.timestamp
      (s.after price (Int64.ofInt c.timestamp)) := by
  have htime' : (Int64.ofInt c.timestamp).toInt = c.timestamp :=
    Int64.toInt_ofInt_of_le (by omega) (by exact_mod_cast htime)
  refine ⟨htime', ?_, ?_, ?_, ?_, ?_, ?_, ?_⟩
  · simp only [Refresh.repriced, SwapPool.setToken, Function.update_self]
    exact (BitVec.toNat_setWidth_of_le (by omega)).symm
  · simp only [Refresh.repriced, Function.update_self]
    exact htime'
  · simp only [Refresh.repriced, Function.update_self]
    exact htime'
  · exact hage ▸ hreads.maxAge
  · exact hsame.minPriceUpdateInterval ▸ hreads.minUpdateInterval
  · exact hsame.maxPriceDeviationBps ▸ hreads.maxDeviationBps
  · exact hsame.feeBps ▸ hreads.feeBps

/-- What following the plan makes of a state, at some time. -/
def follow (target : U128) (margin : Int64) (s : PriceState) (time : Int64) : PriceState :=
  match plan (s.at time) target margin with
  | .set _ price _ => s.after price time
  | _ => s.at time

/-- **Following the plan** at times at which no cooldown runs. -/
inductive Follows (target : U128) (margin : Int64) : PriceState → List Int64 → PriceState → Prop
  | nil {s : PriceState} : Follows target margin s [] s
  | cons {s s' : PriceState} {time : Int64} {times : List Int64}
      (ready : (s.at time).cooldown = none)
      (rest : Follows target margin (follow target margin s time) times s') :
      Follows target margin s (time :: times) s'

/-- With the cooldown over, the price is where one step leads. -/
theorem price_follow {target : U128} {margin : Int64} {s : PriceState} {time : Int64}
    (hover : (s.at time).cooldown = none) :
    (follow target margin s time).price = (s.next target).1 := by
  rw [follow]
  by_cases hmoving : (s.next target).1 = s.price
  · split
    · next price step hplan =>
      exact (planned_of_plan hplan).price_eq
    · exact hmoving.symm
  · obtain ⟨step, hplan⟩ := @plan_of_moving (s.at time) target margin hmoving hover
    rw [hplan]
    rfl

/-- Following the plan changes neither fee nor cap. -/
theorem cap_follow {target : U128} {margin : Int64} {s : PriceState} {time : Int64}
    (h : (follow target margin s time).price = s.price) :
    (follow target margin s time).cap = s.cap := by
  rw [follow] at h ⊢
  split at h
  · next price step hplan =>
    obtain rfl : price = s.price := h
    rfl
  · rfl

/-- **At its target the price stays**, and where no step moves it. -/
theorem Follows.stays {target : U128} {margin : Int64} {s s' : PriceState} {times : List Int64}
    (h : Follows target margin s times s') (hstop : s.price = target ∨ s.cap = 0) :
    s'.price = s.price ∧ s'.cap = s.cap := by
  induction h with
  | nil => exact ⟨rfl, rfl⟩
  | @cons s s' time times ready rest ih =>
    have hsame : (follow target margin s time).price = s.price := by
      rw [price_follow ready]
      rcases hstop with hat | hcap
      · exact next_of_at_target hat
      · exact next_of_cap_zero hcap
    have hcap := cap_follow hsame
    obtain ⟨hprice', hcap'⟩ := ih (by rwa [hsame, hcap])
    exact ⟨hprice'.trans hsame, hcap'.trans hcap⟩

/-- **Following the plan gets there**: after more steps than the price is away, it is at its target,
or no step moves it. -/
theorem Follows.converges {target : U128} {margin : Int64} {s s' : PriceState}
    {times : List Int64} (h : Follows target margin s times s') :
    s'.price = target ∨ s'.cap = 0 ∨
      Nat.dist s'.price.toNat target.toNat + times.length ≤
        Nat.dist s.price.toNat target.toNat := by
  induction h with
  | nil => exact .inr (.inr le_rfl)
  | @cons s s' time times ready rest ih =>
    have hprice : (follow target margin s time).price = (s.next target).1 := price_follow ready
    rcases dist_target_next s target with hat | hdist
    · have hthere := rest.stays (.inl (hprice.trans hat))
      exact .inl (hthere.1.trans (hprice.trans hat))
    · by_cases hcap : s.cap = 0
      · have hsame := hprice.trans (next_of_cap_zero hcap)
        have hstuck := rest.stays (.inr ((cap_follow hsame).trans hcap))
        exact .inr (.inl (hstuck.2.trans ((cap_follow hsame).trans hcap)))
      · have hpos : 0 < s.cap.toNat :=
          Nat.pos_of_ne_zero fun hzero => hcap (BitVec.eq_of_toNat_eq hzero)
        rw [hprice] at ih
        refine ih.imp_right (Or.imp_right fun hle => ?_)
        rw [List.length_cons]
        omega

/-- **The planner is sound and converges**, as long as the end of the cooldown is a time that an
`i64` can hold: what it plans leads towards the target or stays, goes through at the pool then and
at any later time, and following it reaches the target, or a price that no step moves, after no
more steps than the price is away. -/
theorem plan_sound {p : SwapPool} {token : Address} {now : ℕ} {s : PriceState} (target : U128)
    (margin : Int64) (hp : Ruled p) (hlisted : (p.tokens token).listed = true)
    (hstable : token ≠ p.stable) (hreads : Reads p token now s)
    (hroom : s.lastPriceUpdate ≠ 0 →
      s.lastPriceUpdate.toInt + s.minUpdateInterval.toInt ≤ 9223372036854775807) :
    (∀ source price step, plan s target margin = .set source price step →
      source = s.price ∧ Towards target.toNat s.price.toNat price.toNat ∧
      ∀ p' c, Unmoved token p p' → c.sender = p'.oracle → now ≤ c.timestamp →
        SwapPool.setPrice c p' token (source.setWidth 256) (price.setWidth 256) =
          .ok (repriced c p' token (price.setWidth 256),
            [.priceSet token (p'.tokens token).price (price.setWidth 256)]) ∧
        (p'.maxPriceAge = p.maxPriceAge → c.timestamp < 2 ^ 63 →
          Reads (repriced c p' token (price.setWidth 256)) token c.timestamp
            (s.after price (Int64.ofInt c.timestamp)))) ∧
    (∀ times s', Follows target margin s times s' →
      Nat.dist s.price.toNat target.toNat < times.length →
      (s'.price = target ∨ s'.cap = 0) ∧
        ∀ times' s'', Follows target margin s' times' s'' → s''.price = s'.price) := by
  constructor
  · rintro source price step hplan
    obtain ⟨hsource, hprice, -, -⟩ := planned_of_plan hplan
    refine ⟨hsource, hprice ▸ towards_next s target, ?_⟩
    rintro p' c hsame hsender hlater
    exact ⟨accepted_of_plan hp hlisted hstable hreads hroom hplan hsame hsender hlater,
      fun hage htime => hreads.repriced hsame hage htime⟩
  · rintro times s' hfollows hlong
    have hstop : s'.price = target ∨ s'.cap = 0 := by
      rcases hfollows.converges with hat | hcap | hle
      · exact .inl hat
      · exact .inr hcap
      · omega
    exact ⟨hstop, fun times' s'' hrest => (hrest.stays hstop).1⟩

/-- A pool that trades one token for 1000, with a fee of 10 %, last moved at second 1. -/
def samplePool (interval : U256) : SwapPool where
  tokens := fun a => if a = 0xaa then ⟨true, 6, 1000, 0⟩ else ⟨false, 0, 0, 0⟩
  stable := 0x05
  owner := 0x0e
  pendingOwner := 0
  oracle := 0x0c
  paused := false
  guardian := 0
  feeBps := 1000
  maxPriceDeviationBps := 1000
  minPriceUpdateInterval := interval
  lastPriceUpdate := fun _ => 1
  priceSetAt := fun _ => 1
  maxPriceAge := 86400

theorem ruled_samplePool (interval : U256) : Ruled (samplePool interval) := by
  have hbps : (1000 : UInt16) ≠ 0 ∧ (1000 : UInt16).toNat ≤ 1000 := by decide
  refine ⟨hbps.2, ⟨hbps.1, hbps.2.trans (by decide)⟩, ?_⟩
  rintro token hlisted
  simp only [samplePool] at hlisted ⊢
  split at hlisted
  · next heq =>
    rw [if_pos heq]
    decide
  · exact absurd hlisted (by decide)

/-- The pool as it is read at some second. -/
def sampleState (interval now : Int64) : PriceState :=
  ⟨now, 1000, 1, 1, some 86400, interval, 1000, 1000⟩

/-- An hour of cooldown, read two hours later, with the target at 1250: a step of 100, and the
same again at any time after that. -/
theorem plan_sound_sample :
    plan (sampleState 3600 7200) 1250 0 = .set 1000 1100 true ∧
      SwapPool.setPrice (SwapPool.callAt 0x0c 7205) (samplePool 3600) 0xaa 1000 1100 =
        .ok (repriced (SwapPool.callAt 0x0c 7205) (samplePool 3600) 0xaa 1100,
          [.priceSet 0xaa 1000 1100]) := by
  have hplan : plan (sampleState 3600 7200) 1250 0 = .set 1000 1100 true := by decide
  have hreads : Reads (samplePool 3600) 0xaa 7200 (sampleState 3600 7200) :=
    ⟨by decide, by decide, by decide, by decide, by decide, by decide, by decide, by decide⟩
  have hsound := plan_sound 1250 0 (ruled_samplePool 3600) (by decide) (by decide) hreads
    (by decide)
  exact ⟨hplan, ((hsound.1 _ _ _ hplan).2.2 _ (SwapPool.callAt 0x0c 7205) (.refl _ _) (by decide)
    (by decide)).1⟩

/-- **At the last second there is** the sum has saturated, and what is planned is refused. -/
theorem refused_at_the_end : ¬ ∀ (p : SwapPool) (token : Address) (now : ℕ) (s : PriceState)
    (target : U128) (margin : Int64) (source price : U128) (step : Bool) (c : Call), Ruled p →
    (p.tokens token).listed = true → token ≠ p.stable → Reads p token now s → target ≠ 0 →
    plan s target margin = .set source price step → c.sender = p.oracle → now ≤ c.timestamp →
    ∃ r, SwapPool.setPrice c p token (source.setWidth 256) (price.setWidth 256) = .ok r := by
  intro h
  have hreads : Reads (samplePool 9223372036854775807) 0xaa 9223372036854775807
      (sampleState 9223372036854775807 9223372036854775807) :=
    ⟨by decide, by decide, by decide, by decide, by decide, by decide, by decide, by decide⟩
  obtain ⟨r, hr⟩ := h _ 0xaa _ _ 1250 0 1000 1100 true (SwapPool.callAt 0x0c 9223372036854775807)
    (ruled_samplePool _) (by decide) (by decide) hreads (by decide) (by decide) (by decide)
    (by decide)
  simp only [SwapPool.setPrice, bind_eq_ok, exists_unit] at hr
  obtain ⟨-, -, -, -, -, hover, -⟩ := hr
  rw [SwapPool.checkCooldown, if_neg (by decide), revertIf_bind_eq_ok, revertIf_eq_ok] at hover
  exact hover.2 (by decide)

end Refresh

end SelendraBridge
