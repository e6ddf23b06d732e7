import SelendraBridge.Lib.Drift
import SelendraBridge.Pool.Backing
import SelendraBridge.Pool.Prices
import SelendraBridge.Refresh.Plan

/-!
# A price of the pool drifts

While the owner leaves a listing and the rules of prices alone, the only call that moves a price is
`setPrice`, and it waits out the cooldown and stays within the step cap: each step of a run is one
of `Drift.Step` (`SelendraBridge.SwapPool.step_of_exec`), with the moment of the last move in
`lastPriceUpdate`. Zero stands for none there, so that a move at second zero would leave no trace of
itself.
-/

namespace SelendraBridge

namespace SwapPool

open Revert Transition

variable {σ : Type} {E : Erc20 σ} {here : Address} {c : Call} {p : SwapPool} {tokens : σ}

/-- The price of a token. -/
def priceAt (token : Address) (w : World σ) : ℕ := (w.pool.record token).price.toNat

/-- When the price of a token was last moved, if it was. -/
def lastAt (token : Address) (w : World σ) : Option ℤ :=
  if (w.pool.record token).lastPriceUpdate = 0 then none
  else some (w.pool.record token).lastPriceUpdate

/-- The move of the price of a token that a call is: when, and where to. -/
def Label.move (token : Address) : Label σ → Option (ℤ × ℕ)
  | .call c (.setPrice t _ newPrice) =>
    if t = token then some ((c.timestamp : ℤ), newPrice.toNat) else none
  | _ => none

/-- The move that a step is. -/
def moveOf (token : Address) (e : Step σ) : Option (ℤ × ℕ) := e.label.move token

/-- The moves of a price in a run. -/
def moves (token : Address) (tr : List (Step σ)) : List (ℤ × ℕ) := tr.filterMap (moveOf token)

/-- Does it leave the listing and the rules of moves alone? -/
def PoolCall.spares (token : Address) : PoolCall → Bool
  | .listToken t _ => decide (t ≠ token)
  | .delistToken t => decide (t ≠ token)
  | .setFee _ => false
  | .setMaxPriceDeviation _ => false
  | .setMinPriceUpdateInterval _ => false
  | _ => true

/-- The same of anything that can happen. -/
def Label.spares (token : Address) : Label σ → Bool
  | .call _ x => x.spares token
  | .tokens _ => true

/-- What a move has to keep to. -/
def limits (p : SwapPool) : ℕ × ℤ := (p.priceStepCapBps.toNat, p.minPriceUpdateInterval.toNat)

theorem toNat_priceStepCapBps (p : SwapPool) :
    p.priceStepCapBps.toNat = min p.feeBps.toNat p.maxPriceDeviationBps.toNat := by
  unfold priceStepCapBps
  split
  · next h => rw [min_eq_left (UInt16.lt_iff_toNat_lt.mp h).le]
  · next h =>
    rw [UInt16.lt_iff_toNat_lt, not_lt] at h
    rw [min_eq_right h]

/-- The rules of a pool decide its limits. -/
theorem limits_of_rules {p p' : SwapPool} (hfee : p'.feeBps = p.feeBps)
    (hdeviation : p'.maxPriceDeviationBps = p.maxPriceDeviationBps)
    (hinterval : p'.minPriceUpdateInterval = p.minPriceUpdateInterval) : p'.limits = p.limits := by
  rw [limits, limits, priceStepCapBps, priceStepCapBps, hfee, hdeviation, hinterval]

/-- **What spares them leaves the limits.** -/
theorem limits_of_exec {w w' : World σ} {l : Label σ} {token : Address} {log : List Event}
    (hl : l.spares token = true) (h : exec E here w l = some (w', log)) :
    w'.pool.limits = w.pool.limits := by
  cases l with
  | tokens s =>
    simp only [exec, Option.some.injEq, Prod.mk.injEq] at h
    rw [← h.1]
  | call c x =>
    obtain ⟨-, r, hr, rfl, -⟩ := exec_call h
    have hrules := rules_of_call hr
    have hkept : (x.rewrite w.pool.rules).feeBps = w.pool.rules.feeBps ∧
        (x.rewrite w.pool.rules).maxPriceDeviationBps = w.pool.rules.maxPriceDeviationBps ∧
        (x.rewrite w.pool.rules).minPriceUpdateInterval = w.pool.rules.minPriceUpdateInterval := by
      cases x with
      | setFee b => exact absurd hl (by simp [Label.spares, PoolCall.spares])
      | setMaxPriceDeviation b => exact absurd hl (by simp [Label.spares, PoolCall.spares])
      | setMinPriceUpdateInterval i => exact absurd hl (by simp [Label.spares, PoolCall.spares])
      | _ => exact ⟨rfl, rfl, rfl⟩
    rw [← hrules] at hkept
    exact limits_of_rules hkept.1 hkept.2.1 hkept.2.2

/-- **A move that went through** waited out the cooldown and kept within the cap. -/
structure Moves (c : Call) (p : SwapPool) (token : Address) (newPrice : U256) (p' : SwapPool) :
    Prop where
  cooldown : p.lastPriceUpdate token = 0 ∨
    p.lastPriceUpdate token + p.minPriceUpdateInterval.toNat ≤ c.timestamp
  near : Nat.dist newPrice.toNat (p.tokens token).price.toNat ≤
    (p.tokens token).price.toNat * p.priceStepCapBps.toNat / BPS_DENOM
  ne_zero : newPrice.toNat ≠ 0
  record : p'.record token = ⟨true, newPrice, c.timestamp, c.timestamp⟩

theorem moves_of_setPrice {token : Address} {expectedOld newPrice : U256} {p' : SwapPool}
    {log : List Event} (hbps : p.priceStepCapBps.toNat ≤ BPS_DENOM)
    (h : setPrice c p token expectedOld newPrice = .ok (p', log)) :
    Moves c p token newPrice p' := by
  simp only [setPrice, bind_eq_ok, exists_unit, revertIf_eq_ok, pure_eq_ok, Prod.mk.injEq,
    Bool.not_eq_false] at h
  obtain ⟨-, hlisted, -, hprice, -, hcooldown, hnear, rfl, -⟩ := h
  refine ⟨?_, (Refresh.checkDeviation_eq_ok hbps).mp hnear,
    fun hzero => hprice (BitVec.eq_of_toNat_eq hzero), ?_⟩
  · by_cases hlast : p.lastPriceUpdate token = 0
    · exact .inl hlast
    · rw [checkCooldown, if_neg hlast, revertIf_bind_eq_ok, revertIf_eq_ok, not_lt] at hcooldown
      exact .inr hcooldown.2
  · simp only [record, setToken, Function.update_self, hlisted]

/-- **Each step is a move within the limits, or leaves the price.** -/
theorem step_of_exec {w w' : World σ} {l : Label σ} {token : Address} {log : List Event}
    (hw : Lawful w.pool w.now) (hl : l.spares token = true)
    (h : exec E here w l = some (w', log))
    (htime : ∀ m, moveOf token ⟨w, l, log, w'⟩ = some m → m.1 ≠ 0) :
    Drift.Step BPS_DENOM w.pool.limits.1 w.pool.limits.2 (priceAt token w) (lastAt token w)
      (moveOf token ⟨w, l, log, w'⟩) (priceAt token w') (lastAt token w') := by
  have hbps : w.pool.priceStepCapBps.toNat ≤ BPS_DENOM :=
    (w.pool.priceStepCapBps_le.trans hw.fee).trans (by decide)
  cases l with
  | tokens s =>
    simp only [exec, Option.some.injEq, Prod.mk.injEq] at h
    rw [← h.1]
    exact .stays
  | call c x =>
    obtain ⟨-, r, hr, rfl, -⟩ := exec_call h
    by_cases hx : x.prices token = true
    · cases x with
      | listToken t price =>
        obtain rfl : t = token := of_decide_eq_true hx
        exact absurd hl (by simp [Label.spares, PoolCall.spares])
      | delistToken t =>
        obtain rfl : t = token := of_decide_eq_true hx
        exact absurd hl (by simp [Label.spares, PoolCall.spares])
      | setPrice t expectedOld newPrice =>
        obtain rfl : t = token := of_decide_eq_true hx
        obtain ⟨a, ha, rfl⟩ := map_eq_ok.mp hr
        have hm := moves_of_setPrice hbps ha
        have hmove : moveOf t (⟨w, .call c (.setPrice t expectedOld newPrice), log,
            ⟨(keepTokens w.tokens a).pool, (keepTokens w.tokens a).tokens, c.timestamp⟩⟩ : Step σ) =
            some ((c.timestamp : ℤ), newPrice.toNat) := if_pos rfl
        have hne : (c.timestamp : ℤ) ≠ 0 := htime _ hmove
        rw [hmove]
        have hprice : priceAt t (⟨(keepTokens w.tokens a).pool, (keepTokens w.tokens a).tokens,
            c.timestamp⟩ : World σ) = newPrice.toNat := by
          rw [priceAt, keepTokens, hm.record]
        have hlast : lastAt t (⟨(keepTokens w.tokens a).pool, (keepTokens w.tokens a).tokens,
            c.timestamp⟩ : World σ) = some (c.timestamp : ℤ) := by
          rw [lastAt, keepTokens, hm.record, if_neg (by exact_mod_cast hne)]
        rw [hprice, hlast]
        refine .moves (fun last hsome => ?_) hm.near hm.ne_zero
        rw [lastAt] at hsome
        split at hsome
        · cases hsome
        · next hzero =>
          obtain rfl := Option.some.inj hsome
          have hle := hm.cooldown.resolve_left hzero
          simp only [record, limits]
          exact_mod_cast hle
      | _ => exact absurd hx (by simp [PoolCall.prices])
    · have hkept := record_of_call (Bool.eq_false_iff.mpr hx) hr
      have hmove : moveOf token (⟨w, .call c x, log, ⟨r.pool, r.tokens, c.timestamp⟩⟩ : Step σ) =
          none := by
        cases x with
        | setPrice t expectedOld newPrice =>
          have hne : t ≠ token := fun heq => hx (decide_eq_true heq)
          exact if_neg hne
        | _ => rfl
      rw [hmove]
      have hprice : priceAt token (⟨r.pool, r.tokens, c.timestamp⟩ : World σ) =
          priceAt token w := by
        rw [priceAt, priceAt, hkept]
      have hlast : lastAt token (⟨r.pool, r.tokens, c.timestamp⟩ : World σ) = lastAt token w := by
        rw [lastAt, lastAt, hkept]
      rw [hprice, hlast]
      exact .stays

/-- **Every step of a run keeps within the limits it started with.** -/
theorem steps_of_run {w₀ w : World σ} {tr : List (Step σ)} {token : Address}
    (hw : Lawful w₀.pool w₀.now) (hrun : Run (exec E here) w₀ tr w)
    (hspares : ∀ e ∈ tr, e.label.spares token = true) (htime : ∀ m ∈ moves token tr, m.1 ≠ 0) :
    w.pool.limits = w₀.pool.limits ∧ ∀ e ∈ tr,
      Drift.Step BPS_DENOM w₀.pool.limits.1 w₀.pool.limits.2 (priceAt token e.pre)
        (lastAt token e.pre) (moveOf token e) (priceAt token e.post) (lastAt token e.post) := by
  induction hrun with
  | nil => exact ⟨rfl, fun e he => absurd he (by simp)⟩
  | @snoc tr w w' l log hr he ih =>
    have hmem : (⟨w, l, log, w'⟩ : Step σ) ∈ tr ++ [⟨w, l, log, w'⟩] :=
      List.mem_append_right _ (List.mem_singleton_self _)
    obtain ⟨hlimits, hsteps⟩ := ih (fun e h => hspares e (List.mem_append_left _ h))
      fun m h => htime m (by rw [moves, List.filterMap_append]; exact List.mem_append_left _ h)
    have hlawful := hr.invariant (P := fun w => Lawful w.pool w.now) hw
      fun _ _ _ _ h he => h.step he
    have hl := hspares _ hmem
    have hstep := step_of_exec hlawful hl he fun m hm =>
      htime m (List.mem_filterMap.mpr ⟨_, hmem, hm⟩)
    refine ⟨(limits_of_exec hl he).trans hlimits, fun e h => ?_⟩
    rcases List.mem_append.mp h with h | h
    · exact hsteps e h
    · obtain rfl := List.mem_singleton.mp h
      rw [← hlimits]
      exact hstep

/-! ### A window of a run -/

variable (E here) in
/-- **A window in which the owner leaves a listed token and the rules of moves alone**, at any time
after a pool was deployed, with a positive interval. -/
structure Window (token : Address) (w₁ : World σ) (tr : List (Step σ)) (w : World σ) : Prop where
  reached : ∃ c stable_ bps p tokens log tr₁,
    construct E c tokens stable_ bps = .ok (p, log) ∧
      Run (exec E here) ⟨p, tokens, c.timestamp⟩ tr₁ w₁
  listed : (w₁.pool.tokens token).listed = true
  interval : 0 < w₁.pool.minPriceUpdateInterval.toNat
  run : Run (exec E here) w₁ tr w
  spares : ∀ e ∈ tr, e.label.spares token = true

theorem Window.lawful {token : Address} {w₁ w : World σ} {tr : List (Step σ)}
    (h : Window E here token w₁ tr w) : Lawful w₁.pool w₁.now := by
  obtain ⟨c, stable_, bps, p, tokens, log, tr₁, hnew, hrun⟩ := h.reached
  exact lawful_of_run hnew hrun

/-- **What happens in it is limited.** -/
theorem Window.limited {token : Address} {w₁ w : World σ} {tr : List (Step σ)}
    (h : Window E here token w₁ tr w) (htime : ∀ m ∈ moves token tr, m.1 ≠ 0) :
    Drift.Limited BPS_DENOM w₁.pool.limits.1 w₁.pool.limits.2 (priceAt token w₁) (priceAt token w)
      (moves token tr) ∧
    ∀ e ∈ tr, Drift.Step BPS_DENOM w₁.pool.limits.1 w₁.pool.limits.2 (priceAt token e.pre)
      (lastAt token e.pre) (moveOf token e) (priceAt token e.post) (lastAt token e.post) := by
  have hsteps := (steps_of_run h.lawful h.run h.spares htime).2
  have hprice : priceAt token w₁ ≠ 0 := fun hzero =>
    (h.lawful.dated token).price h.listed (BitVec.eq_of_toNat_eq hzero)
  have hcap : w₁.pool.limits.1 ≤ BPS_DENOM :=
    (w₁.pool.priceStepCapBps_le.trans h.lawful.fee).trans (by decide)
  exact ⟨(Drift.drifts_of_run h.run hsteps).limited (Int.natCast_pos.mpr h.interval) hcap hprice,
    hsteps⟩

/-! ### A window to look at -/

/-- The pool of `newPool`, deployed at some second. -/
def newPoolAt (now : ℕ) : SwapPool :=
  { newPool with priceSetAt := Function.update (fun _ => 0) 0x05 now }

theorem construct_newPoolAt (now : ℕ) : ∃ log,
    construct Ledger.tokens (callAt 0x0a now) purses 0x05 1000 = .ok (newPoolAt now, log) :=
  ⟨_, rfl⟩

/-- The owner lists a token and sets a fee of a tenth, all in the second of the deployment. -/
def offered (now : ℕ) : List (Step Ledger) × World Ledger :=
  traceOf (exec Ledger.tokens 0xf2) ⟨newPoolAt now, purses, now⟩
    [.call (callAt 0x0a now) (.listToken 0xaa 1000), .call (callAt 0x0a now) (.setFee 1000)]

/-- Its price is moved twice, up by a tenth each time. -/
def repricing (first second : ℕ) : List (Label Ledger) :=
  [.call (callAt 0x0a first) (.setPrice 0xaa 1000 1100),
    .call (callAt 0x0a second) (.setPrice 0xaa 1100 1210)]

/-- What comes of it. -/
def repriced (now first second : ℕ) : List (Step Ledger) × World Ledger :=
  traceOf (exec Ledger.tokens 0xf2) (offered now).2 (repricing first second)

theorem window_repriced {now first second : ℕ}
    (hoffered : (runFrom (exec Ledger.tokens 0xf2) ⟨newPoolAt now, purses, now⟩
      [.call (callAt 0x0a now) (.listToken 0xaa 1000),
        .call (callAt 0x0a now) (.setFee 1000)]).isSome = true)
    (hrepriced : (runFrom (exec Ledger.tokens 0xf2) (offered now).2
      (repricing first second)).isSome = true)
    (hlisted : ((offered now).2.pool.tokens 0xaa).listed = true)
    (hinterval : 0 < (offered now).2.pool.minPriceUpdateInterval.toNat) :
    Window Ledger.tokens 0xf2 0xaa (offered now).2 (repriced now first second).1
      (repriced now first second).2 := by
  obtain ⟨log, hnew⟩ := construct_newPoolAt now
  refine ⟨⟨_, _, _, _, _, log, _, hnew, run_traceOf hoffered⟩, hlisted, hinterval,
    run_traceOf hrepriced, fun e he => ?_⟩
  have hmem : e.label ∈ (repriced now first second).1.map Entry.label := List.mem_map_of_mem he
  rw [repriced, label_traceOf hrepriced] at hmem
  rcases List.mem_pair.mp hmem with hl | hl <;> rw [hl] <;> rfl

end SwapPool

end SelendraBridge
