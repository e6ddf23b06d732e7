import SelendraBridge.Pool.Prices
import SelendraBridge.Refresh.Plan

/-!
# A price is kept fresh

A keeper reads the price of a token every so often, plans what to send, and sends it. Four spans of
time decide whether the price ever gets too old for the pool:

| span | |
|---|---|
| from one poll to the next | `Keeper.pollWithin` |
| from a poll to the moment what it planned is executed | `Keeper.landWithin` |
| from the moment a price is due to the one it is stale | the margin |
| from one move of a price to the next | the cooldown of the pool |

A margin that covers a poll and a landing, and an age that covers a cooldown as well, are enough:
nothing planned means that the price has this much left, whether it is not due yet or a cooldown
still runs, and what is planned lands in time and resets the clock. So the price is never stale, and
nothing that was planned is refused (`SelendraBridge.Refresh.keeps_fresh`). What the keeper cannot
do anything about is the time before its first plan lands
(`SelendraBridge.Refresh.stale_before_it_starts`).
-/

namespace SelendraBridge

namespace Refresh

open Revert Transition SwapPool

/-! ### A tick -/

/-- `to_i64`. -/
def toI64 (v : ℕ) : Option Int64 :=
  if v < 9223372036854775808 then some (Int64.ofNat v) else none

/-- `u128::try_from`. -/
def toU128 (v : U256) : Option U128 :=
  if v.toNat < 340282366920938463463374607431768211456 then some (v.setWidth 128) else none

/-- **What a tick reads** (`tick` and `refresh_token`, up to the plan): nothing if it is not the
oracle, if the token is the stable or not listed, or if a value does not fit. -/
def readState (me : Address) (p : SwapPool) (token : Address) (now : ℕ) : Option PriceState :=
  if p.oracle ≠ me ∨ token = p.stable ∨ (p.tokens token).listed = false then none
  else do
    let maxAge ← toI64 p.maxPriceAge.toNat
    let minInterval ← toI64 p.minPriceUpdateInterval.toNat
    let price ← toU128 (p.tokens token).price
    let priceSetAt ← toI64 (p.priceSetAt token)
    let lastPriceUpdate ← toI64 (p.lastPriceUpdate token)
    return {
      now := Int64.ofNat now
      price
      priceSetAt
      lastPriceUpdate
      -- zero turns the guard of the pool off
      maxAge := if maxAge > 0 then some maxAge else none
      minUpdateInterval := minInterval
      maxDeviationBps := p.maxPriceDeviationBps
      feeBps := p.feeBps }

/-- **A pool that can be read**: the keeper is its oracle, the token is one to be priced, and what
is not a time fits. -/
structure Readable (me : Address) (p : SwapPool) (token : Address) : Prop where
  oracle : p.oracle = me
  ne_stable : token ≠ p.stable
  listed : (p.tokens token).listed = true
  price : (p.tokens token).price.toNat < 2 ^ 128
  maxAge : p.maxPriceAge.toNat < 2 ^ 63
  minInterval : p.minPriceUpdateInterval.toNat < 2 ^ 63

theorem toI64_eq_some {v : ℕ} {i : Int64} : toI64 v = some i ↔ v < 2 ^ 63 ∧ i = Int64.ofNat v := by
  rw [toI64, Option.ite_none_right_eq_some, Option.some.injEq, eq_comm (a := i)]
  norm_num

theorem toU128_eq_some {v : U256} {u : U128} :
    toU128 v = some u ↔ v.toNat < 2 ^ 128 ∧ u = v.setWidth 128 := by
  rw [toU128, Option.ite_none_right_eq_some, Option.some.injEq, eq_comm (a := u)]
  norm_num

theorem toInt_ofNat {v : ℕ} (h : v < 2 ^ 63) : (Int64.ofNat v).toInt = v :=
  Int64.toInt_ofNat_of_lt h

/-- What was read, could be. -/
theorem readable_of_readState {me token : Address} {p : SwapPool} {now : ℕ} {s : PriceState}
    (h : readState me p token now = some s) : Readable me p token := by
  simp only [readState, Option.ite_none_left_eq_some, Option.bind_eq_bind, Option.bind_eq_some_iff,
    toI64_eq_some, toU128_eq_some, not_or, not_not, Bool.not_eq_false] at h
  obtain ⟨⟨horacle, hstable, hlisted⟩, maxAge, ⟨hage, -⟩, interval, ⟨hinterval, -⟩, price,
    ⟨hprice, -⟩, -⟩ := h
  exact ⟨horacle, hstable, hlisted, hprice, hage, hinterval⟩

/-- **What can be read is read**, and is what the pool has. -/
theorem reads_of_readable {me token : Address} {p : SwapPool} {now : ℕ}
    (h : Readable me p token) (hdated : (p.record token).Dated now) (hnow : now < 2 ^ 63) :
    ∃ s, readState me p token now = some s ∧ Reads p token now s := by
  have hset : p.priceSetAt token < 2 ^ 63 := hdated.setBefore.trans_lt hnow
  have hlast : p.lastPriceUpdate token < 2 ^ 63 := hdated.updated.trans_lt hset
  have hage : (Int64.ofNat p.maxPriceAge.toNat).toInt = p.maxPriceAge.toNat := toInt_ofNat h.maxAge
  refine ⟨⟨Int64.ofNat now, (p.tokens token).price.setWidth 128, Int64.ofNat (p.priceSetAt token),
    Int64.ofNat (p.lastPriceUpdate token),
    if Int64.ofNat p.maxPriceAge.toNat > 0 then some (Int64.ofNat p.maxPriceAge.toNat) else none,
    Int64.ofNat p.minPriceUpdateInterval.toNat, p.maxPriceDeviationBps, p.feeBps⟩, ?_, ?_⟩
  · rw [readState, if_neg (by simp [h.oracle, h.ne_stable, h.listed]),
      toI64_eq_some.mpr ⟨h.maxAge, rfl⟩, toI64_eq_some.mpr ⟨h.minInterval, rfl⟩,
      toU128_eq_some.mpr ⟨h.price, rfl⟩, toI64_eq_some.mpr ⟨hset, rfl⟩,
      toI64_eq_some.mpr ⟨hlast, rfl⟩]
    rfl
  · refine ⟨toInt_ofNat hnow, ?_, toInt_ofNat hset, toInt_ofNat hlast, ?_,
      toInt_ofNat h.minInterval, rfl, rfl⟩
    · rw [BitVec.toNat_setWidth, Nat.mod_eq_of_lt h.price]
    · have hzero : (0 : Int64).toInt = 0 := rfl
      by_cases hoff : p.maxPriceAge = 0
      · rw [if_pos hoff, if_neg, Option.map_none]
        rw [gt_iff_lt, Int64.lt_iff_toInt_lt, hage, hoff]
        decide
      · have hpos : 0 < p.maxPriceAge.toNat :=
          Nat.pos_of_ne_zero fun hz => hoff (BitVec.eq_of_toNat_eq hz)
        rw [if_neg hoff, if_pos, Option.map_some, hage]
        rw [gt_iff_lt, Int64.lt_iff_toInt_lt, hage, hzero]
        omega

/-! ### What is left when nothing is sent -/

/-- With nothing to do the price is not due. -/
theorem refreshDue_of_idle {s : PriceState} {target : U128} {margin : Int64}
    (h : plan s target margin = .idle) : s.refreshDue margin = false := by
  simp only [plan] at h
  split at h
  · next hidle => exact hidle.2
  · split at h
    · cases h
    · split at h
      · next hidle => exact hidle.2
      · cases h

/-- With something to wait for a cooldown runs. -/
theorem cooldown_of_wait {s : PriceState} {target : U128} {margin ends : Int64}
    (h : plan s target margin = .wait ends) : s.now.toInt <
      s.lastPriceUpdate.toInt + s.minUpdateInterval.toInt := by
  have hcooldown : s.cooldown = some ends := by
    simp only [plan] at h
    split at h
    · cases h
    · split at h
      · next hsome =>
        rw [hsome, Plan.wait.inj h]
      · split at h <;> cases h
  simp only [PriceState.cooldown] at hcooldown
  split at hcooldown
  · split at hcooldown
    · next hlt =>
      rw [Int64.lt_iff_toInt_lt, toInt_saturatingAdd] at hlt
      have hbound := toInt_bounds s.now
      omega
    · cases hcooldown
  · cases hcooldown

/-- **A price that is not due has the margin left.** -/
theorem slack_of_not_due {s : PriceState} {margin maxAge : Int64} (hage : s.maxAge = some maxAge)
    (hset : s.priceSetAt.toInt ≤ s.now.toInt) (hzero : 0 ≤ s.priceSetAt.toInt)
    (h : s.refreshDue margin = false) :
    s.now.toInt + margin.toInt < s.priceSetAt.toInt + maxAge.toInt := by
  have hdue := (refreshDue_iff hage).not.mp (by rw [h]; exact Bool.false_ne_true)
  have hbound := toInt_bounds s.now
  have hboundAge := toInt_bounds maxAge
  have hzero' : (0 : Int64).toInt = 0 := rfl
  rw [toInt_secondsMax, toInt_saturatingSub, toInt_saturatingSub, hzero'] at hdue
  omega

/-- **The schedule that is logged is the one that is followed**: a price is due in no time exactly
if it is due. -/
theorem dueIn_eq_zero {s : PriceState} {margin : Int64}
    (hnow : -4611686018427387904 < s.now.toInt ∧ s.now.toInt < 4611686018427387904)
    (hset : -4611686018427387904 < s.priceSetAt.toInt ∧
      s.priceSetAt.toInt < 4611686018427387904) :
    dueIn s margin = some 0 ↔ s.refreshDue margin = true := by
  have hzero : (0 : Int64).toInt = 0 := rfl
  rcases hage : s.maxAge with _ | maxAge
  · rw [dueIn, PriceState.refreshDue, hage]
    simp
  · have hdueIn : dueIn s margin = some (secondsMax (saturatingSub (saturatingAdd s.priceSetAt
        (secondsMax (saturatingSub maxAge margin) 0)) s.now) 0) := by
      rw [dueIn, hage]
      rfl
    rw [hdueIn, refreshDue_iff hage, Option.some.injEq, ← Int64.toInt_inj]
    simp only [toInt_secondsMax, toInt_saturatingSub, toInt_saturatingAdd, hzero]
    omega

/-! ### The keeper and its pool -/

/-- A keeper of the price of a token, and how late it can be. -/
structure Keeper where
  me : Address
  token : Address
  margin : Int64
  /-- The next poll comes this many seconds after one at most. -/
  pollWithin : ℕ
  /-- What a poll planned is executed this many seconds after it at most. -/
  landWithin : ℕ

/-- A call that was planned. -/
structure Sent where
  source : U128
  price : U128
  landBy : ℕ

/-- A keeper and its pool. -/
structure Watch (σ : Type) where
  world : World σ
  pollBy : ℕ
  sent : Option Sent

/-- What can happen next. -/
inductive Move (σ : Type)
  | wait (now : ℕ)
  | poll (target : U128)
  /-- What was planned is executed. -/
  | land (c : Call)
  /-- Somebody else does something at the pool, or with tokens. -/
  | others (l : SwapPool.Label σ)

/-- What came out of a step. -/
inductive Outcome
  | quiet
  | planned
  | landed
  | refused (e : SwapPool.Error)

/-- Was a planned call refused? -/
def Outcome.isRefused : Outcome → Bool
  | .refused _ => true
  | _ => false

/-- Does the call change who sets prices, or when? -/
def retimes : PoolCall → Bool
  | .setOracle _ => true
  | .setMinPriceUpdateInterval _ => true
  | .setMaxPriceAge _ => true
  | _ => false

/-- Does the call change how far a price may move? -/
def reshapes : PoolCall → Bool
  | .setFee _ => true
  | .setMaxPriceDeviation _ => true
  | _ => false

/-- **What others leave alone**: the price, who sets it and when, and while a call is under way also
how far it may move. -/
def spares {σ : Type} (token : Address) (sent : Option Sent) : SwapPool.Label σ → Bool
  | .call _ x => !x.prices token && !retimes x && (sent.isNone || !reshapes x)
  | .tokens _ => true

/-- **No poll and no landing is late.** -/
def onTime (pollBy : ℕ) (sent : Option Sent) (now : ℕ) : Bool :=
  decide (now ≤ pollBy) && sent.all fun s => decide (now ≤ s.landBy)

variable {σ : Type} (E : Erc20 σ) (here : Address) (k : Keeper)

/-- A poll, at some time, when nothing is under way. -/
def poll (w : Watch σ) (target : U128) : Watch σ × Outcome :=
  let now := w.world.now
  match readState k.me w.world.pool k.token now with
  | none => ({ w with pollBy := now + k.pollWithin }, .quiet)
  | some s =>
    match plan s target k.margin with
    | .set source price _ =>
      ({ w with pollBy := now + k.pollWithin, sent := some ⟨source, price, now + k.landWithin⟩ },
        .planned)
    | _ => ({ w with pollBy := now + k.pollWithin }, .quiet)

/-- The planned call is executed. -/
def land (c : Call) (w : Watch σ) (s : Sent) : Watch σ × Outcome :=
  match setPrice c w.world.pool k.token (s.source.setWidth 256) (s.price.setWidth 256) with
  | .ok r => ({ w with world := ⟨r.1, w.world.tokens, c.timestamp⟩, sent := none }, .landed)
  | .error e => ({ w with world := { w.world with now := c.timestamp }, sent := none }, .refused e)

/-- **One step.** The clock never goes back, and nothing is late. -/
def exec (w : Watch σ) : Move σ → Option (Watch σ × Outcome)
  | .wait now =>
    if w.world.now ≤ now ∧ onTime w.pollBy w.sent now = true then
      some ({ w with world := { w.world with now } }, .quiet)
    else none
  | .poll target => if w.sent.isNone = true then some (poll k w target) else none
  | .land c =>
    match w.sent with
    | none => none
    | some s =>
      if c.sender = k.me ∧ w.world.now ≤ c.timestamp ∧
          onTime w.pollBy w.sent c.timestamp = true then
        some (land k c w s)
      else none
  | .others l =>
    if spares k.token w.sent l = true then
      match SwapPool.exec E here w.world l with
      | some (world, _) =>
        if onTime w.pollBy w.sent world.now = true then some ({ w with world }, .quiet) else none
      | none => none
    else none

/-- **The price is not stale**: the guard of the pool lets it through. -/
def Fresh (k : Keeper) (w : Watch σ) : Prop :=
  ∀ c : Call, c.timestamp = w.world.now →
    requireFreshPrice c w.world.pool k.token = .ok ()

theorem fresh_of_le {k : Keeper} {w : Watch σ}
    (hset : w.world.pool.priceSetAt k.token ≤ w.world.now)
    (hage : w.world.pool.maxPriceAge ≠ 0 →
      w.world.now ≤ w.world.pool.priceSetAt k.token + w.world.pool.maxPriceAge.toNat) :
    Fresh k w := by
  intro c hc
  rw [requireFreshPrice]
  split
  · rfl
  · next hguard =>
    have hle := hage (not_or.mp hguard).1
    rw [revertIf_bind_eq_ok, revertIf_eq_ok, hc]
    exact ⟨not_lt.mpr hset, by omega⟩

/-! ### What every step keeps -/

/-- The rules of a lawful pool are within their bounds. -/
theorem ruled_of_lawful {p : SwapPool} {now : ℕ} (h : Lawful p now) : Ruled p :=
  ⟨h.fee, h.deviation, fun token => (h.dated token).price⟩

/-- **A call under way that will go through**: it was planned from the price there still is, and
lands before that is stale. -/
structure Landing (k : Keeper) (w : Watch σ) (s : Sent) : Prop where
  lands : w.world.pool.maxPriceAge ≠ 0 →
    s.landBy ≤ w.world.pool.priceSetAt k.token + w.world.pool.maxPriceAge.toNat
  polls : w.pollBy ≤ w.world.now + k.pollWithin
  accepted : ∀ c : Call, c.sender = k.me → w.world.now ≤ c.timestamp →
    ∀ p', Unmoved k.token w.world.pool p' → p'.oracle = k.me →
      setPrice c p' k.token (s.source.setWidth 256) (s.price.setWidth 256) =
        .ok (repriced c p' k.token (s.price.setWidth 256),
          [.priceSet k.token (p'.tokens k.token).price (s.price.setWidth 256)])

/-- **What every step keeps.** -/
structure Keeps (k : Keeper) (w : Watch σ) : Prop where
  lawful : Lawful w.world.pool w.world.now
  readable : Readable k.me w.world.pool k.token
  margin : (k.pollWithin : ℤ) + k.landWithin ≤ k.margin.toInt
  room : w.world.pool.minPriceUpdateInterval.toNat + k.pollWithin + k.landWithin ≤
    w.world.pool.maxPriceAge.toNat
  onTime : onTime w.pollBy w.sent w.world.now = true
  idle : w.sent = none → w.world.pool.maxPriceAge ≠ 0 →
    w.pollBy + k.landWithin ≤ w.world.pool.priceSetAt k.token + w.world.pool.maxPriceAge.toNat
  landing : ∀ s, w.sent = some s → Landing k w s

theorem onTime_iff {pollBy now : ℕ} {sent : Option Sent} : Refresh.onTime pollBy sent now = true ↔
    now ≤ pollBy ∧ ∀ s, sent = some s → now ≤ s.landBy := by
  rw [Refresh.onTime, Bool.and_eq_true, decide_eq_true_eq]
  refine and_congr_right fun _ => ?_
  cases sent with
  | none => simp
  | some s => simp

/-- **Whatever holds at every step keeps the price fresh.** -/
theorem Keeps.fresh {w : Watch σ} (h : Keeps k w) : Fresh k w := by
  refine fresh_of_le (h.lawful.dated k.token).setBefore fun hage => ?_
  obtain ⟨hpoll, hland⟩ := onTime_iff.mp h.onTime
  rcases hsent : w.sent with _ | s
  · exact (hpoll.trans (Nat.le_add_right _ _)).trans (h.idle hsent hage)
  · exact (hland s hsent).trans ((h.landing s hsent).lands hage)

/-- **Time may pass** until something is due. -/
theorem Keeps.later {w : Watch σ} (h : Keeps k w) {now : ℕ} (hnow : w.world.now ≤ now)
    (hon : Refresh.onTime w.pollBy w.sent now = true) :
    Keeps k { w with world := { w.world with now } } := by
  refine ⟨⟨h.lawful.fee, h.lawful.deviation, fun token => (h.lawful.dated token).later hnow⟩,
    h.readable, h.margin, h.room, hon, h.idle, fun s hs => ?_⟩
  have hlanding := h.landing s hs
  exact ⟨hlanding.lands, hlanding.polls.trans (Nat.add_le_add_right hnow _),
    fun c hc hle => hlanding.accepted c hc (hnow.trans hle)⟩

/-- **After a poll that sends nothing the price has a poll and a landing left.** -/
theorem slack_of_quiet {p : SwapPool} {token : Address} {now : ℕ} {s : PriceState}
    {target : U128} {margin : Int64} {d l : ℕ} (hreads : Reads p token now s)
    (hdated : (p.record token).Dated now) (hmargin : (d : ℤ) + l ≤ margin.toInt)
    (hroom : p.minPriceUpdateInterval.toNat + d + l ≤ p.maxPriceAge.toNat)
    (hage : p.maxPriceAge ≠ 0)
    (h : plan s target margin = .idle ∨ ∃ ends, plan s target margin = .wait ends) :
    now + d + l ≤ p.priceSetAt token + p.maxPriceAge.toNat := by
  have hnow := hreads.now
  have hset := hreads.priceSetAt
  have hlast := hreads.lastPriceUpdate
  have hinterval := hreads.minUpdateInterval
  have hupdated : p.lastPriceUpdate token ≤ p.priceSetAt token := hdated.updated
  have hbefore : p.priceSetAt token ≤ now := hdated.setBefore
  rcases h with hidle | ⟨ends, hwait⟩
  · -- not due: what is left is more than the margin
    have hread := hreads.maxAge
    rw [if_neg hage] at hread
    obtain ⟨maxAge, hmax, hmaxAge⟩ := Option.map_eq_some_iff.mp hread
    have hslack := slack_of_not_due hmax (by omega) (by omega) (refreshDue_of_idle hidle)
    omega
  · -- the cooldown runs: the price was moved within the interval
    have hruns := cooldown_of_wait hwait
    omega

/-- A poll takes no time. -/
theorem now_of_poll {w w' : Watch σ} {target : U128} {o : Outcome}
    (h : Refresh.poll k w target = (w', o)) : w'.world.now = w.world.now := by
  rw [Refresh.poll] at h
  split at h
  · rw [← (Prod.mk.inj h).1]
  · split at h <;> rw [← (Prod.mk.inj h).1]

/-- **A poll keeps it all.** -/
theorem Keeps.poll {w w' : Watch σ} {target : U128} {o : Outcome} (h : Keeps k w)
    (hnone : w.sent = none) (hend : w.world.now < 9223372036854775807)
    (hp : Refresh.poll k w target = (w', o)) : Keeps k w' ∧ ∀ e, o ≠ .refused e := by
  have hdated := h.lawful.dated k.token
  obtain ⟨st, hread, hreads⟩ := reads_of_readable h.readable hdated (by omega)
  obtain ⟨hon, -⟩ := onTime_iff.mp h.onTime
  have hquiet : plan st target k.margin = .idle ∨
      (∃ ends, plan st target k.margin = .wait ends) →
      Keeps k { w with pollBy := w.world.now + k.pollWithin } := by
    intro hq
    refine ⟨h.lawful, h.readable, h.margin, h.room, ?_, ?_, fun s hs => ?_⟩
    · exact onTime_iff.mpr ⟨Nat.le_add_right _ _,
        fun s hs => absurd (hnone.symm.trans hs) (by simp)⟩
    · exact fun _ hage => slack_of_quiet hreads hdated h.margin h.room hage hq
    · exact absurd (hnone.symm.trans hs) (by simp)
  simp only [Refresh.poll, hread] at hp
  split at hp
  · next source price step hplan =>
    obtain ⟨rfl, rfl⟩ := Prod.mk.inj hp
    refine ⟨⟨h.lawful, h.readable, h.margin, h.room, ?_, ?_, ?_⟩, fun e => by simp⟩
    · refine onTime_iff.mpr ⟨Nat.le_add_right _ _, fun s hs => ?_⟩
      obtain rfl := Option.some.inj hs
      exact Nat.le_add_right _ _
    · exact fun hs => absurd hs (by simp)
    · rintro s hs
      obtain rfl := Option.some.inj hs
      refine ⟨fun hage => ?_, le_rfl, fun c hc hle p' hsame horacle => ?_⟩
      · exact (Nat.add_le_add_right hon _).trans (h.idle hnone hage)
      · refine accepted_of_plan (ruled_of_lawful h.lawful) h.readable.listed h.readable.ne_stable
          hreads (fun hlast => ?_) hplan hsame (hc.trans horacle.symm) hle
        have hover := cooldown_eq_none.mp (planned_of_plan hplan).ready hlast
        rw [toInt_saturatingAdd, hreads.now] at hover
        omega
  · next hplan =>
    obtain ⟨rfl, rfl⟩ := Prod.mk.inj hp
    refine ⟨hquiet ?_, fun e => by simp⟩
    rcases hplan' : plan st target k.margin with _ | ends | ⟨source, price, step⟩
    · exact .inl rfl
    · exact .inr ⟨ends, rfl⟩
    · exact absurd hplan' (hplan source price step)

/-- **A landing keeps it all**, and goes through. -/
theorem Keeps.land {w w' : Watch σ} {c : Call} {o : Outcome} (h : Keeps k w)
    (he : exec E here k w (.land c) = some (w', o)) : Keeps k w' ∧ ∀ e, o ≠ .refused e := by
  simp only [exec] at he
  split at he
  · cases he
  rename_i s hs
  simp only [Option.ite_none_right_eq_some, Option.some.injEq] at he
  obtain ⟨⟨hsender, hnow, hon⟩, hl⟩ := he
  have hlanding := h.landing s hs
  have hok := hlanding.accepted c hsender hnow _ (.refl _ _) h.readable.oracle
  simp only [Refresh.land, hok, Prod.mk.injEq] at hl
  obtain ⟨rfl, rfl⟩ := hl
  have hwide : (s.price.setWidth 256).toNat = s.price.toNat :=
    BitVec.toNat_setWidth_of_le (by omega)
  have hlawful : Lawful (repriced c w.world.pool k.token (s.price.setWidth 256)) c.timestamp := by
    have hcall : SwapPool.call E here c w.world.pool w.world.tokens
        (.setPrice k.token (s.source.setWidth 256) (s.price.setWidth 256)) =
        .ok (keepTokens w.world.tokens (repriced c w.world.pool k.token (s.price.setWidth 256),
          [.priceSet k.token (w.world.pool.tokens k.token).price (s.price.setWidth 256)])) := by
      rw [SwapPool.call, hok]
      rfl
    exact h.lawful.call hnow hcall
  have hset : (repriced c w.world.pool k.token (s.price.setWidth 256)).priceSetAt k.token =
      c.timestamp := Function.update_self ..
  have htoken : (repriced c w.world.pool k.token (s.price.setWidth 256)).tokens k.token =
      { w.world.pool.tokens k.token with price := s.price.setWidth 256 } := Function.update_self ..
  refine ⟨⟨hlawful, ⟨h.readable.oracle, h.readable.ne_stable, ?_, ?_, h.readable.maxAge,
    h.readable.minInterval⟩, h.margin, h.room, ?_, ?_, fun s hs => absurd hs (by simp)⟩,
    fun e => by simp⟩
  · dsimp only
    rw [htoken]
    exact h.readable.listed
  · dsimp only
    rw [htoken, hwide]
    exact s.price.isLt
  · exact onTime_iff.mpr ⟨(onTime_iff.mp hon).1, fun s hs => absurd hs (by simp)⟩
  · intro _ _
    have hpolls := hlanding.polls
    have hroom := h.room
    dsimp only
    rw [hset]
    simp only [repriced, setToken]
    omega

/-- **What others spare**: the price and who sets it when, and with a call under way also how far
it may move. -/
structure Spared (token : Address) (sent : Option Sent) (p p' : SwapPool) : Prop where
  record : p'.record token = p.record token
  stable : p'.stable = p.stable
  oracle : p'.oracle = p.oracle
  minPriceUpdateInterval : p'.minPriceUpdateInterval = p.minPriceUpdateInterval
  maxPriceAge : p'.maxPriceAge = p.maxPriceAge
  shape : sent ≠ none →
    p'.feeBps = p.feeBps ∧ p'.maxPriceDeviationBps = p.maxPriceDeviationBps

theorem spared_of_exec {w w' : World σ} {l : SwapPool.Label σ} {log : List Event} {token : Address}
    {sent : Option Sent} (hspares : spares token sent l = true)
    (h : SwapPool.exec E here w l = some (w', log)) :
    w.now ≤ w'.now ∧ Spared token sent w.pool w'.pool := by
  cases l with
  | tokens s =>
    simp only [SwapPool.exec, Option.some.injEq, Prod.mk.injEq] at h
    rw [← h.1]
    exact ⟨le_rfl, rfl, rfl, rfl, rfl, rfl, fun _ => ⟨rfl, rfl⟩⟩
  | call c x =>
    obtain ⟨hnow, r, hr, rfl, -⟩ := exec_call h
    simp only [spares, Bool.and_eq_true, Bool.not_eq_true', Bool.or_eq_true,
      Option.isNone_iff_eq_none] at hspares
    obtain ⟨⟨hprices, hretimes⟩, hshape⟩ := hspares
    have hrules := rules_of_call hr
    have hkept : (x.rewrite w.pool.rules).stable = w.pool.rules.stable ∧
        (x.rewrite w.pool.rules).oracle = w.pool.rules.oracle ∧
        (x.rewrite w.pool.rules).minPriceUpdateInterval = w.pool.rules.minPriceUpdateInterval ∧
        (x.rewrite w.pool.rules).maxPriceAge = w.pool.rules.maxPriceAge ∧
        (reshapes x = false → (x.rewrite w.pool.rules).feeBps = w.pool.rules.feeBps ∧
          (x.rewrite w.pool.rules).maxPriceDeviationBps = w.pool.rules.maxPriceDeviationBps) := by
      cases x <;> simp_all [PoolCall.rewrite, retimes, reshapes]
    rw [← hrules] at hkept
    obtain ⟨hstable, horacle, hinterval, hage, hfees⟩ := hkept
    exact ⟨hnow, record_of_call hprices hr, hstable, horacle, hinterval, hage,
      fun hsent => hfees (hshape.resolve_left hsent)⟩

/-- **What others do keeps it all.** -/
theorem Keeps.others {w : Watch σ} {l : SwapPool.Label σ} {world : World σ} {log : List Event}
    (h : Keeps k w) (hspares : spares k.token w.sent l = true)
    (he : SwapPool.exec E here w.world l = some (world, log))
    (hon : Refresh.onTime w.pollBy w.sent world.now = true) : Keeps k { w with world } := by
  obtain ⟨hnow, hspared⟩ := spared_of_exec E here hspares he
  have hset : world.pool.priceSetAt k.token = w.world.pool.priceSetAt k.token :=
    congrArg PriceRecord.priceSetAt hspared.record
  have hprice : (world.pool.tokens k.token).price = (w.world.pool.tokens k.token).price :=
    congrArg PriceRecord.price hspared.record
  have hlisted : (world.pool.tokens k.token).listed = (w.world.pool.tokens k.token).listed :=
    congrArg PriceRecord.listed hspared.record
  have hlast : world.pool.lastPriceUpdate k.token = w.world.pool.lastPriceUpdate k.token :=
    congrArg PriceRecord.lastPriceUpdate hspared.record
  refine ⟨h.lawful.step he, ⟨hspared.oracle.trans h.readable.oracle,
    hspared.stable ▸ h.readable.ne_stable, hlisted.trans h.readable.listed,
    hprice ▸ h.readable.price, hspared.maxPriceAge ▸ h.readable.maxAge,
    hspared.minPriceUpdateInterval ▸ h.readable.minInterval⟩, h.margin, ?_, hon, ?_, ?_⟩
  · dsimp only
    rw [hspared.minPriceUpdateInterval, hspared.maxPriceAge]
    exact h.room
  · dsimp only
    rw [hspared.maxPriceAge, hset]
    exact h.idle
  · rintro s hs
    have hlanding := h.landing s hs
    obtain ⟨hfee, hdeviation⟩ := hspared.shape (by rw [hs]; simp)
    refine ⟨?_, hlanding.polls.trans (Nat.add_le_add_right hnow _), fun c hc hle p' hsame horacle =>
      hlanding.accepted c hc (hnow.trans hle) p' ⟨hsame.listed.trans hlisted,
        hsame.price.trans hprice, hsame.lastPriceUpdate.trans hlast,
        hsame.stable.trans hspared.stable,
        hsame.minPriceUpdateInterval.trans hspared.minPriceUpdateInterval,
        hsame.maxPriceDeviationBps.trans hdeviation, hsame.feeBps.trans hfee⟩ horacle⟩
    dsimp only
    rw [hspared.maxPriceAge, hset]
    exact hlanding.lands

/-- **One step keeps it all**, and refuses nothing. -/
theorem Keeps.step {w w' : Watch σ} {a : Move σ} {o : Outcome} (h : Keeps k w)
    (hend : w.world.now < 9223372036854775807) (he : exec E here k w a = some (w', o)) :
    Keeps k w' ∧ ∀ e, o ≠ .refused e := by
  cases a with
  | wait now =>
    simp only [exec, Option.ite_none_right_eq_some, Option.some.injEq, Prod.mk.injEq] at he
    obtain ⟨⟨hnow, hon⟩, rfl, rfl⟩ := he
    exact ⟨h.later k hnow hon, fun e => by simp⟩
  | poll target =>
    simp only [exec, Option.ite_none_right_eq_some, Option.some.injEq] at he
    exact h.poll k (Option.isNone_iff_eq_none.mp he.1) hend he.2
  | land c => exact h.land E here k he
  | others l =>
    simp only [exec, Option.ite_none_right_eq_some] at he
    obtain ⟨hspares, he⟩ := he
    split at he
    · next world log hl =>
      simp only [Option.ite_none_right_eq_some, Option.some.injEq, Prod.mk.injEq] at he
      obtain ⟨hon, rfl, rfl⟩ := he
      exact ⟨h.others E here k hspares hl hon, fun e => by simp⟩
    · cases he

/-- The clock never goes back. -/
theorem now_le_of_exec {w w' : Watch σ} {a : Move σ} {o : Outcome}
    (he : exec E here k w a = some (w', o)) : w.world.now ≤ w'.world.now := by
  cases a with
  | wait now =>
    simp only [exec, Option.ite_none_right_eq_some, Option.some.injEq, Prod.mk.injEq] at he
    obtain ⟨⟨hnow, -⟩, rfl, -⟩ := he
    exact hnow
  | poll target =>
    simp only [exec, Option.ite_none_right_eq_some, Option.some.injEq] at he
    exact le_of_eq (now_of_poll k he.2).symm
  | land c =>
    simp only [exec] at he
    split at he
    · cases he
    simp only [Option.ite_none_right_eq_some, Option.some.injEq, Refresh.land] at he
    obtain ⟨⟨-, hnow, -⟩, hl⟩ := he
    split at hl <;> rw [← (Prod.mk.inj hl).1] <;> exact hnow
  | others l =>
    simp only [exec, Option.ite_none_right_eq_some] at he
    obtain ⟨hspares, he⟩ := he
    split at he
    · next world log hl =>
      simp only [Option.ite_none_right_eq_some, Option.some.injEq, Prod.mk.injEq] at he
      rw [← he.2.1]
      exact (spared_of_exec E here hspares hl).1
    · cases he

/-- **A keeper that starts**: it reads a lawful pool, sent nothing yet, is not late for its first
poll, and its spans leave room for each other. -/
structure Starts (k : Keeper) (w : Watch σ) : Prop where
  lawful : Lawful w.world.pool w.world.now
  reads : (readState k.me w.world.pool k.token w.world.now).isSome = true
  sent : w.sent = none
  pollBy : w.world.now ≤ w.pollBy ∧ w.pollBy ≤ w.world.now + k.pollWithin
  margin : (k.pollWithin : ℤ) + k.landWithin ≤ k.margin.toInt
  room : w.world.pool.minPriceUpdateInterval.toNat + k.pollWithin + k.landWithin ≤
    w.world.pool.maxPriceAge.toNat

/-- **The price still has time for what the first poll plans.** -/
def Lasts (k : Keeper) (w : Watch σ) : Prop :=
  w.world.pool.maxPriceAge ≠ 0 →
    w.pollBy + k.landWithin ≤ w.world.pool.priceSetAt k.token + w.world.pool.maxPriceAge.toNat

/-- A keeper that starts on a price that lasts keeps it all. -/
theorem Starts.keeps {w : Watch σ} (h : Starts k w) (hlasts : Lasts k w) : Keeps k w := by
  obtain ⟨st, hread⟩ := Option.isSome_iff_exists.mp h.reads
  refine ⟨h.lawful, readable_of_readState hread, h.margin, h.room, ?_, fun _ => hlasts, ?_⟩
  · exact onTime_iff.mpr ⟨h.pollBy.1, fun s hs => absurd (h.sent.symm.trans hs) (by simp)⟩
  · exact fun s hs => absurd (h.sent.symm.trans hs) (by simp)

/-- A step of a run. -/
abbrev Tick (σ : Type) := Entry (Watch σ) (Move σ) Outcome

/-- **A run keeps it all**, and refuses nothing. -/
theorem keeps_of_run {w₀ w : Watch σ} {tr : List (Tick σ)} (h₀ : Keeps k w₀)
    (hrun : Run (exec E here k) w₀ tr w) : w.world.now < 9223372036854775807 →
      Keeps k w ∧ ∀ e ∈ tr, ∀ err, e.out ≠ .refused err := by
  induction hrun with
  | nil => exact fun _ => ⟨h₀, fun e he => absurd he (by simp)⟩
  | @snoc tr w w' a o hr he ih =>
    intro hend
    have hbefore := (now_le_of_exec E here k he).trans_lt hend
    obtain ⟨h, hout⟩ := ih hbefore
    obtain ⟨h', ho⟩ := h.step E here k hbefore he
    refine ⟨h', fun e hmem => ?_⟩
    rcases List.mem_append.mp hmem with hmem | hmem
    · exact hout e hmem
    · rw [List.mem_singleton.mp hmem]
      exact ho

/-- **A keeper that polls and lands in time keeps the price fresh**, whatever its targets: if the
price lasts until the first plan lands, it is never stale, and nothing that was planned is refused,
up to the last second that an `i64` can hold. The time it logs until a price is due is zero exactly
if the plan calls it due. -/
theorem keeps_fresh {w₀ w : Watch σ} {tr : List (Tick σ)} (hstarts : Starts k w₀)
    (hlasts : Lasts k w₀) (hend : w.world.now < 9223372036854775807)
    (hrun : Run (exec E here k) w₀ tr w) :
    (Fresh k w ∧ ∀ e ∈ tr, ∀ err, e.out ≠ .refused err) ∧
      ∀ (s : PriceState) (margin : Int64),
        (-4611686018427387904 < s.now.toInt ∧ s.now.toInt < 4611686018427387904) →
        (-4611686018427387904 < s.priceSetAt.toInt ∧ s.priceSetAt.toInt < 4611686018427387904) →
        (dueIn s margin = some 0 ↔ s.refreshDue margin = true) := by
  obtain ⟨h, hout⟩ := keeps_of_run E here k (hstarts.keeps k hlasts) hrun hend
  exact ⟨⟨h.fresh, hout⟩, fun s margin hnow hset => dueIn_eq_zero hnow hset⟩

/-! ### Two runs -/

/-- A keeper that polls every second, with its calls a second under way. -/
def everySecond : Keeper := ⟨0x0c, 0xaa, 2, 1, 1⟩

/-- The pool of `samplePool` at some second, with the next poll a second later. -/
def sampleWatch (interval maxAge : U256) (setAt now : ℕ) : Watch Ledger where
  world := ⟨{ samplePool interval with
    maxPriceAge := maxAge
    lastPriceUpdate := fun _ => setAt
    priceSetAt := fun _ => setAt }, ⟨fun _ _ => 0, fun _ _ _ => 0, fun _ => none⟩, now⟩
  pollBy := now + 1
  sent := none

theorem starts_sampleWatch {interval maxAge : U256} {setAt now : ℕ} (hset : setAt ≤ now)
    (hread : (readState 0x0c (sampleWatch interval maxAge setAt now).world.pool 0xaa now).isSome =
      true)
    (hroom : interval.toNat + 1 + 1 ≤ maxAge.toNat) :
    Starts everySecond (sampleWatch interval maxAge setAt now) := by
  have hruled := ruled_samplePool interval
  refine ⟨⟨hruled.fee, hruled.deviation, fun token => ⟨hruled.price token, le_rfl, hset⟩⟩, hread,
    rfl, ⟨Nat.le_succ _, le_rfl⟩, by decide, hroom⟩

/-- A poll a day later: the price is walked one step, and lands a second after. -/
def stepped : List (Tick Ledger) × Watch Ledger :=
  traceOf (exec Ledger.tokens 0xf2 everySecond) (sampleWatch 3600 86400 1 86000)
    [.poll 1250, .land (callAt 0x0c 86001)]

theorem keeps_fresh_stepped :
    (stepped.2.world.pool.tokens 0xaa).price = 1100 ∧ Fresh everySecond stepped.2 := by
  have hrun : Run (exec Ledger.tokens 0xf2 everySecond) (sampleWatch 3600 86400 1 86000) stepped.1
    stepped.2 := run_traceOf (by decide +kernel)
  have hstarts : Starts everySecond (sampleWatch 3600 86400 1 86000) :=
    starts_sampleWatch (by decide) (by decide) (by decide)
  have hfresh := keeps_fresh Ledger.tokens 0xf2 everySecond hstarts
    (fun _ => by decide) (by decide +kernel) hrun
  exact ⟨by decide +kernel, hfresh.1.1⟩

/-- **Before it starts**: a price as old as it may be is stale a second later, before the first poll
can do anything about it. And at the last second there is, a plan is refused. -/
theorem stale_before_it_starts :
    (¬ ∀ (w₀ w : Watch Ledger) (tr : List (Tick Ledger)), Starts everySecond w₀ →
      Fresh everySecond w₀ → w.world.now < 9223372036854775807 →
      Run (exec Ledger.tokens 0xf2 everySecond) w₀ tr w → Fresh everySecond w) ∧
    (¬ ∀ (w₀ w : Watch Ledger) (tr : List (Tick Ledger)), Starts everySecond w₀ →
      Lasts everySecond w₀ → Run (exec Ledger.tokens 0xf2 everySecond) w₀ tr w →
      ∀ e ∈ tr, ∀ err, e.out ≠ .refused err) := by
  constructor
  · intro h
    have hsome : (runFrom (exec Ledger.tokens 0xf2 everySecond) (sampleWatch 3600 86400 1 86401)
        [.wait 86402]).isSome = true := by decide +kernel
    have hrun := run_traceOf hsome
    have hfresh := h _ _ _ (starts_sampleWatch (by decide) (by decide) (by decide))
      (fresh_of_le (by decide) fun _ => by decide) (by decide +kernel) hrun
    have hstale := hfresh (callAt 0 86402) (by decide +kernel)
    rw [requireFreshPrice, if_neg (by decide +kernel), revertIf_bind_eq_ok,
      revertIf_eq_ok] at hstale
    exact hstale.2 (by decide +kernel)
  · intro h
    have hsome : (runFrom (exec Ledger.tokens 0xf2 everySecond) (sampleWatch 4611686018427387904
        4611686018427387906 4611686018427387904 9223372036854775807)
        [.poll 1250, .land (callAt 0x0c 9223372036854775807)]).isSome = true := by decide +kernel
    have hrun := run_traceOf hsome
    have hout := h _ _ _ (starts_sampleWatch (by decide) (by decide) (by decide))
      (fun _ => by decide) hrun
    have hrefused : ((traceOf (exec Ledger.tokens 0xf2 everySecond)
        (sampleWatch 4611686018427387904 4611686018427387906 4611686018427387904
          9223372036854775807)
        [.poll 1250, .land (callAt 0x0c 9223372036854775807)]).1.any
        fun e => e.out.isRefused) = true := by decide +kernel
    obtain ⟨e, hmem, he⟩ := List.any_eq_true.mp hrefused
    rcases hcase : e.out with _ | _ | _ | err
    · rw [hcase] at he; exact absurd he (by decide)
    · rw [hcase] at he; exact absurd he (by decide)
    · rw [hcase] at he; exact absurd he (by decide)
    · exact hout e hmem err hcase

end Refresh

end SelendraBridge
