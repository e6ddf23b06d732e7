import SelendraBridge.Pool.Backing
import SelendraBridge.Pool.Drift
import SelendraBridge.SolanaSwap.Cluster
import SelendraBridge.SolanaSwap.Records

/-!
# A price drifts no faster on either chain

The two pools limit the moves of a price alike, one per interval and each within a cap, though they
compute in numbers of other widths and keep the moment of the last move in other places. While the
owner leaves listings and rules alone a price of either is a value that drifts
(`SelendraBridge.SolanaSwap.drift_limited`):

| | the EVM pool | the Solana pool |
|---|---|---|
| the cap | the lesser of fee and deviation | the deviation |
| the moment of the last move | `lastPriceUpdate`, a word | `last_price_update`, an `i64` |
| no move yet | zero | zero |
| the end of the cooldown | a sum that is checked | a sum that saturates |

So a move at second zero is forgotten by both, and one at the last second that an `i64` can hold is
no obstacle to another (`SelendraBridge.SolanaSwap.drift_at_the_ends`).
-/

namespace SelendraBridge

namespace SolanaSwap

open Revert SwapMath Transition
open Solana (AccountInfo Accounts Deployed)
open Refresh (saturatingAdd)

variable {R : Runtime} {s s' : Accounts} {mint : Pubkey}

variable (R) in
/-- The account of the pool. -/
def poolKey : Pubkey := R.findProgramAddress poolSeeds

variable (R) in
/-- The account of a mint's record. -/
def tokenKey (mint : Pubkey) : Pubkey := R.findProgramAddress (tokenSeeds mint)

variable (R) in
/-- The pool, if there is one. -/
def poolAt (s : Accounts) : Option Pool :=
  if (s (poolKey R)).owner = R.programId then decodePool (s (poolKey R)).data else none

variable (R) in
/-- The record of a mint, if it has one. -/
def tokenAt (mint : Pubkey) (s : Accounts) : Option TokenRec :=
  if (s (tokenKey R mint)).owner = R.programId then decodeToken (s (tokenKey R mint)).data else none

variable (R) in
/-- The price of a mint. -/
def priceAt (mint : Pubkey) (s : Accounts) : ℕ :=
  ((tokenAt R mint s).map fun t => t.price.toNat).getD 0

variable (R) in
/-- When the price of a mint was last moved, if it was. -/
def lastAt (mint : Pubkey) (s : Accounts) : Option ℤ :=
  (tokenAt R mint s).bind fun t =>
    if t.lastPriceUpdate = 0 then none else some t.lastPriceUpdate.toInt

variable (R) in
/-- The move of the price of a mint that an instruction is: when, and where to. -/
def Label.move (mint : Pubkey) : Label → Option (ℤ × ℕ)
  | .instruction (some now) accounts (.setPriceFrom _ price) =>
    match PriceAccounts.next accounts with
    | .ok x => if x.record.key = tokenKey R mint then some (now.toInt, price.toNat) else none
    | .error _ => none
  | _ => none

variable (R) in
/-- The move that a step is. -/
def moveOf (mint : Pubkey) (e : Step) : Option (ℤ × ℕ) := e.label.move R mint

variable (R) in
/-- The moves of a price in a run. -/
def moves (mint : Pubkey) (tr : List Step) : List (ℤ × ℕ) := tr.filterMap (moveOf R mint)

/-- Does it leave the rules of moves alone? -/
def Label.spares : Label → Bool
  | .instruction _ _ (.setMaxPriceDeviation _) => false
  | .instruction _ _ (.setMinPriceUpdateInterval _) => false
  | _ => true

/-- What a move has to keep to. -/
def Pool.limits (p : Pool) : ℕ × ℤ :=
  (p.maxPriceDeviationBps.toNat, p.minPriceUpdateInterval.toInt)

variable (R) in
/-- **A step that writes no record where the pool is.** -/
def Apart (e : Step) : Prop := ∀ m ∈ mintsOf e.pre e.label, tokenKey R m ≠ poolKey R

/-! ### What a run keeps -/

variable (R) in
/-- **The pool is within its bounds and the mint has a price**, if they are there. -/
structure Sound (mint : Pubkey) (s : Accounts) : Prop where
  pool : (s (poolKey R)).owner = R.programId → ∃ p, poolAt R s = some p ∧ p.Bounded
  token : (s (tokenKey R mint)).owner = R.programId →
    ∃ t, tokenAt R mint s = some t ∧ t.price ≠ 0

theorem poolAt_eq_some {p : Pool} : poolAt R s = some p ↔
    (s (poolKey R)).owner = R.programId ∧ decodePool (s (poolKey R)).data = some p := by
  rw [poolAt, Option.ite_none_right_eq_some]

theorem tokenAt_eq_some {t : TokenRec} : tokenAt R mint s = some t ↔
    (s (tokenKey R mint)).owner = R.programId ∧
      decodeToken (s (tokenKey R mint)).data = some t := by
  rw [tokenAt, Option.ite_none_right_eq_some]

/-- **What a step makes of the pool**: it stays, or a setter has set it. -/
theorem poolAt_of_exec (hR : R.Lawful) {l : Label} {log : List SwappedEvent} {p : Pool}
    (hapart : ∀ m ∈ mintsOf s l, tokenKey R m ≠ poolKey R)
    (h : exec R s l = some (s', log)) (hp : poolAt R s = some p) :
    poolAt R s' = some p ∨ ∃ clock accounts ix, l = .instruction clock accounts ix ∧
      poolAt R s' = some (ix.govern p) ∧ (p.Bounded → (ix.govern p).Bounded) := by
  obtain ⟨howner, hdecode⟩ := poolAt_eq_some.mp hp
  obtain ⟨howner', hleaves⟩ := leaves_of_exec hR h howner
  cases hleaves with
  | same data => exact .inl (poolAt_eq_some.mpr ⟨howner', by rw [data]; exact hdecode⟩)
  | @pool clock accounts ix pool label key old new bounded =>
    obtain rfl : p = pool := Option.some.inj (hdecode.symm.trans old)
    exact .inr ⟨clock, accounts, ix, label, poolAt_eq_some.mpr ⟨howner', new⟩, bounded⟩
  | reserve mem key old new => exact absurd key.symm (hapart _ mem)
  | price label next key spec mem new =>
    have hkey := (loadToken_eq_ok.mp spec.token_load).1.1
    exact absurd (hkey.symm.trans key) (hapart _ mem)

theorem move_eq_some {clock : Clock} {accounts : List AccountInfo} {x : PriceAccounts}
    {now : Int64} {expected price : U128} (hclock : clock = some now)
    (hx : PriceAccounts.next accounts = .ok x) (hkey : x.record.key = tokenKey R mint) :
    Label.move R mint (.instruction clock accounts (.setPriceFrom expected price)) =
      some (now.toInt, price.toNat) := by
  rw [hclock]
  simp only [Label.move, hx, hkey, if_true]

/-- A move is an instruction on the record. -/
theorem exists_of_move {l : Label} {m : ℤ × ℕ} (h : l.move R mint = some m) :
    ∃ clock accounts expected price x,
      l = .instruction clock accounts (.setPriceFrom expected price) ∧
      PriceAccounts.next accounts = .ok x ∧ x.record.key = tokenKey R mint := by
  unfold Label.move at h
  split at h
  · next now accounts expected price =>
    split at h
    · next x hx =>
      split at h
      · next hkey => exact ⟨_, accounts, expected, price, x, rfl, hx, hkey⟩
      · cases h
    · cases h
  · cases h

/-- **What a step makes of a record**: it keeps its price and the moment of its last move, or the
step is a move of it. -/
theorem tokenAt_of_exec (hR : R.Lawful) {l : Label} {log : List SwappedEvent} {t : TokenRec}
    (hkey : tokenKey R mint ≠ poolKey R) (h : exec R s l = some (s', log))
    (ht : tokenAt R mint s = some t) :
    (l.move R mint = none ∧ ∃ reserve, tokenAt R mint s' = some { t with reserve }) ∨
      ∃ clock accounts x pool now expected price,
        l = .instruction clock accounts (.setPriceFrom expected price) ∧
        PriceAccounts.next accounts = .ok x ∧ x.record.key = tokenKey R mint ∧
        SetsPrice R clock s x pool t now expected price s' ∧
        tokenAt R mint s' = some { t with price, lastPriceUpdate := now, priceSetAt := now } := by
  obtain ⟨howner, hdecode⟩ := tokenAt_eq_some.mp ht
  obtain ⟨howner', hleaves⟩ := leaves_of_exec hR h howner
  rcases hmove : l.move R mint with _ | m
  · refine .inl ⟨rfl, ?_⟩
    cases hleaves with
    | same data => exact ⟨t.reserve, tokenAt_eq_some.mpr ⟨howner', by rw [data]; exact hdecode⟩⟩
    | pool label key old new bounded => exact absurd key hkey
    | @reserve m t' reserve mem key old new =>
      obtain rfl : t = t' := Option.some.inj (hdecode.symm.trans old)
      exact ⟨reserve, tokenAt_eq_some.mpr ⟨howner', new⟩⟩
    | price label next key spec mem new =>
      rw [label, move_eq_some spec.clock_eq next key] at hmove
      cases hmove
  · obtain ⟨clock, accounts, expected, price, x, rfl, hx, hrecord⟩ := exists_of_move hmove
    obtain ⟨x', pool, t', now, hx', hspec⟩ :=
      setsPrice_of_processSetPrice (quiet_eq_ok.mp (exec_instruction h)).1
    obtain rfl : x = x' := Except.ok.inj (hx.symm.trans hx')
    have hload := (loadToken_eq_ok.mp hspec.token_load).2.1
    rw [hrecord] at hload
    obtain rfl : t = t' := Option.some.inj (hdecode.symm.trans hload)
    refine .inr ⟨clock, accounts, x, pool, now, expected, price, rfl, hx, hrecord, hspec,
      tokenAt_eq_some.mpr ⟨howner', ?_⟩⟩
    rw [← hrecord]
    exact hspec.stored.decodeToken

/-- **One step keeps both sound.** -/
theorem Sound.step (hR : R.Lawful) {l : Label} {log : List SwappedEvent}
    (hkey : tokenKey R mint ≠ poolKey R) (hapart : ∀ m ∈ mintsOf s l, tokenKey R m ≠ poolKey R)
    (hs : Sound R mint s) (h : exec R s l = some (s', log)) : Sound R mint s' := by
  refine ⟨fun howner => ?_, fun howner => ?_⟩
  · by_cases hbefore : (s (poolKey R)).owner = R.programId
    · obtain ⟨p, hp, hb⟩ := hs.pool hbefore
      rcases poolAt_of_exec hR hapart h hp with hsame | ⟨_, _, ix, -, hset, hbounded⟩
      · exact ⟨p, hsame, hb⟩
      · exact ⟨ix.govern p, hset, hbounded hb⟩
    · cases born_of_exec hR h (hR.toLawful.isDerived _) hbefore howner with
      | pool key bounded new => exact ⟨_, poolAt_eq_some.mpr ⟨howner, new⟩, bounded⟩
      | token key price_ne vault_ok new =>
        rcases key with ⟨hmem, hk⟩ | hne
        · exact absurd hk.symm (hapart _ hmem)
        · exact absurd rfl hne
  · by_cases hbefore : (s (tokenKey R mint)).owner = R.programId
    · obtain ⟨t, ht, hne⟩ := hs.token hbefore
      rcases tokenAt_of_exec hR hkey h ht with ⟨-, reserve, hsame⟩ | ⟨_, _, _, _, _, _, price, -, -,
        -, hspec, hset⟩
      · exact ⟨_, hsame, hne⟩
      · exact ⟨_, hset, hspec.price_ne⟩
    · cases born_of_exec hR h (hR.toLawful.isDerived _) hbefore howner with
      | pool key bounded new => exact absurd key hkey
      | token key price_ne vault_ok new => exact ⟨_, tokenAt_eq_some.mpr ⟨howner, new⟩, price_ne⟩

/-- A cluster on which the program was just deployed is sound. -/
theorem sound_of_deployed (h : Deployed R.toRuntime s) : Sound R mint s :=
  ⟨fun howner => absurd howner (h.none _), fun howner => absurd howner (h.none _)⟩

/-- **A run keeps both sound.** -/
theorem Sound.run (hR : R.Lawful) {tr : List Step} (hkey : tokenKey R mint ≠ poolKey R)
    (hapart : ∀ e ∈ tr, Apart R e) (hs : Sound R mint s) (hrun : Run (exec R) s tr s') :
    Sound R mint s' := by
  induction hrun with
  | nil => exact hs
  | snoc hr he ih =>
    exact (ih fun e hmem => hapart e (List.mem_append_left _ hmem)).step hR hkey
      (hapart _ (List.mem_append_right _ (List.mem_singleton_self _))) he

/-! ### What a move keeps to -/

/-- A move is within the cap, rounded down. -/
theorem near_of_checkStep {pool : Pool} {old price : U128} {u : Unit}
    (hbps : pool.maxPriceDeviationBps.toNat ≤ 10000) (h : checkStep pool old price = .ok u) :
    Nat.dist price.toNat old.toNat ≤ old.toNat * pool.maxPriceDeviationBps.toNat / 10000 := by
  have hwide : (BitVec.ofNat 128 pool.maxPriceDeviationBps.toNat).toNat =
      pool.maxPriceDeviationBps.toNat := by
    rw [BitVec.toNat_ofNat, Nat.mod_eq_of_lt (by omega)]
  have hdenom : (BitVec.ofNat 128 BPS_DENOM.toNat).toNat = 10000 := by decide
  simp only [checkStep, bind_eq_ok, orRevert_eq_ok, check_eq_ok] at h
  obtain ⟨cap, hcap, hle⟩ := h
  rw [mulDivFloor, mulDiv_eq_some, hwide, hdenom] at hcap
  have hdiff : (if price > old then price - old else old - price) = Refresh.absDiff old price := rfl
  rw [hdiff, BitVec.le_def, Refresh.toNat_absDiff, Nat.dist_comm] at hle
  have hfloor := hcap.2
  rw [if_neg Bool.false_ne_true] at hfloor
  rw [← hfloor]
  exact hle

/-- **A step that spares the rules leaves the limits.** -/
theorem limits_of_exec (hR : R.Lawful) {l : Label} {log : List SwappedEvent} {p : Pool}
    (hapart : ∀ m ∈ mintsOf s l, tokenKey R m ≠ poolKey R) (hl : l.spares = true)
    (h : exec R s l = some (s', log)) (hp : poolAt R s = some p) :
    ∃ p', poolAt R s' = some p' ∧ p'.limits = p.limits := by
  rcases poolAt_of_exec hR hapart h hp with hsame | ⟨clock, accounts, ix, rfl, hset, -⟩
  · exact ⟨p, hsame, rfl⟩
  · refine ⟨ix.govern p, hset, ?_⟩
    cases ix with
    | setMaxPriceDeviation bps => exact absurd hl (by simp [Label.spares])
    | setMinPriceUpdateInterval seconds => exact absurd hl (by simp [Label.spares])
    | _ => rfl

/-- **Each step is a move within the limits, or leaves the price.** -/
theorem step_of_exec (hR : R.Lawful) {l : Label} {log : List SwappedEvent} {p : Pool}
    {t : TokenRec} (hkey : tokenKey R mint ≠ poolKey R) (h : exec R s l = some (s', log))
    (hp : poolAt R s = some p) (hb : p.Bounded) (ht : tokenAt R mint s = some t)
    (htime : ∀ m, l.move R mint = some m → m.1 ≠ 0 ∧ m.1 ≠ 9223372036854775807) :
    Drift.Step 10000 p.limits.1 p.limits.2 (priceAt R mint s) (lastAt R mint s) (l.move R mint)
      (priceAt R mint s') (lastAt R mint s') := by
  have hprice : ∀ {s t}, tokenAt R mint s = some t → priceAt R mint s = t.price.toNat := by
    intro s t ht
    rw [priceAt, ht]
    rfl
  have hlast : ∀ {s t}, tokenAt R mint s = some t → lastAt R mint s =
      if t.lastPriceUpdate = 0 then none else some t.lastPriceUpdate.toInt := by
    intro s t ht
    rw [lastAt, ht]
    rfl
  rcases tokenAt_of_exec hR hkey h ht with ⟨hmove, reserve, hsame⟩ | ⟨clock, accounts, x, pool, now,
    expected, price, rfl, hx, hrecord, hspec, hset⟩
  · rw [hmove, hprice ht, hprice hsame, hlast ht, hlast hsame]
    exact .stays
  · have hmove : Label.move R mint (.instruction clock accounts (.setPriceFrom expected price)) =
        some (now.toInt, price.toNat) := move_eq_some hspec.clock_eq hx hrecord
    obtain ⟨hne, hend⟩ := htime _ hmove
    obtain ⟨⟨hpoolKey, -⟩, hpool⟩ := loadPool_eq_ok.mp hspec.pool_load
    obtain rfl : p = pool := by
      rw [hpoolKey] at hpool
      exact Option.some.inj ((poolAt_eq_some.mp hp).2.symm.trans hpool)
    have hzero : now ≠ 0 := fun hz => hne (by rw [hz]; rfl)
    rw [hmove, hprice ht, hprice hset, hlast ht, hlast hset, if_neg hzero]
    refine .moves (fun last hsome => ?_) (near_of_checkStep hb.deviation.2 hspec.step)
      fun hz => hspec.price_ne (BitVec.eq_of_toNat_eq hz)
    split at hsome
    · cases hsome
    · next hlastNe =>
      obtain rfl := Option.some.inj hsome
      -- short of the last second the sum did not saturate
      have hle := hspec.cooldown.resolve_left hlastNe
      have hnow := Refresh.toInt_bounds now
      have hmin := Refresh.toInt_bounds t.lastPriceUpdate
      have hinterval := hb.interval
      rw [Refresh.toInt_saturatingAdd] at hle
      simp only [Pool.limits]
      omega

/-- **Every step of a run keeps within the limits it started with.** -/
theorem steps_of_run (hR : R.Lawful) {tr : List Step} {p : Pool} {t : TokenRec}
    (hkey : tokenKey R mint ≠ poolKey R) (hapart : ∀ e ∈ tr, Apart R e)
    (hspares : ∀ e ∈ tr, e.label.spares = true)
    (htime : ∀ m ∈ moves R mint tr, m.1 ≠ 0 ∧ m.1 ≠ 9223372036854775807)
    (hp : poolAt R s = some p) (hb : p.Bounded) (ht : tokenAt R mint s = some t)
    (hrun : Run (exec R) s tr s') :
    (∃ p', poolAt R s' = some p' ∧ p'.limits = p.limits ∧ p'.Bounded) ∧
      (∃ t', tokenAt R mint s' = some t') ∧
      ∀ e ∈ tr, Drift.Step 10000 p.limits.1 p.limits.2 (priceAt R mint e.pre)
        (lastAt R mint e.pre) (moveOf R mint e) (priceAt R mint e.post) (lastAt R mint e.post) := by
  induction hrun with
  | nil => exact ⟨⟨p, hp, rfl, hb⟩, ⟨t, ht⟩, fun e he => absurd he (by simp)⟩
  | @snoc tr w w' l log hr he ih =>
    have hmem : (⟨w, l, log, w'⟩ : Step) ∈ tr ++ [⟨w, l, log, w'⟩] :=
      List.mem_append_right _ (List.mem_singleton_self _)
    obtain ⟨⟨p', hp', hlimits, hb'⟩, ⟨t', ht'⟩, hsteps⟩ :=
      ih (fun e h => hapart e (List.mem_append_left _ h))
        (fun e h => hspares e (List.mem_append_left _ h))
        fun m h => htime m (by rw [moves, List.filterMap_append]; exact List.mem_append_left _ h)
    have hstep := step_of_exec hR hkey he hp' hb' ht' fun m hm =>
      htime m (List.mem_filterMap.mpr ⟨_, hmem, hm⟩)
    refine ⟨?_, ?_, fun e h => ?_⟩
    · rcases poolAt_of_exec hR (hapart _ hmem) he hp' with hsame | ⟨_, _, ix, hl, hset, hbounded⟩
      · exact ⟨p', hsame, hlimits, hb'⟩
      · obtain ⟨p'', hp'', hlimits''⟩ := limits_of_exec hR (hapart _ hmem) (hspares _ hmem) he hp'
        obtain rfl : ix.govern p' = p'' := Option.some.inj (hset.symm.trans hp'')
        exact ⟨_, hp'', hlimits''.trans hlimits, hbounded hb'⟩
    · rcases tokenAt_of_exec hR hkey he ht' with ⟨-, reserve, hsame⟩ |
        ⟨_, _, _, _, _, _, _, -, -, -, -, hset⟩
      · exact ⟨_, hsame⟩
      · exact ⟨_, hset⟩
    · rcases List.mem_append.mp h with h | h
      · exact hsteps e h
      · obtain rfl := List.mem_singleton.mp h
        rw [← hlimits]
        exact hstep

/-! ### A window of a run -/

variable (R) in
/-- **A window in which the owner leaves the rules of moves alone**, at any time after the program
was deployed, with a pool, a record of the mint and a positive interval. -/
structure Window (mint : Pubkey) (s₁ : Accounts) (tr : List Step) (s : Accounts) : Prop where
  reached : ∃ s₀ tr₁, Deployed R.toRuntime s₀ ∧ Run (exec R) s₀ tr₁ s₁ ∧ ∀ e ∈ tr₁, Apart R e
  key : tokenKey R mint ≠ poolKey R
  apart : ∀ e ∈ tr, Apart R e
  record : (s₁ (tokenKey R mint)).owner = R.programId
  pool : (s₁ (poolKey R)).owner = R.programId
  run : Run (exec R) s₁ tr s
  spares : ∀ e ∈ tr, e.label.spares = true

theorem Window.sound (hR : R.Lawful) {s₁ : Accounts} {tr : List Step} (h : Window R mint s₁ tr s) :
    Sound R mint s₁ := by
  obtain ⟨s₀, tr₁, hdeployed, hrun, hapart⟩ := h.reached
  exact (sound_of_deployed hdeployed).run hR h.key hapart hrun

/-- **What happens in it is limited.** -/
theorem Window.limited (hR : R.Lawful) {s₁ : Accounts} {tr : List Step} {p : Pool}
    (h : Window R mint s₁ tr s) (hp : poolAt R s₁ = some p)
    (hinterval : 0 < p.minPriceUpdateInterval.toInt)
    (htime : ∀ m ∈ moves R mint tr, m.1 ≠ 0 ∧ m.1 ≠ 9223372036854775807) :
    Drift.Limited 10000 p.limits.1 p.limits.2 (priceAt R mint s₁) (priceAt R mint s)
      (moves R mint tr) ∧
    ∀ e ∈ tr, Drift.Step 10000 p.limits.1 p.limits.2 (priceAt R mint e.pre) (lastAt R mint e.pre)
      (moveOf R mint e) (priceAt R mint e.post) (lastAt R mint e.post) := by
  obtain ⟨p', hp', hb⟩ := (h.sound hR).pool h.pool
  obtain rfl : p = p' := Option.some.inj (hp.symm.trans hp')
  obtain ⟨t, ht, hne⟩ := (h.sound hR).token h.record
  obtain ⟨-, -, hsteps⟩ := steps_of_run hR h.key h.apart h.spares htime hp hb ht h.run
  have hprice : priceAt R mint s₁ ≠ 0 := by
    rw [priceAt, ht]
    exact fun hzero => hne (BitVec.eq_of_toNat_eq hzero)
  exact ⟨(Drift.drifts_of_run h.run hsteps).limited hinterval hb.deviation.2 hprice, hsteps⟩

/-! ### Both pools -/

/-- **A price drifts no faster on either chain** than its rules say: in a window in which they stay,
there are at most `1 + T / I` moves in any time `T`, each within the cap, so that after `k` of them
the price is within the `k`th powers of the cap and never zero; and nothing else moves it. -/
theorem drift_limited {σ : Type} {E : Erc20 σ} {here : Address} {token : Address}
    {w₁ w : SwapPool.World σ} {trₑ : List (SwapPool.Step σ)} {s₁ : Accounts} {trₛ : List Step}
    {p : Pool} (hR : R.Lawful) (hevm : SwapPool.Window E here token w₁ trₑ w)
    (htimeₑ : ∀ m ∈ SwapPool.moves token trₑ, m.1 ≠ 0)
    (hsolana : Window R mint s₁ trₛ s) (hp : poolAt R s₁ = some p)
    (hinterval : 0 < p.minPriceUpdateInterval.toInt)
    (htimeₛ : ∀ m ∈ moves R mint trₛ, m.1 ≠ 0 ∧ m.1 ≠ 9223372036854775807) :
    (Drift.Limited 10000 (min w₁.pool.feeBps.toNat w₁.pool.maxPriceDeviationBps.toNat)
        w₁.pool.minPriceUpdateInterval.toNat (SwapPool.priceAt token w₁) (SwapPool.priceAt token w)
        (SwapPool.moves token trₑ) ∧
      ∀ e ∈ trₑ, Drift.Step 10000
        (min w₁.pool.feeBps.toNat w₁.pool.maxPriceDeviationBps.toNat)
        w₁.pool.minPriceUpdateInterval.toNat (SwapPool.priceAt token e.pre)
        (SwapPool.lastAt token e.pre) (SwapPool.moveOf token e) (SwapPool.priceAt token e.post)
        (SwapPool.lastAt token e.post)) ∧
    (Drift.Limited 10000 p.maxPriceDeviationBps.toNat p.minPriceUpdateInterval.toInt
        (priceAt R mint s₁) (priceAt R mint s) (moves R mint trₛ) ∧
      ∀ e ∈ trₛ, Drift.Step 10000 p.maxPriceDeviationBps.toNat p.minPriceUpdateInterval.toInt
        (priceAt R mint e.pre) (lastAt R mint e.pre) (moveOf R mint e) (priceAt R mint e.post)
        (lastAt R mint e.post)) := by
  refine ⟨?_, hsolana.limited hR hp hinterval htimeₛ⟩
  have hlimits : w₁.pool.limits = (min w₁.pool.feeBps.toNat w₁.pool.maxPriceDeviationBps.toNat,
      (w₁.pool.minPriceUpdateInterval.toNat : ℤ)) := by
    rw [SwapPool.limits, SwapPool.toNat_priceStepCapBps]
  have hlimited := hevm.limited htimeₑ
  rw [hlimits] at hlimited
  exact hlimited

/-! ### Two moves on each -/

/-- The pool of the cluster, with a price of a thousand. -/
def listed : List Step × Accounts := traceOf (exec Cluster.runtime) Cluster.deployed
  (Cluster.listing 1000)

/-- The price is moved twice, up by a tenth each time. -/
def moving (first second : Int64) : List Label :=
  [Cluster.moving first 1000 1100, Cluster.moving second 1100 1210]

/-- What comes of it. -/
def moved (first second : Int64) : List Step × Accounts :=
  traceOf (exec Cluster.runtime) listed.2 (moving first second)

/-- The pool of the cluster, as it is then. -/
def listedPool : Pool := ⟨0x0a, 0x0a, 0, 0x4b, 30, 1000, 3600, false, 86400⟩

theorem tokenKey_ne_poolKey (mint : Pubkey) :
    tokenKey Cluster.runtime mint ≠ poolKey Cluster.runtime := by
  have hfind : Cluster.runtime.findProgramAddress = Cluster.findProgramAddress := rfl
  rw [tokenKey, poolKey, hfind]
  exact Cluster.find_tokenSeeds_ne mint

theorem window_moved {first second : Int64}
    (hmoved : (runFrom (exec Cluster.runtime) listed.2 (moving first second)).isSome = true) :
    Window Cluster.runtime Solana.Cluster.mint listed.2 (moved first second).1
      (moved first second).2 := by
  have hlisted : (runFrom (exec Cluster.runtime) Cluster.deployed
      (Cluster.listing 1000)).isSome = true := by decide +kernel
  have hapart : ∀ e, Apart Cluster.runtime e := fun _ m _ => tokenKey_ne_poolKey m
  refine ⟨⟨_, _, Cluster.deployed_deployed, run_traceOf hlisted, fun e _ => hapart e⟩,
    tokenKey_ne_poolKey _, fun e _ => hapart e, by decide +kernel, by decide +kernel,
    run_traceOf hmoved, fun e he => ?_⟩
  have hmem : e.label ∈ (moved first second).1.map Entry.label := List.mem_map_of_mem he
  rw [moved, label_traceOf hmoved] at hmem
  rcases List.mem_pair.mp hmem with hl | hl <;> rw [hl] <;> rfl

theorem drift_limited_twice :
    SwapPool.priceAt 0xaa (SwapPool.repriced 1000 5000 8600).2 * 10000 ^ 2 ≤
        1000 * (10000 + 1000) ^ 2 ∧
      priceAt Cluster.runtime Solana.Cluster.mint (moved 5000 8600).2 * 10000 ^ 2 ≤
        1000 * (10000 + 1000) ^ 2 := by
  have hevm := @SwapPool.window_repriced 1000 5000 8600 (by decide +kernel) (by decide +kernel)
    (by decide +kernel) (by decide +kernel)
  have hsolana := @window_moved 5000 8600 (by decide +kernel)
  have hmovesₑ : SwapPool.moves 0xaa (SwapPool.repriced 1000 5000 8600).1 =
      [(5000, 1100), (8600, 1210)] := by decide +kernel
  have hmovesₛ : moves Cluster.runtime Solana.Cluster.mint (moved 5000 8600).1 =
      [(5000, 1100), (8600, 1210)] := by decide +kernel
  have hpool : poolAt Cluster.runtime listed.2 = some listedPool := by decide +kernel
  have hlimited := drift_limited Cluster.lawful hevm (by rw [hmovesₑ]; decide) hsolana hpool
    (by decide) (by rw [hmovesₛ]; decide)
  have hfarₑ := hlimited.1.1.far.2
  have hfarₛ := hlimited.2.1.far.2
  rw [hmovesₑ] at hfarₑ
  rw [hmovesₛ] at hfarₛ
  have hcapₑ : min (SwapPool.offered 1000).2.pool.feeBps.toNat
      (SwapPool.offered 1000).2.pool.maxPriceDeviationBps.toNat = 1000 := by decide +kernel
  have hpriceₑ : SwapPool.priceAt 0xaa (SwapPool.offered 1000).2 = 1000 := by decide +kernel
  have hpriceₛ : priceAt Cluster.runtime Solana.Cluster.mint listed.2 = 1000 := by decide +kernel
  have hcapₛ : listedPool.maxPriceDeviationBps.toNat = 1000 := by decide
  have htwice : ([(5000, 1100), (8600, 1210)] : List (ℤ × ℕ)).length = 2 := rfl
  rw [hcapₑ, hpriceₑ, htwice] at hfarₑ
  rw [hcapₛ, hpriceₛ, htwice] at hfarₛ
  exact ⟨hfarₑ, hfarₛ⟩

/-- **Moves at second zero leave no trace, and none has to wait out the last second**: two moves in
one second, of the one pool at zero, and of the other at zero and at the last second there is. So
neither is limited at these. -/
theorem drift_at_the_ends :
    (¬ ∀ (w₁ w : SwapPool.World Ledger) (tr : List (SwapPool.Step Ledger)),
      SwapPool.Window Ledger.tokens 0xf2 0xaa w₁ tr w →
        Drift.Limited 10000 w₁.pool.limits.1 w₁.pool.limits.2 (SwapPool.priceAt 0xaa w₁)
          (SwapPool.priceAt 0xaa w) (SwapPool.moves 0xaa tr)) ∧
    ∀ second : Int64, second = 0 ∨ second = 9223372036854775807 →
      ¬ ∀ (s₁ s : Accounts) (tr : List Step) (p : Pool),
        Window Cluster.runtime Solana.Cluster.mint s₁ tr s → poolAt Cluster.runtime s₁ = some p →
          0 < p.minPriceUpdateInterval.toInt →
          (∀ m ∈ moves Cluster.runtime Solana.Cluster.mint tr, m.1 = second.toInt) →
          Drift.Limited 10000 p.limits.1 p.limits.2 (priceAt Cluster.runtime Solana.Cluster.mint s₁)
            (priceAt Cluster.runtime Solana.Cluster.mint s)
            (moves Cluster.runtime Solana.Cluster.mint tr) := by
  constructor
  · intro h
    have hwindow := @SwapPool.window_repriced 0 0 0 (by decide +kernel) (by decide +kernel)
      (by decide +kernel) (by decide +kernel)
    have hmoves : SwapPool.moves 0xaa (SwapPool.repriced 0 0 0).1 = [(0, 1100), (0, 1210)] := by
      decide +kernel
    have hlimits : (SwapPool.offered 0).2.pool.limits.2 = 3600 := by decide +kernel
    have hoften := (h _ _ _ hwindow).often 0 0 le_rfl
    rw [hmoves, hlimits] at hoften
    exact absurd hoften (by decide)
  · intro second hsecond h
    have hpool : poolAt Cluster.runtime listed.2 = some listedPool := by decide +kernel
    rcases hsecond with rfl | rfl
    · have hwindow := @window_moved 0 0 (by decide +kernel)
      have hmoves : moves Cluster.runtime Solana.Cluster.mint (moved 0 0).1 =
          [(0, 1100), (0, 1210)] := by decide +kernel
      have hoften := (h _ _ _ _ hwindow hpool (by decide)
        (by rw [hmoves]; decide)).often 0 0 le_rfl
      rw [hmoves] at hoften
      exact absurd hoften (by decide)
    · have hwindow := @window_moved 9223372036854775807 9223372036854775807 (by decide +kernel)
      have hmoves : moves Cluster.runtime Solana.Cluster.mint
          (moved 9223372036854775807 9223372036854775807).1 =
          [(9223372036854775807, 1100), (9223372036854775807, 1210)] := by decide +kernel
      have hoften := (h _ _ _ _ hwindow hpool (by decide)
        (by rw [hmoves]; decide)).often 9223372036854775807 0 le_rfl
      rw [hmoves] at hoften
      exact absurd hoften (by decide)

end SolanaSwap

end SelendraBridge
