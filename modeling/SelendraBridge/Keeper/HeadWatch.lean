import SelendraBridge.Keeper.Fees

/-!
# The watch on the head of the queue

The keeper's memo of what is in flight does not outlive the process. What it forgot can block
the account at its next nonce, so a watch compares the two nonces that the node reports
(`SelendraBridge.Keeper.observe`): while the pool holds a transaction at the next nonce, and no
loop knows of it, the watch replaces it with a transfer of nothing to itself, once in each
window, a few times, and for no more than a multiple of what the market asked at the first.

| what is seen | what the watch does |
|---|---|
| no gap, or a loop knows the head | it forgets the stall |
| a gap at another nonce | a new stall, with a window of its own |
| the same stall, within its window | nothing |
| the same stall, past its window | a replacement, or that there are none left |

The count and the ceiling are fields of the stall, and the first line of the table throws them
away while the nonce is still the same: one such observation in between, and the watch starts
over (`SelendraBridge.Keeper.starts_over`). Where there is none after the first replacement, the
bounds hold (`SelendraBridge.Keeper.head_bounded`); that no two replacements are within one
window holds in any case (`SelendraBridge.Keeper.apart_of_watch`).
-/

namespace SelendraBridge

namespace Keeper

open Transition

/-! ### The watch -/

/-- `SELF_TRANSFER_GAS`. -/
def SELF_TRANSFER_GAS : U64 := 21000

/-- `HeadStall`: a next nonce that does not move. Times are nanoseconds. -/
structure HeadStall where
  nonce : U64
  /-- When it was first seen. -/
  since : ℕ
  lastSent : Option ℕ
  bumps : ℕ
  /-- The last replacement that was sent. -/
  lastTx : Option TransactionRequest
  /-- Fixed at the first replacement. -/
  ceiling : Option Fee
  deriving DecidableEq

/-- A stall at its first sighting. -/
def HeadStall.first (latest : U64) (now : ℕ) : HeadStall :=
  ⟨latest, now, none, 0, none, none⟩

/-- Where the window of a stall starts. -/
def HeadStall.waitedFrom (stall : HeadStall) : ℕ := stall.lastSent.getD stall.since

/-- `HeadAction`. -/
inductive HeadAction
  | idle
  | wait
  | replace (nonce : U64) (bump : ℕ)
  | exhausted (nonce : U64)
  deriving DecidableEq

/-- A stall that goes on. -/
def HeadStall.again (stall : HeadStall) (now : ℕ) : HeadStall × HeadAction :=
  if now - stall.waitedFrom < RECEIPT_TIMEOUT then (stall, .wait)
  else if stall.bumps ≥ MAX_FEE_BUMPS then
    ({ stall with lastSent := some now }, .exhausted stall.nonce)
  else
    ({ stall with lastSent := some now, bumps := stall.bumps + 1 },
      .replace stall.nonce (stall.bumps + 1))

/-- **`HeadWatch::observe`.** -/
def observe (watch : Option HeadStall) (latest pending : U64) (tracked : Bool) (now : ℕ) :
    Option HeadStall × HeadAction :=
  if pending ≤ latest ∨ tracked = true then (none, .idle)
  else
    match watch with
    | some stall =>
      if stall.nonce = latest then (some (stall.again now).1, (stall.again now).2)
      else (some (.first latest now), .wait)
    | none => (some (.first latest now), .wait)

/-- The first replacement before its fees are raised: what the market asks. -/
def selfTransfer (sender : Address) (nonce : U64) (estimate : Option Eip1559Estimation)
    (gasPrice : Option Fee) : Option TransactionRequest :=
  let base : TransactionRequest :=
    ⟨some sender, some sender, some nonce, some SELF_TRANSFER_GAS, some 0, [], none, none, none⟩
  match estimate, gasPrice with
  | some e, _ => some { base with
      maxFeePerGas := some e.maxFeePerGas
      maxPriorityFeePerGas := some e.maxPriorityFeePerGas }
  | none, some p => some { base with gasPrice := some p }
  | none, none => none

/-- **`head_replacement`**, with the ceiling that it leaves. -/
def headReplacement (sender : Address) (nonce : U64) (prev : Option TransactionRequest)
    (estimate : Option Eip1559Estimation) (gasPrice ceiling : Option Fee) :
    Option TransactionRequest × Option Fee :=
  match prev with
  | some prev => (ceiling.bind fun c => reprice prev estimate gasPrice c, ceiling)
  | none =>
    match selfTransfer sender nonce estimate gasPrice with
    | some base =>
      let cap := saturatingMul (feeCap base) MAX_FEE_MULTIPLE
      (reprice base none none cap, some cap)
    | none => (none, ceiling)

/-- What one look at the chain gives: the two nonces, whether a loop knows of the head, the
time, and what the market asks, if it is asked. -/
structure Observation where
  latest : U64
  pending : U64
  tracked : Bool
  now : ℕ
  estimate : Option Eip1559Estimation
  gasPrice : Option Fee
  deriving DecidableEq

/-- The stall after a replacement fell due, with what is sent. A replacement that the node
rejects counts as sent. -/
def HeadStall.sendReplacement (sender : Address) (o : Observation) (stall : HeadStall) :
    HeadStall × Option TransactionRequest :=
  let gasPrice := if o.estimate.isNone then o.gasPrice else none
  match headReplacement sender stall.nonce stall.lastTx o.estimate gasPrice stall.ceiling with
  | (some tx, ceiling) => ({ stall with lastTx := some tx, ceiling }, some tx)
  | (none, ceiling) => ({ stall with bumps := MAX_FEE_BUMPS, ceiling }, none)

/-- **`unwedge_head`**, once the nonces are read: the watch after it, and what is sent. -/
def unwedgeHead (sender : Address) (watch : Option HeadStall) (o : Observation) :
    Option HeadStall × Option TransactionRequest :=
  match observe watch o.latest o.pending o.tracked o.now with
  | (some stall, .replace _ _) =>
    let r := stall.sendReplacement sender o
    (some r.1, r.2)
  | (watch, _) => (watch, none)

/-! ### What one observation does -/

/-- No stall, or one that a loop knows of. -/
def Observation.Flickers (o : Observation) : Prop := o.pending ≤ o.latest ∨ o.tracked = true

instance (o : Observation) : Decidable o.Flickers := inferInstanceAs (Decidable (_ ∨ _))

/-- What the market asks for each gas. -/
def Observation.market (o : Observation) : Fee :=
  ((o.estimate.map Eip1559Estimation.maxFeePerGas) <|> o.gasPrice).getD 0

/-- A replacement is due. -/
def HeadStall.Due (stall : HeadStall) (now : ℕ) : Prop :=
  stall.waitedFrom + RECEIPT_TIMEOUT ≤ now ∧ stall.bumps < MAX_FEE_BUMPS

/-- The replacement of a stall, with the ceiling that it leaves. -/
def HeadStall.replacement (sender : Address) (o : Observation) (stall : HeadStall) :
    Option TransactionRequest × Option Fee :=
  headReplacement sender stall.nonce stall.lastTx o.estimate
    (if o.estimate.isNone then o.gasPrice else none) stall.ceiling

/-- **What one observation does.** -/
inductive Watched (sender : Address) (o : Observation) :
    Option HeadStall → Option HeadStall → Option TransactionRequest → Prop
  /-- The stall, if there was one, is forgotten. -/
  | forgets {watch : Option HeadStall} (flicker : o.Flickers) : Watched sender o watch none none
  /-- A new stall. -/
  | notices {watch : Option HeadStall} (gap : ¬o.Flickers)
      (other : ∀ stall, watch = some stall → stall.nonce ≠ o.latest) :
      Watched sender o watch (some (.first o.latest o.now)) none
  /-- Nothing is due; the window may start again. -/
  | waits {stall : HeadStall} {lastSent : Option ℕ} (gap : ¬o.Flickers)
      (same : stall.nonce = o.latest)
      (window : lastSent = stall.lastSent ∨ lastSent = some o.now) :
      Watched sender o (some stall) (some { stall with lastSent }) none
  /-- There is no replacement, and there will be no other. -/
  | refuses {stall : HeadStall} {ceiling : Option Fee} (gap : ¬o.Flickers)
      (same : stall.nonce = o.latest) (due : stall.Due o.now)
      (refused : stall.replacement sender o = (none, ceiling)) :
      Watched sender o (some stall)
        (some { stall with lastSent := some o.now, bumps := MAX_FEE_BUMPS, ceiling }) none
  /-- A replacement is sent. -/
  | sends {stall : HeadStall} {ceiling : Option Fee} {tx : TransactionRequest} (gap : ¬o.Flickers)
      (same : stall.nonce = o.latest) (due : stall.Due o.now)
      (offered : stall.replacement sender o = (some tx, ceiling)) :
      Watched sender o (some stall)
        (some { stall with
          lastSent := some o.now, bumps := stall.bumps + 1, lastTx := some tx, ceiling }) (some tx)

theorem watched_of_unwedgeHead (sender : Address) (watch : Option HeadStall) (o : Observation) :
    Watched sender o watch (unwedgeHead sender watch o).1 (unwedgeHead sender watch o).2 := by
  unfold unwedgeHead observe
  by_cases hflicker : o.pending ≤ o.latest ∨ o.tracked = true
  · rw [if_pos hflicker]
    exact .forgets hflicker
  · rw [if_neg hflicker]
    cases watch with
    | none => exact .notices hflicker fun stall h => absurd h (by simp)
    | some stall =>
      by_cases hsame : stall.nonce = o.latest
      · simp only [if_pos hsame]
        rw [HeadStall.again]
        by_cases hwindow : o.now - stall.waitedFrom < RECEIPT_TIMEOUT
        · rw [if_pos hwindow]
          exact .waits hflicker hsame (.inl rfl)
        · rw [if_neg hwindow]
          by_cases hbumps : stall.bumps ≥ MAX_FEE_BUMPS
          · rw [if_pos hbumps]
            exact .waits hflicker hsame (.inr rfl)
          · rw [if_neg hbumps]
            have hpositive : 0 < RECEIPT_TIMEOUT := by decide
            have hdue : stall.Due o.now := ⟨by omega, by omega⟩
            dsimp only
            rw [HeadStall.sendReplacement]
            dsimp only
            split
            · next tx ceiling heq => exact .sends hflicker hsame hdue heq
            · next ceiling heq => exact .refuses hflicker hsame hdue heq
      · simp only [if_neg hsame]
        refine .notices hflicker ?_
        rintro stall' h
        obtain rfl := Option.some.inj h
        exact hsame

/-! ### What a replacement costs -/

/-- A request has both fees of a dynamic one, or neither. -/
def Priced (tx : TransactionRequest) : Prop :=
  tx.maxFeePerGas.isSome = tx.maxPriorityFeePerGas.isSome

/-- **Raised fees keep to the ceiling.** -/
theorem feeCap_le_of_reprice {tx next : TransactionRequest} {estimate : Option Eip1559Estimation}
    {gasPrice : Option Fee} {ceiling : Fee} (hpriced : Priced tx)
    (h : reprice tx estimate gasPrice ceiling = some next) :
    Priced next ∧ next.nonce = tx.nonce ∧ (feeCap next).toNat ≤ ceiling.toNat := by
  rw [reprice] at h
  split at h
  · next maxFee tip hmax htip =>
    simp only [Option.bind_eq_bind, Option.bind_eq_some_iff, Option.pure_def,
      Option.some.injEq] at h
    obtain ⟨newMax, hnewMax, newTip, -, rfl⟩ := h
    exact ⟨rfl, rfl, (bumpedFee_eq_some hnewMax).2⟩
  · next hneither =>
    simp only [Option.bind_eq_bind, Option.bind_eq_some_iff, Option.pure_def,
      Option.some.injEq] at h
    obtain ⟨price, -, newPrice, hnewPrice, rfl⟩ := h
    -- With a cap there would be a tip, and the fees would be raised as a pair.
    have hnone : tx.maxFeePerGas = none := by
      rcases hmax : tx.maxFeePerGas with _ | maxFee
      · rfl
      · rw [Priced, hmax] at hpriced
        obtain ⟨tip, htip⟩ := Option.isSome_iff_exists.mp hpriced.symm
        exact absurd htip (hneither maxFee tip hmax)
    refine ⟨hpriced, rfl, ?_⟩
    have hcap : feeCap { tx with gasPrice := some newPrice } = newPrice := by
      rw [feeCap, hnone]
      rfl
    rw [hcap]
    exact (bumpedFee_eq_some hnewPrice).2

theorem feeCap_selfTransfer {sender : Address} {nonce : U64} {base : TransactionRequest}
    {o : Observation} (h : selfTransfer sender nonce o.estimate
      (if o.estimate.isNone then o.gasPrice else none) = some base) :
    Priced base ∧ base.nonce = some nonce ∧ feeCap base = o.market := by
  unfold selfTransfer at h
  rcases hestimate : o.estimate with _ | e
  · rw [hestimate] at h
    rcases hprice : o.gasPrice with _ | p
    · simp [hprice] at h
    · simp only [hprice, Option.isNone_none, if_true] at h
      obtain rfl := Option.some.inj h
      refine ⟨rfl, rfl, ?_⟩
      rw [Observation.market, hestimate, hprice]
      rfl
  · rw [hestimate] at h
    obtain rfl := Option.some.inj h
    refine ⟨rfl, rfl, ?_⟩
    rw [Observation.market, hestimate]
    rfl

/-- **The first replacement** fixes the ceiling, and keeps to it. -/
theorem replacement_first {sender : Address} {o : Observation} {stall : HeadStall}
    {tx : TransactionRequest} {ceiling : Option Fee} (hfirst : stall.lastTx = none)
    (h : stall.replacement sender o = (some tx, ceiling)) :
    ∃ cap, ceiling = some cap ∧ cap.toNat ≤ 4 * o.market.toNat ∧ Priced tx ∧
      tx.nonce = some stall.nonce ∧ (feeCap tx).toNat ≤ cap.toNat := by
  unfold HeadStall.replacement headReplacement at h
  rw [hfirst] at h
  dsimp only at h
  split at h
  · next base hbase =>
    obtain ⟨hpriced, hnonce, hmarket⟩ := feeCap_selfTransfer hbase
    obtain ⟨hre, rfl⟩ := Prod.mk.inj h
    obtain ⟨hpriced', hnonce', hle⟩ := feeCap_le_of_reprice hpriced hre
    refine ⟨_, rfl, ?_, hpriced', hnonce'.trans hnonce, hle⟩
    have hfour : MAX_FEE_MULTIPLE.toNat = 4 := rfl
    rw [toNat_saturatingMul, hfour, hmarket, Nat.mul_comm]
    exact min_le_left _ _
  · exact absurd (Prod.mk.inj h).1 (by simp)

/-- **Every later one** keeps to that ceiling. -/
theorem replacement_later {sender : Address} {o : Observation} {stall : HeadStall}
    {prev tx : TransactionRequest} {ceiling : Option Fee} {cap : Fee}
    (hlater : stall.lastTx = some prev) (hcap : stall.ceiling = some cap) (hpriced : Priced prev)
    (h : stall.replacement sender o = (some tx, ceiling)) :
    ceiling = some cap ∧ Priced tx ∧ tx.nonce = prev.nonce ∧
      (feeCap tx).toNat ≤ cap.toNat := by
  unfold HeadStall.replacement headReplacement at h
  rw [hlater, hcap] at h
  obtain ⟨hre, rfl⟩ := Prod.mk.inj h
  exact ⟨rfl, feeCap_le_of_reprice hpriced hre⟩

theorem replacement_refused {sender : Address} {o : Observation} {stall : HeadStall}
    {prev : TransactionRequest} {ceiling : Option Fee} (hlater : stall.lastTx = some prev)
    (h : stall.replacement sender o = (none, ceiling)) : ceiling = stall.ceiling := by
  unfold HeadStall.replacement headReplacement at h
  rw [hlater] at h
  exact (Prod.mk.inj h).2.symm

/-! ### Watching -/

/-- The watch, and the last time the clock was read. -/
structure WatchState where
  watch : Option HeadStall
  clock : ℕ
  deriving DecidableEq

/-- **One observation after the other**, on a clock that does not go back. -/
def look (sender : Address) (s : WatchState) (o : Observation) :
    Option (WatchState × Option TransactionRequest) :=
  if o.now < s.clock then none
  else
    let r := unwedgeHead sender s.watch o
    some (⟨r.1, o.now⟩, r.2)

/-- A step of the watch. -/
abbrev Sighting := Entry WatchState Observation (Option TransactionRequest)

/-- A stall of a nonce that a replacement was sent for. -/
def SentFor (n : U64) (watch : Option HeadStall) : Prop :=
  ∃ stall, watch = some stall ∧ stall.nonce = n ∧ stall.lastTx.isSome = true

/-- **The bounds on the replacements of a nonce.** -/
structure HeadRules (n : U64) (tr : List Sighting) : Prop where
  /-- There are only so many. -/
  few : (tr.filter fun e => e.out.isSome).length ≤ MAX_FEE_BUMPS
  /-- No two are within one window. -/
  apart : ∀ before e mid g after, tr = before ++ e :: (mid ++ g :: after) → e.out.isSome = true →
    g.out.isSome = true → e.label.now + RECEIPT_TIMEOUT ≤ g.label.now
  /-- None costs more than four times what the market asked at the first. -/
  cheap : ∀ first, tr.find? (fun e => e.out.isSome) = some first → ∀ e ∈ tr, ∀ tx,
    e.out = some tx → tx.nonce = some n ∧ (feeCap tx).toNat ≤ 4 * first.label.market.toNat

variable {sender : Address} {s₀ s s' : WatchState} {o : Observation} {tr : List Sighting}
  {out : Option TransactionRequest} {n : U64}

theorem watched_of_look (h : look sender s o = some (s', out)) :
    Watched sender o s.watch s'.watch out ∧ s.clock ≤ o.now ∧ s'.clock = o.now := by
  simp only [look, Option.ite_none_left_eq_some, Option.some.injEq, Prod.mk.injEq] at h
  obtain ⟨hclock, rfl, rfl⟩ := h
  exact ⟨watched_of_unwedgeHead sender s.watch o, not_lt.mp hclock, rfl⟩

/-- **The window starts again with each replacement**, and with each new stall. -/
theorem window_of_run (hrun : Run (look sender) s₀ tr s) : ∀ e ∈ tr, e.out.isSome = true →
    e.label.now ≤ s.clock ∧ ∀ stall, s.watch = some stall → e.label.now ≤ stall.waitedFrom := by
  refine hrun.rec_trace (P := fun tr s => ∀ e ∈ tr, e.out.isSome = true → e.label.now ≤ s.clock ∧
    ∀ stall, s.watch = some stall → e.label.now ≤ stall.waitedFrom)
    (fun e he => absurd he List.not_mem_nil) ?_
  rintro tr s o s' out - ih hstep e he hout
  obtain ⟨hwatched, hclock, hclock'⟩ := watched_of_look hstep
  rcases s' with ⟨watch', clock'⟩
  obtain rfl : clock' = o.now := hclock'
  rcases List.mem_append.mp he with he | he
  · obtain ⟨hle, hwindow⟩ := ih e he hout
    refine ⟨hle.trans hclock, ?_⟩
    rintro stall hstall
    obtain rfl : watch' = some stall := hstall
    generalize hwatch : s.watch = watch at hwatched
    generalize hwatch' : some stall = watch' at hwatched
    cases hwatched with
    | forgets => exact absurd hwatch' (by simp)
    | notices =>
      obtain rfl := Option.some.inj hwatch'
      exact hle.trans hclock
    | waits _ _ window =>
      obtain rfl := Option.some.inj hwatch'
      rcases window with rfl | rfl
      · exact hwindow _ hwatch
      · exact hle.trans hclock
    | refuses | sends =>
      obtain rfl := Option.some.inj hwatch'
      exact hle.trans hclock
  · obtain rfl := List.mem_singleton.mp he
    refine ⟨le_rfl, ?_⟩
    rintro stall hstall
    obtain rfl : watch' = some stall := hstall
    generalize s.watch = watch at hwatched
    generalize hwatch' : some stall = watch' at hwatched
    cases hwatched with
    | forgets | notices | waits | refuses => exact absurd hout (by simp)
    | sends =>
      obtain rfl := Option.some.inj hwatch'
      exact le_rfl

/-- What is sent was due. -/
theorem due_of_sent (h : look sender s o = some (s', out)) (hout : out.isSome = true) :
    ∃ stall, s.watch = some stall ∧ stall.nonce = o.latest ∧ stall.Due o.now := by
  obtain ⟨hwatched, -, -⟩ := watched_of_look h
  generalize hwatch : s.watch = watch at hwatched
  generalize s'.watch = watch' at hwatched
  cases hwatched with
  | forgets | notices | waits | refuses => exact absurd hout (by simp)
  | sends _ same due => exact ⟨_, rfl, same, due⟩

/-- **No two replacements are within one window**, whatever was seen in between. -/
theorem apart_of_watch (hrun : Run (look sender) s₀ tr s) {before mid after : List Sighting}
    {e g : Sighting} (htr : tr = before ++ e :: (mid ++ g :: after)) (he : e.out.isSome = true)
    (hg : g.out.isSome = true) : e.label.now + RECEIPT_TIMEOUT ≤ g.label.now := by
  subst htr
  rw [← List.cons_append, ← List.append_assoc] at hrun
  obtain ⟨hbefore, hstep, -⟩ := hrun.split
  obtain ⟨stall, hwatch, -, hdue⟩ := due_of_sent hstep hg
  have hwindow := (window_of_run hbefore e (by simp) he).2 stall hwatch
  have hlate := hdue.1
  omega

/-- **What the stall of a nonce knows of its replacements**, as long as it is not forgotten. -/
inductive Ledger (n : U64) (tr : List Sighting) : Option HeadStall → Prop
  /-- Nothing was sent, and all replacements are left, or none. -/
  | unsent {watch : Option HeadStall} (quiet : ∀ e ∈ tr, e.out = none)
      (fresh : ∀ stall, watch = some stall → stall.nonce = n →
        stall.lastTx = none ∧ (stall.bumps = 0 ∨ stall.bumps = MAX_FEE_BUMPS)) : Ledger n tr watch
  /-- The replacements are counted, and the ceiling is that of the first. -/
  | sent {stall : HeadStall} {prev : TransactionRequest} {cap : Fee} {first : Sighting}
      (nonce : stall.nonce = n) (last : stall.lastTx = some prev) (priced : Priced prev)
      (own : prev.nonce = some n) (ceiling : stall.ceiling = some cap)
      (counted : (tr.filter fun e => e.out.isSome).length ≤ stall.bumps)
      (bumps : stall.bumps ≤ MAX_FEE_BUMPS)
      (begun : tr.find? (fun e => e.out.isSome) = some first)
      (market : cap.toNat ≤ 4 * first.label.market.toNat)
      (cheap : ∀ e ∈ tr, ∀ tx, e.out = some tx →
        tx.nonce = some n ∧ (feeCap tx).toNat ≤ cap.toNat) : Ledger n tr (some stall)

theorem find?_snoc_sent {e first : Sighting}
    (h : tr.find? (fun e => e.out.isSome) = some first) :
    (tr ++ [e]).find? (fun e => e.out.isSome) = some first := by
  rw [List.find?_append, h, Option.some_or]

theorem find?_snoc_first {e : Sighting} (hquiet : ∀ g ∈ tr, g.out = none)
    (h : e.out.isSome = true) : (tr ++ [e]).find? (fun e => e.out.isSome) = some e := by
  have hnone : tr.find? (fun e => e.out.isSome) = none :=
    List.find?_eq_none.mpr fun g hg => by simp [hquiet g hg]
  rw [List.find?_append, hnone, Option.none_or, List.find?_singleton, if_pos h]

theorem filter_snoc_quiet {e : Sighting} (h : e.out = none) :
    ((tr ++ [e]).filter fun e => e.out.isSome) = tr.filter fun e => e.out.isSome := by
  rw [List.filter_append, List.filter_singleton, h]
  simp

theorem length_filter_snoc_sent {e : Sighting} (h : e.out.isSome = true) :
    ((tr ++ [e]).filter fun e => e.out.isSome).length =
      (tr.filter fun e => e.out.isSome).length + 1 := by
  rw [List.filter_append, List.filter_singleton, h]
  simp

/-- A step that sends nothing, of a stall that sent something before. -/
theorem Ledger.goesOn {watch : Option HeadStall} {stall stall' : HeadStall} {e : Sighting}
    (h : Ledger n tr watch) (hsent : SentFor n watch) (hwatch : watch = some stall)
    (hquiet : e.out = none) (hnonce : stall'.nonce = stall.nonce)
    (hlast : stall'.lastTx = stall.lastTx) (hceiling : stall'.ceiling = stall.ceiling)
    (hle : stall.bumps ≤ stall'.bumps) (hmax : stall'.bumps ≤ MAX_FEE_BUMPS) :
    Ledger n (tr ++ [e]) (some stall') := by
  subst hwatch
  cases h with
  | unsent _ fresh =>
    obtain ⟨stall', heq, hnonce, hlast⟩ := hsent
    rw [(fresh stall' heq hnonce).1] at hlast
    exact absurd hlast (by simp)
  | sent nonce last priced own ceiling counted bumps begun market cheap =>
    refine .sent (hnonce.trans nonce) (hlast.trans last) priced own (hceiling.trans ceiling) ?_
      hmax (find?_snoc_sent begun) market ?_
    · rw [filter_snoc_quiet hquiet]
      exact counted.trans hle
    · rintro g hg tx htx
      rcases List.mem_append.mp hg with hg | hg
      · exact cheap g hg tx htx
      · obtain rfl := List.mem_singleton.mp hg
        rw [hquiet] at htx
        cases htx

/-- A step that sends nothing, of a watch that sent nothing before. -/
theorem ledger_of_quiet {watch' : Option HeadStall} {e : Sighting}
    (hquiet : ∀ g ∈ tr, g.out = none) (he : e.out = none)
    (hfresh : ∀ stall, watch' = some stall → stall.nonce = n →
      stall.lastTx = none ∧ (stall.bumps = 0 ∨ stall.bumps = MAX_FEE_BUMPS)) :
    Ledger n (tr ++ [e]) watch' := by
  refine .unsent ?_ hfresh
  rintro g hg
  rcases List.mem_append.mp hg with hg | hg
  · exact hquiet g hg
  · obtain rfl := List.mem_singleton.mp hg
    exact he

/-- **One observation keeps the ledger**, unless it forgets a stall that a replacement was sent
for. -/
theorem Ledger.step (h : Ledger n tr s.watch) (hlatest : o.latest = n)
    (hcond : o.Flickers → ¬SentFor n s.watch) (hstep : look sender s o = some (s', out)) :
    Ledger n (tr ++ [⟨s, o, out, s'⟩]) s'.watch := by
  obtain ⟨hwatched, -, -⟩ := watched_of_look hstep
  generalize hwatch : s.watch = watch at hwatched h hcond
  generalize s'.watch = watch' at hwatched
  cases h with
  | unsent quiet fresh =>
    cases hwatched with
    | forgets => exact ledger_of_quiet quiet rfl fun _ h => absurd h (by simp)
    | notices =>
      refine ledger_of_quiet quiet rfl ?_
      rintro stall h -
      obtain rfl := Option.some.inj h
      exact ⟨rfl, .inl rfl⟩
    | @waits stall =>
      refine ledger_of_quiet quiet rfl ?_
      rintro stall' h hnonce
      obtain rfl := Option.some.inj h
      exact fresh stall rfl hnonce
    | @refuses stall =>
      refine ledger_of_quiet quiet rfl ?_
      rintro stall' h hnonce
      obtain rfl := Option.some.inj h
      exact ⟨(fresh stall rfl hnonce).1, .inr rfl⟩
    | @sends stall ceiling tx gap same due offered =>
      have hnonce : stall.nonce = n := same.trans hlatest
      obtain ⟨hfirst, hbumps⟩ := fresh stall rfl hnonce
      have hzero : stall.bumps = 0 := hbumps.resolve_right (ne_of_lt due.2)
      obtain ⟨cap, rfl, hmarket, hpriced, hown, hle⟩ := replacement_first hfirst offered
      rw [hnonce] at hown
      have hcount : (tr.filter fun e => e.out.isSome).length = 0 := by
        rw [List.length_eq_zero_iff, List.filter_eq_nil_iff]
        exact fun e he => by simp [quiet e he]
      have hbegun : (tr ++ [(⟨s, o, some tx, s'⟩ : Sighting)]).find? (fun e => e.out.isSome) =
          some (⟨s, o, some tx, s'⟩ : Sighting) := find?_snoc_first quiet rfl
      refine .sent hnonce rfl hpriced hown rfl ?_ due.2 hbegun hmarket ?_
      · rw [length_filter_snoc_sent rfl, hcount, hzero]
      · rintro g hg tx' htx'
        rcases List.mem_append.mp hg with hg | hg
        · exact absurd ((quiet g hg).symm.trans htx') (by simp)
        · obtain rfl := List.mem_singleton.mp hg
          obtain rfl := Option.some.inj htx'
          exact ⟨hown, hle⟩
  | @sent stall prev cap first nonce last priced own ceiling counted bumps begun market cheap =>
    have hsent : SentFor n (some stall) := ⟨stall, rfl, nonce, by rw [last]; rfl⟩
    have hledger : Ledger n tr (some stall) :=
      .sent nonce last priced own ceiling counted bumps begun market cheap
    cases hwatched with
    | forgets flicker => exact absurd hsent (hcond flicker)
    | notices _ other => exact absurd (nonce.trans hlatest.symm) (other stall rfl)
    | waits => exact hledger.goesOn hsent rfl rfl rfl rfl rfl le_rfl bumps
    | refuses _ _ _ refused =>
      exact hledger.goesOn hsent rfl rfl rfl rfl (replacement_refused last refused) bumps le_rfl
    | @sends _ ceiling' tx _ _ due offered =>
      obtain ⟨rfl, hpriced, hown, hle⟩ := replacement_later last ceiling priced offered
      refine .sent nonce rfl hpriced (hown.trans own) rfl ?_ due.2 (find?_snoc_sent begun) market ?_
      · rw [length_filter_snoc_sent rfl]
        exact Nat.add_le_add_right counted 1
      · rintro g hg tx' htx'
        rcases List.mem_append.mp hg with hg | hg
        · exact cheap g hg tx' htx'
        · obtain rfl := List.mem_singleton.mp hg
          obtain rfl := Option.some.inj htx'
          exact ⟨hown.trans own, hle⟩

/-- **While the next nonce is another**, the watch knows of no stall at this one. -/
theorem nonce_ne_of_run (hrun : Run (look sender) s₀ tr s) (h₀ : s₀.watch = none)
    (hother : ∀ e ∈ tr, e.label.latest ≠ n) :
    ∀ stall, s.watch = some stall → stall.nonce ≠ n := by
  refine hrun.rec_trace (P := fun tr s => (∀ e ∈ tr, e.label.latest ≠ n) →
    ∀ stall, s.watch = some stall → stall.nonce ≠ n) ?_ ?_ hother
  · rintro - stall h
    exact absurd (h₀.symm.trans h) (by simp)
  · rintro tr s o s' out - - hstep hother stall h
    have hne : o.latest ≠ n := hother ⟨s, o, out, s'⟩ (by simp)
    obtain ⟨hwatched, -, -⟩ := watched_of_look hstep
    rw [h] at hwatched
    generalize s.watch = watch at hwatched
    generalize hwatch' : some stall = watch' at hwatched
    cases hwatched with
    | forgets => exact absurd hwatch' (by simp)
    | notices =>
      obtain rfl := Option.some.inj hwatch'
      exact hne
    | waits _ same | refuses _ same | sends _ same =>
      obtain rfl := Option.some.inj hwatch'
      exact same ▸ hne

/-- **The ledger of a nonce is kept** while it is the next one. -/
theorem ledger_of_run {mid : WatchState} (hmid : ∀ stall, mid.watch = some stall → stall.nonce ≠ n)
    (hrun : Run (look sender) mid tr s) (hlatest : ∀ e ∈ tr, e.label.latest = n)
    (hcond : ∀ e ∈ tr, e.label.Flickers → ¬SentFor n e.pre.watch) : Ledger n tr s.watch := by
  refine hrun.rec_trace (P := fun tr s => (∀ e ∈ tr, e.label.latest = n) →
    (∀ e ∈ tr, e.label.Flickers → ¬SentFor n e.pre.watch) → Ledger n tr s.watch) ?_ ?_ hlatest hcond
  · rintro - -
    exact .unsent (fun _ h => absurd h List.not_mem_nil) fun stall h hnonce =>
      absurd hnonce (hmid stall h)
  · rintro tr s o s' out - ih hstep hlatest hcond
    have hkept := ih (fun e he => hlatest e (List.mem_append_left _ he))
      fun e he => hcond e (List.mem_append_left _ he)
    exact hkept.step (hlatest ⟨s, o, out, s'⟩ (by simp)) (hcond ⟨s, o, out, s'⟩ (by simp)) hstep

/-- **Unsticking the head is bounded**, as long as no observation forgets a stall that a
replacement was sent for: while the next nonce is the same, there are few replacements, a window
apart, and under the ceiling of the first. -/
theorem head_bounded {before : List Sighting} {mid : WatchState} {start : ℕ}
    (hbefore : Run (look sender) ⟨none, start⟩ before mid)
    (hother : ∀ e ∈ before, e.label.latest ≠ n)
    (hrun : Run (look sender) mid tr s) (hlatest : ∀ e ∈ tr, e.label.latest = n)
    (hcond : ∀ e ∈ tr, e.label.Flickers → ¬SentFor n e.pre.watch) : HeadRules n tr := by
  have hledger := ledger_of_run (nonce_ne_of_run hbefore rfl hother) hrun hlatest hcond
  generalize s.watch = watch at hledger
  refine ⟨?_, fun _ _ _ _ _ htr => apart_of_watch hrun htr, ?_⟩
  · cases hledger with
    | unsent quiet =>
      have hnil : (tr.filter fun e => e.out.isSome) = [] :=
        List.filter_eq_nil_iff.mpr fun e he => by simp [quiet e he]
      rw [hnil]
      exact Nat.zero_le _
    | sent _ _ _ _ _ counted bumps => exact counted.trans bumps
  · rintro first hfirst e he tx htx
    cases hledger with
    | unsent quiet => exact absurd ((quiet e he).symm.trans htx) (by simp)
    | sent _ _ _ _ _ _ _ begun market cheap =>
      obtain rfl := Option.some.inj (begun.symm.trans hfirst)
      exact ⟨(cheap e he tx htx).1, (cheap e he tx htx).2.trans market⟩

/-- The pool holds two transactions past nonce 7, at a market of some price. -/
def gapAt (now : ℕ) (price : Fee) : Observation := ⟨7, 9, false, now, some ⟨price, 1⟩, none⟩

/-- No gap for once. -/
def noGapAt (now : ℕ) : Observation := ⟨7, 7, false, now, none, none⟩

/-- A stall, and two replacements. -/
def twoReplacements : List Sighting × WatchState :=
  traceOf (look 0xca) ⟨none, 0⟩
    [gapAt 0 100, gapAt 120000000000 100, gapAt 240000000000 300]

theorem head_bounded_twoReplacements :
    (twoReplacements.1.filterMap Entry.out).map feeCap = [113, 300] ∧
      HeadRules 7 twoReplacements.1 := by
  have hsome : (runFrom (look 0xca) ⟨none, 0⟩
      [gapAt 0 100, gapAt 120000000000 100, gapAt 240000000000 300]).isSome = true := by decide
  have hlabels := label_traceOf hsome
  have hgap : ∀ e ∈ twoReplacements.1, e.label.latest = 7 ∧ ¬e.label.Flickers := by
    intro e he
    have hmem : e.label ∈ [gapAt 0 100, gapAt 120000000000 100, gapAt 240000000000 300] :=
      hlabels ▸ List.mem_map_of_mem he
    simp only [List.mem_cons, List.not_mem_nil, or_false] at hmem
    rcases hmem with h | h | h <;> rw [h] <;> decide
  exact ⟨by decide, head_bounded .nil (fun _ h => absurd h List.not_mem_nil) (run_traceOf hsome)
    (fun e he => (hgap e he).1) fun e he hflicker => absurd hflicker (hgap e he).2⟩

/-- The market goes up tenfold, and one observation in between finds no gap. -/
def flickered : List Sighting × WatchState :=
  traceOf (look 0xca) ⟨none, 0⟩
    [gapAt 0 100, gapAt 120000000000 100, noGapAt 130000000000, gapAt 140000000000 1000,
      gapAt 260000000000 1000]

/-- **One observation without a gap, and the watch starts over**: the next replacement of the
same nonce is priced at ten times the market of the first. -/
theorem starts_over : ¬ ∀ (sender : Address) (n : U64) (start : ℕ) (tr : List Sighting)
    (s : WatchState), Run (look sender) ⟨none, start⟩ tr s → (∀ e ∈ tr, e.label.latest = n) →
    HeadRules n tr := by
  intro h
  have hsome : (runFrom (look 0xca) ⟨none, 0⟩
      [gapAt 0 100, gapAt 120000000000 100, noGapAt 130000000000, gapAt 140000000000 1000,
        gapAt 260000000000 1000]).isSome = true := by decide
  have hlabels := label_traceOf hsome
  have hlatest : ∀ e ∈ flickered.1, e.label.latest = 7 := by
    intro e he
    have hmem : e.label ∈ [gapAt 0 100, gapAt 120000000000 100, noGapAt 130000000000,
      gapAt 140000000000 1000, gapAt 260000000000 1000] := hlabels ▸ List.mem_map_of_mem he
    simp only [List.mem_cons, List.not_mem_nil, or_false] at hmem
    rcases hmem with h | h | h | h | h <;> rw [h] <;> rfl
  have hrules := h 0xca 7 0 _ _ (run_traceOf hsome) hlatest
  have hfirst : (flickered.1.find? fun e => e.out.isSome).map (fun e => e.label.market) =
      some 100 := by decide
  obtain ⟨first, hfirst, hmarket⟩ := Option.map_eq_some_iff.mp hfirst
  have hdear : (flickered.1.any fun e => e.out.any fun tx => 1000 < (feeCap tx).toNat) = true := by
    decide
  obtain ⟨e, he, hdear⟩ := List.any_eq_true.mp hdear
  obtain ⟨tx, htx, hdear⟩ := (Option.any_eq_true _ _).mp hdear
  have hcheap := (hrules.cheap first hfirst e he tx htx).2
  have hhundred : first.label.market.toNat = 100 := by rw [hmarket]; rfl
  have hover := of_decide_eq_true hdear
  omega

end Keeper

end SelendraBridge
