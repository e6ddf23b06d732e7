import SelendraBridge.Lib.Dues
import SelendraBridge.Router.Behind

/-!
# What was delivered, and what is owed

The deliveries of a router are the claims of stable into it, read from the events of the
gate. The router itself keeps no list of them: it marks what is final and what is deferred,
and counts the debt in one number. That number is the sum of the deliveries that are
deferred and not final (`SelendraBridge.SwapRouter.Owes`), whatever is called in which order:

* a delivery that arrives is neither, since its id was not executed before and only what is
  executed is ever marked;
* a delivery that is deferred for the first time was counted by nobody, and is now;
* a delivery that settles is counted no more, if it was.

That a delivery is one, and of the amount that is booked, is what the gate says of the id.
-/

namespace SelendraBridge

namespace SwapRouter

open Revert Transition Scene Dues

variable {σ : Type} {S : Site σ} {std : Prop}

/-- The delivery that an event of the gate is: a claim of stable into the router. -/
def deliveryOf (here : Address) (g : Gate) (stable : Address) :
    Gate.Event → Option (Bytes32 × ℕ)
  | .claimed id d recipient amount =>
    if recipient = here ∧ g.tokenOf d = stable then some (id, amount.toNat) else none
  | _ => none

/-- **The deliveries**, under their ids. -/
def deliveries (S : Site σ) (s : Scene σ) (log : List Event) : List (Bytes32 × ℕ) :=
  (gateLog log).filterMap (deliveryOf S.here s.gate s.router.stable)

/-- Is a delivery with this id deferred and not final? -/
def isOwed (r : SwapRouter) (id : Bytes32) : Bool :=
  decide (r.deferredSince id ≠ 0) && !r.finalized id

variable {g₀ gw : Gate.World σ} {w w' : World σ} {s : Scene σ} {log log' : List Event}
  {strings strings' all : List Bytes} {gtr : List (Gate.Step σ)} {id : Bytes32} {n : ℕ}

@[simp] theorem deliveries_nil : deliveries S s [] = [] := rfl

@[simp] theorem deliveries_append :
    deliveries S s (log ++ log') = deliveries S s log ++ deliveries S s log' := by
  rw [deliveries, gateLog_append, List.filterMap_append, deliveries, deliveries]

theorem deliveries_of_gateLog (h : gateLog log = []) : deliveries S s log = [] := by
  rw [deliveries, h, List.filterMap_nil]

theorem mem_deliveries : (id, n) ∈ deliveries S s log ↔ ∃ d amount,
    .gate (.claimed id d S.here amount) ∈ log ∧ s.gate.tokenOf d = s.router.stable ∧
      amount.toNat = n := by
  rw [deliveries, List.mem_filterMap]
  constructor
  · rintro ⟨v, hv, he⟩
    cases v with
    | claimed id' d recipient amount =>
      rw [deliveryOf, Option.ite_none_right_eq_some, Option.some.injEq, Prod.mk.injEq] at he
      obtain ⟨⟨rfl, htoken⟩, rfl, rfl⟩ := he
      exact ⟨d, amount, mem_gateLog.mp hv, htoken, rfl⟩
    | _ => exact absurd he (by simp [deliveryOf])
  · rintro ⟨d, amount, hmem, htoken, rfl⟩
    exact ⟨_, mem_gateLog.mpr hmem, by rw [deliveryOf, if_pos ⟨rfl, htoken⟩]⟩

/-- A delivery bears the id of a claim. -/
theorem claimedId_of_deliveryOf {here stable : Address} {g : Gate} {v : Gate.Event}
    {i : Bytes32 × ℕ} (h : deliveryOf here g stable v = some i) :
    Gate.claimedId v = some i.1 := by
  cases v with
  | claimed id d recipient amount =>
    rw [deliveryOf, Option.ite_none_right_eq_some, Option.some.injEq] at h
    rw [Gate.claimedId, ← h.2]
  | _ => exact absurd h (by simp [deliveryOf])

/-- **No two deliveries have one id.** -/
theorem Behind.deliveries_nodup (B : Behind S g₀ w log strings gtr gw) :
    ((deliveries S w.scene log).map Prod.fst).Nodup :=
  B.claimed_nodup.sublist (names_sublist (fun _ _ => claimedId_of_deliveryOf) _)

/-- **A delivery that was shown is one**, of that amount. -/
theorem Behind.mem_deliveries_of_shown (B : Behind S g₀ w log strings gtr gw)
    {b : Gate.ClaimArgs} {amount : U256} (h : Shown S w.scene b id amount)
    (hcoll : CollisionFree S.chain.keccak256 all) (hs : ∀ bs ∈ strings, bs ∈ all)
    (hb : ∀ bs ∈ shownStrings S w.scene b, bs ∈ all) :
    (id, amount.toNat) ∈ deliveries S w.scene log := by
  obtain ⟨d, hmem, htoken⟩ := B.claimed_of_shown h hcoll hs hb
  exact mem_deliveries.mpr ⟨d, amount, hmem, htoken, rfl⟩

/-- **Deliveries so far stay** deliveries: a token of an asset is never replaced. -/
theorem Behind.deliveries_kept_of_subset (B : Behind S g₀ w log strings gtr gw)
    (h : Move S std w w' log' strings') {some_ : List Event} (hsub : ∀ v ∈ some_, v ∈ log) :
    deliveries S w'.scene some_ = deliveries S w.scene some_ := by
  refine List.filterMap_congr fun v hv => ?_
  cases v with
  | claimed id d recipient amount =>
    have hmem := hsub _ (mem_gateLog.mp hv)
    rw [deliveryOf, deliveryOf, (B.kept h).token d (B.executed_of_mem hmem).2, stable_of_move h]
  | _ => rfl

theorem Behind.deliveries_kept (B : Behind S g₀ w log strings gtr gw)
    (h : Move S std w w' log' strings') :
    deliveries S w'.scene log = deliveries S w.scene log :=
  B.deliveries_kept_of_subset h fun _ hv => hv

/-- Governing the gate delivers nothing. -/
theorem deliveries_of_govern {c : Call} {x : Gate.GovCall} {g g' : Gate} {tokens : σ}
    {l : List Gate.Event} (h : Gate.govern S.chain c g tokens x = .ok (g', l)) :
    deliveries S s (l.map .gate) = [] := by
  rw [deliveries, gateLog_map_gate]
  refine List.filterMap_eq_nil_iff.mpr fun v hv => ?_
  cases v with
  | claimed id d recipient amount =>
    exact absurd (Gate.not_pays_of_govern h _ hv) (by simp [Gate.Event.pays])
  | _ => rfl

/-- **What a transfer call of the gate delivers**: nothing, or one delivery, whose id was not
executed before and whose stable comes in. -/
theorem deliveries_of_transfer {c : Call} {x : Gate.TransferCall} {t : σ} {r : Gate.Done σ}
    (h : Gate.transfer S.chain c s.gate t x = .ok r) :
    deliveries S { s with gate := r.gate } (r.log.map .gate) = [] ∨
      ∃ n : U256, deliveries S { s with gate := r.gate } (r.log.map .gate) = [(r.id, n.toNat)] ∧
        s.gate.executed r.id = false ∧ (∃ a, x = .claim a) ∧
        (Standard S s.router.stable → Flows S s.router.stable n.toNat 0 t r.tokens) := by
  simp only [deliveries, gateLog_map_gate]
  cases x with
  | send a =>
    obtain ⟨wire, W⟩ := Gate.sends_of_send h
    exact .inl (by rw [W.log]; rfl)
  | cancel a => exact .inl (by rw [(Gate.cancels_of_cancel h).log]; rfl)
  | refund a =>
    obtain ⟨amount, W⟩ := Gate.refunds_of_refund h
    exact .inl (by rw [W.log]; rfl)
  | claim a =>
    obtain ⟨amount, recipient, C⟩ := Gate.claims_of_claim h
    rw [C.log]
    have htokens : r.gate.tokenOf = s.gate.tokenOf := by rw [C.gate]
    by_cases hin : recipient = S.here ∧ s.gate.tokenOf a.debridgeId = s.router.stable
    · obtain ⟨rfl, htoken⟩ := hin
      refine .inr ⟨amount, ?_, C.executed, ⟨a, rfl⟩, fun hstd => flows_claim (s := s) hstd C htoken⟩
      rw [List.filterMap_cons_some (b := (r.id, amount.toNat)) (by
        rw [deliveryOf, htokens, if_pos ⟨rfl, htoken⟩]), List.filterMap_nil]
    · refine .inl ?_
      rw [List.filterMap_cons_none (by rw [deliveryOf, htokens, if_neg hin]), List.filterMap_nil]

/-! ### The debt -/

/-- **What a router owes** is the sum of what is deferred and not final, and it marks only
what was executed. -/
structure Owes (S : Site σ) (w : World σ) (log : List Event) : Prop where
  now : w.now ≠ 0
  marked : ∀ id, w.scene.router.deferredSince id ≠ 0 ∨ w.scene.router.finalized id = true →
    w.scene.gate.executed id = true
  owed : w.scene.router.owedStable.toNat =
    due (deliveries S w.scene log) (isOwed w.scene.router)

/-- The debt at the start. -/
theorem owes_of_initial (h : Initial w) : Owes S w [] := by
  refine ⟨h.now, ?_, ?_⟩ <;> rw [h.router]
  · rintro id (hid | hid)
    · exact absurd rfl hid
    · exact absurd hid Bool.false_ne_true
  · rfl

/-- A move that delivers nothing and leaves the marks alone leaves the debt alone. -/
theorem Owes.same (O : Owes S w log) (hnow : w.now ≤ w'.now)
    (hk : Gate.Kept w.scene.gate w'.scene.gate)
    (hdeliveries : deliveries S w'.scene (log ++ log') = deliveries S w.scene log)
    (hfinalized : w'.scene.router.finalized = w.scene.router.finalized)
    (hdeferred : w'.scene.router.deferredSince = w.scene.router.deferredSince)
    (howed : w'.scene.router.owedStable = w.scene.router.owedStable) :
    Owes S w' (log ++ log') := by
  refine ⟨?_, fun id hid => ?_, ?_⟩
  · have hne := O.now
    omega
  · rw [hfinalized, hdeferred] at hid
    exact hk.executed id (O.marked id hid)
  · rw [hdeliveries, howed, O.owed]
    exact due_congr fun i _ => by rw [isOwed, isOwed, hfinalized, hdeferred]

/-- A delivery arrives, marked by nobody. -/
theorem Owes.arrives (O : Owes S w log) (hnow : w.now ≤ w'.now)
    (hk : Gate.Kept w.scene.gate w'.scene.gate) (hrouter : w'.scene.router = w.scene.router)
    (hnew : w.scene.gate.executed id = false)
    (hdeliveries : deliveries S w'.scene (log ++ log') = deliveries S w.scene log ++ [(id, n)]) :
    Owes S w' (log ++ log') := by
  have hnot : isOwed w.scene.router id = false := by
    rw [isOwed, Bool.and_eq_false_iff, decide_eq_false_iff_not]
    refine .inl fun hne => ?_
    exact absurd (O.marked id (.inl hne)) (by rw [hnew]; exact Bool.false_ne_true)
  refine ⟨?_, fun id' hid => ?_, ?_⟩
  · have hne := O.now
    omega
  · rw [hrouter] at hid
    exact hk.executed id' (O.marked id' hid)
  · rw [hdeliveries, due_snoc_closed (by rw [hrouter]; exact hnot), hrouter, O.owed]

/-- A delivery settles: if it was counted, it is no more. -/
theorem Owes.settles (O : Owes S w log) (hnow : w.now ≤ w'.now)
    (hk : Gate.Kept w.scene.gate w'.scene.gate) {amount : U256}
    (hset : Settled w.scene.router id amount w'.scene.router)
    (hmem : (id, amount.toNat) ∈ deliveries S w.scene log)
    (hnodup : ((deliveries S w.scene log).map Prod.fst).Nodup)
    (hexecuted : w.scene.gate.executed id = true)
    (hdeliveries : deliveries S w'.scene (log ++ log') = deliveries S w.scene log) :
    Owes S w' (log ++ log') := by
  have hclosed : isOwed w'.scene.router id = false := by
    rw [isOwed, hset.finalized, Function.update_self, Bool.not_true, Bool.and_false]
  have hother : ∀ x, x ≠ id → isOwed w'.scene.router x = isOwed w.scene.router x := by
    intro x hx
    rw [isOwed, isOwed, hset.finalized, hset.deferredSince, Function.update_of_ne hx]
  refine ⟨?_, fun id' hid => ?_, ?_⟩
  · have hne := O.now
    omega
  · rw [hset.finalized, hset.deferredSince] at hid
    refine hk.executed id' ?_
    rcases eq_or_ne id' id with rfl | hne
    · exact hexecuted
    · rw [Function.update_of_ne hne] at hid
      exact O.marked id' hid
  · rw [hdeliveries]
    have howed := hset.owedStable
    have hO := O.owed
    rcases eq_or_ne (w.scene.router.deferredSince id) 0 with h0 | hne
    · -- It was not counted.
      rw [if_pos h0] at howed
      have hwas : isOwed w.scene.router id = false := by
        rw [isOwed, h0]
        rfl
      have hsame : due (deliveries S w.scene log) (isOwed w'.scene.router) =
          due (deliveries S w.scene log) (isOwed w.scene.router) := by
        refine due_congr fun i _ => ?_
        rcases eq_or_ne i.1 id with he | hne
        · rw [he, hclosed, hwas]
        · exact hother i.1 hne
      omega
    · rw [if_neg hne] at howed
      have hwas : isOwed w.scene.router id = true := by
        rw [isOwed, hset.new, decide_eq_true hne]
        rfl
      have hclose := due_close hnodup hmem hwas hclosed hother
      omega

/-- A delivery is deferred: it is counted, if it was not. -/
theorem Owes.defers (O : Owes S w log) (hnow : w.now ≤ w'.now)
    (hk : Gate.Kept w.scene.gate w'.scene.gate) {c : Call} {amount : U256}
    (hdef : Deferred c w.scene.router id amount w'.scene.router) (htime : w'.now = c.timestamp)
    (hmem : (id, amount.toNat) ∈ deliveries S w.scene log)
    (hnodup : ((deliveries S w.scene log).map Prod.fst).Nodup)
    (hexecuted : w.scene.gate.executed id = true)
    (hdeliveries : deliveries S w'.scene (log ++ log') = deliveries S w.scene log) :
    Owes S w' (log ++ log') := by
  have hne := O.now
  have hpos : w'.now ≠ 0 := by omega
  have hsince : w'.scene.router.deferredSince id ≠ 0 := by
    rw [hdef.deferredSince, Function.update_self]
    exact deferredFrom_ne_zero (htime ▸ hpos)
  have hnow_owed : isOwed w'.scene.router id = true := by
    rw [isOwed, hdef.finalized, hdef.new, decide_eq_true hsince]
    rfl
  have hother : ∀ x, x ≠ id → isOwed w.scene.router x = isOwed w'.scene.router x := by
    intro x hx
    rw [isOwed, isOwed, hdef.finalized, hdef.deferredSince, Function.update_of_ne hx]
  refine ⟨hpos, fun id' hid => hk.executed id' ?_, ?_⟩
  · rcases eq_or_ne id' id with rfl | hne
    · exact hexecuted
    · rw [hdef.finalized, hdef.deferredSince, Function.update_of_ne hne] at hid
      exact O.marked id' hid
  · rw [hdeliveries]
    have howed := hdef.owedStable
    have hO := O.owed
    rcases eq_or_ne (w.scene.router.deferredSince id) 0 with h0 | hne
    · rw [if_pos h0] at howed
      have hwas : isOwed w.scene.router id = false := by
        rw [isOwed, h0]
        rfl
      -- The sum before is the sum after without this one.
      have hclose := due_close hnodup hmem hnow_owed hwas hother
      omega
    · rw [if_neg hne] at howed
      have hsame : due (deliveries S w.scene log) (isOwed w'.scene.router) =
          due (deliveries S w.scene log) (isOwed w.scene.router) := by
        refine due_congr fun i _ => ?_
        rcases eq_or_ne i.1 id with he | hnei
        · rw [he, hnow_owed, isOwed, hdef.new, decide_eq_true hne]
          rfl
        · exact (hother i.1 hnei).symm
      omega

/-- **Every move keeps the debt exact.** -/
theorem owes_of_move (hcoll : CollisionFree S.chain.keccak256 all)
    (B : Behind S g₀ w log strings gtr gw) (O : Owes S w log)
    (hm : Move S std w w' log' strings') (hs : ∀ bs ∈ strings, bs ∈ all)
    (hs' : ∀ bs ∈ strings', bs ∈ all) : Owes S w' (log ++ log') := by
  have hk := B.kept hm
  have hold := B.deliveries_kept hm
  have hnone : deliveries S w'.scene log' = [] →
      deliveries S w'.scene (log ++ log') = deliveries S w.scene log := by
    intro h
    rw [deliveries_append, hold, h, List.append_nil]
  have hof : w'.scene.router.accounts = w.scene.router.accounts → w.now ≤ w'.now →
      gateLog log' = [] → Owes S w' (log ++ log') := fun ha hnow hlog =>
    O.same hnow hk (hnone (deliveries_of_gateLog hlog)) (congrArg Accounts.finalized ha)
      (congrArg Accounts.deferredSince ha) (congrArg Accounts.owedStable ha)
  cases hm with
  | idle still accounts _ _ quiet => exact hof accounts still.now (gateLog_of_quiet quiet)
  | govern _ now call post =>
    subst post
    exact O.same now hk (hnone (deliveries_of_govern call)) rfl rfl rfl
  | @transfer c x r running now call own post =>
    subst post
    rcases deliveries_of_transfer (s := w.scene) call with h | ⟨n, h, hnew, -, -⟩
    · exact O.same now hk (hnone h) rfl rfl rfl
    · refine O.arrives (n := n.toNat) now hk rfl hnew ?_
      rw [deliveries_append, hold]
      exact congrArg _ h
  | @bridged c a t g plog tokenIn amountIn chainIdTo finalToken finalReceiver _ now _ call gate _
      now' accounts _ _ quiet =>
    refine O.same (now'.symm ▸ now) hk (hnone ?_) (congrArg Accounts.finalized accounts)
      (congrArg Accounts.deferredSince accounts) (congrArg Accounts.owedStable accounts)
    obtain ⟨wire, W⟩ := Gate.sends_of_send call
    rw [deliveries_append, deliveries_append, deliveries_of_gateLog (gateLog_of_quiet quiet),
      W.log]
    rfl
  | settled still shown settled _ event =>
    exact O.settles still.now hk settled (B.mem_deliveries_of_shown shown hcoll hs hs')
      B.deliveries_nodup shown.executed (hnone (deliveries_of_gateLog (gateLog_of_settles event)))
  | deferred still now shown deferred _ =>
    exact O.defers still.now hk deferred now (B.mem_deliveries_of_shown shown hcoll hs hs')
      B.deliveries_nodup shown.executed (hnone rfl)
  | forwarded still _ forwarded _ =>
    exact O.same still.now hk (hnone rfl) forwarded.finalized forwarded.deferredSince
      forwarded.owedStable
  | scheduled still _ schedules => exact hof schedules.accounts still.now rfl
  | dropped still _ accounts _ => exact hof accounts still.now rfl
  | swept still executes => exact hof executes.accounts still.now rfl

/-- **What a router owes, after any moves.** -/
theorem owes_of_moves {w₀ : World σ} (h₀ : Initial w₀)
    (hcoll : CollisionFree S.chain.keccak256 all) (h : Moves S std w₀ w log strings)
    (hs : ∀ bs ∈ strings, bs ∈ all) : Owes S w log := by
  refine (h.invariant_behind (P := fun w log strings => (∀ bs ∈ strings, bs ∈ all) →
    Owes S w log) h₀.gate (fun _ => owes_of_initial h₀) ?_).1 hs
  intro w₁ w₂ log log' strings strings' gtr gw B ih hm hall
  have hs : ∀ bs ∈ strings, bs ∈ all := fun bs hbs => hall bs (List.mem_append_left _ hbs)
  exact owes_of_move hcoll B (ih hs) hm hs fun bs hbs => hall bs (List.mem_append_right _ hbs)

end SwapRouter

end SelendraBridge
