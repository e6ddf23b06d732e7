import Mathlib.Data.List.DropRight
import SelendraBridge.Router.Settlement

/-!
# The sweep of stable, and what arrives after its notice

A sweep takes what was free at its notice and did not go out since, and no more than what is
free now. What arrives after the notice – the late deliveries – is meant to be out of its
reach. Let the room of a pending notice be what is in the balance beyond what it must leave:
what was free, less what went out since, is at most

* the balance, less the debt, less the late deliveries.

So it is when the notice is filed, and so it stays as deliveries arrive, settle and refunds
are passed on: what leaves the balance is added to what went out, or taken off the debt. One
move breaks it. A delivery that came before the notice counted as free; when it is deferred
under the notice it becomes a debt, and nothing goes out. Its stable is then in the balance
once, and is counted twice, as what was free and as what is owed; a late delivery makes up
the difference, and the sweep takes it (`SelendraBridge.SwapRouter.sweep_of_bait`). Without
that move no sweep touches a late delivery (`SelendraBridge.SwapRouter.sweep_leaves_late`).
-/

namespace SelendraBridge

namespace SwapRouter

open Revert Transition Scene Dues

variable {σ : Type} {S : Site σ}

/-! ### Notices, in the events -/

/-- What an event says of the notice: that it is filed, or that it is gone. -/
def Event.notice : Event → Option Bool
  | .stableRescueScheduled _ _ _ => some true
  | .stableRescueCancelled _ => some false
  | .stableRescued _ _ => some false
  | _ => none

/-- Is a notice pending? -/
def isNoticed (log : List Event) : Bool :=
  ((log.filterMap Event.notice).getLast?).getD false

/-- Does an event not file a notice? -/
def Event.isLate (v : Event) : Bool := v.notice != some true

/-- What happened since the last notice was filed. -/
def sinceNotice (log : List Event) : List Event := log.rtakeWhile Event.isLate

/-- The ids that were claimed. -/
def claimedIds (log : List Event) : List Bytes32 := (gateLog log).filterMap Gate.claimedId

/-- **Does an event defer, for the first time and under a notice, what was delivered before
the notice?** -/
def baits (past : List Event) (v : Event) : Bool :=
  match deferredId v with
  | some id => isNoticed past && !(deferredIds past).contains id &&
      !(claimedIds (sinceNotice past)).contains id
  | none => false

/-- Does none of the events, after some others? -/
def unbaitedFrom (past : List Event) : List Event → Bool
  | [] => true
  | v :: rest => !baits past v && unbaitedFrom (past ++ [v]) rest

/-- **No delivery is deferred for the first time under a notice that was filed after it
came.** -/
def unbaited (log : List Event) : Bool := unbaitedFrom [] log

/-- The late deliveries that are neither final nor deferred. -/
def late (S : Site σ) (w : World σ) (log : List Event) : ℕ :=
  due (deliveries S w.scene (sinceNotice log)) (isPending w.scene.router)

variable {w w' : World σ} {log log' : List Event} {id : Bytes32} {v : Event}

theorem unbaitedFrom_append {past : List Event} :
    unbaitedFrom past (log ++ log') =
      (unbaitedFrom past log && unbaitedFrom (past ++ log) log') := by
  induction log generalizing past with
  | nil => simp [unbaitedFrom]
  | cons v log ih =>
    rw [List.cons_append, unbaitedFrom, ih, unbaitedFrom, List.append_assoc, List.singleton_append,
      Bool.and_assoc]

/-- Later events take nothing back. -/
theorem unbaited_of_append (h : unbaited (log ++ log') = true) : unbaited log = true := by
  rw [unbaited, unbaitedFrom_append, Bool.and_eq_true] at h
  exact h.1

/-- The last event of an unbaited run does not bait. -/
theorem not_baits_of_unbaited (h : unbaited (log ++ [v]) = true) : baits log v = false := by
  rw [unbaited, unbaitedFrom_append, Bool.and_eq_true, List.nil_append, unbaitedFrom,
    Bool.and_eq_true, Bool.not_eq_true'] at h
  exact h.2.1

/-- Events that say nothing of notices leave the pending one. -/
theorem isNoticed_append (h : log'.filterMap Event.notice = []) :
    isNoticed (log ++ log') = isNoticed log := by
  rw [isNoticed, List.filterMap_append, h, List.append_nil, isNoticed]

theorem isNoticed_snoc {b : Bool} (h : v.notice = some b) : isNoticed (log ++ [v]) = b := by
  rw [isNoticed, List.filterMap_append, List.filterMap_cons_some h, List.filterMap_nil,
    List.getLast?_concat, Option.getD_some]

theorem sinceNotice_append (h : ∀ v ∈ log', v.isLate = true) :
    sinceNotice (log ++ log') = sinceNotice log ++ log' := by
  induction log' using List.reverseRecOn with
  | nil => simp
  | append_singleton log' v ih =>
    rw [← List.append_assoc, sinceNotice, List.rtakeWhile_concat_pos _ _ _ (h v (by simp)),
      ← sinceNotice, ih fun u hu => h u (List.mem_append_left _ hu), List.append_assoc]

theorem sinceNotice_snoc (h : v.isLate = false) : sinceNotice (log ++ [v]) = [] :=
  List.rtakeWhile_concat_neg _ _ _ (by rw [h]; exact Bool.false_ne_true)

/-- Events that say nothing of notices file none. -/
theorem isLate_of_notice (h : log.filterMap Event.notice = []) : ∀ v ∈ log, v.isLate = true := by
  intro v hv
  rw [Event.isLate, List.filterMap_eq_nil_iff.mp h v hv]
  rfl

/-- What happened is what happened before the last notice, and since. -/
theorem exists_before_notice (log : List Event) : ∃ earlier, log = earlier ++ sinceNotice log := by
  obtain ⟨earlier, h⟩ := List.rtakeWhile_suffix Event.isLate log
  exact ⟨earlier, h.symm⟩

theorem notice_of_quiet (h : ∀ v ∈ log, v.quiet = true) : log.filterMap Event.notice = [] :=
  List.filterMap_eq_nil_iff.mpr fun v hv => by
    cases v with
    | stableRescueScheduled _ _ _ => exact absurd (h _ hv) Bool.false_ne_true
    | stableRescueCancelled _ => exact absurd (h _ hv) Bool.false_ne_true
    | stableRescued _ _ => exact absurd (h _ hv) Bool.false_ne_true
    | _ => rfl

@[simp] theorem notice_map_gate (l : List Gate.Event) :
    (l.map Event.gate).filterMap Event.notice = [] :=
  List.filterMap_eq_nil_iff.mpr fun v hv => by
    obtain ⟨e, -, rfl⟩ := List.mem_map.mp hv
    rfl

@[simp] theorem notice_map_pool (l : List SwapPool.Event) :
    (l.map Event.pool).filterMap Event.notice = [] :=
  List.filterMap_eq_nil_iff.mpr fun v hv => by
    obtain ⟨e, -, rfl⟩ := List.mem_map.mp hv
    rfl

theorem notice_of_settles {plog : List SwapPool.Event} (h : v.settles = some id) :
    (plog.map Event.pool ++ [v]).filterMap Event.notice = [] := by
  rw [List.filterMap_append, notice_map_pool]
  cases v with
  | finalized _ _ _ _ _ _ => rfl
  | finalizeFallback _ _ _ => rfl
  | _ => exact absurd h (by simp [Event.settles])

/-! ### The room of a notice -/

variable {g₀ gw : Gate.World σ} {strings strings' all : List Bytes} {gtr : List (Gate.Step σ)}
  {amount : U256}

/-- **While a notice is pending**, what was free and did not go out, the debt and the late
deliveries are in the balance together. -/
structure Covered (S : Site σ) (w : World σ) (log : List Event) : Prop where
  noticed : isNoticed log = decide (w.scene.router.pendingStableRescue.readyAt ≠ 0)
  never : ∀ id, w.scene.router.deferredSince id = 0 → id ∉ deferredIds log
  amount : w.scene.router.pendingStableRescue.readyAt ≠ 0 →
    w.scene.router.pendingStableRescue.amount ≠ 0
  room : w.scene.router.pendingStableRescue.readyAt ≠ 0 →
    w.scene.router.pendingStableRescue.freeAtSchedule.toNat +
        w.scene.router.pendingStableRescue.settledOutAtSchedule.toNat +
        w.scene.router.owedStable.toNat + late S w log ≤
      (w.scene.balance S).toNat + w.scene.router.stableSettledOut.toNat

/-- There is no notice at the start. -/
theorem covered_of_initial (h : Initial w) : Covered S w [] := by
  refine ⟨?_, fun _ _ => List.not_mem_nil, ?_, ?_⟩ <;> rw [h.router]
  · rfl
  · exact fun hne => absurd rfl hne
  · exact fun hne => absurd rfl hne

/-- **A move under the notice** keeps the room when what it adds to the debt and to the late
deliveries comes in, or is taken off one of them, and what goes out is counted. -/
theorem Covered.keep (C : Covered S w log) {gain cost : ℕ}
    (hstable : w'.scene.router.stable = w.scene.router.stable)
    (hpending : w'.scene.router.pendingStableRescue = w.scene.router.pendingStableRescue)
    (hnotice : log'.filterMap Event.notice = [])
    (hnever : ∀ id, w'.scene.router.deferredSince id = 0 → id ∉ deferredIds (log ++ log'))
    (hflows : Flows S w.scene.router.stable gain cost w.scene.tokens w'.scene.tokens)
    (haccount : w.scene.router.pendingStableRescue.readyAt ≠ 0 →
      w'.scene.router.owedStable.toNat + late S w' (log ++ log') + cost +
          w.scene.router.stableSettledOut.toNat ≤
        w.scene.router.owedStable.toNat + late S w log + gain +
          w'.scene.router.stableSettledOut.toNat) : Covered S w' (log ++ log') := by
  refine ⟨?_, hnever, ?_, fun hready => ?_⟩
  · rw [isNoticed_append hnotice, hpending]
    exact C.noticed
  · rw [hpending]
    exact C.amount
  · rw [hpending] at hready ⊢
    have hroom := C.room hready
    have hmove := haccount hready
    rw [Flows] at hflows
    rw [balance] at hroom ⊢
    rw [hstable]
    omega

/-- What is pending depends on the marks only. -/
theorem isPending_congr (hfinalized : w'.scene.router.finalized = w.scene.router.finalized)
    (hdeferred : w'.scene.router.deferredSince = w.scene.router.deferredSince) :
    isPending w'.scene.router = isPending w.scene.router := by
  funext id
  rw [isPending, isPending, hfinalized, hdeferred]

/-- What comes in late is late, as long as nothing is marked. -/
theorem late_append (hnotice : log'.filterMap Event.notice = [])
    (hkept : deliveries S w'.scene (sinceNotice log) = deliveries S w.scene (sinceNotice log))
    (hfinalized : w'.scene.router.finalized = w.scene.router.finalized)
    (hdeferred : w'.scene.router.deferredSince = w.scene.router.deferredSince) :
    late S w' (log ++ log') =
      late S w log + due (deliveries S w'.scene log') (isPending w.scene.router) := by
  rw [late, sinceNotice_append (isLate_of_notice hnotice), deliveries_append, due_append, hkept,
    isPending_congr hfinalized hdeferred, late]

/-- Nothing more is late when nothing comes in and marks are only added. -/
theorem late_le (hnotice : log'.filterMap Event.notice = [])
    (hkept : deliveries S w'.scene (sinceNotice log) = deliveries S w.scene (sinceNotice log))
    (hnone : deliveries S w'.scene log' = [])
    (hmarks : ∀ id, isPending w'.scene.router id = true → isPending w.scene.router id = true) :
    late S w' (log ++ log') ≤ late S w log := by
  rw [late, sinceNotice_append (isLate_of_notice hnotice), deliveries_append, hnone,
    List.append_nil, hkept]
  exact due_mono fun i _ => hmarks i.1

/-- **What was delivered and claimed since the notice was delivered since the notice.** -/
theorem mem_late_of_claimed (B : Behind S g₀ w log strings gtr gw) {n : ℕ}
    (hmem : (id, n) ∈ deliveries S w.scene log) (hclaimed : id ∈ claimedIds (sinceNotice log)) :
    (id, n) ∈ deliveries S w.scene (sinceNotice log) := by
  obtain ⟨earlier, hlog⟩ := exists_before_notice log
  have hnodup := B.claimed_nodup
  rw [hlog] at hmem hnodup
  rw [gateLog_append, List.filterMap_append] at hnodup
  rw [deliveries_append] at hmem
  rcases List.mem_append.mp hmem with hmem | hmem
  · -- Then the id was claimed twice.
    obtain ⟨d, amount, hevent, -, -⟩ := mem_deliveries.mp hmem
    have hfirst : id ∈ (gateLog earlier).filterMap Gate.claimedId :=
      List.mem_filterMap.mpr ⟨_, mem_gateLog.mpr hevent, rfl⟩
    exact absurd rfl ((List.nodup_append.mp hnodup).2.2 id hfirst id hclaimed)
  · exact hmem

/-- **A delivery settles under the notice**: what leaves is counted, or is taken off the
debt. -/
theorem Covered.settles (C : Covered S w log)
    (hkept : deliveries S w'.scene (sinceNotice log) = deliveries S w.scene (sinceNotice log))
    (hset : Settled w.scene.router id amount w'.scene.router)
    (hflows : Flows S w.scene.router.stable 0 amount.toNat w.scene.tokens w'.scene.tokens)
    {plog : List SwapPool.Event} (hlog : log' = plog.map Event.pool ++ [v])
    (hv : v.settles = some id) : Covered S w' (log ++ log') := by
  have hnotice : log'.filterMap Event.notice = [] := hlog ▸ notice_of_settles hv
  have hnone : deliveries S w'.scene log' = [] :=
    deliveries_of_gateLog (hlog ▸ gateLog_of_settles hv)
  have hdeferred : deferredIds log' = [] := by
    rw [hlog, marks_append.2, (marks_map_pool plog).2]
    exact List.filterMap_cons_none (deferredId_of_settles hv)
  refine C.keep hset.stable hset.pending hnotice (fun x hx => ?_) hflows fun _ => ?_
  · rw [marks_append.2, hdeferred, List.append_nil]
    rw [hset.deferredSince] at hx
    exact C.never x hx
  · have hlate : late S w' (log ++ log') ≤ late S w log := by
      refine late_le hnotice hkept hnone fun x hx => ?_
      rw [isPending, hset.finalized, hset.deferredSince, Bool.and_eq_true] at hx
      rw [isPending, Bool.and_eq_true]
      refine ⟨?_, hx.2⟩
      rw [Bool.not_eq_true', Bool.eq_false_iff] at hx ⊢
      exact fun hfin => hx.1 (Gate.update_true_of_true hfin)
    have howed := hset.owedStable
    have hout := hset.stableSettledOut
    rcases eq_or_ne (w.scene.router.deferredSince id) 0 with h0 | hne
    · -- It was no debt, so it counts as gone out.
      rw [if_pos h0] at howed
      rw [h0, show debits w.scene.router 0 = true from decide_eq_true (.inl rfl),
        if_pos rfl] at hout
      omega
    · rw [if_neg hne] at howed
      have hle : w.scene.router.stableSettledOut.toNat ≤
          w'.scene.router.stableSettledOut.toNat := by
        omega
      omega

/-- **A delivery is deferred under the notice**: if it is for the first time, the delivery was
late, and is owed instead. -/
theorem Covered.defers (C : Covered S w log) (B : Behind S g₀ w log strings gtr gw)
    (hkept : deliveries S w'.scene (sinceNotice log) = deliveries S w.scene (sinceNotice log))
    {c : Call} (hdef : Deferred c w.scene.router id amount w'.scene.router)
    (htime : c.timestamp ≠ 0) (hmem : (id, amount.toNat) ∈ deliveries S w.scene log)
    (hflows : Flows S w.scene.router.stable 0 0 w.scene.tokens w'.scene.tokens)
    {finalReceiver finalToken : Address} {retryAfter : ℕ}
    (hlog : log' = [.finalizeDeferred id finalReceiver finalToken retryAfter])
    (hbaits : baits log (.finalizeDeferred id finalReceiver finalToken retryAfter) = false) :
    Covered S w' (log ++ log') := by
  subst hlog
  have hsince : w'.scene.router.deferredSince id ≠ 0 := by
    rw [hdef.deferredSince, Function.update_self]
    exact deferredFrom_ne_zero htime
  have hother : ∀ x, x ≠ id → isPending w'.scene.router x = isPending w.scene.router x := by
    intro x hx
    rw [isPending, isPending, hdef.finalized, hdef.deferredSince, Function.update_of_ne hx]
  have hclosed : isPending w'.scene.router id = false := by
    rw [isPending, decide_eq_true hsince, Bool.not_true, Bool.and_false]
  refine C.keep hdef.stable hdef.pending rfl (fun x hx => ?_) hflows fun hready => ?_
  · rw [marks_append.2]
    rcases eq_or_ne x id with rfl | hne
    · exact absurd hx hsince
    · rw [hdef.deferredSince, Function.update_of_ne hne] at hx
      rw [List.mem_append, not_or]
      exact ⟨C.never x hx, fun hin => hne (List.mem_singleton.mp hin)⟩
  · have howed := hdef.owedStable
    have hlate : late S w' (log ++ [.finalizeDeferred id finalReceiver finalToken retryAfter]) =
        due (deliveries S w.scene (sinceNotice log)) (isPending w'.scene.router) := by
      rw [late, sinceNotice_append (by simp [Event.isLate, Event.notice]), deliveries_append,
        show deliveries S w'.scene [.finalizeDeferred id finalReceiver finalToken retryAfter] = []
          from rfl, List.append_nil, hkept]
    rw [hlate, hdef.stableSettledOut]
    rcases eq_or_ne (w.scene.router.deferredSince id) 0 with h0 | hne
    · rw [if_pos h0] at howed
      -- It is no bait, so it came since the notice.
      have hclaimed : id ∈ claimedIds (sinceNotice log) := by
        have hnoticed : isNoticed log = true := C.noticed.trans (decide_eq_true hready)
        rw [baits, show deferredId (.finalizeDeferred id finalReceiver finalToken retryAfter) =
          some id from rfl] at hbaits
        simpa [hnoticed, C.never id h0] using hbaits
      have hopen : isPending w.scene.router id = true := by
        rw [isPending, hdef.new, h0]
        rfl
      have hnodup : ((deliveries S w.scene (sinceNotice log)).map Prod.fst).Nodup := by
        obtain ⟨earlier, hsplit⟩ := exists_before_notice log
        have hall := B.deliveries_nodup
        rw [hsplit, deliveries_append, List.map_append] at hall
        exact (List.nodup_append.mp hall).2.1
      have hclose := due_close hnodup (mem_late_of_claimed B hmem hclaimed) hopen hclosed hother
      rw [late]
      omega
    · rw [if_neg hne] at howed
      have hle : due (deliveries S w.scene (sinceNotice log)) (isPending w'.scene.router) ≤
          due (deliveries S w.scene (sinceNotice log)) (isPending w.scene.router) := by
        refine due_mono fun j _ hj => ?_
        rcases eq_or_ne j.1 id with he | hnej
        · rw [he, hclosed] at hj
          exact absurd hj Bool.false_ne_true
        · rwa [← hother j.1 hnej]
      rw [late]
      omega

/-- **Every move of an unbaited run keeps the room.** -/
theorem covered_of_move (hcoll : CollisionFree S.chain.keccak256 all)
    (B : Behind S g₀ w log strings gtr gw) (C : Covered S w log) (O : Owes S w log)
    (hstd : Standard S w.scene.router.stable) (hm : Move S True w w' log' strings')
    (hs : ∀ bs ∈ strings ++ strings', bs ∈ all) (hbait : unbaited (log ++ log') = true) :
    Covered S w' (log ++ log') := by
  have hkept := B.deliveries_kept_of_subset hm fun v hv =>
    (List.rtakeWhile_suffix Event.isLate log).subset hv
  have hstable := stable_of_move hm
  have hs₁ : ∀ bs ∈ strings, bs ∈ all := fun bs hbs => hs bs (List.mem_append_left _ hbs)
  have hs₂ : ∀ bs ∈ strings', bs ∈ all := fun bs hbs => hs bs (List.mem_append_right _ hbs)
  -- A move that marks nothing, says nothing of notices and has `n` come in late.
  have hcome : ∀ n : ℕ, w'.scene.router.accounts = w.scene.router.accounts →
      w'.scene.router.pendingStableRescue = w.scene.router.pendingStableRescue →
      log'.filterMap Event.notice = [] → deferredIds log' = [] →
      due (deliveries S w'.scene log') (isPending w.scene.router) ≤ n →
      Flows S w.scene.router.stable n 0 w.scene.tokens w'.scene.tokens →
      Covered S w' (log ++ log') := by
    intro n ha hpending hnotice hdeferred hn hflows
    have hsince : w'.scene.router.deferredSince = w.scene.router.deferredSince :=
      congrArg Accounts.deferredSince ha
    have howed : w'.scene.router.owedStable = w.scene.router.owedStable :=
      congrArg Accounts.owedStable ha
    have hout : w'.scene.router.stableSettledOut = w.scene.router.stableSettledOut :=
      congrArg Accounts.stableSettledOut ha
    refine C.keep hstable hpending hnotice (fun x hx => ?_) hflows fun _ => ?_
    · rw [marks_append.2, hdeferred, List.append_nil]
      rw [hsince] at hx
      exact C.never x hx
    · rw [late_append hnotice hkept (congrArg Accounts.finalized ha) hsince, howed, hout]
      omega
  have hquiet : w'.scene.router.accounts = w.scene.router.accounts →
      w'.scene.router.pendingStableRescue = w.scene.router.pendingStableRescue →
      log'.filterMap Event.notice = [] → deferredIds log' = [] →
      deliveries S w'.scene log' = [] →
      Flows S w.scene.router.stable 0 0 w.scene.tokens w'.scene.tokens →
      Covered S w' (log ++ log') := fun ha hpending hnotice hdeferred hnone hflows =>
    hcome 0 ha hpending hnotice hdeferred (by rw [hnone]; exact le_rfl) hflows
  -- A move that takes the notice away.
  have hgone : w'.scene.router.accounts = w.scene.router.accounts →
      w'.scene.router.pendingStableRescue = .none → deferredIds log' = [] →
      isNoticed (log ++ log') = false → Covered S w' (log ++ log') := by
    intro ha hpending hdeferred hnoticed
    have hsince : w'.scene.router.deferredSince = w.scene.router.deferredSince :=
      congrArg Accounts.deferredSince ha
    refine ⟨?_, fun x hx => ?_, ?_, ?_⟩
    · rw [hnoticed, hpending]
      rfl
    · rw [marks_append.2, hdeferred, List.append_nil]
      rw [hsince] at hx
      exact C.never x hx
    · exact fun hready => absurd (congrArg StableRescue.readyAt hpending) hready
    · exact fun hready => absurd (congrArg StableRescue.readyAt hpending) hready
  have howes := owes_of_move hcoll B O hm hs₁ hs₂
  cases hm with
  | idle still accounts pending flows quiet =>
    exact hquiet accounts pending (notice_of_quiet quiet) (marks_of_quiet quiet).2
      (deliveries_of_gateLog (gateLog_of_quiet quiet)) (flows trivial)
  | govern _ now call post =>
    subst post
    exact hquiet rfl rfl (notice_map_gate _) (marks_map_gate _).2 (deliveries_of_govern call)
      Flows.refl
  | @transfer c x r running now call own post =>
    subst post
    rcases deliveries_of_transfer (s := w.scene) call with hnone | ⟨n, hone, -, -, hflows⟩
    · exact hquiet rfl rfl (notice_map_gate _) (marks_map_gate _).2 hnone
        (flows_gate hstd own call)
    · refine hcome n.toNat rfl rfl (notice_map_gate _) (marks_map_gate _).2 ?_ (hflows hstd)
      have hdue := congrArg (fun l => due l (isPending w.scene.router)) hone
      refine le_trans (le_of_eq hdue) ?_
      rw [due_cons, due_nil]
      split <;> omega
  | @bridged c a t g plog tokenIn amountIn chainIdTo finalToken finalReceiver _ now _ call gate _
      now' accounts pending flows quiet =>
    obtain ⟨wire, W⟩ := Gate.sends_of_send call
    set sent : Event := .swapBridged g.id c.sender tokenIn amountIn a.amount chainIdTo finalToken
      finalReceiver with hsent
    have hlog : gateLog (plog ++ g.log.map Event.gate ++ [sent]) = g.log := by
      rw [gateLog_append, gateLog_append, gateLog_of_quiet quiet, gateLog_map_gate]
      exact List.append_nil _
    have hnotice : (plog ++ g.log.map Event.gate ++ [sent]).filterMap Event.notice = [] := by
      rw [List.filterMap_append, List.filterMap_append, notice_of_quiet quiet, notice_map_gate]
      rfl
    have hnone : deliveries S w'.scene (plog ++ g.log.map Event.gate ++ [sent]) = [] := by
      rw [deliveries, hlog, W.log]
      rfl
    have hsince : w'.scene.router.deferredSince = w.scene.router.deferredSince :=
      congrArg Accounts.deferredSince accounts
    have howed : w'.scene.router.owedStable = w.scene.router.owedStable :=
      congrArg Accounts.owedStable accounts
    have hout : w'.scene.router.stableSettledOut = w.scene.router.stableSettledOut :=
      congrArg Accounts.stableSettledOut accounts
    refine C.keep hstable pending hnotice (fun x hx => ?_) (flows trivial) fun _ => ?_
    · rw [marks_append.2, marks_append.2, marks_append.2, (marks_of_quiet quiet).2,
        (marks_map_gate _).2]
      rw [hsince] at hx
      simpa [deferredIds, deferredId] using C.never x hx
    · rw [late_append hnotice hkept (congrArg Accounts.finalized accounts) hsince, hnone, due_nil,
        howed, hout]
      omega
  | settled still shown settled flows event =>
    exact C.settles hkept settled (flows trivial) rfl event
  | deferred still now shown deferred flows =>
    exact C.defers B hkept deferred (now ▸ howes.now)
      (B.mem_deliveries_of_shown shown hcoll hs₁ hs₂)
      (flows trivial) rfl (not_baits_of_unbaited hbait)
  | forwarded still refunded forwarded flows =>
    refine C.keep hstable forwarded.pending rfl (fun x hx => ?_) (flows trivial) fun _ => ?_
    · rw [marks_append.2]
      rw [forwarded.deferredSince] at hx
      simpa [deferredIds, deferredId] using C.never x hx
    · have hout := forwarded.stableSettledOut
      rw [late_append rfl hkept forwarded.finalized forwarded.deferredSince, forwarded.owedStable]
      exact le_of_eq (by rw [show deliveries S w'.scene _ = [] from rfl, due_nil]; omega)
  | @scheduled c amount target readyAt still tokens schedules =>
    -- What is free is what is there beyond the debt, and nothing is late yet.
    have hsince : w'.scene.router.deferredSince = w.scene.router.deferredSince :=
      congrArg Accounts.deferredSince schedules.accounts
    have howed : w'.scene.router.owedStable = w.scene.router.owedStable :=
      congrArg Accounts.owedStable schedules.accounts
    have hout : w'.scene.router.stableSettledOut = w.scene.router.stableSettledOut :=
      congrArg Accounts.stableSettledOut schedules.accounts
    have hbalance : w'.scene.balance S = w.scene.balance S := by
      rw [balance, balance, hstable, tokens]
    refine ⟨?_, fun x hx => ?_, fun _ => ?_, fun _ => ?_⟩
    · rw [isNoticed_snoc (b := true) rfl, decide_eq_true schedules.readyAt]
    · rw [marks_append.2]
      rw [hsince] at hx
      simpa [deferredIds, deferredId] using C.never x hx
    · rw [schedules.amount_eq]
      exact schedules.amount_ne
    · have hfree := schedules.free_eq
      rw [late, sinceNotice_snoc rfl, show deliveries S w'.scene [] = [] from rfl, due_nil,
        schedules.settledOut, howed, hout, hbalance]
      omega
  | dropped still tokens accounts pending =>
    exact hgone accounts pending rfl (isNoticed_snoc rfl)
  | swept still executes =>
    exact hgone executes.accounts executes.pending rfl (isNoticed_snoc rfl)

/-! ### Runs -/

/-- What is known of a notice after the moves of an unbaited run. -/
theorem covered_of_moves {w₀ : World σ} (h₀ : Initial w₀)
    (hcoll : CollisionFree S.chain.keccak256 all) (hstd : Standard S w₀.scene.router.stable)
    (h : Moves S True w₀ w log strings) (hs : ∀ bs ∈ strings, bs ∈ all)
    (hbait : unbaited log = true) : Covered S w log := by
  induction h with
  | nil => exact covered_of_initial h₀
  | @snoc w₁ w₂ log log' strings strings' hmoves hm ih =>
    have hs₁ : ∀ bs ∈ strings, bs ∈ all := fun bs hbs => hs bs (List.mem_append_left _ hbs)
    obtain ⟨gtr, gw, B, -⟩ := books_of_moves h₀ hcoll hmoves hs₁
    have hstable := (hmoves.invariant_behind
      (P := fun w _ _ => w.scene.router.stable = w₀.scene.router.stable) h₀.gate rfl
      fun _ ih hm => (stable_of_move hm).trans ih).1
    exact covered_of_move hcoll B (ih hs₁ (unbaited_of_append hbait))
      (owes_of_moves h₀ hcoll hmoves hs₁) (hstable ▸ hstd) hm hs hbait

/-- **A sweep under the notice** takes no more than its room, so what is owed and what is late
stays. -/
theorem Covered.leaves (C : Covered S w log) (B : Behind S g₀ w log strings gtr gw)
    (hstd : Standard S w.scene.router.stable) {c : Call} (still : Still w w')
    (X : Executes S c w.scene w'.scene) {amount : U256} {target : Address} :
    w'.scene.router.owedStable.toNat + late S w' (log ++ [.stableRescued amount target]) ≤
      (w'.scene.balance S).toNat := by
  have hmove : Move S True w w' [.stableRescued amount target] [] := .swept still X
  have hkept := B.deliveries_kept_of_subset hmove fun v hv =>
    (List.rtakeWhile_suffix Event.isLate log).subset hv
  have hpending : isPending w'.scene.router = isPending w.scene.router :=
    isPending_congr (congrArg Accounts.finalized X.accounts)
      (congrArg Accounts.deferredSince X.accounts)
  have hlate : late S w' (log ++ [.stableRescued amount target]) = late S w log := by
    rw [late, sinceNotice_append (by simp [Event.isLate, Event.notice]), deliveries_append,
      show deliveries S w'.scene [.stableRescued amount target] = [] from rfl, List.append_nil,
      hpending]
    exact congrArg (fun items => due items (isPending w.scene.router)) hkept
  have howed : w'.scene.router.owedStable = w.scene.router.owedStable :=
    congrArg Accounts.owedStable X.accounts
  have hroom := C.room X.scheduled
  have hcapped := X.capped.resolve_right (C.amount X.scheduled)
  have hflows := flows_pay hstd X.moved
  rw [Flows] at hflows
  rw [balance] at hroom ⊢
  rw [hlate, howed, stable_of_move hmove]
  omega

/-- **No sweep touches a late delivery**: in every run in which no delivery is deferred for the
first time under a notice that was filed after it came, whatever a sweep leaves covers the
debt and all that was claimed since the notice and is neither final nor deferred. -/
theorem sweep_leaves_late {w₀ : World σ} {tr : List (Step σ)} (h₀ : Initial w₀)
    (hrun : Run (exec S) w₀ tr w) (hcoll : CollisionFree S.chain.keccak256 (hashedIn S tr))
    (hstd : Standard S w₀.scene.router.stable)
    (hothers : ∀ e ∈ tr, ∀ t, e.label = .gate (.tokens t) →
      Flows S w₀.scene.router.stable 0 0 e.pre.scene.tokens t)
    (hbait : unbaited (logOf tr) = true) :
    ∀ before e after c, tr = before ++ e :: after →
      e.label = .router c .executeStableRescue →
      e.post.scene.router.owedStable.toNat + late S e.post (logOf (before ++ [e])) ≤
        (e.post.scene.balance S).toNat := by
  rintro before e after c rfl hlabel
  obtain ⟨hbefore, hex, -⟩ := hrun.split
  obtain ⟨strings, hmoves, hsub⟩ := moves_of_run h₀ hbefore (fun _ : True => hstd)
    fun _ f hf => hothers f (List.mem_append_left _ hf)
  have hall : ∀ bs ∈ strings, bs ∈ hashedIn S (before ++ e :: after) := fun bs hbs =>
    mem_hashedIn_append (hsub bs hbs)
  obtain ⟨gtr, gw, B, -⟩ := books_of_moves h₀ hcoll hmoves hall
  rw [logOf, List.flatMap_append] at hbait
  have C := covered_of_moves h₀ hcoll hstd hmoves hall (unbaited_of_append hbait)
  rw [hlabel] at hex
  simp only [exec, Option.ite_none_left_eq_some] at hex
  obtain ⟨hguard, hex⟩ := hex
  rcases hcall : call S c e.pre.scene .executeStableRescue with err | ⟨s', log'⟩
  · simp [hcall] at hex
  · simp only [hcall, Option.some.injEq, Prod.mk.injEq] at hex
    obtain ⟨hpost, hout⟩ := hex
    obtain ⟨X, rfl⟩ := executes_of_executeStableRescue hcall
    have hs' : e.post.scene = s' := by rw [← hpost]
    have hstill : Still e.pre e.post := ⟨by rw [hs']; exact X.gate, by rw [← hpost]; simp_all, by
      rw [← hpost]; simp only; omega⟩
    rw [logOf, List.flatMap_append, List.flatMap_singleton, ← hout]
    exact C.leaves B (stable_of_run h₀ hbefore ▸ hstd) hstill (hs' ▸ X)

/-- What the validator signed for the second delivery. -/
def deliverySignature₁ : Bytes := signatureBytes
  0xfc15b066a5e43466338812c8d1def3c8083b5a2e98a1b5c084a8151272040c03
  0x301962f7f21f1a7125d10054e8bfcc75ae7fb231cf92b5503612cbad4e86d2bd 27

/-- The first delivery comes, and what is there is put up for a sweep. -/
def putUp : List (Label Ledger) :=
  openForDeliveries ++
    [.gate (.transfer (Gate.callAt 0xdd 1005)
        (.claim ((deliveryArgs 0).claim [deliverySignature₀]))),
      .router (Gate.callAt 0x0b 1006) (.scheduleStableRescue 100000 0x0b)]

/-- The second delivery comes, and the sweep follows. -/
def lateAndSweep : List (Label Ledger) :=
  [.gate (.transfer (Gate.callAt 0xdd 1008)
      (.claim ((deliveryArgs 1).claim [deliverySignature₁]))),
    .router (Gate.callAt 0x0b 173806) .executeStableRescue]

/-- A run in which a delivery comes under the notice. -/
def swept : List (Step Ledger) × World Ledger :=
  traceOf (exec site) before (putUp ++ lateAndSweep)

theorem sweep_leaves_late_swept :
    late site swept.2 (logOf swept.1) = 100000 ∧
      swept.2.scene.router.owedStable.toNat + late site swept.2 (logOf swept.1) ≤
        (swept.2.scene.balance site).toNat := by
  have hsome : (runFrom (exec site) before (putUp ++ lateAndSweep)).isSome = true := by
    decide +kernel
  have hrun : Run (exec site) before swept.1 swept.2 := run_traceOf hsome
  have hcoll : CollisionFree digestOf (hashedIn site swept.1) := by decide +kernel
  have hbait : unbaited (logOf swept.1) = true := by decide +kernel
  have hlabels : swept.1.map Entry.label = putUp ++ lateAndSweep := label_traceOf hsome
  obtain ⟨earlier, e, hsplit, hlabel, hpost⟩ := hrun.exists_last (hlabels.trans
    (show putUp ++ lateAndSweep = (putUp ++ lateAndSweep).dropLast ++
      [.router (Gate.callAt 0x0b 173806) .executeStableRescue] from rfl))
  have hle := sweep_leaves_late initial_before hrun hcoll (standard_ledger rfl _)
    (flows_of_labels hlabels (by simp [putUp, lateAndSweep, openForDeliveries])) hbait earlier e []
    _ hsplit hlabel
  rw [← hsplit, hpost] at hle
  exact ⟨by decide +kernel, hle⟩

/-- The same, but the first delivery is deferred in between: it is a bait. -/
def baitAndSweep : List (Label Ledger) :=
  putUp ++ [.router (Gate.callAt 0xdd 1007) (.finalize (deliveryArgs 0) ⟨300000, 300000⟩)] ++
    lateAndSweep

/-- The run. -/
def baited : List (Step Ledger) × World Ledger := traceOf (exec site) before baitAndSweep

/-- **A bait lets the sweep take a late delivery.** The first delivery counts as free at the
notice, and as owed when it is deferred; the sweep takes its worth, and of the two that are
still to be paid one is left. -/
theorem sweep_of_bait : ¬ ∀ (w : World Ledger) (tr : List (Step Ledger)),
    Run (exec site) before tr w → CollisionFree digestOf (hashedIn site tr) →
    (∀ e ∈ tr, ∀ t, e.label = .gate (.tokens t) → Flows site 0xaa 0 0 e.pre.scene.tokens t) →
    ∀ earlier e after c, tr = earlier ++ e :: after →
      e.label = .router c .executeStableRescue →
      e.post.scene.router.owedStable.toNat + late site e.post (logOf (earlier ++ [e])) ≤
        (e.post.scene.balance site).toNat := by
  intro h
  have hsome : (runFrom (exec site) before baitAndSweep).isSome = true := by decide +kernel
  have hrun : Run (exec site) before baited.1 baited.2 := run_traceOf hsome
  have hcoll : CollisionFree digestOf (hashedIn site baited.1) := by decide +kernel
  have hlabels : baited.1.map Entry.label = baitAndSweep := label_traceOf hsome
  have hothers : ∀ e ∈ baited.1, ∀ t, e.label = .gate (.tokens t) →
      Flows site 0xaa 0 0 e.pre.scene.tokens t :=
    flows_of_labels hlabels (by simp [baitAndSweep, putUp, lateAndSweep, openForDeliveries])
  obtain ⟨earlier, e, hsplit, hlabel, hpost⟩ := hrun.exists_last (hlabels.trans
    (show baitAndSweep = baitAndSweep.dropLast ++
      [.router (Gate.callAt 0x0b 173806) .executeStableRescue] from rfl))
  have hle := h _ _ hrun hcoll hothers earlier e [] _ hsplit hlabel
  rw [← hsplit, hpost] at hle
  exact absurd hle (by decide +kernel)

end SwapRouter

end SelendraBridge
