import SelendraBridge.Router.Refunds

/-!
# One settlement for each delivery

What a router does with a delivery is what its intent says, and the intent is in the
payload that the id of the transfer was computed from; so whoever calls, the delivery is of
the amount that was claimed under the id and goes to the receiver who was signed for. A
delivery settles once, since settling marks it final, and stable is delivered in the place
of another token only after the swap was found blocked in a step at least
`SelendraBridge.SwapRouter.FALLBACK_GRACE` earlier.

A step that settles or defers is the delivery of one id (`SelendraBridge.SwapRouter.Delivers`),
and every other step leaves the marks alone (`SelendraBridge.SwapRouter.delivers_of_exec`).
-/

namespace SelendraBridge

namespace SwapRouter

open Revert Transition Scene Dues

variable {σ : Type} {S : Site σ}

/-- What settled. -/
def settledIds (log : List Event) : List Bytes32 := log.filterMap Event.settles

/-- The delivery that an event says is deferred. -/
def deferredId : Event → Option Bytes32
  | .finalizeDeferred id _ _ _ => some id
  | _ => none

/-- What was deferred, once or more. -/
def deferredIds (log : List Event) : List Bytes32 := log.filterMap deferredId

/-- The arguments that a step shows under an id, of a claim or of a delivery. -/
def argsOf : Label σ → Option Gate.ClaimArgs
  | .gate (.transfer _ (.claim a)) => some a
  | .router _ (.finalize a _) => some (a.claim [])
  | .router _ (.claimAndFinalize a signatures _) => some (a.claim signatures)
  | _ => none

/-- The arguments of a step. -/
def stepArgs (e : Step σ) : Option Gate.ClaimArgs := argsOf e.label

/-- The data in the payload of some arguments. -/
def dataOf (b : Gate.ClaimArgs) : Option Bytes :=
  (Abi.decodeAutoParamsTo b.autoParams).map AutoParamsTo.data

/-- The data that is hashed into the ids of claims and deliveries. -/
def dataIn (tr : List (Step σ)) : List Bytes := (tr.filterMap stepArgs).filterMap dataOf

variable {w w' : World σ} {s : Scene σ} {log log' o : List Event} {id : Bytes32} {c : Call}
  {amount : U256} {i : Intent}

theorem marks_of_quiet (h : ∀ v ∈ log, v.quiet = true) :
    settledIds log = [] ∧ deferredIds log = [] := by
  constructor <;> refine List.filterMap_eq_nil_iff.mpr fun v hv => ?_ <;>
    cases v with
    | finalized _ _ _ _ _ _ => exact absurd (h _ hv) Bool.false_ne_true
    | finalizeFallback _ _ _ => exact absurd (h _ hv) Bool.false_ne_true
    | finalizeDeferred _ _ _ _ => exact absurd (h _ hv) Bool.false_ne_true
    | _ => rfl

theorem marks_map_gate (l : List Gate.Event) :
    settledIds (l.map .gate) = [] ∧ deferredIds (l.map .gate) = [] := by
  constructor <;> refine List.filterMap_eq_nil_iff.mpr fun v hv => ?_ <;>
    · obtain ⟨e, -, rfl⟩ := List.mem_map.mp hv
      rfl

theorem marks_map_pool (l : List SwapPool.Event) :
    settledIds (l.map .pool) = [] ∧ deferredIds (l.map .pool) = [] := by
  constructor <;> refine List.filterMap_eq_nil_iff.mpr fun v hv => ?_ <;>
    · obtain ⟨e, -, rfl⟩ := List.mem_map.mp hv
      rfl

theorem marks_append : settledIds (log ++ log') = settledIds log ++ settledIds log' ∧
    deferredIds (log ++ log') = deferredIds log ++ deferredIds log' :=
  ⟨List.filterMap_append, List.filterMap_append⟩

/-! ### Steps that deliver -/

/-- **A step that is the delivery of an id**: of the arguments it shows, in a scene that has
the router as it was before. -/
structure Delivers (S : Site σ) (w : World σ) (l : Label σ) (o : List Event) (w' : World σ)
    (c : Call) (b : Gate.ClaimArgs) (s : Scene σ) (id : Bytes32) (amount : U256) (i : Intent)
    (d : Attempt σ) (r : SwapRouter) : Prop where
  args : argsOf l = some b
  label : ∃ x, l = .router c x
  shown : Shown S s b id amount
  strings : ∀ bs ∈ shownStrings S s b, bs ∈ hashedBy S ⟨w, l, o, w'⟩
  router : s.router = w.scene.router
  settles : Settles S c s id b.debridgeId b.amount b.receiver b.autoParams amount i d r
  log : ∃ glog : List Gate.Event, o = glog.map .gate ++ d.log
  post : w' = ⟨{ d.scene with router := r }, c.timestamp, false, true⟩

/-- A step leaves the marks of deliveries alone. -/
structure Rests (w : World σ) (o : List Event) (w' : World σ) : Prop where
  deferredSince : w'.scene.router.deferredSince = w.scene.router.deferredSince
  finalized : w'.scene.router.finalized = w.scene.router.finalized
  settled : settledIds o = []
  deferred : deferredIds o = []

theorem rests_of_accounts (h : w'.scene.router.accounts = w.scene.router.accounts)
    (hlog : settledIds o = [] ∧ deferredIds o = []) : Rests w o w' :=
  ⟨congrArg Accounts.deferredSince h, congrArg Accounts.finalized h, hlog.1, hlog.2⟩

/-- A refund that is passed on leaves the marks alone. -/
theorem rests_of_forward {s' : Scene σ} {l : List Gate.Event} {flag : Bool}
    (h : forward S s id = .ok (s', log)) (hrouter : s.router = w.scene.router) :
    Rests w (l.map .gate ++ log) ⟨s', c.timestamp, false, flag⟩ := by
  obtain ⟨hf, -, -, -, -, rfl⟩ := forwarded_of_forward h
  rw [hrouter] at hf
  refine ⟨hf.deferredSince, hf.finalized, ?_, ?_⟩
  · rw [marks_append.1, (marks_map_gate l).1]
    rfl
  · rw [marks_append.2, (marks_map_gate l).2]
    rfl

/-- **A step delivers, or it leaves the marks alone.** -/
theorem delivers_of_exec {l : Label σ}
    (hexecuted : ∀ id, w.scene.gate.cancelled id = true → w.scene.gate.executed id = true)
    (hstable : w.deployed = false → w.scene.router = { blank with stable := w.scene.pool.stable })
    (h : exec S w l = some (w', o)) :
    Rests w o w' ∨ ∃ c b s id amount i d r, Delivers S w l o w' c b s id amount i d r := by
  cases l with
  | gate l =>
    rw [exec, Option.ite_none_left_eq_some] at h
    obtain ⟨x, -, heq⟩ := Option.map_eq_some_iff.mp h.2
    obtain ⟨rfl, rfl⟩ := Prod.mk.inj heq
    exact .inl (rests_of_accounts rfl (marks_map_gate _))
  | pool c x =>
    rw [exec, Option.ite_none_left_eq_some] at h
    obtain ⟨-, h⟩ := h
    split at h
    · simp only [Option.some.injEq, Prod.mk.injEq] at h
      obtain ⟨rfl, rfl⟩ := h
      exact .inl (rests_of_accounts rfl (marks_map_pool _))
    · exact absurd h (by simp)
  | deploy c =>
    rw [exec, Option.ite_none_left_eq_some] at h
    obtain ⟨hguard, h⟩ := h
    rw [not_or, not_or, Bool.not_eq_true, Bool.not_eq_true] at hguard
    simp only [Option.some.injEq, Prod.mk.injEq] at h
    obtain ⟨rfl, rfl⟩ := h
    refine .inl (rests_of_accounts ?_ ⟨rfl, rfl⟩)
    rw [hstable hguard.2.2]
    rfl
  | router c x =>
    rw [exec, Option.ite_none_left_eq_some] at h
    obtain ⟨hguard, h⟩ := h
    split at h
    · next d hd =>
      simp only [Option.some.injEq, Prod.mk.injEq] at h
      obtain ⟨rfl, rfl⟩ := h
      cases x with
      | finalize a gas =>
        obtain ⟨id, amount, i, at_, r, hid, hex, hcan, hs, hscene, hlog⟩ := settles_of_finalize hd
        refine .inr ⟨c, a.claim [], w.scene, id, amount, i, at_, r, rfl, ⟨_, rfl⟩,
          ⟨hid, hex, hcan, hs.receiver_eq, hs.asset, hs.amount_eq⟩, fun bs hbs => ?_, rfl, hs,
          ⟨[], hlog⟩, by rw [hscene]⟩
        exact List.mem_append_right _ hbs
      | claimAndFinalize a signatures gas =>
        obtain ⟨g, amount, i, at_, r, hg, hs, hscene, hlog⟩ := settles_of_claimAndFinalize hd
        obtain ⟨n, recipient, C⟩ := Gate.claims_of_claim hg
        have hdomain : g.gate.bridgeDomain = w.scene.gate.bridgeDomain := by rw [C.gate]
        refine .inr ⟨c, a.claim signatures, { w.scene with gate := g.gate, tokens := g.tokens },
          g.id, amount, i, at_, r, rfl, ⟨_, rfl⟩, ⟨?_, ?_, ?_, hs.receiver_eq, hs.asset,
          hs.amount_eq⟩, fun bs hbs => ?_, rfl, hs, ⟨g.log, hlog⟩, by rw [hscene]⟩
        · rw [hdomain]
          exact C.id
        · rw [C.gate]
          exact Function.update_self ..
        · -- What is cancelled had been executed, and could not have been claimed.
          rw [C.gate, Bool.eq_false_iff]
          exact fun hc => absurd (hexecuted g.id hc) (by rw [C.executed]; simp)
        · refine List.mem_append_left _ ?_
          rw [shownStrings, hdomain] at hbs
          simpa [RouterCall.atGate, Gate.TransferCall.hashed] using hbs
      | swapAndBridge a =>
        obtain ⟨leg, dust, t, p, g, -, P, -, hscene, hlog⟩ := prepares_of_swapAndBridge hd
        obtain ⟨-, -, plog, hplog⟩ := P.acquired.frame
        refine .inl ⟨by rw [hscene], by rw [hscene], ?_, ?_⟩
        · rw [hlog, P.log, hplog, marks_append.1, marks_append.1, (marks_map_pool _).1,
            (marks_map_gate _).1]
          rfl
        · rw [hlog, P.log, hplog, marks_append.2, marks_append.2, (marks_map_pool _).2,
            (marks_map_gate _).2]
          rfl
      | forwardRefund x => exact .inl (rests_of_forward (l := []) hd rfl)
      | refundAndForward a =>
        obtain ⟨g, log', -, hf, hlog⟩ := forwarded_of_refundAndForward hd
        rw [hlog]
        exact .inl (rests_of_forward hf rfl)
      | scheduleStableRescue amount target =>
        obtain ⟨⟨r, log⟩, hx, heq⟩ := SwapPool.map_eq_ok.mp hd
        obtain ⟨hs, hlog⟩ := schedules_of_scheduleStableRescue hx
        subst heq hlog
        exact .inl (rests_of_accounts hs.accounts ⟨rfl, rfl⟩)
      | cancelStableRescue =>
        obtain ⟨a, ha, heq⟩ := SwapPool.map_eq_ok.mp hd
        simp only [cancelStableRescue, bind_eq_ok, exists_unit, pure_eq_ok] at ha
        obtain ⟨-, -, rfl⟩ := ha
        subst heq
        exact .inl (rests_of_accounts rfl ⟨rfl, rfl⟩)
      | executeStableRescue =>
        obtain ⟨hx, hlog⟩ := executes_of_executeStableRescue hd
        rw [hlog]
        exact .inl (rests_of_accounts hx.accounts ⟨rfl, rfl⟩)
      | transferOwnership _ | acceptOwnership | setGuardian _ | setRemoteRouter _ _
      | rescue _ _ _ =>
        obtain ⟨haccounts, -, -, -, hlog⟩ := idle_of_call rfl hd
        exact .inl (rests_of_accounts haccounts (marks_of_quiet hlog))
    · exact absurd h (by simp)

/-! ### The marks of a run -/

/-- **When a delivery was first deferred**: the time of the step. -/
def FirstDeferred (tr : List (Step σ)) (id : Bytes32) (t : ℕ) : Prop :=
  ∃ earlier e later, tr = earlier ++ e :: later ∧ id ∈ deferredIds e.out ∧ e.post.now = t ∧
    id ∉ deferredIds (logOf earlier)

/-- **What the marks say of the run.** -/
structure Marked (tr : List (Step σ)) (w : World σ) : Prop where
  nodup : (settledIds (logOf tr)).Nodup
  final : ∀ id ∈ settledIds (logOf tr), w.scene.router.finalized id = true
  since : ∀ id, w.scene.router.deferredSince id ≠ 0 →
    FirstDeferred tr id (w.scene.router.deferredSince id)
  never : ∀ id, w.scene.router.deferredSince id = 0 → id ∉ deferredIds (logOf tr)

theorem logOf_snoc {tr : List (Step σ)} {e : Step σ} : logOf (tr ++ [e]) = logOf tr ++ e.out := by
  rw [logOf, List.flatMap_append, List.flatMap_singleton, logOf]

theorem FirstDeferred.append {tr : List (Step σ)} {t : ℕ} (h : FirstDeferred tr id t)
    (later' : List (Step σ)) : FirstDeferred (tr ++ later') id t := by
  obtain ⟨earlier, e, later, rfl, h⟩ := h
  exact ⟨earlier, e, later ++ later', by simp, h⟩

/-- A step that rests leaves what the marks say in place. -/
theorem Marked.rests {tr : List (Step σ)} {l : Label σ} (M : Marked tr w) (h : Rests w o w') :
    Marked (tr ++ [⟨w, l, o, w'⟩]) w' := by
  have hsettled : settledIds (logOf (tr ++ [⟨w, l, o, w'⟩])) = settledIds (logOf tr) := by
    rw [logOf_snoc, marks_append.1, h.settled, List.append_nil]
  have hdeferred : deferredIds (logOf (tr ++ [⟨w, l, o, w'⟩])) = deferredIds (logOf tr) := by
    rw [logOf_snoc, marks_append.2, h.deferred, List.append_nil]
  refine ⟨hsettled ▸ M.nodup, fun id hid => ?_, fun id hid => ?_, fun id hid => ?_⟩
  · rw [hsettled] at hid
    rw [h.finalized]
    exact M.final id hid
  · rw [h.deferredSince] at hid ⊢
    exact (M.since id hid).append _
  · rw [hdeferred]
    rw [h.deferredSince] at hid
    exact M.never id hid

/-- The events of a step that delivers: those of the gate and those of the attempt. -/
theorem Delivers.marks {l : Label σ} {b : Gate.ClaimArgs} {d : Attempt σ} {r : SwapRouter}
    (D : Delivers S w l o w' c b s id amount i d r) :
    settledIds o = settledIds d.log ∧ deferredIds o = deferredIds d.log := by
  obtain ⟨glog, hlog⟩ := D.log
  rw [hlog, marks_append.1, marks_append.2, (marks_map_gate glog).1, (marks_map_gate glog).2]
  exact ⟨rfl, rfl⟩

/-- An event that says a delivery settled names no deferred one. -/
theorem deferredId_of_settles {v : Event} (h : v.settles = some id) : deferredId v = none := by
  cases v with
  | finalizeDeferred _ _ _ _ => exact absurd h (by simp [Event.settles])
  | _ => rfl

/-- **A step that delivers** marks one id: as final, or as deferred from now on unless it was. -/
theorem Marked.delivers {tr : List (Step σ)} {l : Label σ} {b : Gate.ClaimArgs} {d : Attempt σ}
    {r : SwapRouter} (M : Marked tr w) (D : Delivers S w l o w' c b s id amount i d r)
    (htime : w'.now ≠ 0) : Marked (tr ++ [⟨w, l, o, w'⟩]) w' := by
  obtain ⟨hsettled, hdeferred⟩ := D.marks
  have hrouter : w'.scene.router = r := by rw [D.post]
  have haccounts := D.settles.accounts
  rw [D.router, ← hrouter] at haccounts
  rcases D.settles.ends.events with ⟨hd, plog, v, hlog, hv⟩ | ⟨hd, fr, ft, retryAfter, hlog⟩
  · rcases haccounts with ⟨-, hset⟩ | ⟨hd', -⟩
    · have hs : settledIds o = [id] := by
        rw [hsettled, hlog, marks_append.1, (marks_map_pool plog).1]
        exact List.filterMap_cons_some hv
      have hnone : deferredIds o = [] := by
        rw [hdeferred, hlog, marks_append.2, (marks_map_pool plog).2]
        exact List.filterMap_cons_none (deferredId_of_settles hv)
      refine ⟨?_, fun x hx => ?_, fun x hx => ?_, fun x hx => ?_⟩
      · rw [logOf_snoc, marks_append.1, hs]
        refine List.nodup_append.mpr ⟨M.nodup, List.nodup_singleton _, ?_⟩
        -- It was not final before.
        rintro x hx y hy rfl
        obtain rfl := List.mem_singleton.mp hy
        exact absurd (M.final x hx) (by rw [hset.new]; exact Bool.false_ne_true)
      · rw [hset.finalized]
        rw [logOf_snoc, marks_append.1, hs] at hx
        rcases List.mem_append.mp hx with hx | hx
        · exact Gate.update_true_of_true (M.final x hx)
        · obtain rfl := List.mem_singleton.mp hx
          exact Function.update_self ..
      · rw [hset.deferredSince] at hx ⊢
        exact (M.since x hx).append _
      · rw [hset.deferredSince] at hx
        rw [logOf_snoc, marks_append.2, hnone, List.append_nil]
        exact M.never x hx
    · exact absurd (hd.symm.trans hd') (by simp)
  · rcases haccounts with ⟨hd', -⟩ | ⟨-, hdef⟩
    · exact absurd (hd'.symm.trans hd) (by simp)
    · have hs : settledIds o = [] := by
        rw [hsettled, hlog]
        rfl
      have hone : deferredIds o = [id] := by
        rw [hdeferred, hlog]
        rfl
      have hnow : w'.now = c.timestamp := by rw [D.post]
      refine ⟨?_, fun x hx => ?_, fun x hx => ?_, fun x hx => ?_⟩
      · rw [logOf_snoc, marks_append.1, hs, List.append_nil]
        exact M.nodup
      · rw [hdef.finalized]
        rw [logOf_snoc, marks_append.1, hs, List.append_nil] at hx
        exact M.final x hx
      · rw [hdef.deferredSince] at hx ⊢
        rcases eq_or_ne x id with rfl | hne
        · rw [Function.update_self] at hx ⊢
          rcases eq_or_ne (w.scene.router.deferredSince x) 0 with h0 | hne
          · -- It is deferred for the first time.
            rw [deferredFrom, if_pos h0]
            exact ⟨tr, _, [], rfl, by rw [hone]; exact List.mem_singleton_self _, hnow,
              M.never x h0⟩
          · rw [deferredFrom, if_neg hne]
            exact (M.since x hne).append _
        · rw [Function.update_of_ne hne] at hx ⊢
          exact (M.since x hx).append _
      · rw [logOf_snoc, marks_append.2, hone]
        rw [hdef.deferredSince] at hx
        rcases eq_or_ne x id with rfl | hne
        · rw [Function.update_self] at hx
          exact absurd hx (deferredFrom_ne_zero (hnow ▸ htime))
        · rw [Function.update_of_ne hne] at hx
          rw [List.mem_append, List.mem_singleton, not_or]
          exact ⟨M.never x hx, hne⟩

/-- **What the marks say**, after any run. -/
theorem marked_of_run {w₀ : World σ} {tr : List (Step σ)} {all : List Bytes} (h₀ : Initial w₀)
    (hrun : Run (exec S) w₀ tr w) (hcoll : CollisionFree S.chain.keccak256 all)
    (hs : ∀ bs ∈ hashedIn S tr, bs ∈ all) : Marked tr w := by
  induction hrun with
  | nil =>
    refine ⟨List.nodup_nil, by simp [logOf, settledIds], fun id hid => ?_, by
      simp [logOf, deferredIds]⟩
    rw [h₀.router] at hid
    exact absurd rfl hid
  | @snoc tr w w' l o hrun he ih =>
    have hfront : ∀ bs ∈ hashedIn S tr, bs ∈ all := fun bs hbs => hs bs (mem_hashedIn_append hbs)
    obtain ⟨-, strings, gtr, gw, -, B, -⟩ := books_of_run h₀ hrun hcoll hfront
    obtain ⟨O, -⟩ := books_of_run h₀ (hrun.snoc he) hcoll hs
    rcases delivers_of_exec (fun id => B.executed_of_cancelled) (undeployed_of_run h₀ hrun) he with
      hr | ⟨c, b, s, id, amount, i, d, r, D⟩
    · exact (ih hfront).rests hr
    · exact (ih hfront).delivers D O.now

/-! ### The intent of an id -/

/-- An empty payload has no intent. -/
theorem decodeIntent_nil : decodeIntent [] = none := by decide

/-- The payload of parameters that have one. -/
theorem payload_eq_some_some {keccak256 : Bytes → Bytes32} {p : Gate.IdParams} {q : Payload} :
    p.payload keccak256 = some (some q) ↔ p.autoParams.length ≠ 0 ∧
      ∃ ap, Abi.decodeAutoParamsTo p.autoParams = some ap ∧
        (Gate.withSender ap p.nativeSender).payload keccak256 = q := by
  rw [Gate.IdParams.payload]
  by_cases h : p.autoParams.length = 0
  · simp [h]
  · simp [h, Option.map_eq_some_iff]

/-- **The id binds the intent**, unless the hash collides on the two strings of the ids or on
the two strings of data. -/
theorem intent_eq_of_id {dom : Bytes32} {a b : Gate.ClaimArgs} {all : List Bytes}
    (ha : Gate.idFor S.chain.keccak256 dom (Gate.claimParams S.chain a) = .ok id)
    (hb : Gate.idFor S.chain.keccak256 dom (Gate.claimParams S.chain b) = .ok id)
    (hcoll : CollisionFree S.chain.keccak256 all)
    (hpa : ∀ bs, Gate.idPreimage S.chain.keccak256 dom (Gate.claimParams S.chain a) = some bs →
      bs ∈ all)
    (hpb : ∀ bs, Gate.idPreimage S.chain.keccak256 dom (Gate.claimParams S.chain b) = some bs →
      bs ∈ all)
    (hda : ∀ bs, dataOf a = some bs → bs ∈ all) (hdb : ∀ bs, dataOf b = some bs → bs ∈ all)
    (hi : decodeIntent b.autoParams = some i) : decodeIntent a.autoParams = some i := by
  obtain ⟨t, hta, htb⟩ := Gate.submission_eq_of_idFor_eq ha hb fun x y hx hy =>
    hcoll x (hpa x hx) y (hpb y hy)
  have hpayload : (Gate.claimParams S.chain a).payload S.chain.keccak256 =
      (Gate.claimParams S.chain b).payload S.chain.keccak256 :=
    (Gate.submission_eq_some hta).2.2.2.2.2.2.2.2.1.trans
      (Gate.submission_eq_some htb).2.2.2.2.2.2.2.2.1.symm
  obtain ⟨ap, hap, hwords⟩ := Option.bind_eq_some_iff.mp hi
  have hlen : b.autoParams.length ≠ 0 := by
    intro h0
    rw [List.length_eq_zero_iff.mp h0, decodeIntent_nil] at hi
    exact absurd hi (by simp)
  have hb' : (Gate.claimParams S.chain b).payload S.chain.keccak256 =
      some (some ((Gate.withSender ap b.nativeSender).payload S.chain.keccak256)) :=
    payload_eq_some_some.mpr ⟨hlen, ap, hap, rfl⟩
  obtain ⟨-, ap', hap', heq⟩ := payload_eq_some_some.mp (hpayload.trans hb')
  have hap' : Abi.decodeAutoParamsTo a.autoParams = some ap' := hap'
  have hdata : S.chain.keccak256 ap'.data = S.chain.keccak256 ap.data :=
    congrArg Payload.dataHash heq
  have hsame : ap'.data = ap.data := hcoll _ (hda _ (by rw [dataOf, hap']; rfl)) _
    (hdb _ (by rw [dataOf, hap]; rfl)) hdata
  rw [decodeIntent, hap', Option.bind_some, hsame]
  exact hwords

/-- What a claim or a delivery hashes into its id. -/
theorem mem_hashedBy_of_args {l : Label σ} {a : Gate.ClaimArgs} {bs : Bytes}
    (ha : argsOf l = some a) (hbs : Gate.idPreimage S.chain.keccak256 w.scene.gate.bridgeDomain
      (Gate.claimParams S.chain a) = some bs) : bs ∈ hashedBy S ⟨w, l, o, w'⟩ := by
  unfold argsOf at ha
  split at ha
  · obtain rfl := Option.some.inj ha
    exact Option.mem_toList.mpr hbs
  · obtain rfl := Option.some.inj ha
    exact List.mem_append_right _ (Option.mem_toList.mpr hbs)
  · obtain rfl := Option.some.inj ha
    refine List.mem_append_left _ ?_
    simpa [RouterCall.atGate, Gate.TransferCall.hashed] using hbs
  · exact absurd ha (by simp)

/-- The domain of the gate never changes. -/
theorem domain_of_run {w₀ : World σ} {tr : List (Step σ)} (h₀ : Initial w₀)
    (hrun : Run (exec S) w₀ tr w) :
    w.scene.gate.bridgeDomain = w₀.scene.gate.bridgeDomain := by
  obtain ⟨strings, hmoves, -⟩ := moves_of_run h₀ hrun (fun h : False => h.elim)
    fun h => h.elim
  exact (hmoves.invariant_behind
    (P := fun w _ _ => w.scene.gate.bridgeDomain = w₀.scene.gate.bridgeDomain) h₀.gate rfl
    fun B ih hm => (B.kept hm).bridgeDomain.trans ih).1

/-! ### One settlement each -/

/-- **What a settlement did with the stable of a delivery**, with the event that says so:
it was swapped for enough of the token, or handed over because it was the token, or handed
over in its place because it was late. -/
inductive Paid (S : Site σ) (stable : Address) (id : Bytes32) (amount : U256) (i : Intent)
    (late : Prop) (t' : σ) : Event → Prop
  | swapped {t u : σ} {out : U256} (token : i.finalToken ≠ stable)
      (min : i.finalMinOut.toNat ≤ out.toNat)
      (taken : S.chain.tokens.transferFrom stable S.pool S.here S.pool amount t = some u)
      (given : S.chain.tokens.transfer i.finalToken S.pool i.finalReceiver out u = some t') :
      Paid S stable id amount i late t'
        (.finalized id i.finalReceiver i.finalToken amount out true)
  | handed {t : σ} (token : i.finalToken = stable)
      (given : S.chain.tokens.transfer stable S.here i.finalReceiver amount t = some t') :
      Paid S stable id amount i late t'
        (.finalized id i.finalReceiver i.finalToken amount amount false)
  | fellBack {t : σ} (token : i.finalToken ≠ stable) (isLate : late)
      (given : S.chain.tokens.transfer stable S.here i.finalReceiver amount t = some t') :
      Paid S stable id amount i late t' (.finalizeFallback id i.finalReceiver amount)

/-- **May the stable be handed over instead?** In a call by the receiver, the owner or the
guardian, once the grace period is over since the first deferral. -/
def Late (tr : List (Step σ)) (r : SwapRouter) (c : Call) (id : Bytes32) (receiver : Address) :
    Prop :=
  (c.sender = receiver ∨ c.sender = r.owner ∨ c.sender = r.guardian) ∧
    ∃ t, FirstDeferred tr id t ∧ t + FALLBACK_GRACE ≤ c.timestamp

/-- How an attempt that settled paid. -/
theorem paid_of_ends {tr : List (Step σ)} {d : Attempt σ} {v : Event}
    (M : Marked tr w) (hrouter : s.router = w.scene.router)
    (h : Ends S c s id amount i (mayFallBack c s.router i.finalReceiver) d) (hv : v ∈ d.log)
    (hsettles : ∃ id', v.settles = some id') :
    Paid S w.scene.router.stable id amount i
      (Late tr w.scene.router c id i.finalReceiver) d.scene.tokens v := by
  obtain ⟨id', hid'⟩ := hsettles
  rw [← hrouter]
  cases h with
  | stable token moved =>
    obtain rfl := List.mem_singleton.mp hv
    exact .handed token moved
  | swapped token approved swap =>
    rcases List.mem_append.mp hv with hv | hv
    · obtain ⟨e, -, rfl⟩ := List.mem_map.mp hv
      exact absurd hid' (by simp [Event.settles])
    · obtain rfl := List.mem_singleton.mp hv
      obtain ⟨received, W⟩ := SwapPool.swaps_of_swap swap
      obtain ⟨u, htaken, -, hgiven⟩ := W.moved
      exact .swapped token (not_lt.mp W.min) htaken hgiven
  | fellBack token tried since grace may moved =>
    obtain rfl := List.mem_singleton.mp hv
    refine .fellBack token ⟨of_decide_eq_true may, _, ?_, grace⟩ moved
    rw [hrouter] at since ⊢
    exact M.since id since
  | deferred token tried =>
    obtain rfl := List.mem_singleton.mp hv
    exact absurd hid' (by simp [Event.settles])

/-- What an event of a step that delivers settles. -/
theorem Delivers.settles_of_mem {l : Label σ} {b : Gate.ClaimArgs} {d : Attempt σ}
    {r : SwapRouter} (D : Delivers S w l o w' c b s id amount i d r) {v : Event} {id' : Bytes32}
    (hv : v ∈ o) (hid : v.settles = some id') : id' = id ∧ v ∈ d.log := by
  have hmem : id' ∈ settledIds o := List.mem_filterMap.mpr ⟨v, hv, hid⟩
  rw [D.marks.1] at hmem
  obtain ⟨glog, hlog⟩ := D.log
  refine ⟨?_, ?_⟩
  · rcases D.settles.ends.events with ⟨-, plog, u, hd, hu⟩ | ⟨-, fr, ft, retryAfter, hd⟩
    · rw [hd, marks_append.1, (marks_map_pool plog).1, List.nil_append, settledIds,
        List.filterMap_cons_some hu] at hmem
      exact List.mem_singleton.mp hmem
    · rw [hd] at hmem
      exact absurd hmem List.not_mem_nil
  · rw [hlog] at hv
    rcases List.mem_append.mp hv with hv | hv
    · obtain ⟨e, -, rfl⟩ := List.mem_map.mp hv
      exact absurd hid (by simp [Event.settles])
    · exact hv

/-- **One settlement for each delivery, and an honest debt.** In every run: no id settles
twice. What settles was claimed under the id, into the router and in stable, and the intent
that is followed is the one that every claim and delivery under the id shows; the stable of
the claim is swapped for at least the least amount of the token, to the receiver, or handed
to the receiver – in the place of another token only when it is late. And in every state the
debt is the sum of the deliveries that are deferred and not final, so that settling one never
runs out of it, whether it was claimed before or is claimed on the way. -/
theorem one_settlement_each {w₀ : World σ} {tr : List (Step σ)} (h₀ : Initial w₀)
    (hrun : Run (exec S) w₀ tr w)
    (hcoll : CollisionFree S.chain.keccak256 (hashedIn S tr ++ dataIn tr)) :
    (settledIds (logOf tr)).Nodup ∧
      (∀ before e after v id, tr = before ++ e :: after → v ∈ e.out → v.settles = some id →
        ∃ c x b i amount, e.label = .router c x ∧ stepArgs e = some b ∧
          decodeIntent b.autoParams = some i ∧
          (∀ a ∈ tr.filterMap stepArgs, Gate.idFor S.chain.keccak256 w₀.scene.gate.bridgeDomain
            (Gate.claimParams S.chain a) = .ok id → decodeIntent a.autoParams = some i) ∧
          (∃ d, .gate (.claimed id d S.here amount) ∈ logOf (before ++ [e]) ∧
            e.post.scene.gate.tokenOf d = w₀.scene.router.stable) ∧
          Paid S w₀.scene.router.stable id amount i
            (Late before e.pre.scene.router c id i.finalReceiver) e.post.scene.tokens v) ∧
      w.scene.router.owedStable.toNat =
        due (deliveries S w.scene (logOf tr)) (isOwed w.scene.router) ∧
      ∀ id amount, w.scene.router.finalized id = false →
        (w.scene.gate.executed id = false ∨ ∃ b, Shown S w.scene b id amount ∧
          CollisionFree S.chain.keccak256 (hashedIn S tr ++ shownStrings S w.scene b)) →
        ∃ owed, repay w.scene.router (w.scene.router.deferredSince id) amount = .ok owed := by
  have hall : ∀ bs ∈ hashedIn S tr, bs ∈ hashedIn S tr ++ dataIn tr := fun bs hbs =>
    List.mem_append_left _ hbs
  obtain ⟨O, strings, gtr, gw, -, -, -⟩ := books_of_run h₀ hrun hcoll hall
  refine ⟨(marked_of_run h₀ hrun hcoll hall).nodup, ?_, O.owed, ?_⟩
  · rintro before e after v id rfl hv hsettles
    obtain ⟨hbefore, hex, hafter⟩ := hrun.split
    have hwith := hbefore.snoc hex
    have hin : ∀ f ∈ before ++ e :: after, ∀ bs ∈ hashedBy S f,
        bs ∈ hashedIn S (before ++ e :: after) ++ dataIn (before ++ e :: after) :=
      fun f hf bs hbs => hall bs (List.mem_flatMap.mpr ⟨f, hf, hbs⟩)
    have hhashed₁ : ∀ bs ∈ hashedIn S before, bs ∈
        hashedIn S (before ++ e :: after) ++ dataIn (before ++ e :: after) :=
      fun bs hbs => hall bs (mem_hashedIn_append hbs)
    have hhashed₂ : ∀ bs ∈ hashedIn S (before ++ [e]), bs ∈
        hashedIn S (before ++ e :: after) ++ dataIn (before ++ e :: after) := by
      intro bs hbs
      rw [← List.singleton_append, ← List.append_assoc] at hall ⊢
      exact hall bs (mem_hashedIn_append hbs)
    obtain ⟨-, strings₁, gtr₁, gw₁, -, B₁, -⟩ := books_of_run h₀ hbefore hcoll hhashed₁
    obtain ⟨-, strings₂, gtr₂, gw₂, hsub₂, B₂, -⟩ := books_of_run h₀ hwith hcoll hhashed₂
    rcases delivers_of_exec (fun id => B₁.executed_of_cancelled) (undeployed_of_run h₀ hbefore)
      hex with hrests | ⟨c, b, s, id', amount, i, d, r, D⟩
    · have hmem : id ∈ settledIds e.out := List.mem_filterMap.mpr ⟨v, hv, hsettles⟩
      rw [hrests.settled] at hmem
      exact absurd hmem List.not_mem_nil
    · obtain ⟨rfl, hvd⟩ := D.settles_of_mem hv hsettles
      obtain ⟨x, hx⟩ := D.label
      have hstable : e.pre.scene.router.stable = w₀.scene.router.stable := stable_of_run h₀ hbefore
      have hgate : e.post.scene.gate = s.gate := by
        rw [D.post]
        exact D.settles.ends.gate
      have hpost : e.post.scene.router.stable = s.router.stable := by
        rw [stable_of_run h₀ hwith, D.router, hstable]
      refine ⟨c, x, b, i, amount, hx, D.args, D.settles.intent, ?_, ?_, ?_⟩
      · -- Every step of the run hashes under the one domain.
        have hargs : ∀ a ∈ (before ++ e :: after).filterMap stepArgs, (∀ bs,
            Gate.idPreimage S.chain.keccak256 w₀.scene.gate.bridgeDomain
              (Gate.claimParams S.chain a) = some bs →
            bs ∈ hashedIn S (before ++ e :: after) ++ dataIn (before ++ e :: after)) ∧
            ∀ bs, dataOf a = some bs →
              bs ∈ hashedIn S (before ++ e :: after) ++ dataIn (before ++ e :: after) := by
          intro a ha
          obtain ⟨f, hf, hfa⟩ := List.mem_filterMap.mp ha
          refine ⟨fun bs hbs => ?_, fun bs hbs => List.mem_append_right _
            (List.mem_filterMap.mpr ⟨a, ha, hbs⟩)⟩
          obtain ⟨t₁, t₂, hsplit⟩ := List.append_of_mem hf
          rw [hsplit] at hrun
          rw [← domain_of_run h₀ hrun.split.1] at hbs
          exact hin f hf bs (mem_hashedBy_of_args hfa hbs)
        intro a ha hid
        have hb : b ∈ (before ++ e :: after).filterMap stepArgs :=
          List.mem_filterMap.mpr ⟨e, by simp, D.args⟩
        have hidb := D.shown.id_eq
        rw [← hgate, domain_of_run h₀ hwith] at hidb
        exact intent_eq_of_id hid hidb hcoll (hargs a ha).1 (hargs b hb).1 (hargs a ha).2
          (hargs b hb).2 D.settles.intent
      · have hshown : Shown S e.post.scene b id amount := by
          refine ⟨?_, ?_, ?_, D.shown.receiver, ?_, ?_⟩ <;> rw [hgate]
          · exact D.shown.id_eq
          · exact D.shown.executed
          · exact D.shown.cancelled
          · rw [hpost]
            exact D.shown.asset
          · rw [hpost]
            exact D.shown.amount_eq
        obtain ⟨δ, hmem, htoken⟩ := B₂.claimed_of_shown hshown hcoll hsub₂ fun bs hbs => by
          rw [shownStrings, hgate] at hbs
          exact hin e (by simp) bs (D.strings bs hbs)
        rw [stable_of_run h₀ hwith] at htoken
        exact ⟨δ, hmem, htoken⟩
      · have hpaid := paid_of_ends (marked_of_run h₀ hbefore hcoll hhashed₁) D.router D.settles.ends
          hvd ⟨id, hsettles⟩
        rw [hstable] at hpaid
        rw [show e.post.scene.tokens = d.scene.tokens by rw [D.post]]
        exact hpaid
  · rintro id amount hfin hcase
    rcases eq_or_ne (w.scene.router.deferredSince id) 0 with h0 | hne
    · exact ⟨_, by rw [repay, if_pos h0]⟩
    · rcases hcase with hnew | ⟨b, hshown, hcoll'⟩
      · exact absurd (O.marked id (.inl hne)) (by rw [hnew]; exact Bool.false_ne_true)
      · -- It is one of the deliveries that the debt is the sum of.
        obtain ⟨-, strings, gtr, gw, hsub, B, -⟩ := books_of_run h₀ hrun hcoll'
          fun bs hbs => List.mem_append_left _ hbs
        have hmem := B.mem_deliveries_of_shown hshown hcoll' hsub
          fun bs hbs => List.mem_append_right _ hbs
        have howed : isOwed w.scene.router id = true := by
          rw [isOwed, hfin, decide_eq_true hne]
          rfl
        have hle := le_due hmem howed
        rw [← O.owed] at hle
        refine ⟨w.scene.router.owedStable - amount, ?_⟩
        rw [repay, if_neg hne, checkedSub_eq_ok, BitVec.toNat_sub_of_le hle]
        omega

/-- A delivery from another chain, by its nonce. -/
def deliveryArgs (nonce : U256) : FinalizeArgs where
  debridgeId := 0xc1dcc31f816a2daa2cdbf21d7ea9449bdbce4b6ee14634987001491bf95dac46
  amount := 1000
  bridgeDecimals := 6
  chainIdFrom := 2
  nonce
  receiver := addressBytes 0xf5
  autoParams := Abi.encodeAutoParamsTo (intentParams ⟨0xee, 0xcc, 7⟩)
  nativeSender := addressBytes 0xf7

/-- What the validator signed for the first. -/
def deliverySignature₀ : Bytes := signatureBytes
  0x3515befe8dbb8159e1cdcaf97644f9338c148b1b80bb2a7010e44ff6222ed8a4
  0x48c3a71637cbfe74131fdf8fc3f84cdae77e2b8ff4b0e8ee500d8de291398816 27

/-- The gate knows the asset, and the router is deployed. -/
def openForDeliveries : List (Label Ledger) :=
  [.gate (.govern (Gate.callAt 0x0a 1001) (.setBridgeDecimals 0xaa 6)),
    .gate (.govern (Gate.callAt 0x0a 1002) (.setLocalToken
      0xc1dcc31f816a2daa2cdbf21d7ea9449bdbce4b6ee14634987001491bf95dac46 0xaa)),
    .gate (.govern (Gate.callAt 0x0a 1003) .sealGate),
    .deploy (Gate.callAt 0x0b 1004)]

/-- The token of the intent is not listed: somebody finalizes and it is deferred, and after
the grace period the receiver takes the stable. -/
def fallBack : List (Label Ledger) :=
  openForDeliveries ++
    [.gate (.transfer (Gate.callAt 0xdd 1005)
        (.claim ((deliveryArgs 0).claim [deliverySignature₀]))),
      .router (Gate.callAt 0xdd 1006) (.finalize (deliveryArgs 0) ⟨300000, 300000⟩),
      .router (Gate.callAt 0xcc 22606) (.finalize (deliveryArgs 0) ⟨300000, 300000⟩)]

/-- The run. -/
def fellBack : List (Step Ledger) × World Ledger := traceOf (exec site) before fallBack

theorem one_settlement_each_fellBack :
    settledIds (logOf fellBack.1) =
        [0x2df0a10af063bbab3a4eaf4dd7e7ac1d8872175e37387ea501a61dd73fac56f3] ∧
      (settledIds (logOf fellBack.1)).Nodup ∧
      fellBack.2.scene.router.owedStable.toNat =
        due (deliveries site fellBack.2.scene (logOf fellBack.1))
          (isOwed fellBack.2.scene.router) := by
  have hsome : (runFrom (exec site) before fallBack).isSome = true := by decide +kernel
  have hrun : Run (exec site) before fellBack.1 fellBack.2 := run_traceOf hsome
  have hcoll : CollisionFree digestOf (hashedIn site fellBack.1 ++ dataIn fellBack.1) := by
    decide +kernel
  have h := one_settlement_each initial_before hrun hcoll
  exact ⟨by decide +kernel, h.1, h.2.2.1⟩

end SwapRouter

end SelendraBridge
