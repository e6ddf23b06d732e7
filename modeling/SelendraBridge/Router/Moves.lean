import SelendraBridge.Router.Flows

/-!
# A step of the router, taken apart

What a run of the router keeps is proved move by move. A move is what one call does to the
accounts and to the gate, at most, and there are ten of them; most steps are one move, and
two calls are two: a claim and the delivery of it, a refund and its passing on. A property
that every move keeps is kept by every run (`SelendraBridge.SwapRouter.Moves.invariant`,
`SelendraBridge.SwapRouter.moves_of_run`).

What flows during a move is stated under a proposition of its own: results that need no
standard token, and no restraint of others, take the moves without it.
-/

namespace SelendraBridge

namespace SwapRouter

open Revert Transition Scene

variable {σ : Type}

/-- **A delivery that was shown**: the gate says that the id is executed and not cancelled,
and the arguments are those of the id, for this router and in stable. -/
structure Shown (S : Site σ) (s : Scene σ) (b : Gate.ClaimArgs) (id : Bytes32)
    (amount : U256) : Prop where
  id_eq : Gate.idFor S.chain.keccak256 s.gate.bridgeDomain (Gate.claimParams S.chain b) = .ok id
  executed : s.gate.executed id = true
  cancelled : s.gate.cancelled id = false
  receiver : toAddress b.receiver = .ok S.here
  asset : s.gate.tokenOf b.debridgeId = s.router.stable
  amount_eq : Gate.toLocalAmount s.gate s.router.stable b.amount = .ok amount

/-- The string that is hashed when a delivery is shown. -/
def shownStrings (S : Site σ) (s : Scene σ) (b : Gate.ClaimArgs) : List Bytes :=
  (Gate.idPreimage S.chain.keccak256 s.gate.bridgeDomain (Gate.claimParams S.chain b)).toList

/-- The gate stands still. -/
structure Still (w w' : World σ) : Prop where
  gate : w'.scene.gate = w.scene.gate
  upgraded : w'.upgraded = w.upgraded
  now : w.now ≤ w'.now

/-- **One move**, with its events and the strings that were hashed. -/
inductive Move (S : Site σ) (std : Prop) (w w' : World σ) : List Event → List Bytes → Prop
  /-- Nothing that matters here. -/
  | idle {log : List Event} (still : Still w w')
      (accounts : w'.scene.router.accounts = w.scene.router.accounts)
      (pending : w'.scene.router.pendingStableRescue = w.scene.router.pendingStableRescue)
      (flows : std → Flows S w.scene.router.stable 0 0 w.scene.tokens w'.scene.tokens)
      (quiet : ∀ v ∈ log, v.quiet = true) : Move S std w w' log []
  /-- A governing call of the gate. -/
  | govern {c : Call} {x : Gate.GovCall} {g : Gate} {log : List Gate.Event}
      (running : w.upgraded = false) (now : w.now ≤ c.timestamp)
      (call : Gate.govern S.chain c w.scene.gate w.scene.tokens x = .ok (g, log))
      (post : w' = ⟨{ w.scene with gate := g }, c.timestamp, x.isUpgrade, w.deployed⟩) :
      Move S std w w' (log.map .gate) []
  /-- A transfer call of the gate, but no send by the router. -/
  | transfer {c : Call} {x : Gate.TransferCall} {r : Gate.Done σ} (running : w.upgraded = false)
      (now : w.now ≤ c.timestamp)
      (call : Gate.transfer S.chain c w.scene.gate w.scene.tokens x = .ok r)
      (own : ∀ a, x = .send a → c.sender ≠ S.here)
      (post : w' = ⟨{ w.scene with gate := r.gate, tokens := r.tokens }, c.timestamp, false,
        w.deployed⟩) :
      Move S std w w' (r.log.map .gate) (x.hashed S.chain c w.scene.gate)
  /-- A send by the router, with whose it is. -/
  | bridged {c : Call} {a : Gate.SendArgs} {t : σ} {g : Gate.Done σ} {log : List Event}
      {tokenIn : Address} {amountIn chainIdTo : U256} {finalToken finalReceiver : Address}
      (running : w.upgraded = false) (now : w.now ≤ c.timestamp)
      (token : a.token = w.scene.router.stable)
      (call : Gate.send S.chain (acting S c) w.scene.gate t a = .ok g)
      (gate : w'.scene.gate = g.gate) (upgraded : w'.upgraded = false)
      (now' : w'.now = c.timestamp)
      (accounts : w'.scene.router.accounts = { w.scene.router.accounts with
        refundOf := Function.update w.scene.router.refundOf g.id ⟨c.sender, a.amount⟩ })
      (pending : w'.scene.router.pendingStableRescue = w.scene.router.pendingStableRescue)
      (flows : std → Flows S w.scene.router.stable 0 0 w.scene.tokens w'.scene.tokens)
      (quiet : ∀ v ∈ log, v.quiet = true) :
      Move S std w w'
        (log ++ g.log.map .gate ++ [.swapBridged g.id c.sender tokenIn amountIn a.amount
          chainIdTo finalToken finalReceiver])
        ((Gate.TransferCall.send a).hashed S.chain (acting S c) w.scene.gate)
  /-- A delivery settles. -/
  | settled {b : Gate.ClaimArgs} {id : Bytes32} {amount : U256} {plog : List SwapPool.Event}
      {v : Event} (still : Still w w') (shown : Shown S w.scene b id amount)
      (settled : Settled w.scene.router id amount w'.scene.router)
      (flows : std → Flows S w.scene.router.stable 0 amount.toNat w.scene.tokens w'.scene.tokens)
      (event : v.settles = some id) :
      Move S std w w' (plog.map .pool ++ [v]) (shownStrings S w.scene b)
  /-- A delivery is deferred. -/
  | deferred {c : Call} {b : Gate.ClaimArgs} {id : Bytes32} {amount : U256}
      {finalReceiver finalToken : Address} {retryAfter : ℕ} (still : Still w w')
      (now : w'.now = c.timestamp) (shown : Shown S w.scene b id amount)
      (deferred : Deferred c w.scene.router id amount w'.scene.router)
      (flows : std → Flows S w.scene.router.stable 0 0 w.scene.tokens w'.scene.tokens) :
      Move S std w w' [.finalizeDeferred id finalReceiver finalToken retryAfter]
        (shownStrings S w.scene b)
  /-- A refund is passed on. -/
  | forwarded {id : Bytes32} (still : Still w w') (refunded : w.scene.gate.refunded id = true)
      (forwarded : Forwarded w.scene.router id w'.scene.router)
      (flows : std → Flows S w.scene.router.stable 0 (w.scene.router.refundOf id).amount.toNat
        w.scene.tokens w'.scene.tokens) :
      Move S std w w' [.refundForwarded id (w.scene.router.refundOf id).target
        (w.scene.router.refundOf id).amount] []
  /-- The notice of a sweep is filed. -/
  | scheduled {c : Call} {amount : U256} {target : Address} {readyAt : ℕ} (still : Still w w')
      (tokens : w'.scene.tokens = w.scene.tokens)
      (schedules : Schedules S c w.scene amount w'.scene.router) :
      Move S std w w' [.stableRescueScheduled amount target readyAt] []
  /-- The notice is dropped. -/
  | dropped {account : Address} (still : Still w w')
      (tokens : w'.scene.tokens = w.scene.tokens)
      (accounts : w'.scene.router.accounts = w.scene.router.accounts)
      (pending : w'.scene.router.pendingStableRescue = .none) :
      Move S std w w' [.stableRescueCancelled account] []
  /-- The stable is swept. -/
  | swept {c : Call} {amount : U256} {target : Address} (still : Still w w')
      (executes : Executes S c w.scene w'.scene) :
      Move S std w w' [.stableRescued amount target] []

/-- **Moves, one after the other.** -/
inductive Moves (S : Site σ) (std : Prop) (w : World σ) :
    World σ → List Event → List Bytes → Prop
  | nil : Moves S std w w [] []
  | snoc {w₁ w₂ : World σ} {log log' : List Event} {strings strings' : List Bytes} :
      Moves S std w w₁ log strings → Move S std w₁ w₂ log' strings' →
      Moves S std w w₂ (log ++ log') (strings ++ strings')

variable {S : Site σ} {std : Prop} {w₀ w w' w'' : World σ} {log log' : List Event}
  {strings strings' : List Bytes}

/-- A single move. -/
theorem Move.moves (h : Move S std w w' log strings) : Moves S std w w' log strings :=
  Moves.nil.snoc h

theorem Moves.append (h : Moves S std w w' log strings)
    (h' : Moves S std w' w'' log' strings') :
    Moves S std w w'' (log ++ log') (strings ++ strings') := by
  induction h' with
  | nil => simpa using h
  | snoc _ hm ih =>
    rw [← List.append_assoc, ← List.append_assoc]
    exact ih.snoc hm

/-- **A property that every move keeps**, of the state and of all events and strings so far. -/
theorem Moves.invariant {P : World σ → List Event → List Bytes → Prop} (h₀ : P w [] [])
    (hmove : ∀ {w₁ w₂ log log' strings strings'}, P w₁ log strings →
      Move S std w₁ w₂ log' strings' → P w₂ (log ++ log') (strings ++ strings'))
    (h : Moves S std w w' log strings) : P w' log strings := by
  induction h with
  | nil => exact h₀
  | snoc _ hm ih => exact hmove ih hm

/-! ### The moves of a call -/

section Calls

variable {c : Call} {s' : Scene σ}

/-- The world after a call of the router. -/
def World.after {σ : Type} (w : World σ) (c : Call) (s : Scene σ) : World σ :=
  ⟨s, c.timestamp, false, w.deployed⟩

/-- What a call of the router needs to be a few moves. -/
structure Ready (S : Site σ) (std : Prop) (w : World σ) (c : Call) : Prop where
  std : std → Standard S w.scene.router.stable
  /-- The gate has executed whatever it has cancelled. -/
  executed : ∀ id, w.scene.gate.cancelled id = true → w.scene.gate.executed id = true
  now : w.now ≤ c.timestamp
  running : w.upgraded = false

/-- **The moves of a call**, with strings that are among those that the call hashed. -/
def MovesOf (S : Site σ) (std : Prop) (w : World σ) (c : Call) (x : RouterCall) (s' : Scene σ)
    (log : List Event) : Prop :=
  ∃ strings, Moves S std w (w.after c s') log strings ∧
    ∀ bs ∈ strings, bs ∈ x.hashed S c w.scene

/-- A call that hashes nothing for itself is one move. -/
theorem movesOf_of_move {x : RouterCall} (h : Move S std w (w.after c s') log []) :
    MovesOf S std w c x s' log :=
  ⟨_, h.moves, by simp⟩

theorem moves_of_swapAndBridge {a : BridgeArgs} (hr : Ready S std w c)
    (h : swapAndBridge S c w.scene a = .ok (s', log)) :
    MovesOf S std w c (.swapAndBridge a) s' log := by
  have hflows : std → Flows S w.scene.router.stable 0 0 w.scene.tokens s'.tokens :=
    fun hs => flows_swapAndBridge (hr.std hs) rfl h
  obtain ⟨leg, dust, t, p, g, hprepare, P, hg, hs', rfl⟩ := prepares_of_swapAndBridge h
  obtain ⟨-, -, plog, hplog⟩ := P.acquired.frame
  have hquiet : ∀ v ∈ p.log, v.quiet = true := by
    intro v hv
    rw [P.log, hplog] at hv
    obtain ⟨e, -, rfl⟩ := List.mem_map.mp hv
    rfl
  have hmove := @Move.bridged σ S std w (w.after c s') c p.send p.scene.tokens g p.log a.tokenIn
    a.amountIn a.chainIdTo a.finalToken a.finalReceiver hr.running hr.now (by rw [P.send]) hg
    (by rw [World.after, hs']) rfl rfl (by rw [World.after, hs']; rfl) (by rw [World.after, hs'])
    hflows hquiet
  refine ⟨_, hmove.moves, fun bs hbs => ?_⟩
  have hat : RouterCall.atGate S c w.scene (.swapAndBridge a) = some (.send p.send) := by
    rw [RouterCall.atGate, toOption_eq_some.mpr hprepare, Option.map_some]
  unfold RouterCall.hashed
  rw [hat]
  simpa using hbs

/-- **The move of a delivery**: it settles or it is deferred. -/
theorem move_of_settles {a : FinalizeArgs} {signatures : List Bytes} {id : Bytes32}
    {amount : U256} {i : Intent} {d : Attempt σ} {r : SwapRouter} (hr : Ready S std w c)
    (hid : Gate.idFor S.chain.keccak256 w.scene.gate.bridgeDomain
      (Gate.claimParams S.chain (a.claim signatures)) = .ok id)
    (hex : w.scene.gate.executed id = true) (hcan : w.scene.gate.cancelled id = false)
    (h : Settles S c w.scene id a.debridgeId a.amount a.receiver a.autoParams amount i d r) :
    Move S std w (w.after c { d.scene with router := r }) d.log
      (shownStrings S w.scene (a.claim signatures)) := by
  have hstill : Still w (w.after c { d.scene with router := r }) :=
    ⟨h.ends.gate, hr.running.symm, hr.now⟩
  have hshown : Shown S w.scene (a.claim signatures) id amount :=
    ⟨hid, hex, hcan, h.receiver_eq, h.asset, h.amount_eq⟩
  have hflows : std → Flows S w.scene.router.stable 0 (if d.settled then amount.toNat else 0)
      w.scene.tokens d.scene.tokens := fun hs => h.ends.flows (hr.std hs) rfl
  -- The ending says whether it settled, and with it the accounts and the events.
  rcases h.ends.events with ⟨hd, plog, v, hlog, hv⟩ | ⟨hd, fr, ft, retryAfter, hlog⟩
  · rcases h.accounts with ⟨-, hsettled⟩ | ⟨hd', -⟩
    · rw [hd] at hflows
      rw [hlog]
      exact .settled hstill hshown hsettled hflows hv
    · exact absurd (hd.symm.trans hd') (by simp)
  · rcases h.accounts with ⟨hd', -⟩ | ⟨-, hdeferred⟩
    · exact absurd (hd'.symm.trans hd) (by simp)
    · rw [hd] at hflows
      rw [hlog]
      exact .deferred hstill rfl hshown hdeferred hflows

theorem moves_of_finalize {a : FinalizeArgs} {gas : Gas} (hr : Ready S std w c)
    (h : finalize S c w.scene a gas = .ok (s', log)) :
    MovesOf S std w c (.finalize a gas) s' log := by
  obtain ⟨id, amount, i, d, r, hid, hex, hcan, hs, rfl, rfl⟩ := settles_of_finalize h
  refine ⟨_, (move_of_settles hr hid hex hcan hs).moves, fun bs hbs => ?_⟩
  unfold RouterCall.hashed
  exact List.mem_append_right _ hbs

theorem moves_of_claimAndFinalize {a : FinalizeArgs} {signatures : List Bytes} {gas : Gas}
    (hr : Ready S std w c)
    (h : claimAndFinalize S c w.scene a signatures gas = .ok (s', log)) :
    MovesOf S std w c (.claimAndFinalize a signatures gas) s' log := by
  obtain ⟨g, amount, i, d, r, hg, hs, rfl, rfl⟩ := settles_of_claimAndFinalize h
  obtain ⟨n, recipient, C⟩ := Gate.claims_of_claim hg
  let w₁ : World σ := w.after c { w.scene with gate := g.gate, tokens := g.tokens }
  have hclaim : Move S std w w₁ (g.log.map .gate)
      ((Gate.TransferCall.claim (a.claim signatures)).hashed S.chain (acting S c) w.scene.gate) :=
    @Move.transfer σ S std w w₁ (acting S c) (.claim (a.claim signatures)) g hr.running hr.now hg
      (fun b hb => absurd hb (by simp)) rfl
  have hexec : g.gate.executed = Function.update w.scene.gate.executed g.id true := by rw [C.gate]
  have hcancelled : g.gate.cancelled = w.scene.gate.cancelled := by rw [C.gate]
  have hdomain : g.gate.bridgeDomain = w.scene.gate.bridgeDomain := by rw [C.gate]
  have hr₁ : Ready S std w₁ c := by
    refine ⟨hr.std, fun id hid => ?_, le_rfl, rfl⟩
    show g.gate.executed id = true
    rw [hexec]
    exact Gate.update_true_of_true (hr.executed id (hcancelled ▸ hid))
  have hid : Gate.idFor S.chain.keccak256 g.gate.bridgeDomain
      (Gate.claimParams S.chain (a.claim signatures)) = .ok g.id := by
    rw [hdomain]
    exact C.id
  have hex : g.gate.executed g.id = true := by
    rw [hexec]
    exact Function.update_self ..
  have hcan : g.gate.cancelled g.id = false := by
    -- What is cancelled had been executed, and could not have been claimed.
    rw [hcancelled, Bool.eq_false_iff]
    intro hc
    exact absurd (hr.executed g.id hc) (by rw [C.executed]; simp)
  refine ⟨_, hclaim.moves.snoc (move_of_settles hr₁ hid hex hcan hs), fun bs hbs => ?_⟩
  unfold RouterCall.hashed RouterCall.atGate
  refine List.mem_append_left _ ?_
  rcases List.mem_append.mp hbs with hbs | hbs
  · simpa using hbs
  · rw [shownStrings, show w₁.scene.gate.bridgeDomain = w.scene.gate.bridgeDomain from hdomain]
      at hbs
    simpa [Gate.TransferCall.hashed] using hbs

theorem moves_of_forward {id : Bytes32} {x : RouterCall} (hr : Ready S std w c)
    (h : forward S w.scene id = .ok (s', log)) :
    Move S std w (w.after c s') log [] ∧ MovesOf S std w c x s' log := by
  obtain ⟨hf, hrefunded, hgate, -, hmoved, rfl⟩ := forwarded_of_forward h
  have hmove : Move S std w (w.after c s') _ [] :=
    @Move.forwarded σ S std w (w.after c s') id ⟨hgate, hr.running.symm, hr.now⟩ hrefunded hf
      fun hs => flows_pay (hr.std hs) hmoved
  exact ⟨hmove, movesOf_of_move hmove⟩

theorem moves_of_refundAndForward {a : RefundAndForwardArgs} (hr : Ready S std w c)
    (h : refundAndForward S c w.scene a = .ok (s', log)) :
    MovesOf S std w c (.refundAndForward a) s' log := by
  obtain ⟨g, log', hg, hf, rfl⟩ := forwarded_of_refundAndForward h
  obtain ⟨n, R⟩ := Gate.refunds_of_refund hg
  let w₁ : World σ := w.after c { w.scene with gate := g.gate, tokens := g.tokens }
  let b := a.refund w.scene.router.stable
  have hrefund : Move S std w w₁ (g.log.map .gate)
      ((Gate.TransferCall.refund b).hashed S.chain (acting S c) w.scene.gate) :=
    @Move.transfer σ S std w w₁ (acting S c) (.refund b) g hr.running hr.now hg
      (fun _ hb => absurd hb (by simp)) rfl
  have hr₁ : Ready S std w₁ c := by
    refine ⟨hr.std, fun id hid => ?_, le_rfl, rfl⟩
    have hcancelled : g.gate.cancelled = w.scene.gate.cancelled := by rw [R.gate]
    have hexec : g.gate.executed = w.scene.gate.executed := by rw [R.gate]
    show g.gate.executed id = true
    rw [hexec]
    exact hr.executed id (hcancelled ▸ hid)
  have hforward := (moves_of_forward (x := .refundAndForward a) hr₁ hf).1
  refine ⟨_, hrefund.moves.snoc hforward, fun bs hbs => ?_⟩
  unfold RouterCall.hashed RouterCall.atGate
  refine List.mem_append_left _ ?_
  simpa using hbs

/-- **The moves of a call of the router**, at most two. -/
theorem moves_of_call {x : RouterCall} (hr : Ready S std w c)
    (h : call S c w.scene x = .ok (s', log)) : MovesOf S std w c x s' log := by
  have hstill : s'.gate = w.scene.gate → Still w (w.after c s') := fun hg =>
    ⟨hg, hr.running.symm, hr.now⟩
  cases x with
  | swapAndBridge a => exact moves_of_swapAndBridge hr h
  | finalize a gas => exact moves_of_finalize hr h
  | claimAndFinalize a signatures gas => exact moves_of_claimAndFinalize hr h
  | forwardRefund id => exact (moves_of_forward hr h).2
  | refundAndForward a => exact moves_of_refundAndForward hr h
  | scheduleStableRescue amount target =>
    obtain ⟨⟨r, log⟩, hx, heq⟩ := SwapPool.map_eq_ok.mp h
    obtain ⟨rfl, rfl⟩ := Prod.mk.inj heq
    obtain ⟨hs, rfl⟩ := schedules_of_scheduleStableRescue hx
    exact movesOf_of_move (.scheduled (hstill rfl) rfl hs)
  | cancelStableRescue =>
    obtain ⟨a, ha, rfl, rfl⟩ := SwapPool.map_eq_ok.mp h
    simp only [cancelStableRescue, bind_eq_ok, exists_unit, pure_eq_ok] at ha
    obtain ⟨-, -, rfl⟩ := ha
    exact movesOf_of_move (.dropped (hstill rfl) rfl rfl rfl)
  | executeStableRescue =>
    obtain ⟨hx, rfl⟩ := executes_of_executeStableRescue h
    exact movesOf_of_move (.swept (hstill hx.gate) hx)
  | transferOwnership _ | acceptOwnership | setGuardian _ | setRemoteRouter _ _ | rescue _ _ _ =>
    obtain ⟨haccounts, hpending, hgate, htokens, hlog⟩ := idle_of_call rfl h
    refine movesOf_of_move (.idle (hstill hgate) haccounts hpending (fun hs => ?_) hlog)
    rcases htokens with heq | ⟨token, target, amount, hne, hmoved⟩
    · rw [show (w.after c s').scene.tokens = w.scene.tokens from heq]
      exact Flows.refl
    · exact (hr.std hs).transfer hne hmoved

end Calls

/-! ### The moves of a run -/

/-- **The moves of a step.** Others take no stable from the router. -/
theorem moves_of_exec {l : Label σ} (hstd : std → Standard S w.scene.router.stable)
    (hexecuted : ∀ id, w.scene.gate.cancelled id = true → w.scene.gate.executed id = true)
    (hothers : std → ∀ t, l = .gate (.tokens t) →
      Flows S w.scene.router.stable 0 0 w.scene.tokens t)
    (hstable : w.deployed = false → w.scene.router = { blank with stable := w.scene.pool.stable })
    (h : exec S w l = some (w', log)) :
    ∃ strings, Moves S std w w' log strings ∧
      ∀ bs ∈ strings, bs ∈ hashedBy S ⟨w, l, log, w'⟩ := by
  cases l with
  | gate l =>
    rw [exec, Option.ite_none_left_eq_some] at h
    obtain ⟨hown, h⟩ := h
    obtain ⟨⟨gw, o⟩, hg, heq⟩ := Option.map_eq_some_iff.mp h
    obtain ⟨rfl, rfl⟩ := Prod.mk.inj heq
    cases l with
    | govern c x =>
      obtain ⟨hup, hnow, hgov, htokens, hnow', hup', -⟩ := Gate.exec_govern hg
      refine ⟨[], (Move.govern hup hnow hgov ?_).moves, by simp⟩
      rw [htokens, hnow', hup']
      rfl
    | transfer c x =>
      obtain ⟨hup, hnow, r, hr, rfl, rfl⟩ := Gate.exec_transfer hg
      exact ⟨_, (Move.transfer hup hnow hr (fun a _ he => hown (beq_iff_eq.mpr he)) rfl).moves,
        fun bs hbs => hbs⟩
    | tokens t =>
      obtain ⟨rfl, rfl⟩ := Gate.exec_tokens hg
      refine ⟨[], Move.moves ?_, by simp⟩
      exact .idle ⟨rfl, rfl, le_rfl⟩ rfl rfl (fun hs => hothers hs t rfl) (by simp)
  | pool c x =>
    rw [exec, Option.ite_none_left_eq_some] at h
    obtain ⟨hguard, h⟩ := h
    rw [not_or, not_or, not_lt, Bool.not_eq_true] at hguard
    split at h
    · next d hd =>
      simp only [Option.some.injEq, Prod.mk.injEq] at h
      obtain ⟨rfl, rfl⟩ := h
      refine ⟨[], Move.moves ?_, by simp⟩
      refine .idle ⟨rfl, hguard.1.symm, hguard.2.1⟩ rfl rfl
        (fun hs => flows_pool (hstd hs) hguard.2.2 hd) fun v hv => ?_
      obtain ⟨e, -, rfl⟩ := List.mem_map.mp hv
      rfl
    · exact absurd h (by simp)
  | deploy c =>
    rw [exec, Option.ite_none_left_eq_some] at h
    obtain ⟨hguard, h⟩ := h
    rw [not_or, not_or, not_lt, Bool.not_eq_true, Bool.not_eq_true] at hguard
    simp only [Option.some.injEq, Prod.mk.injEq] at h
    obtain ⟨rfl, rfl⟩ := h
    have hrouter := hstable hguard.2.2
    refine ⟨[], Move.moves ?_, by simp⟩
    refine .idle ⟨rfl, hguard.1.symm, hguard.2.1⟩ ?_ ?_ (fun _ => Flows.refl)
      (List.forall_mem_singleton.mpr rfl) <;> rw [hrouter] <;> rfl
  | router c x =>
    rw [exec, Option.ite_none_left_eq_some] at h
    obtain ⟨hguard, h⟩ := h
    rw [not_or, not_or, not_or, not_lt, Bool.not_eq_true, Bool.not_eq_false] at hguard
    split at h
    · next d hd =>
      simp only [Option.some.injEq, Prod.mk.injEq] at h
      obtain ⟨rfl, rfl⟩ := h
      obtain ⟨strings, hm, hs⟩ := moves_of_call ⟨hstd, hexecuted, hguard.2.1, hguard.1⟩ hd
      rw [World.after, hguard.2.2.2] at hm
      exact ⟨strings, hm, hs⟩
    · exact absurd h (by simp)

end SwapRouter

end SelendraBridge
