import SelendraBridge.Router.Moves

/-!
# The gate behind a router

A run of the router has a run of the gate inside it, and what is known of the gate's runs –
no id is claimed twice, no id is refunded twice, a refund pays what the send of the id
locked – is known of it. `SelendraBridge.SwapRouter.Behind` relates the two: the gate's run
leads to the gate of the router's world, and its events are those that the router's run
shows of the gate. Between two steps of the gate, tokens may move, so a step of the gate
behind the router is a move of tokens and a call (`SelendraBridge.SwapRouter.Behind.transfer`).

With it every move goes on from a run of the gate, and a run of the router is a run of moves
(`SelendraBridge.SwapRouter.moves_of_run`).
-/

namespace SelendraBridge

namespace SwapRouter

open Revert Transition Scene

variable {σ : Type} {S : Site σ} {std : Prop}

/-! ### The events of the gate -/

/-- The event of the gate that an event is, if it is one. -/
def Event.ofGate : Event → Option Gate.Event
  | .gate e => some e
  | _ => none

/-- What the gate emitted. -/
def gateLog (log : List Event) : List Gate.Event := log.filterMap Event.ofGate

@[simp] theorem gateLog_nil : gateLog [] = [] := rfl

@[simp] theorem gateLog_append (log log' : List Event) :
    gateLog (log ++ log') = gateLog log ++ gateLog log' :=
  List.filterMap_append

@[simp] theorem gateLog_map_gate (l : List Gate.Event) : gateLog (l.map .gate) = l := by
  induction l with
  | nil => rfl
  | cons e l ih => exact congrArg (e :: ·) ih

@[simp] theorem gateLog_map_pool (l : List SwapPool.Event) : gateLog (l.map .pool) = [] :=
  List.filterMap_eq_nil_iff.mpr fun v hv => by
    obtain ⟨e, -, rfl⟩ := List.mem_map.mp hv
    rfl

theorem mem_gateLog {log : List Event} {e : Gate.Event} : e ∈ gateLog log ↔ .gate e ∈ log := by
  rw [gateLog, List.mem_filterMap]
  constructor
  · rintro ⟨v, hv, he⟩
    cases v with
    | gate e' => exact Option.some.inj he ▸ hv
    | _ => exact absurd he (by simp [Event.ofGate])
  · exact fun h => ⟨_, h, rfl⟩

theorem gateLog_of_quiet {log : List Event} (h : ∀ v ∈ log, v.quiet = true) : gateLog log = [] :=
  List.filterMap_eq_nil_iff.mpr fun v hv => by
    cases v with
    | gate e => exact absurd (h _ hv) Bool.false_ne_true
    | _ => rfl

theorem gateLog_of_settles {plog : List SwapPool.Event} {v : Event} {id : Bytes32}
    (h : v.settles = some id) : gateLog (plog.map .pool ++ [v]) = [] := by
  rw [gateLog_append, gateLog_map_pool]
  cases v with
  | gate e => exact absurd h (by simp [Event.settles])
  | _ => rfl

/-! ### A run behind a run -/

/-- **The gate's run behind a router's**, with the events and the hashed strings so far. -/
structure Behind (S : Site σ) (g₀ : Gate.World σ) (w : World σ) (log : List Event)
    (strings : List Bytes) (gtr : List (Gate.Step σ)) (gw : Gate.World σ) : Prop where
  initial : Gate.Initial g₀
  run : Run (Gate.exec S.chain) g₀ gtr gw
  gate : gw.gate = w.scene.gate
  upgraded : gw.upgraded = w.upgraded
  now : gw.now ≤ w.now
  events : (gtr.flatMap fun e => e.out.log) = gateLog log
  hashed : ∀ bs ∈ Gate.hashedIn S.chain gtr, bs ∈ strings

/-- Somebody else moves tokens of the gate. -/
def tokensStep (gw : Gate.World σ) (t : σ) : Gate.Step σ :=
  ⟨gw, .tokens t, ⟨[], none⟩, { gw with tokens := t }⟩

/-- A transfer call of the gate, on the tokens that it finds. -/
def transferStep (gw : Gate.World σ) (t : σ) (c : Call) (x : Gate.TransferCall)
    (r : Gate.Done σ) : Gate.Step σ :=
  ⟨{ gw with tokens := t }, .transfer c x, ⟨r.log, some r.id⟩,
    ⟨r.gate, r.tokens, c.timestamp, false⟩⟩

variable {g₀ gw : Gate.World σ} {w w' : World σ} {log log' : List Event}
  {strings strings' : List Bytes} {gtr : List (Gate.Step σ)}

namespace Behind

/-- The gate is past its initialization. -/
theorem deadline (B : Behind S g₀ w log strings gtr gw) : w.scene.gate.setupDeadline ≠ 0 :=
  B.gate ▸ Gate.setupDeadline_ne B.initial B.run

/-- What the gate has cancelled it has executed. -/
theorem executed_of_cancelled (B : Behind S g₀ w log strings gtr gw) {id : Bytes32}
    (h : w.scene.gate.cancelled id = true) : w.scene.gate.executed id = true := by
  rw [← B.gate] at h ⊢
  exact Gate.executed_of_cancelled B.initial B.run h

/-- The gate stands still. -/
theorem still (B : Behind S g₀ w log strings gtr gw) (hs : Still w w')
    (hlog : gateLog log' = []) :
    Behind S g₀ w' (log ++ log') (strings ++ strings') gtr gw where
  initial := B.initial
  run := B.run
  gate := B.gate.trans hs.gate.symm
  upgraded := B.upgraded.trans hs.upgraded.symm
  now := B.now.trans hs.now
  events := by rw [gateLog_append, hlog, List.append_nil, B.events]
  hashed := fun bs hbs => List.mem_append_left _ (B.hashed bs hbs)

/-- The gate is governed. -/
theorem govern (B : Behind S g₀ w log strings gtr gw) {c : Call} {x : Gate.GovCall} {g : Gate}
    {l : List Gate.Event} (running : w.upgraded = false) (now : w.now ≤ c.timestamp)
    (call : Gate.govern S.chain c w.scene.gate w.scene.tokens x = .ok (g, l)) :
    ∃ e gw', e.label = .govern c x ∧
      Behind S g₀ ⟨{ w.scene with gate := g }, c.timestamp, x.isUpgrade, w.deployed⟩
        (log ++ l.map .gate) (strings ++ []) (gtr ++ [tokensStep gw w.scene.tokens, e]) gw' := by
  let gw₁ : Gate.World σ := { gw with tokens := w.scene.tokens }
  let gw₂ : Gate.World σ := ⟨g, w.scene.tokens, c.timestamp, x.isUpgrade⟩
  have h₁ : Gate.exec S.chain gw (.tokens w.scene.tokens) = some (gw₁, ⟨[], none⟩) := rfl
  have h₂ : Gate.exec S.chain gw₁ (.govern c x) = some (gw₂, ⟨l, none⟩) := by
    have hguard : ¬(gw.upgraded = true ∨ c.timestamp < gw.now) := by
      rw [B.upgraded, running, not_or, not_lt]
      exact ⟨Bool.false_ne_true, B.now.trans now⟩
    rw [Gate.exec, if_neg hguard, show gw₁.gate = w.scene.gate from B.gate, call]
  refine ⟨⟨gw₁, .govern c x, ⟨l, none⟩, gw₂⟩, gw₂, rfl, ?_⟩
  have hrun := (B.run.snoc h₁).snoc h₂
  rw [List.append_assoc] at hrun
  refine ⟨B.initial, hrun, rfl, rfl, le_rfl, ?_, fun bs hbs => ?_⟩
  · rw [List.flatMap_append, B.events, gateLog_append, gateLog_map_gate]
    simp [tokensStep]
  · rw [Gate.hashedIn, List.flatMap_append, List.mem_append] at hbs
    rcases hbs with hbs | hbs
    · exact List.mem_append_left _ (B.hashed bs hbs)
    · exact absurd hbs (by simp [tokensStep, Gate.hashedBy])

/-- **The gate is called**, on whatever tokens. -/
theorem transfer (B : Behind S g₀ w log strings gtr gw) {c : Call} {x : Gate.TransferCall}
    {t : σ} {r : Gate.Done σ} (running : w.upgraded = false) (now : w.now ≤ c.timestamp)
    (call : Gate.transfer S.chain c w.scene.gate t x = .ok r) (gate : w'.scene.gate = r.gate)
    (upgraded : w'.upgraded = false) (now' : w'.now = c.timestamp)
    (hlog : gateLog log' = r.log) :
    Behind S g₀ w' (log ++ log') (strings ++ x.hashed S.chain c w.scene.gate)
      (gtr ++ [tokensStep gw t, transferStep gw t c x r])
      ⟨r.gate, r.tokens, c.timestamp, false⟩ := by
  have h₁ : Gate.exec S.chain gw (.tokens t) = some ({ gw with tokens := t }, ⟨[], none⟩) := rfl
  have h₂ : Gate.exec S.chain { gw with tokens := t } (.transfer c x) =
      some (⟨r.gate, r.tokens, c.timestamp, false⟩, ⟨r.log, some r.id⟩) := by
    have hguard : ¬(gw.upgraded = true ∨ c.timestamp < gw.now) := by
      rw [B.upgraded, running, not_or, not_lt]
      exact ⟨Bool.false_ne_true, B.now.trans now⟩
    rw [Gate.exec, if_neg hguard]
    dsimp only
    rw [B.gate, call]
  have hrun := (B.run.snoc h₁).snoc h₂
  rw [List.append_assoc] at hrun
  refine ⟨B.initial, hrun, gate.symm, upgraded.symm, now'.ge, ?_, fun bs hbs => ?_⟩
  · rw [List.flatMap_append, B.events, gateLog_append, hlog]
    simp [tokensStep, transferStep]
  · rw [Gate.hashedIn, List.flatMap_append, List.mem_append] at hbs
    rcases hbs with hbs | hbs
    · exact List.mem_append_left _ (B.hashed bs hbs)
    · refine List.mem_append_right _ ?_
      rw [← B.gate]
      simpa [tokensStep, transferStep, Gate.hashedBy] using hbs

/-- **The gate's run goes on behind every move.** -/
theorem move (B : Behind S g₀ w log strings gtr gw) (h : Move S std w w' log' strings') :
    ∃ gtr' gw', Behind S g₀ w' (log ++ log') (strings ++ strings') (gtr ++ gtr') gw' := by
  have hquiet : ∀ hs : Still w w', gateLog log' = [] →
      ∃ gtr' gw', Behind S g₀ w' (log ++ log') (strings ++ strings') (gtr ++ gtr') gw' :=
    fun hs hlog => ⟨[], gw, by rw [List.append_nil]; exact B.still hs hlog⟩
  cases h with
  | idle still _ _ _ quiet => exact hquiet still (gateLog_of_quiet quiet)
  | govern running now call post =>
    obtain ⟨e, gw', -, B'⟩ := B.govern running now call
    exact ⟨_, gw', post ▸ B'⟩
  | transfer running now call _ post =>
    exact ⟨_, _, B.transfer running now call (by rw [post]) (by rw [post]) (by rw [post])
      (gateLog_map_gate _)⟩
  | @bridged c a t g plog tokenIn amountIn chainIdTo finalToken finalReceiver running now _ call
      gate upgraded now' _ _ _ quiet =>
    refine ⟨_, _, B.transfer (x := .send a) running now call gate upgraded now' ?_⟩
    rw [gateLog_append, gateLog_append, gateLog_of_quiet quiet, gateLog_map_gate]
    exact List.append_nil _
  | settled still _ _ _ event => exact hquiet still (gateLog_of_settles event)
  | deferred still _ _ _ _ => exact hquiet still rfl
  | forwarded still _ _ _ => exact hquiet still rfl
  | scheduled still _ _ => exact hquiet still rfl
  | dropped still _ _ _ => exact hquiet still rfl
  | swept still _ => exact hquiet still rfl

/-- Nothing on record at the gate is lost in a move. -/
theorem kept (B : Behind S g₀ w log strings gtr gw) (h : Move S std w w' log' strings') :
    Gate.Kept w.scene.gate w'.scene.gate := by
  have hstill : Still w w' → Gate.Kept w.scene.gate w'.scene.gate := fun hs =>
    hs.gate ▸ Gate.Kept.refl _
  cases h with
  | govern _ _ call post =>
    rw [post]
    exact (Gate.governed_of_govern call B.deadline).kept
  | transfer _ _ call _ post =>
    rw [post]
    exact Gate.kept_of_transfer call
  | bridged _ _ _ call gate _ _ _ _ _ _ =>
    rw [gate]
    exact Gate.kept_of_transfer (x := .send _) call
  | idle still _ _ _ _ => exact hstill still
  | settled still _ _ _ _ => exact hstill still
  | deferred still _ _ _ _ => exact hstill still
  | forwarded still _ _ _ => exact hstill still
  | scheduled still _ _ => exact hstill still
  | dropped still _ _ _ => exact hstill still
  | swept still _ => exact hstill still

/-! ### What the events say -/

/-- **No id is claimed twice.** -/
theorem claimed_nodup (B : Behind S g₀ w log strings gtr gw) :
    ((gateLog log).filterMap Gate.claimedId).Nodup := by
  rw [← B.events, List.filterMap_flatMap]
  exact (Gate.claimed_nodup B.initial B.run).1

/-- **No id is refunded twice.** -/
theorem refunded_nodup (B : Behind S g₀ w log strings gtr gw) :
    ((gateLog log).filterMap Gate.refundedId).Nodup := by
  rw [← B.events, List.filterMap_flatMap]
  exact (Gate.refunded_nodup B.initial B.run).1

/-- An event of the gate is one of a step of its run. -/
theorem mem_run (B : Behind S g₀ w log strings gtr gw) {v : Gate.Event} :
    .gate v ∈ log ↔ ∃ e ∈ gtr, v ∈ e.out.log := by
  rw [← mem_gateLog, ← B.events, List.mem_flatMap]

/-- What was claimed is executed, in an asset that has its token still. -/
theorem executed_of_mem (B : Behind S g₀ w log strings gtr gw) {id d : Bytes32}
    {recipient : Address} {amount : U256} (h : .gate (.claimed id d recipient amount) ∈ log) :
    w.scene.gate.executed id = true ∧ w.scene.gate.tokenOf d ≠ 0 := by
  obtain ⟨e, he, hmem⟩ := B.mem_run.mp h
  rw [← B.gate]
  exact Gate.executed_of_mem B.initial B.run he hmem

/-- What was refunded is on record as refunded. -/
theorem refunded_of_mem (B : Behind S g₀ w log strings gtr gw) {id d : Bytes32}
    {sender : Address} {amount : U256} (h : .gate (.refunded id d sender amount) ∈ log) :
    w.scene.gate.refunded id = true := by
  obtain ⟨e, he, hmem⟩ := B.mem_run.mp h
  rw [← B.gate]
  refine (Gate.refunded_nodup B.initial B.run).2 id (List.mem_flatMap.mpr ⟨e, he, ?_⟩)
  exact List.mem_filterMap.mpr ⟨_, hmem, rfl⟩

/-- **A delivery that was shown was claimed**: by a claim of that id, into the router, of that
amount of stable. -/
theorem claimed_of_shown (B : Behind S g₀ w log strings gtr gw) {b : Gate.ClaimArgs}
    {id : Bytes32} {amount : U256} {all : List Bytes} (h : Shown S w.scene b id amount)
    (hcoll : CollisionFree S.chain.keccak256 all) (hs : ∀ bs ∈ strings, bs ∈ all)
    (hb : ∀ bs ∈ shownStrings S w.scene b, bs ∈ all) :
    ∃ d, .gate (.claimed id d S.here amount) ∈ log ∧
      w.scene.gate.tokenOf d = w.scene.router.stable := by
  obtain ⟨e, he, c, a, localAmount, recipient, C⟩ := Gate.claimed_of_executed
    B.initial B.run (B.gate ▸ h.executed) (B.gate ▸ h.cancelled)
  obtain ⟨before, after, hsplit⟩ := List.append_of_mem he
  have hrun := B.run
  rw [hsplit] at hrun
  obtain ⟨hbefore, hex, hafter⟩ := hrun.split
  have hd := Gate.setupDeadline_ne B.initial hbefore
  have hk : Gate.Kept e.pre.gate w.scene.gate := by
    rw [← B.gate]
    exact (Gate.kept_step hd hex).trans
      (Gate.kept_run (Gate.setupDeadline_step hd hex) hafter)
  obtain ⟨hasset, hreceiver, -, hamount⟩ := C.same hk h.id_eq hcoll
    (fun bs hbs => hs bs (B.hashed bs (Gate.hashedBy_subset he hbs)))
    (fun bs hbs => hb bs (by rw [shownStrings, hbs]; exact List.mem_singleton_self _))
  obtain rfl : S.here = recipient := by
    have h₁ := orRevert_eq_ok.mp h.receiver
    have h₂ := orRevert_eq_ok.mp hreceiver
    exact Option.some.inj (h₁.symm.trans h₂)
  obtain rfl : amount = localAmount := hamount amount (by rw [h.asset]; exact h.amount_eq)
  refine ⟨a.debridgeId, B.mem_run.mpr ⟨e, he, ?_⟩, by rw [hasset]; exact h.asset⟩
  rw [show e.out.log = _ from C.spec.log]
  exact List.mem_singleton_self _

end Behind

/-! ### The moves of a run -/

/-- **An invariant of the moves** may use the run of the gate behind each of them. -/
theorem Moves.invariant_behind {P : World σ → List Event → List Bytes → Prop}
    (h₀ : Gate.Initial w.gate) (hP : P w [] [])
    (hmove : ∀ {w₁ w₂ log log' strings strings' gtr gw},
      Behind S w.gate w₁ log strings gtr gw → P w₁ log strings →
        Move S std w₁ w₂ log' strings' → P w₂ (log ++ log') (strings ++ strings'))
    (h : Moves S std w w' log strings) :
    P w' log strings ∧ ∃ gtr gw, Behind S w.gate w' log strings gtr gw := by
  refine h.invariant (P := fun w' log strings => P w' log strings ∧
    ∃ gtr gw, Behind S w.gate w' log strings gtr gw) ⟨hP, [], w.gate, ?_⟩ ?_
  · exact ⟨h₀, .nil, rfl, rfl, le_rfl, rfl, by simp [Gate.hashedIn]⟩
  · rintro w₁ w₂ log log' strings strings' ⟨hP, gtr, gw, B⟩ hm
    obtain ⟨gtr', gw', B'⟩ := B.move hm
    exact ⟨hmove B hP hm, _, gw', B'⟩

/-- The stable of a router is never replaced. -/
theorem stable_of_move (h : Move S std w w' log strings) :
    w'.scene.router.stable = w.scene.router.stable := by
  have hof : w'.scene.router.accounts = w.scene.router.accounts →
      w'.scene.router.stable = w.scene.router.stable := fun h => congrArg Accounts.stable h
  cases h with
  | idle _ accounts _ _ _ => exact hof accounts
  | govern _ _ _ post => rw [post]
  | transfer _ _ _ _ post => rw [post]
  | bridged _ _ _ _ _ _ _ accounts _ _ _ => exact congrArg Accounts.stable accounts
  | settled _ _ settled _ _ => exact settled.stable
  | deferred _ _ _ deferred _ => exact deferred.stable
  | forwarded _ _ forwarded _ => exact forwarded.stable
  | scheduled _ _ schedules => exact hof schedules.accounts
  | dropped _ _ accounts _ => exact hof accounts
  | swept _ executes => exact hof executes.accounts

/-- Until it is deployed, a router is as it would be deployed. -/
theorem undeployed_of_run {w₀ : World σ} {tr : List (Step σ)} (h₀ : Initial w₀)
    (hrun : Run (exec S) w₀ tr w) (h : w.deployed = false) :
    w.scene.router = { blank with stable := w.scene.pool.stable } := by
  refine hrun.invariant (P := fun w => w.deployed = false →
    w.scene.router = { blank with stable := w.scene.pool.stable }) (fun _ => h₀.router) ?_ h
  intro w l w' o ih he hw'
  cases l with
  | gate l =>
    rw [exec, Option.ite_none_left_eq_some] at he
    obtain ⟨x, -, heq⟩ := Option.map_eq_some_iff.mp he.2
    obtain ⟨rfl, -⟩ := Prod.mk.inj heq
    exact ih hw'
  | pool c x =>
    rw [exec, Option.ite_none_left_eq_some] at he
    obtain ⟨-, he⟩ := he
    split at he
    · next d hd =>
      simp only [Option.some.injEq, Prod.mk.injEq] at he
      obtain ⟨rfl, -⟩ := he
      exact (ih hw').trans (by rw [SwapPool.stable_of_call hd])
    · exact absurd he (by simp)
  | deploy c =>
    rw [exec, Option.ite_none_left_eq_some] at he
    simp only [Option.some.injEq, Prod.mk.injEq] at he
    rw [← he.2.1] at hw'
    exact absurd hw' (by simp)
  | router c x =>
    rw [exec, Option.ite_none_left_eq_some] at he
    obtain ⟨-, he⟩ := he
    split at he
    · simp only [Option.some.injEq, Prod.mk.injEq] at he
      rw [← he.1] at hw'
      exact absurd hw' (by simp)
    · exact absurd he (by simp)

/-- **A run is a run of moves**, with strings among those that it hashed. -/
theorem moves_of_run {w₀ : World σ} {tr : List (Step σ)} (h₀ : Initial w₀)
    (hrun : Run (exec S) w₀ tr w) (hstd : std → Standard S w₀.scene.router.stable)
    (hothers : std → ∀ e ∈ tr, ∀ t, e.label = .gate (.tokens t) →
      Flows S w₀.scene.router.stable 0 0 e.pre.scene.tokens t) :
    ∃ strings, Moves S std w₀ w (logOf tr) strings ∧ ∀ bs ∈ strings, bs ∈ hashedIn S tr := by
  induction hrun with
  | nil => exact ⟨[], .nil, by simp⟩
  | @snoc tr w w' l o hrun he ih =>
    obtain ⟨strings, hmoves, hsub⟩ :=
      ih fun hs e hmem => hothers hs e (List.mem_append_left _ hmem)
    obtain ⟨hstable, gtr, gw, B⟩ := hmoves.invariant_behind
      (P := fun w _ _ => w.scene.router.stable = w₀.scene.router.stable) h₀.gate rfl
      fun _ ih hm => (stable_of_move hm).trans ih
    obtain ⟨strings', hmoves', hsub'⟩ := moves_of_exec (fun hs : std => hstable ▸ hstd hs)
      (fun id => B.executed_of_cancelled)
      (fun hs t hl => hstable ▸ hothers hs _ (List.mem_append_right _
        (List.mem_singleton_self _)) t hl) (undeployed_of_run h₀ hrun) he
    refine ⟨strings ++ strings', ?_, fun bs hbs => ?_⟩
    · rw [logOf, List.flatMap_append, List.flatMap_singleton]
      exact hmoves.append hmoves'
    · rw [hashedIn, List.flatMap_append, List.flatMap_singleton]
      rcases List.mem_append.mp hbs with hbs | hbs
      · exact List.mem_append_left _ (hsub bs hbs)
      · exact List.mem_append_right _ (hsub' bs hbs)

/-- The stable of a run is the one it started with. -/
theorem stable_of_run {w₀ : World σ} {tr : List (Step σ)} (h₀ : Initial w₀)
    (hrun : Run (exec S) w₀ tr w) : w.scene.router.stable = w₀.scene.router.stable := by
  obtain ⟨strings, hmoves, -⟩ := moves_of_run h₀ hrun (fun h : False => h.elim)
    fun h => h.elim
  exact hmoves.invariant (P := fun w _ _ => w.scene.router.stable = w₀.scene.router.stable) rfl
    fun ih hm => (stable_of_move hm).trans ih

end SwapRouter

end SelendraBridge
