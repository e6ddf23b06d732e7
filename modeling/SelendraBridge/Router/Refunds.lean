import SelendraBridge.Router.Deliveries

/-!
# Refunds of what a router sent

A transfer that the router sent is refunded to the router, by a call of anybody, and lands in
the one balance of stable that also holds what was delivered. The router knows whose it is:
it wrote the sender and the amount under the id when it sent. Two things make that enough.

* **The record is the refund.** An id is sent once, so what is written under it is not
  written over; and the gate refunds what the send of the id locked. So the amount on record
  is the amount of the refund, and its token is the stable
  (`SelendraBridge.SwapRouter.Locked`).
* **Nothing else is paid with it.** What came in by refunds and was not passed on, and what
  came in by deliveries and is not final, are in the balance together
  (`SelendraBridge.SwapRouter.Solvent`): each outgoing payment meets one item of the two
  lists, in full.

A sweep of stable pays for no item, so the second needs that there is none; the first does
not.
-/

namespace SelendraBridge

namespace SwapRouter

open Revert Transition Scene Dues

variable {σ : Type} {S : Site σ} {std : Prop}

/-! ### What came in by refunds -/

/-- The refund to the router that an event of the gate is. -/
def refundOfEvent (here : Address) : Gate.Event → Option (Bytes32 × ℕ)
  | .refunded id _ sender amount => if sender = here then some (id, amount.toNat) else none
  | _ => none

/-- **The refunds to the router**, under their ids. -/
def refundsIn (S : Site σ) (log : List Event) : List (Bytes32 × ℕ) :=
  (gateLog log).filterMap (refundOfEvent S.here)

/-- The id of a refund that was passed on. -/
def forwardedId : Event → Option Bytes32
  | .refundForwarded id _ _ => some id
  | _ => none

/-- What was passed on. -/
def forwardedIds (log : List Event) : List Bytes32 := log.filterMap forwardedId

/-- Was it not passed on? -/
def isHeld (log : List Event) (id : Bytes32) : Bool := !(forwardedIds log).contains id

/-- Is it not final? -/
def isUndelivered (r : SwapRouter) (id : Bytes32) : Bool := !r.finalized id

/-- Does an event say that stable was swept? -/
def Event.sweeps : Event → Bool
  | .stableRescued _ _ => true
  | _ => false

/-- **A transfer was sent for a user**, and the amount was recorded. -/
def RecordedIn (log : List Event) (id : Bytes32) (user : Address) (amount : U256) : Prop :=
  ∃ tokenIn amountIn chainIdTo finalToken finalReceiver,
    .swapBridged id user tokenIn amountIn amount chainIdTo finalToken finalReceiver ∈ log

variable {g₀ gw : Gate.World σ} {w w' : World σ} {s : Scene σ} {log log' : List Event}
  {strings strings' all : List Bytes} {gtr : List (Gate.Step σ)} {id : Bytes32} {n : ℕ}

@[simp] theorem refundsIn_append :
    refundsIn S (log ++ log') = refundsIn S log ++ refundsIn S log' := by
  rw [refundsIn, gateLog_append, List.filterMap_append, refundsIn, refundsIn]

theorem refundsIn_of_gateLog (h : gateLog log = []) : refundsIn S log = [] := by
  rw [refundsIn, h, List.filterMap_nil]

@[simp] theorem forwardedIds_append :
    forwardedIds (log ++ log') = forwardedIds log ++ forwardedIds log' :=
  List.filterMap_append

/-- The event says that a refund was passed on. -/
theorem mem_forwardedIds_of_mem {user : Address} {amount : U256}
    (h : .refundForwarded id user amount ∈ log) : id ∈ forwardedIds log :=
  List.mem_filterMap.mpr ⟨_, h, rfl⟩

theorem mem_forwardedIds (h : id ∈ forwardedIds log) :
    ∃ user amount, .refundForwarded id user amount ∈ log := by
  obtain ⟨v, hv, he⟩ := List.mem_filterMap.mp h
  cases v with
  | refundForwarded id' user amount => exact ⟨user, amount, Option.some.inj he ▸ hv⟩
  | _ => exact absurd he (by simp [forwardedId])

/-- Events that pass nothing on add none. -/
theorem mem_of_forwardedIds_nil {user : Address} {amount : U256} (h : forwardedIds log' = [])
    (hmem : .refundForwarded id user amount ∈ log ++ log') :
    .refundForwarded id user amount ∈ log := by
  rcases List.mem_append.mp hmem with hmem | hmem
  · exact hmem
  · have hid := mem_forwardedIds_of_mem hmem
    rw [h] at hid
    exact absurd hid List.not_mem_nil

theorem forwardedIds_of_quiet (h : ∀ v ∈ log, v.quiet = true) : forwardedIds log = [] :=
  List.filterMap_eq_nil_iff.mpr fun v hv => by
    cases v with
    | refundForwarded id target amount => exact absurd (h _ hv) Bool.false_ne_true
    | _ => rfl

@[simp] theorem forwardedIds_map_gate (l : List Gate.Event) : forwardedIds (l.map .gate) = [] :=
  List.filterMap_eq_nil_iff.mpr fun v hv => by
    obtain ⟨e, -, rfl⟩ := List.mem_map.mp hv
    rfl

@[simp] theorem forwardedIds_map_pool (l : List SwapPool.Event) :
    forwardedIds (l.map .pool) = [] :=
  List.filterMap_eq_nil_iff.mpr fun v hv => by
    obtain ⟨e, -, rfl⟩ := List.mem_map.mp hv
    rfl

theorem forwardedIds_of_settles {plog : List SwapPool.Event} {v : Event}
    (h : v.settles = some id) : forwardedIds (plog.map .pool ++ [v]) = [] := by
  rw [forwardedIds_append, forwardedIds_map_pool]
  cases v with
  | refundForwarded id target amount => exact absurd h (by simp [Event.settles])
  | _ => rfl

theorem forwardedIds_of_ends {c : Call} {amount : U256} {i : Intent} {may : Bool} {d : Attempt σ}
    (h : Ends S c s id amount i may d) : forwardedIds d.log = [] := by
  rcases h.events with ⟨-, plog, v, hlog, hv⟩ | ⟨-, finalReceiver, finalToken, retryAfter, hlog⟩
  · rw [hlog, forwardedIds_of_settles hv]
  · rw [hlog]
    rfl

theorem mem_refundsIn : (id, n) ∈ refundsIn S log ↔
    ∃ d amount, .gate (.refunded id d S.here amount) ∈ log ∧ amount.toNat = n := by
  rw [refundsIn, List.mem_filterMap]
  constructor
  · rintro ⟨v, hv, he⟩
    cases v with
    | refunded id' d sender amount =>
      rw [refundOfEvent, Option.ite_none_right_eq_some, Option.some.injEq, Prod.mk.injEq] at he
      obtain ⟨rfl, rfl, rfl⟩ := he
      exact ⟨d, amount, mem_gateLog.mp hv, rfl⟩
    | _ => exact absurd he (by simp [refundOfEvent])
  · rintro ⟨d, amount, hmem, rfl⟩
    exact ⟨_, mem_gateLog.mpr hmem, by rw [refundOfEvent, if_pos rfl]⟩

/-- A refund to the router bears the id of a refund. -/
theorem refundedId_of_refundOfEvent {here : Address} {v : Gate.Event} {i : Bytes32 × ℕ}
    (h : refundOfEvent here v = some i) : Gate.refundedId v = some i.1 := by
  cases v with
  | refunded id d sender amount =>
    rw [refundOfEvent, Option.ite_none_right_eq_some, Option.some.injEq] at h
    rw [Gate.refundedId, ← h.2]
  | _ => exact absurd h (by simp [refundOfEvent])

/-- **No two refunds to the router have one id.** -/
theorem Behind.refundsIn_nodup (B : Behind S g₀ w log strings gtr gw) :
    ((refundsIn S log).map Prod.fst).Nodup :=
  B.refunded_nodup.sublist (names_sublist (fun _ _ => refundedId_of_refundOfEvent) _)

/-- Governing the gate refunds nothing. -/
theorem refundsIn_of_govern {c : Call} {x : Gate.GovCall} {g g' : Gate} {tokens : σ}
    {l : List Gate.Event} (h : Gate.govern S.chain c g tokens x = .ok (g', l)) :
    refundsIn S (l.map .gate) = [] := by
  rw [refundsIn, gateLog_map_gate]
  refine List.filterMap_eq_nil_iff.mpr fun v hv => ?_
  cases v with
  | refunded id d sender amount =>
    exact absurd (Gate.not_pays_of_govern h _ hv) (by simp [Gate.Event.pays])
  | _ => rfl

/-- **What a transfer call of the gate refunds to the router**: nothing, or what the router
sent under an id that was not refunded before. -/
theorem refundsIn_of_transfer {c : Call} {x : Gate.TransferCall} {t : σ} {r : Gate.Done σ}
    (h : Gate.transfer S.chain c s.gate t x = .ok r) :
    refundsIn S (r.log.map .gate) = [] ∨ ∃ a n, x = .refund a ∧
      Gate.Refunds S.chain s.gate t a n r ∧ s.gate.sentBy r.id = S.here ∧
      refundsIn S (r.log.map .gate) = [(r.id, n.toNat)] := by
  simp only [refundsIn, gateLog_map_gate]
  cases x with
  | send a =>
    obtain ⟨wire, W⟩ := Gate.sends_of_send h
    exact .inl (by rw [W.log]; rfl)
  | cancel a => exact .inl (by rw [(Gate.cancels_of_cancel h).log]; rfl)
  | claim a =>
    obtain ⟨amount, recipient, W⟩ := Gate.claims_of_claim h
    exact .inl (by rw [W.log]; rfl)
  | refund a =>
    obtain ⟨amount, R⟩ := Gate.refunds_of_refund h
    rw [R.log]
    by_cases hin : s.gate.sentBy r.id = S.here
    · refine .inr ⟨a, amount, rfl, R, hin, ?_⟩
      rw [List.filterMap_cons_some (b := (r.id, amount.toNat)) (by
        rw [refundOfEvent, if_pos hin]), List.filterMap_nil]
    · refine .inl ?_
      rw [List.filterMap_cons_none (by rw [refundOfEvent, if_neg hin]), List.filterMap_nil]

/-! ### The record is the refund -/

/-- The router sent a transfer of that amount under that id. -/
def SentHere (S : Site σ) (gtr : List (Gate.Step σ)) (id : Bytes32) (amount : U256) : Prop :=
  ∃ e ∈ gtr, ∃ c a wire, Gate.Sent S.chain e c a wire id ∧ c.sender = S.here ∧ a.amount = amount

/-- **What is on record, and what was passed on**, against the sends of the gate. -/
structure Locked (S : Site σ) (w : World σ) (log : List Event) (gtr : List (Gate.Step σ)) :
    Prop where
  /-- The router sends stable. -/
  stable : ∀ e ∈ gtr, ∀ c a wire id, Gate.Sent S.chain e c a wire id → c.sender = S.here →
    a.token = w.scene.router.stable
  sent : ∀ id, (w.scene.router.refundOf id).target ≠ 0 →
    SentHere S gtr id (w.scene.router.refundOf id).amount
  recorded : ∀ id, (w.scene.router.refundOf id).target ≠ 0 →
    RecordedIn log id (w.scene.router.refundOf id).target (w.scene.router.refundOf id).amount
  /-- What is on record was not passed on yet. -/
  held : ∀ id, (w.scene.router.refundOf id).target ≠ 0 → id ∉ forwardedIds log
  forwarded : ∀ id user amount, .refundForwarded id user amount ∈ log →
    w.scene.gate.refunded id = true ∧ SentHere S gtr id amount
  nodup : (forwardedIds log).Nodup

theorem SentHere.append {amount : U256} (h : SentHere S gtr id amount)
    (gtr' : List (Gate.Step σ)) : SentHere S (gtr ++ gtr') id amount := by
  obtain ⟨e, he, h⟩ := h
  exact ⟨e, List.mem_append_left _ he, h⟩

theorem RecordedIn.append {user : Address} {amount : U256} (h : RecordedIn log id user amount)
    (log' : List Event) : RecordedIn (log ++ log') id user amount := by
  obtain ⟨tokenIn, amountIn, chainIdTo, finalToken, finalReceiver, h⟩ := h
  exact ⟨tokenIn, amountIn, chainIdTo, finalToken, finalReceiver, List.mem_append_left _ h⟩

/-- Nothing is on record at the start. -/
theorem locked_of_initial (h : Initial w) : Locked S w [] [] := by
  refine ⟨by simp, ?_, ?_, ?_, by simp, by simp [forwardedIds]⟩ <;>
    · rw [h.router]
      exact fun _ hne => absurd rfl hne

/-- A move that sends nothing from here, and passes nothing on, leaves it all in place. -/
theorem Locked.same (L : Locked S w log gtr) (hk : Gate.Kept w.scene.gate w'.scene.gate)
    {gtr' : List (Gate.Step σ)} (hstable : w'.scene.router.stable = w.scene.router.stable)
    (hrefund : w'.scene.router.refundOf = w.scene.router.refundOf)
    (hsends : ∀ e ∈ gtr', ∀ c a wire id, Gate.Sent S.chain e c a wire id → c.sender ≠ S.here)
    (hlog : forwardedIds log' = []) : Locked S w' (log ++ log') (gtr ++ gtr') := by
  have hids : forwardedIds (log ++ log') = forwardedIds log := by
    rw [forwardedIds_append, hlog, List.append_nil]
  refine ⟨fun e he c a wire id hsent hc => ?_, ?_, ?_, ?_, fun id user amount hid => ?_, ?_⟩
  · rw [hstable]
    rcases List.mem_append.mp he with he | he
    · exact L.stable e he c a wire id hsent hc
    · exact absurd hc (hsends e he c a wire id hsent)
  · rw [hrefund]
    exact fun id hid => (L.sent id hid).append gtr'
  · rw [hrefund]
    exact fun id hid => (L.recorded id hid).append log'
  · rw [hrefund, hids]
    exact L.held
  · obtain ⟨hrefunded, hsent⟩ := L.forwarded id user amount (mem_of_forwardedIds_nil hlog hid)
    exact ⟨hk.refunded id hrefunded, hsent.append gtr'⟩
  · rw [hids]
    exact L.nodup

/-- A step behind that is a call other than a send of the router's sends nothing from here. -/
theorem not_sentHere_of_label {gw : Gate.World σ} {t : σ} {e : Gate.Step σ}
    (he : ∀ c a, e.label = .transfer c (.send a) → c.sender ≠ S.here) :
    ∀ f ∈ [tokensStep gw t, e], ∀ c a wire id, Gate.Sent S.chain f c a wire id →
      c.sender ≠ S.here := by
  intro f hf c a wire id hsent
  rcases List.mem_cons.mp hf with rfl | hf
  · exact absurd hsent.label (by simp [tokensStep])
  · obtain rfl := List.mem_singleton.mp hf
    exact he c a hsent.label

/-- **The send of the router**: the id is new, and the record is made. -/
theorem Locked.bridged (L : Locked S w log gtr) {c : Call} {a : Gate.SendArgs} {t : σ}
    {g : Gate.Done σ} {plog : List Event} {tokenIn : Address} {amountIn chainIdTo : U256}
    {finalToken finalReceiver : Address} (hcoll : CollisionFree S.chain.keccak256 all)
    (hs : ∀ bs ∈ strings ++ strings', bs ∈ all) (hk : Gate.Kept w.scene.gate w'.scene.gate)
    (B : Behind S g₀ w' (log ++ log') (strings ++ strings')
      (gtr ++ [tokensStep gw t, transferStep gw t (acting S c) (.send a) g])
      ⟨g.gate, g.tokens, c.timestamp, false⟩)
    (htoken : a.token = w.scene.router.stable)
    (hlog : log' = plog ++ g.log.map .gate ++ [.swapBridged g.id c.sender tokenIn amountIn a.amount
      chainIdTo finalToken finalReceiver]) (hquiet : ∀ v ∈ plog, v.quiet = true)
    (haccounts : w'.scene.router.accounts = { w.scene.router.accounts with
      refundOf := Function.update w.scene.router.refundOf g.id ⟨c.sender, a.amount⟩ }) :
    Locked S w' (log ++ log')
      (gtr ++ [tokensStep gw t, transferStep gw t (acting S c) (.send a) g]) := by
  have hstable : w'.scene.router.stable = w.scene.router.stable :=
    congrArg Accounts.stable haccounts
  have hrefund : w'.scene.router.refundOf =
      Function.update w.scene.router.refundOf g.id ⟨c.sender, a.amount⟩ :=
    congrArg Accounts.refundOf haccounts
  set e := transferStep gw t (acting S c) (.send a) g with he
  have hrun := B.run
  rw [← List.singleton_append, ← List.append_assoc] at hrun
  obtain ⟨-, hex, -⟩ := hrun.split
  obtain ⟨wire, id, W⟩ := Gate.sent_of_exec (a := a) hex rfl
  obtain rfl : id = g.id := Option.some.inj (W.out.symm.trans rfl)
  -- No earlier send of the gate has this id.
  have honly := Gate.sent_only B.initial hrun (fun x hx y hy => hcoll x (hs x (B.hashed x (by
    rwa [List.append_assoc] at hx))) y (hs y (B.hashed y (by rwa [List.append_assoc] at hy)))) W
  have hnew : ∀ amount, ¬SentHere S gtr g.id amount := by
    rintro amount ⟨f, hf, c', a', wire', W', -⟩
    exact honly f (by simp [hf]) c' a' W'.label W'.out
  have hnone : forwardedIds log' = [] := by
    rw [hlog, forwardedIds_append, forwardedIds_append, forwardedIds_of_quiet hquiet,
      forwardedIds_map_gate]
    rfl
  have hids : forwardedIds (log ++ log') = forwardedIds log := by
    rw [forwardedIds_append, hnone, List.append_nil]
  have hother : ∀ id, id ≠ g.id → w'.scene.router.refundOf id = w.scene.router.refundOf id := by
    intro id hne
    rw [hrefund, Function.update_of_ne hne]
  have hself : w'.scene.router.refundOf g.id = ⟨c.sender, a.amount⟩ := by
    rw [hrefund, Function.update_self]
  refine ⟨fun f hf c' a' wire' id W' hc => ?_, fun id hid => ?_, fun id hid => ?_,
    fun id hid => ?_, fun id user amount hid => ?_, ?_⟩
  · rw [hstable]
    rcases List.mem_append.mp hf with hf | hf
    · exact L.stable f hf c' a' wire' id W' hc
    · rcases List.mem_cons.mp hf with rfl | hf
      · exact absurd W'.label (by simp [tokensStep])
      · obtain rfl := List.mem_singleton.mp hf
        have hl : Gate.Label.transfer (acting S c) (.send a) = .transfer c' (.send a') := W'.label
        simp only [Gate.Label.transfer.injEq, Gate.TransferCall.send.injEq] at hl
        rw [← hl.2, htoken]
  · rcases eq_or_ne id g.id with rfl | hne
    · rw [hself]
      exact ⟨e, by simp, _, a, wire, W, rfl, rfl⟩
    · rw [hother id hne] at hid ⊢
      exact (L.sent id hid).append _
  · rcases eq_or_ne id g.id with rfl | hne
    · rw [hself]
      refine ⟨tokenIn, amountIn, chainIdTo, finalToken, finalReceiver, ?_⟩
      rw [hlog]
      exact List.mem_append_right _ (List.mem_append_right _ (List.mem_singleton_self _))
    · rw [hother id hne] at hid ⊢
      exact (L.recorded id hid).append log'
  · rw [hids]
    rcases eq_or_ne id g.id with rfl | hne
    · intro hmem
      obtain ⟨user, amount, hevent⟩ := mem_forwardedIds hmem
      exact hnew amount (L.forwarded _ user amount hevent).2
    · rw [hother id hne] at hid
      exact L.held id hid
  · obtain ⟨hrefunded, hsent⟩ := L.forwarded id user amount (mem_of_forwardedIds_nil hnone hid)
    exact ⟨hk.refunded id hrefunded, hsent.append _⟩
  · rw [hids]
    exact L.nodup

/-- **A refund is passed on**, and struck from the record. -/
theorem Locked.forwards (L : Locked S w log gtr) (hk : Gate.Kept w.scene.gate w'.scene.gate)
    (hrefunded : w.scene.gate.refunded id = true)
    (hf : Forwarded w.scene.router id w'.scene.router)
    (hlog : log' = [.refundForwarded id (w.scene.router.refundOf id).target
      (w.scene.router.refundOf id).amount]) : Locked S w' (log ++ log') gtr := by
  have hids : forwardedIds (log ++ log') = forwardedIds log ++ [id] := by
    rw [forwardedIds_append, hlog]
    rfl
  have hnot : ∀ x, (w'.scene.router.refundOf x).target ≠ 0 →
      x ≠ id ∧ w'.scene.router.refundOf x = w.scene.router.refundOf x := by
    intro x hx
    rw [hf.refundOf] at hx ⊢
    rcases eq_or_ne x id with rfl | hne
    · rw [Function.update_self] at hx
      exact absurd rfl hx
    · exact ⟨hne, Function.update_of_ne hne ..⟩
  refine ⟨?_, fun x hx => ?_, fun x hx => ?_, fun x hx => ?_, fun x user amount hx => ?_, ?_⟩
  · rw [hf.stable]
    exact L.stable
  · obtain ⟨-, heq⟩ := hnot x hx
    rw [heq] at hx ⊢
    exact L.sent x hx
  · obtain ⟨-, heq⟩ := hnot x hx
    rw [heq] at hx ⊢
    exact (L.recorded x hx).append log'
  · obtain ⟨hne, heq⟩ := hnot x hx
    rw [heq] at hx
    rw [hids, List.mem_append, List.mem_singleton, not_or]
    exact ⟨L.held x hx, hne⟩
  · rcases List.mem_append.mp hx with hx | hx
    · obtain ⟨hyes, hsent⟩ := L.forwarded x user amount hx
      exact ⟨hk.refunded x hyes, hsent⟩
    · rw [hlog, List.mem_singleton, Event.refundForwarded.injEq] at hx
      obtain ⟨rfl, -, rfl⟩ := hx
      exact ⟨hk.refunded x hrefunded, L.sent x hf.owed⟩
  · rw [hids]
    refine List.nodup_append.mpr ⟨L.nodup, List.nodup_singleton _, ?_⟩
    rintro x hx y hy rfl
    obtain rfl := List.mem_singleton.mp hy
    exact L.held x hf.owed hx

/-- **The run of the gate goes on behind a move, and so does the record.** -/
theorem Locked.move (hcoll : CollisionFree S.chain.keccak256 all)
    (B : Behind S g₀ w log strings gtr gw) (L : Locked S w log gtr)
    (hm : Move S std w w' log' strings') (hs : ∀ bs ∈ strings ++ strings', bs ∈ all) :
    ∃ gtr' gw', Behind S g₀ w' (log ++ log') (strings ++ strings') (gtr ++ gtr') gw' ∧
      Locked S w' (log ++ log') (gtr ++ gtr') := by
  have hk := B.kept hm
  have hstable := stable_of_move hm
  -- Where the gate stands still, its run goes on by nothing.
  have hstill : Still w w' → gateLog log' = [] → Locked S w' (log ++ log') (gtr ++ []) →
      ∃ gtr' gw', Behind S g₀ w' (log ++ log') (strings ++ strings') (gtr ++ gtr') gw' ∧
        Locked S w' (log ++ log') (gtr ++ gtr') := fun hstill hlog hL =>
    ⟨[], gw, by rw [List.append_nil]; exact B.still hstill hlog, hL⟩
  have hsame : w'.scene.router.refundOf = w.scene.router.refundOf → forwardedIds log' = [] →
      Locked S w' (log ++ log') (gtr ++ []) := fun hrefund hlog =>
    L.same hk hstable hrefund (by simp) hlog
  cases hm with
  | idle still accounts _ _ quiet =>
    exact hstill still (gateLog_of_quiet quiet)
      (hsame (congrArg Accounts.refundOf accounts) (forwardedIds_of_quiet quiet))
  | govern running now call post =>
    obtain ⟨e, gw', he, B'⟩ := B.govern running now call
    subst post
    refine ⟨_, gw', B', L.same hk hstable rfl (not_sentHere_of_label ?_) (forwardedIds_map_gate _)⟩
    intro c a hl
    exact absurd (he.symm.trans hl) (by simp)
  | transfer running now call own post =>
    subst post
    refine ⟨_, _, B.transfer running now call rfl rfl rfl (gateLog_map_gate _),
      L.same hk hstable rfl (not_sentHere_of_label ?_) (forwardedIds_map_gate _)⟩
    intro c a hl
    simp only [transferStep, Gate.Label.transfer.injEq] at hl
    rw [← hl.1]
    exact own a hl.2
  | @bridged c a t g plog tokenIn amountIn chainIdTo finalToken finalReceiver running now token call
      gate upgraded now' accounts _ _ quiet =>
    have hlog : gateLog (plog ++ g.log.map .gate ++ [.swapBridged g.id c.sender tokenIn amountIn
        a.amount chainIdTo finalToken finalReceiver]) = g.log := by
      rw [gateLog_append, gateLog_append, gateLog_of_quiet quiet, gateLog_map_gate]
      exact List.append_nil _
    have B' := B.transfer (c := acting S c) (x := .send a) running now call gate upgraded now' hlog
    exact ⟨_, _, B', L.bridged hcoll hs hk B' token rfl quiet accounts⟩
  | settled still _ settled _ event =>
    exact hstill still (gateLog_of_settles event)
      (hsame settled.refundOf (forwardedIds_of_settles event))
  | deferred still _ _ deferred _ => exact hstill still rfl (hsame deferred.refundOf rfl)
  | forwarded still refunded forwarded _ =>
    refine hstill still rfl ?_
    rw [List.append_nil]
    exact L.forwards hk refunded forwarded rfl
  | scheduled still _ schedules =>
    exact hstill still rfl (hsame (congrArg Accounts.refundOf schedules.accounts) rfl)
  | dropped still _ accounts _ =>
    exact hstill still rfl (hsame (congrArg Accounts.refundOf accounts) rfl)
  | swept still executes =>
    exact hstill still rfl (hsame (congrArg Accounts.refundOf executes.accounts) rfl)

/-- **What the gate refunded is what the router sent**, in stable and to the router. -/
theorem Locked.refund_of_sent (hcoll : CollisionFree S.chain.keccak256 all)
    (B : Behind S g₀ w log strings gtr gw) (L : Locked S w log gtr)
    (hs : ∀ bs ∈ strings, bs ∈ all) {amount : U256} (hsent : SentHere S gtr id amount)
    (hrefunded : w.scene.gate.refunded id = true) :
    .gate (.refunded id (BridgeHash.getDebridgeId S.chain.keccak256 S.chain.chainId
      w.scene.router.stable) S.here amount) ∈ log := by
  obtain ⟨f, hf, c', a', wire', W', hsender', hamount'⟩ := hsent
  obtain ⟨e, he, c, a, released, R⟩ := Gate.refunded_of_run B.initial B.run (B.gate ▸ hrefunded)
  obtain ⟨before, after, hsplit⟩ := List.append_of_mem he
  have hrun := B.run
  rw [hsplit] at hrun
  have hmem : ∀ {f : Gate.Step σ}, f ∈ gtr → ∀ bs ∈ Gate.hashedBy S.chain f, bs ∈ all :=
    fun hf bs hbs => hs bs (B.hashed bs (Gate.hashedBy_subset hf hbs))
  obtain ⟨sent, hmem', c'', a'', wire'', W'', hsender'', htoken, hlocal⟩ := R.lock B.initial
    hrun.split.1 hcoll (fun bs hbs => hs bs (B.hashed bs (by
      rw [hsplit, Gate.hashedIn, List.flatMap_append]
      exact List.mem_append_left _ hbs))) (hmem he)
  have hin : sent ∈ gtr := by
    rw [hsplit]
    exact List.mem_append_left _ hmem'
  -- The send that the refund is of is the send that is on record.
  have hcoll' : CollisionFree S.chain.keccak256 (Gate.hashedIn S.chain gtr) := fun x hx y hy =>
    hcoll x (hs x (B.hashed x hx)) y (hs y (B.hashed y hy))
  obtain ⟨rfl, rfl⟩ := Gate.Sent.same B.initial B.run hcoll' hin hf W'' W'
  have hstable := L.stable sent hin c'' a'' wire'' id W'' hsender'
  refine B.mem_run.mpr ⟨e, he, ?_⟩
  rw [show e.out.log = _ from R.spec.log, List.mem_singleton, ← R.spec.token, htoken, hstable,
    ← hsender'', hsender', hlocal, hamount']

/-- **A refund of what the router sent is in stable.** -/
theorem Locked.token_of_refund (hcoll : CollisionFree S.chain.keccak256 all)
    (B : Behind S g₀ w log strings gtr gw) (L : Locked S w log gtr) {c : Call}
    {a : Gate.RefundArgs} {t : σ} {r : Gate.Done σ} (running : w.upgraded = false)
    (now : w.now ≤ c.timestamp) (call : Gate.transfer S.chain c w.scene.gate t (.refund a) = .ok r)
    (hs : ∀ bs ∈ strings ++ (Gate.TransferCall.refund a).hashed S.chain c w.scene.gate, bs ∈ all)
    (hsent : w.scene.gate.sentBy r.id = S.here) : a.token = w.scene.router.stable := by
  have B' := @Behind.transfer σ S g₀ gw w
    ⟨{ w.scene with gate := r.gate }, c.timestamp, false, true⟩ log (r.log.map .gate) strings gtr B
    c (.refund a) t r running now call rfl rfl rfl (gateLog_map_gate _)
  set e := transferStep gw t c (.refund a) r with he
  have hrun := B'.run
  rw [← List.singleton_append, ← List.append_assoc] at hrun
  obtain ⟨hbefore, hex, -⟩ := hrun.split
  obtain ⟨amount, id, R⟩ := Gate.refunded_of_exec (a := a) hex rfl
  obtain rfl : id = r.id := Option.some.inj (R.out.symm.trans rfl)
  have hhashed : ∀ bs ∈ Gate.hashedIn S.chain (gtr ++ [tokensStep gw t, e]), bs ∈ all :=
    fun bs hbs => hs bs (B'.hashed bs hbs)
  obtain ⟨sent, hmem, c', s, wire, W, hsender, htoken, -⟩ := R.lock B.initial hbefore hcoll
    (fun bs hbs => hhashed bs (by
      rw [← List.singleton_append, ← List.append_assoc, Gate.hashedIn, List.flatMap_append]
      exact List.mem_append_left _ hbs))
    (fun bs hbs => hhashed bs (Gate.hashedBy_subset (by simp) hbs))
  have hhere : c'.sender = S.here := by
    rw [hsender, ← hsent, ← B.gate]
    rfl
  rcases List.mem_append.mp hmem with hmem | hmem
  · rw [htoken]
    exact L.stable sent hmem c' s wire _ W hhere
  · obtain rfl := List.mem_singleton.mp hmem
    exact absurd W.label (by simp [tokensStep])

/-! ### Nothing else is paid with it -/

/-- **What is held for others**: the refunds that were not passed on, and the deliveries that
are not final. -/
def held (S : Site σ) (w : World σ) (log : List Event) : ℕ :=
  due (refundsIn S log) (isHeld log) + due (deliveries S w.scene log)
    (isUndelivered w.scene.router)

/-- **What is held is there.** -/
def Solvent (S : Site σ) (w : World σ) (log : List Event) : Prop :=
  held S w log ≤ (w.scene.balance S).toNat

/-- Nothing is held at the start. -/
theorem solvent_of_initial : Solvent S w [] := Nat.zero_le _

/-- **A flow that pays for what it changes** keeps what is held there. -/
theorem Solvent.flow (h : Solvent S w log) {gain cost : ℕ}
    (hstable : w'.scene.router.stable = w.scene.router.stable)
    (hflows : Flows S w.scene.router.stable gain cost w.scene.tokens w'.scene.tokens)
    (hheld : held S w' (log ++ log') + cost ≤ held S w log + gain) :
    Solvent S w' (log ++ log') := by
  rw [Flows] at hflows
  rw [Solvent, balance] at h ⊢
  rw [hstable]
  omega

/-- What comes in is held, as long as nothing is passed on and nothing settles. -/
theorem held_append (hkept : deliveries S w'.scene log = deliveries S w.scene log)
    (hfinalized : w'.scene.router.finalized = w.scene.router.finalized)
    (hlog : forwardedIds log' = []) : held S w' (log ++ log') = held S w log +
      due (refundsIn S log') (isHeld log) +
      due (deliveries S w'.scene log') (isUndelivered w.scene.router) := by
  have hheld : isHeld (log ++ log') = isHeld log := by
    funext id
    rw [isHeld, forwardedIds_append, hlog, List.append_nil, isHeld]
  have hundelivered : isUndelivered w'.scene.router = isUndelivered w.scene.router := by
    funext id
    rw [isUndelivered, hfinalized, isUndelivered]
  rw [held, held, refundsIn_append, deliveries_append, hkept, due_append, due_append, hheld,
    hundelivered]
  omega

/-- What settles is held no more. -/
theorem held_settles {amount : U256} (hkept : deliveries S w'.scene log = deliveries S w.scene log)
    (hset : Settled w.scene.router id amount w'.scene.router)
    (hmem : (id, amount.toNat) ∈ deliveries S w.scene log)
    (hnodup : ((deliveries S w.scene log).map Prod.fst).Nodup) (hgate : gateLog log' = [])
    (hlog : forwardedIds log' = []) :
    held S w' (log ++ log') + amount.toNat = held S w log := by
  have hheld : isHeld (log ++ log') = isHeld log := by
    funext x
    rw [isHeld, forwardedIds_append, hlog, List.append_nil, isHeld]
  have hclose : due (deliveries S w.scene log) (isUndelivered w'.scene.router) + amount.toNat =
      due (deliveries S w.scene log) (isUndelivered w.scene.router) := by
    refine due_close hnodup hmem ?_ ?_ fun x hx => ?_
    · rw [isUndelivered, hset.new]
      rfl
    · rw [isUndelivered, hset.finalized, Function.update_self]
      rfl
    · rw [isUndelivered, isUndelivered, hset.finalized, Function.update_of_ne hx]
  rw [held, held, refundsIn_append, deliveries_append, hkept, refundsIn_of_gateLog hgate,
    deliveries_of_gateLog hgate, List.append_nil, List.append_nil, hheld]
  omega

/-- What is passed on is held no more. -/
theorem held_forwards {amount : U256} (hkept : deliveries S w'.scene log = deliveries S w.scene log)
    (hf : Forwarded w.scene.router id w'.scene.router)
    (hmem : (id, amount.toNat) ∈ refundsIn S log) (hnodup : ((refundsIn S log).map Prod.fst).Nodup)
    (hnew : id ∉ forwardedIds log) (hgate : gateLog log' = []) (hlog : forwardedIds log' = [id]) :
    held S w' (log ++ log') + amount.toNat = held S w log := by
  have hundelivered : isUndelivered w'.scene.router = isUndelivered w.scene.router := by
    funext x
    rw [isUndelivered, hf.finalized, isUndelivered]
  have hclose : due (refundsIn S log) (isHeld (log ++ log')) + amount.toNat =
      due (refundsIn S log) (isHeld log) := by
    refine due_close hnodup hmem ?_ ?_ fun x hx => ?_
    · rw [isHeld, Bool.not_eq_true', List.contains_eq_mem, decide_eq_false hnew]
    · rw [isHeld, forwardedIds_append, hlog, Bool.not_eq_false', List.contains_eq_mem,
        decide_eq_true (List.mem_append_right _ (List.mem_singleton_self _))]
    · rw [isHeld, isHeld, forwardedIds_append, hlog]
      simp [hx]
  rw [held, held, refundsIn_append, deliveries_append, hkept, refundsIn_of_gateLog hgate,
    deliveries_of_gateLog hgate, List.append_nil, List.append_nil, hundelivered]
  omega

/-- **Every move but a sweep keeps what is held there.** -/
theorem solvent_of_move (hcoll : CollisionFree S.chain.keccak256 all)
    (B : Behind S g₀ w log strings gtr gw) (L : Locked S w log gtr) (O : Owes S w log)
    (h : Solvent S w log) (hstd : Standard S w.scene.router.stable)
    (hm : Move S True w w' log' strings') (hs : ∀ bs ∈ strings ++ strings', bs ∈ all)
    (hsweep : ∀ v ∈ log', v.sweeps = false) :
    Solvent S w' (log ++ log') := by
  have hkept := B.deliveries_kept hm
  have hstable := stable_of_move hm
  have hs₁ : ∀ bs ∈ strings, bs ∈ all := fun bs hbs => hs bs (List.mem_append_left _ hbs)
  have hs₂ : ∀ bs ∈ strings', bs ∈ all := fun bs hbs => hs bs (List.mem_append_right _ hbs)
  -- A move that brings nothing in, passes nothing on and settles nothing.
  have hsame : w'.scene.router.finalized = w.scene.router.finalized → refundsIn S log' = [] →
      deliveries S w'.scene log' = [] → forwardedIds log' = [] →
      Flows S w.scene.router.stable 0 0 w.scene.tokens w'.scene.tokens →
      Solvent S w' (log ++ log') := by
    intro hfinalized hrefunds hdeliveries hlog hflows
    refine h.flow hstable hflows ?_
    rw [held_append hkept hfinalized hlog, hrefunds, hdeliveries, due_nil, due_nil]
  have hquiet : w'.scene.router.accounts = w.scene.router.accounts → gateLog log' = [] →
      forwardedIds log' = [] →
      Flows S w.scene.router.stable 0 0 w.scene.tokens w'.scene.tokens →
      Solvent S w' (log ++ log') := fun ha hgate hlog hflows =>
    hsame (congrArg Accounts.finalized ha) (refundsIn_of_gateLog hgate)
      (deliveries_of_gateLog hgate) hlog hflows
  cases hm with
  | idle still accounts _ flows quiet =>
    exact hquiet accounts (gateLog_of_quiet quiet) (forwardedIds_of_quiet quiet) (flows trivial)
  | govern _ now call post =>
    subst post
    exact hsame rfl (refundsIn_of_govern call) (deliveries_of_govern call)
      (forwardedIds_map_gate _) Flows.refl
  | @transfer c x r running now call own post =>
    subst post
    have hlog := forwardedIds_map_gate r.log
    rcases deliveries_of_transfer (s := w.scene) call with hdel | ⟨n, hdel, hnew, hclaim, hflows⟩
    · rcases refundsIn_of_transfer (s := w.scene) call with href | ⟨a, n, rfl, R, hsent, href⟩
      · exact hsame rfl href hdel hlog (flows_gate hstd own call)
      · -- A refund to the router, in stable; it was not passed on.
        have htoken := L.token_of_refund hcoll B running now call hs hsent
        refine h.flow hstable (flows_refund hstd R htoken hsent) (le_of_eq ?_)
        have hopen : isHeld log r.id = true := by
          rw [isHeld, Bool.not_eq_true', List.contains_eq_mem, decide_eq_false_iff_not]
          intro hmem
          obtain ⟨user, amount, hevent⟩ := mem_forwardedIds hmem
          exact absurd (L.forwarded _ user amount hevent).1 (by rw [R.refunded]; simp)
        have hin : due [(r.id, n.toNat)] (isHeld log) = n.toNat := by
          rw [due_cons, due_nil, if_pos hopen, Nat.add_zero]
        have hnone := congrArg (fun l => due l (isUndelivered w.scene.router)) hdel
        rw [held_append hkept rfl hlog, href, hin]
        exact congrArg _ hnone
    · -- A delivery; it is not final, since what is final was executed.
      have href : refundsIn S (r.log.map .gate) = [] := by
        rcases refundsIn_of_transfer (s := w.scene) call with href | ⟨a, n, rfl, -⟩
        · exact href
        · obtain ⟨a', ha'⟩ := hclaim
          exact absurd ha' (by simp)
      refine h.flow hstable (hflows hstd) (le_of_eq ?_)
      have hopen : isUndelivered w.scene.router r.id = true := by
        rw [isUndelivered, Bool.not_eq_true', Bool.eq_false_iff]
        exact fun hfin => absurd (O.marked _ (.inr hfin)) (by rw [hnew]; simp)
      have hin : due [(r.id, n.toNat)] (isUndelivered w.scene.router) = n.toNat := by
        rw [due_cons, due_nil, if_pos hopen, Nat.add_zero]
      have hcount := congrArg (fun l => due l (isUndelivered w.scene.router)) hdel
      rw [held_append hkept rfl hlog, href, due_nil]
      exact congrArg _ (hcount.trans hin)
  | @bridged c a t g plog tokenIn amountIn chainIdTo finalToken finalReceiver _ now _ call gate _
      now' accounts _ flows quiet =>
    obtain ⟨wire, W⟩ := Gate.sends_of_send call
    have hlog : gateLog (plog ++ g.log.map .gate ++ [.swapBridged g.id c.sender tokenIn amountIn
        a.amount chainIdTo finalToken finalReceiver]) = g.log := by
      rw [gateLog_append, gateLog_append, gateLog_of_quiet quiet, gateLog_map_gate]
      exact List.append_nil _
    refine hsame (congrArg Accounts.finalized accounts) ?_ ?_ ?_ (flows trivial)
    · rw [refundsIn, hlog, W.log]
      rfl
    · rw [deliveries, hlog, W.log]
      rfl
    · rw [forwardedIds_append, forwardedIds_append, forwardedIds_of_quiet quiet,
        forwardedIds_map_gate]
      rfl
  | settled still shown settled flows event =>
    refine h.flow hstable (flows trivial) (le_of_eq ?_)
    exact held_settles hkept settled (B.mem_deliveries_of_shown shown hcoll hs₁ hs₂)
      B.deliveries_nodup (gateLog_of_settles event) (forwardedIds_of_settles event)
  | deferred still _ _ deferred flows =>
    exact hsame deferred.finalized rfl rfl rfl (flows trivial)
  | forwarded still refunded forwarded flows =>
    refine h.flow hstable (flows trivial) (le_of_eq ?_)
    have hmem := L.refund_of_sent hcoll B hs₁ (L.sent _ forwarded.owed) refunded
    exact held_forwards hkept forwarded (mem_refundsIn.mpr ⟨_, _, hmem, rfl⟩) B.refundsIn_nodup
      (L.held _ forwarded.owed) rfl rfl
  | scheduled still tokens schedules =>
    exact hquiet schedules.accounts rfl rfl (tokens ▸ Flows.refl)
  | dropped still tokens accounts _ => exact hquiet accounts rfl rfl (tokens ▸ Flows.refl)
  | swept still executes =>
    exact absurd (hsweep _ (List.mem_singleton_self _)) (by simp [Event.sweeps])

/-! ### Runs -/

/-- **What is known of a router after its moves**: the run of the gate behind it, its record,
its debt, and what is there. -/
theorem books_of_moves {w₀ : World σ} (h₀ : Initial w₀)
    (hcoll : CollisionFree S.chain.keccak256 all) (h : Moves S std w₀ w log strings)
    (hs : ∀ bs ∈ strings, bs ∈ all) :
    ∃ gtr gw, Behind S w₀.gate w log strings gtr gw ∧ Locked S w log gtr := by
  refine h.invariant (P := fun w log strings => (∀ bs ∈ strings, bs ∈ all) →
    ∃ gtr gw, Behind S w₀.gate w log strings gtr gw ∧ Locked S w log gtr) ?_ ?_ hs
  · exact fun _ => ⟨[], w₀.gate, ⟨h₀.gate, .nil, rfl, rfl, le_rfl, rfl, by simp [Gate.hashedIn]⟩,
      locked_of_initial h₀⟩
  · intro w₁ w₂ log log' strings strings' ih hm hall
    obtain ⟨gtr, gw, B, L⟩ := ih fun bs hbs => hall bs (List.mem_append_left _ hbs)
    obtain ⟨gtr', gw', B', L'⟩ := L.move hcoll B hm hall
    exact ⟨_, gw', B', L'⟩

/-- **What is known of a router after any run**, whatever its tokens are. -/
theorem books_of_run {w₀ : World σ} {tr : List (Step σ)} (h₀ : Initial w₀)
    (hrun : Run (exec S) w₀ tr w) (hcoll : CollisionFree S.chain.keccak256 all)
    (hs : ∀ bs ∈ hashedIn S tr, bs ∈ all) :
    Owes S w (logOf tr) ∧ ∃ strings gtr gw, (∀ bs ∈ strings, bs ∈ all) ∧
      Behind S w₀.gate w (logOf tr) strings gtr gw ∧ Locked S w (logOf tr) gtr := by
  obtain ⟨strings, hmoves, hsub⟩ := moves_of_run h₀ hrun (fun h : False => h.elim)
    fun h => h.elim
  have hall : ∀ bs ∈ strings, bs ∈ all := fun bs hbs => hs bs (hsub bs hbs)
  obtain ⟨gtr, gw, B, L⟩ := books_of_moves h₀ hcoll hmoves hall
  exact ⟨owes_of_moves h₀ hcoll hmoves hall, strings, gtr, gw, hall, B, L⟩

/-- What a run hashed, it hashed before a step, in it, or after it. -/
theorem mem_hashedIn_append {before after : List (Step σ)} {bs : Bytes}
    (h : bs ∈ hashedIn S before) : bs ∈ hashedIn S (before ++ after) := by
  rw [hashedIn, List.flatMap_append]
  exact List.mem_append_left _ h

/-- **What is held is there**, after any moves but sweeps. -/
theorem solvent_of_moves {w₀ : World σ} (h₀ : Initial w₀)
    (hcoll : CollisionFree S.chain.keccak256 all) (hstd : Standard S w₀.scene.router.stable)
    (h : Moves S True w₀ w log strings) (hs : ∀ bs ∈ strings, bs ∈ all)
    (hsweep : ∀ v ∈ log, v.sweeps = false) : Solvent S w log := by
  induction h with
  | nil => exact solvent_of_initial
  | @snoc w₁ w₂ log log' strings strings' hmoves hm ih =>
    have hs₁ : ∀ bs ∈ strings, bs ∈ all := fun bs hbs => hs bs (List.mem_append_left _ hbs)
    obtain ⟨gtr, gw, B, L⟩ := books_of_moves h₀ hcoll hmoves hs₁
    have hstable := (hmoves.invariant_behind
      (P := fun w _ _ => w.scene.router.stable = w₀.scene.router.stable) h₀.gate rfl
      fun _ ih hm => (stable_of_move hm).trans ih).1
    exact solvent_of_move hcoll B L (owes_of_moves h₀ hcoll hmoves hs₁)
      (ih hs₁ fun v hv => hsweep v (List.mem_append_left _ hv)) (hstable ▸ hstd) hm hs
      fun v hv => hsweep v (List.mem_append_right _ hv)

/-- **What was passed on in a step** was on record before it, and was moved. -/
theorem record_of_exec {l : Label σ} {user : Address} {amount : U256}
    (h : exec S w l = some (w', log)) (hmem : .refundForwarded id user amount ∈ log) :
    w.scene.router.refundOf id = ⟨user, amount⟩ ∧ user ≠ 0 ∧
      ∃ t, S.chain.tokens.transfer w.scene.router.stable S.here user amount t =
        some w'.scene.tokens := by
  have hid := mem_forwardedIds_of_mem hmem
  have hforward : ∀ {s s' : Scene σ} {x : Bytes32} {log₀ log₁ : List Event},
      forwardedIds log₀ = [] → forward S s x = .ok (s', log₁) →
      .refundForwarded id user amount ∈ log₀ ++ log₁ →
      s.router.refundOf id = ⟨user, amount⟩ ∧ user ≠ 0 ∧
        S.chain.tokens.transfer s.router.stable S.here user amount s.tokens = some s'.tokens := by
    intro s s' x log₀ log₁ hnone hf hmem
    obtain ⟨hforwarded, -, -, -, hmoved, rfl⟩ := forwarded_of_forward hf
    rcases List.mem_append.mp hmem with hmem | hmem
    · have hmem := mem_forwardedIds_of_mem hmem
      rw [hnone] at hmem
      exact absurd hmem List.not_mem_nil
    · obtain ⟨rfl, rfl, rfl⟩ := Event.refundForwarded.inj (List.mem_singleton.mp hmem)
      exact ⟨rfl, hforwarded.owed, hmoved⟩
  have hno : forwardedIds log ≠ [] := List.ne_nil_of_mem hid
  cases l with
  | gate l =>
    rw [exec, Option.ite_none_left_eq_some] at h
    obtain ⟨x, -, heq⟩ := Option.map_eq_some_iff.mp h.2
    obtain ⟨-, rfl⟩ := Prod.mk.inj heq
    exact absurd (forwardedIds_map_gate _) hno
  | pool c x =>
    rw [exec, Option.ite_none_left_eq_some] at h
    obtain ⟨-, h⟩ := h
    split at h
    · simp only [Option.some.injEq, Prod.mk.injEq] at h
      obtain ⟨-, rfl⟩ := h
      exact absurd (forwardedIds_map_pool _) hno
    · exact absurd h (by simp)
  | deploy c =>
    rw [exec, Option.ite_none_left_eq_some] at h
    simp only [Option.some.injEq, Prod.mk.injEq] at h
    obtain ⟨-, -, rfl⟩ := h
    exact absurd rfl hno
  | router c x =>
    rw [exec, Option.ite_none_left_eq_some] at h
    obtain ⟨-, h⟩ := h
    split at h
    · next d hd =>
      simp only [Option.some.injEq, Prod.mk.injEq] at h
      obtain ⟨rfl, rfl⟩ := h
      cases x with
      | forwardRefund x =>
        obtain ⟨hrecord, huser, hmoved⟩ := @hforward _ _ _ [] _ rfl hd hmem
        exact ⟨hrecord, huser, _, hmoved⟩
      | refundAndForward a =>
        obtain ⟨g, log', -, hf, hlog⟩ := forwarded_of_refundAndForward hd
        rw [hlog] at hmem
        obtain ⟨hrecord, huser, hmoved⟩ := hforward (forwardedIds_map_gate _) hf hmem
        exact ⟨hrecord, huser, _, hmoved⟩
      | swapAndBridge a =>
        obtain ⟨leg, dust, t, p, g, -, P, -, -, hlog⟩ := prepares_of_swapAndBridge hd
        obtain ⟨-, -, plog, hplog⟩ := P.acquired.frame
        refine absurd ?_ hno
        rw [hlog, P.log, hplog, forwardedIds_append, forwardedIds_append, forwardedIds_map_pool,
          forwardedIds_map_gate]
        rfl
      | finalize a gas =>
        obtain ⟨_, _, _, _, _, -, -, -, hs, -, hlog⟩ := settles_of_finalize hd
        exact absurd (hlog ▸ forwardedIds_of_ends hs.ends) hno
      | claimAndFinalize a signatures gas =>
        obtain ⟨_, _, _, _, _, -, hs, -, hlog⟩ := settles_of_claimAndFinalize hd
        refine absurd ?_ hno
        rw [hlog, forwardedIds_append, forwardedIds_map_gate, forwardedIds_of_ends hs.ends]
        rfl
      | scheduleStableRescue amount target =>
        obtain ⟨⟨r, log⟩, hx, heq⟩ := SwapPool.map_eq_ok.mp hd
        obtain ⟨-, hlog⟩ := schedules_of_scheduleStableRescue hx
        rw [← (show log = d.2 from congrArg Prod.snd heq), hlog] at hno
        exact absurd rfl hno
      | cancelStableRescue =>
        obtain ⟨a, ha, heq⟩ := SwapPool.map_eq_ok.mp hd
        simp only [cancelStableRescue, bind_eq_ok, exists_unit, pure_eq_ok] at ha
        obtain ⟨-, -, rfl⟩ := ha
        rw [← (show _ = d.2 from congrArg Prod.snd heq)] at hno
        exact absurd rfl hno
      | executeStableRescue =>
        obtain ⟨-, hlog⟩ := executes_of_executeStableRescue hd
        rw [hlog] at hno
        exact absurd rfl hno
      | transferOwnership _ | acceptOwnership | setGuardian _ | setRemoteRouter _ _
      | rescue _ _ _ =>
        obtain ⟨-, -, -, -, hlog⟩ := idle_of_call rfl hd
        exact absurd (forwardedIds_of_quiet hlog) hno
    · exact absurd h (by simp)

/-- Is a delivery with this id neither final nor deferred? -/
def isPending (r : SwapRouter) (id : Bytes32) : Bool :=
  !r.finalized id && !decide (r.deferredSince id ≠ 0)

/-- The deliveries that are not final are owed or pending. -/
theorem due_undelivered (O : Owes S w log) :
    due (deliveries S w.scene log) (isUndelivered w.scene.router) =
      w.scene.router.owedStable.toNat +
        due (deliveries S w.scene log) (isPending w.scene.router) := by
  rw [due_split _ _ fun id => decide (w.scene.router.deferredSince id ≠ 0), O.owed]
  congr 1
  · refine due_congr fun i _ => ?_
    rw [isOwed, isUndelivered, Bool.and_comm]

/-- **Refunds of what the router sent reach the user, once.** In every run without a sweep,
with a standard stable that others do not take from the router: no id is passed on twice;
what is passed on is what the gate refunded to the router under that id, in stable, and goes
to the user on whose behalf it was sent, as recorded before; and in the end – so in every
state – the balance covers the refunds that were not passed on, the debt, and the deliveries
that are neither final nor deferred. -/
theorem refunds_reach_user_once {w₀ : World σ} {tr : List (Step σ)} (h₀ : Initial w₀)
    (hrun : Run (exec S) w₀ tr w) (hcoll : CollisionFree S.chain.keccak256 (hashedIn S tr))
    (hstd : Standard S w₀.scene.router.stable)
    (hothers : ∀ e ∈ tr, ∀ t, e.label = .gate (.tokens t) →
      Flows S w₀.scene.router.stable 0 0 e.pre.scene.tokens t)
    (hsweep : ∀ v ∈ logOf tr, v.sweeps = false) :
    (forwardedIds (logOf tr)).Nodup ∧
      (∀ before e after id user amount, tr = before ++ e :: after →
        .refundForwarded id user amount ∈ e.out →
        RecordedIn (logOf before) id user amount ∧
        .gate (.refunded id (BridgeHash.getDebridgeId S.chain.keccak256 S.chain.chainId
          w₀.scene.router.stable) S.here amount) ∈ logOf (before ++ [e]) ∧
        ∃ t, S.chain.tokens.Moved w₀.scene.router.stable S.here user amount t
          e.post.scene.tokens) ∧
      due (refundsIn S (logOf tr)) (isHeld (logOf tr)) + w.scene.router.owedStable.toNat +
          due (deliveries S w.scene (logOf tr)) (isPending w.scene.router) ≤
        (w.scene.balance S).toNat := by
  obtain ⟨strings, hmoves, hsub⟩ := moves_of_run h₀ hrun (fun _ : True => hstd)
    fun _ => hothers
  obtain ⟨gtr, gw, B, L⟩ := books_of_moves h₀ hcoll hmoves hsub
  refine ⟨L.nodup, ?_, ?_⟩
  · rintro before e after id user amount rfl hmem
    -- The record before the step is the user's; the refund is known after it.
    obtain ⟨hbefore, hex, -⟩ := hrun.split
    obtain ⟨-, strings₁, gtr₁, gw₁, -, B₁, L₁⟩ := books_of_run h₀ hbefore hcoll
      fun bs hbs => mem_hashedIn_append hbs
    obtain ⟨-, strings₂, gtr₂, gw₂, hall₂, B₂, L₂⟩ := books_of_run h₀ (hbefore.snoc hex) hcoll
      fun bs hbs => by
        rw [← List.singleton_append, ← List.append_assoc]
        exact mem_hashedIn_append hbs
    obtain ⟨hrecord, huser, t, hmoved⟩ := record_of_exec hex hmem
    have hlog : .refundForwarded id user amount ∈ logOf (before ++ [e]) := by
      rw [logOf, List.flatMap_append, List.flatMap_singleton]
      exact List.mem_append_right _ hmem
    obtain ⟨hrefunded, hsent⟩ := L₂.forwarded id user amount hlog
    have hrefund := L₂.refund_of_sent hcoll B₂ hall₂ hsent hrefunded
    have hin := L₁.recorded id (by rw [hrecord]; exact huser)
    rw [hrecord] at hin
    rw [stable_of_run h₀ (hbefore.snoc hex)] at hrefund
    rw [stable_of_run h₀ hbefore] at hmoved
    exact ⟨hin, hrefund, t, hstd.exact.transfer hmoved⟩
  · have hsolvent := solvent_of_moves h₀ hcoll hstd hmoves hsub hsweep
    rw [Solvent, held, due_undelivered (owes_of_moves h₀ hcoll hmoves hsub)] at hsolvent
    omega

/-- Tokens that keep a ledger are standard. -/
theorem standard_ledger {S : Site Ledger} (h : S.chain.tokens = Ledger.tokens) (stable : Address) :
    Standard S stable where
  exact := h ▸ Ledger.exact stable
  approve := by
    intro token spender amount t t' ha
    rw [h] at ha
    obtain rfl := Option.some.inj ha
    rw [Flows, h]
    exact le_rfl
  transfer := by
    intro token source target amount t t' hne ht
    rw [h] at ht
    rw [Flows, h, ((Ledger.exact token).transfer ht).otherToken stable hne.symm S.here]
  transferFrom := by
    intro token spender source target amount t t' hne ht
    rw [h] at ht
    rw [Flows, h, ((Ledger.exact token).transferFrom ht).otherToken stable hne.symm S.here]

/-- A router at `0xf5`, between a gate and a pool. -/
def site : Site Ledger where
  chain := tableChain 1 0xf1
  here := 0xf5
  pool := 0xf6
  gate_ne := by decide
  pool_ne := by decide

/-- A user lets the router have a transfer's worth of stable, and the gate has ten. -/
def stables : Ledger where
  balance token account :=
    if token = 0xaa then if account = 0xcc then 100000 else if account = 0xf1 then 1000000 else 0
    else 0
  allowance token owner spender :=
    if token = 0xaa ∧ owner = 0xcc ∧ spender = 0xf5 then 100000 else 0
  decimals _ := some 8

/-- A pool that lists nothing but its stable. -/
def barePool : SwapPool where
  tokens := Function.update (fun _ => ⟨false, 0, 0, 0⟩) 0xaa ⟨true, 8, SwapPool.PRICE_ONE, 0⟩
  stable := 0xaa
  owner := 0x0a
  pendingOwner := 0
  oracle := 0x0a
  paused := false
  guardian := 0
  feeBps := 0
  maxPriceDeviationBps := 1000
  minPriceUpdateInterval := 3600
  lastPriceUpdate := fun _ => 0
  priceSetAt := fun _ => 1000
  maxPriceAge := 86400

/-- Before the router is deployed. -/
def before : World Ledger :=
  ⟨⟨{ blank with stable := 0xaa }, (Gate.started stables).gate, barePool, stables⟩, 1000, false,
    false⟩

theorem initial_before : Initial before where
  gate := Gate.initial_started stables
  now := by decide
  router := rfl
  deployed := rfl

/-- What the user sends. -/
def bridgeArgs : BridgeArgs where
  tokenIn := 0xaa
  amountIn := 100000
  minStableOut := 0
  chainIdTo := 2
  finalToken := 0xee
  finalReceiver := 0xcc
  finalMinOut := 7

/-- Its refund, with the signature of the validator. -/
def refundArgs : RefundAndForwardArgs where
  debridgeId := 0xafdef99c1704a7d5f4cacc1c621cef270dae98e2ea1f2add9fa0fd4e7201018a
  amount := 1000
  bridgeDecimals := 6
  chainIdTo := 2
  nonce := 0
  receiver := addressBytes 0xf7
  autoParams := Abi.encodeAutoParamsTo (intentParams ⟨0xee, 0xcc, 7⟩)
  nativeSender := addressBytes 0xf5
  signatures := [signatureBytes
    0xe347995d6f1e946d9f88f10f158291eb65d17f41931d98cf24a1b7eed92da73e
    0x628256bf2ffb32d8687c138f8c1c1cc1ed012957b4e690c927110a0ff554f061 27]

/-- The user sends, and somebody refunds and passes on. -/
def sendAndForward : List (Label Ledger) :=
  [.gate (.govern (Gate.callAt 0x0a 1001) (.setBridgeDecimals 0xaa 6)),
    .gate (.govern (Gate.callAt 0x0a 1002) (.setSupportedChain 2 true)),
    .deploy (Gate.callAt 0x0b 1003),
    .router (Gate.callAt 0x0b 1004) (.setRemoteRouter 2 (addressBytes 0xf7)),
    .router (Gate.callAt 0xcc 1005) (.swapAndBridge bridgeArgs),
    .router (Gate.callAt 0xdd 1006) (.refundAndForward refundArgs)]

/-- The run. -/
def sentAndForwarded : List (Step Ledger) × World Ledger :=
  traceOf (exec site) before sendAndForward

/-- Nobody moves tokens behind the router's back in a run of calls. -/
theorem flows_of_labels {S : Site Ledger} {stable : Address} {tr : List (Step Ledger)}
    {labels : List (Label Ledger)} (h : tr.map Entry.label = labels)
    (hlabels : ∀ l ∈ labels, ∀ t, l ≠ .gate (.tokens t)) :
    ∀ e ∈ tr, ∀ t, e.label = .gate (.tokens t) → Flows S stable 0 0 e.pre.scene.tokens t :=
  fun e he t hl => absurd hl (hlabels e.label (h ▸ List.mem_map_of_mem he) t)

theorem refunds_reach_user_once_sentAndForwarded :
    forwardedIds (logOf sentAndForwarded.1) =
        [0x32abc93b9dd9823684bfbc4dbc1a9cfad32316944b0a106e490304896410cf73] ∧
      (forwardedIds (logOf sentAndForwarded.1)).Nodup ∧
      due (refundsIn site (logOf sentAndForwarded.1)) (isHeld (logOf sentAndForwarded.1)) +
          sentAndForwarded.2.scene.router.owedStable.toNat +
          due (deliveries site sentAndForwarded.2.scene (logOf sentAndForwarded.1))
            (isPending sentAndForwarded.2.scene.router) ≤
        (sentAndForwarded.2.scene.balance site).toNat := by
  have hsome : (runFrom (exec site) before sendAndForward).isSome = true := by decide +kernel
  have hrun : Run (exec site) before sentAndForwarded.1 sentAndForwarded.2 := run_traceOf hsome
  have hcoll : CollisionFree digestOf (hashedIn site sentAndForwarded.1) := by decide +kernel
  have hsweep : ∀ v ∈ logOf sentAndForwarded.1, v.sweeps = false := by
    have hall : (logOf sentAndForwarded.1).all (fun v => !v.sweeps) = true := by decide +kernel
    intro v hv
    simpa using List.all_eq_true.mp hall v hv
  have h := refunds_reach_user_once initial_before hrun hcoll (standard_ledger rfl _)
    (flows_of_labels (label_traceOf hsome) (by simp [sendAndForward])) hsweep
  exact ⟨by decide +kernel, h.1, h.2.2⟩

end SwapRouter

end SelendraBridge
