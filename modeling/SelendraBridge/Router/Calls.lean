import SelendraBridge.Router.Machine
import SelendraBridge.Gate.Payouts

/-!
# What a call of the router says when it went through

Each call is inverted once, into what it checked and what it left. What matters beyond this
file is what a call does to the accounts of the router – which deliveries are final and
which are deferred, what is owed, what went out, whose the refunds are – and there are few
things that can happen to them:

| | `finalized` | `deferredSince` | `owedStable` | `stableSettledOut` | `refundOf` |
|---|---|---|---|---|---|
| a delivery settles (`Settled`) | set | – | less, if deferred | more, if it `debits` | – |
| a delivery is deferred (`Deferred`) | – | set, the first time | more, the first time | – | – |
| a refund is passed on (`Forwarded`) | – | – | – | more | cleared |
| a transfer is sent | – | – | – | – | set |

Everything else leaves them alone (`SelendraBridge.SwapRouter.accounts`).
-/

namespace SelendraBridge

namespace Scene

open Revert SwapRouter

variable {σ : Type} {S : Site σ} {c : Call} {s s' : Scene σ} {token account : Address}
  {amount : U256}

theorem pay_eq_ok : s.pay S token account amount = .ok s' ↔
    ∃ t, S.chain.tokens.transfer token S.here account amount s.tokens = some t ∧
      { s with tokens := t } = s' := by
  simp only [pay, bind_eq_ok, orRevert_eq_ok, pure_eq_ok]

theorem pull_eq_ok : s.pull S c token amount = .ok s' ↔
    ∃ t, S.chain.tokens.transferFrom token S.here c.sender S.here amount s.tokens = some t ∧
      { s with tokens := t } = s' := by
  simp only [pull, bind_eq_ok, orRevert_eq_ok, pure_eq_ok]

theorem approve_eq_ok : s.approve S token account amount = .ok s' ↔
    ∃ t, S.chain.tokens.approve token S.here account amount s.tokens = some t ∧
      { s with tokens := t } = s' := by
  simp only [approve, bind_eq_ok, orRevert_eq_ok, pure_eq_ok]

theorem callGate_eq_ok {x : Gate.TransferCall} {g : GateReply σ} : s.callGate S c x = .ok g ↔
    ∃ r, Gate.transfer S.chain (acting S c) s.gate s.tokens x = .ok r ∧
      ⟨{ s with gate := r.gate, tokens := r.tokens }, r.log.map .gate, r.id⟩ = g := by
  simp only [callGate, bind_eq_ok, withReason_eq_ok, pure_eq_ok]

theorem swapAtPool_eq_ok {tokenIn tokenOut target : Address} {amountIn minAmountOut : U256}
    {p : PoolReply σ} :
    s.swapAtPool S c tokenIn tokenOut amountIn minAmountOut target = .ok p ↔
      ∃ out d, SwapPool.swap S.chain.tokens S.pool (acting S c) s.pool s.tokens tokenIn tokenOut
          amountIn minAmountOut target = .ok (out, d) ∧
        ⟨{ s with pool := d.pool, tokens := d.tokens }, d.log.map .pool, out⟩ = p := by
  rw [swapAtPool, SwapPool.map_eq_ok]
  constructor
  · rintro ⟨⟨out, d⟩, h, rfl⟩
    exact ⟨out, d, h, rfl⟩
  · rintro ⟨out, d, h, rfl⟩
    exact ⟨(out, d), h, rfl⟩

end Scene

namespace SwapRouter

open Revert Scene

variable {σ : Type} {S : Site σ} {c : Call} {r r' : SwapRouter} {s s' : Scene σ}
  {id debridgeId : Bytes32} {amount : U256} {log : List Event}

/-- Does an event say nothing about payouts, transfers, deliveries, refunds and notices? -/
def Event.quiet : Event → Bool
  | .pool _ => true
  | .remoteRouterSet _ _ => true
  | .ownershipTransferStarted _ _ => true
  | .ownershipTransferred _ _ => true
  | .guardianSet _ => true
  | _ => false

/-- The delivery that an event says has settled. -/
def Event.settles : Event → Option Bytes32
  | .finalized id _ _ _ _ _ => some id
  | .finalizeFallback id _ _ => some id
  | _ => none

/-! ### The accounts -/

/-- **What the router keeps account of.** -/
structure Accounts where
  stable : Address
  finalized : Bytes32 → Bool
  deferredSince : Bytes32 → ℕ
  owedStable : U256
  stableSettledOut : U256
  refundOf : Bytes32 → RefundClaim

/-- The accounts of a router. -/
def accounts (r : SwapRouter) : Accounts :=
  ⟨r.stable, r.finalized, r.deferredSince, r.owedStable, r.stableSettledOut, r.refundOf⟩

/-- **A delivery settles.** -/
structure Settled (r : SwapRouter) (id : Bytes32) (amount : U256) (r' : SwapRouter) : Prop where
  new : r.finalized id = false
  stable : r'.stable = r.stable
  finalized : r'.finalized = Function.update r.finalized id true
  deferredSince : r'.deferredSince = r.deferredSince
  owedStable : r'.owedStable.toNat + (if r.deferredSince id = 0 then 0 else amount.toNat) =
    r.owedStable.toNat
  stableSettledOut : r'.stableSettledOut.toNat = r.stableSettledOut.toNat +
    (if debits r (r.deferredSince id) then amount.toNat else 0)
  refundOf : r'.refundOf = r.refundOf
  pending : r'.pendingStableRescue = r.pendingStableRescue

/-- **A delivery is deferred**, for the first time or again. -/
structure Deferred (c : Call) (r : SwapRouter) (id : Bytes32) (amount : U256)
    (r' : SwapRouter) : Prop where
  new : r.finalized id = false
  stable : r'.stable = r.stable
  finalized : r'.finalized = r.finalized
  deferredSince : r'.deferredSince = Function.update r.deferredSince id (deferredFrom c r id)
  owedStable : r'.owedStable.toNat =
    r.owedStable.toNat + (if r.deferredSince id = 0 then amount.toNat else 0)
  stableSettledOut : r'.stableSettledOut = r.stableSettledOut
  refundOf : r'.refundOf = r.refundOf
  pending : r'.pendingStableRescue = r.pendingStableRescue

/-- **A refund is passed on.** -/
structure Forwarded (r : SwapRouter) (id : Bytes32) (r' : SwapRouter) : Prop where
  owed : (r.refundOf id).target ≠ 0
  stable : r'.stable = r.stable
  finalized : r'.finalized = r.finalized
  deferredSince : r'.deferredSince = r.deferredSince
  owedStable : r'.owedStable = r.owedStable
  stableSettledOut : r'.stableSettledOut.toNat =
    r.stableSettledOut.toNat + (r.refundOf id).amount.toNat
  refundOf : r'.refundOf = Function.update r.refundOf id ⟨0, 0⟩
  pending : r'.pendingStableRescue = r.pendingStableRescue

/-! ### The target leg -/

theorem deferredFrom_ne_zero (h : c.timestamp ≠ 0) : deferredFrom c r id ≠ 0 := by
  rw [deferredFrom]
  split
  · exact h
  · next hne => exact hne

/-- A deferral that is not the first leaves the time alone. -/
theorem update_deferredFrom (h : r.deferredSince id ≠ 0) :
    Function.update r.deferredSince id (deferredFrom c r id) = r.deferredSince := by
  rw [deferredFrom, if_neg h, Function.update_eq_self]

/-- **How an attempt at a delivery ends.** -/
inductive Ends (S : Site σ) (c : Call) (s : Scene σ) (id : Bytes32) (amount : U256) (i : Intent)
    (may : Bool) : Attempt σ → Prop
  /-- The stable was asked for. -/
  | stable {t : σ} (token : i.finalToken = s.router.stable)
      (moved : S.chain.tokens.transfer s.router.stable S.here i.finalReceiver amount s.tokens =
        some t) :
      Ends S c s id amount i may ⟨{ s with tokens := t },
        [.finalized id i.finalReceiver i.finalToken amount amount false], true⟩
  /-- The swap runs. -/
  | swapped {t : σ} {out : U256} {d : SwapPool.Done σ} (token : i.finalToken ≠ s.router.stable)
      (approved : S.chain.tokens.approve s.router.stable S.here S.pool amount s.tokens = some t)
      (swap : SwapPool.swap S.chain.tokens S.pool (acting S c) s.pool t s.router.stable
        i.finalToken amount i.finalMinOut i.finalReceiver = .ok (out, d)) :
      Ends S c s id amount i may ⟨{ s with pool := d.pool, tokens := d.tokens },
        d.log.map .pool ++ [.finalized id i.finalReceiver i.finalToken amount out true], true⟩
  /-- The swap is blocked, and who calls takes the stable. -/
  | fellBack {t u : σ} (token : i.finalToken ≠ s.router.stable)
      (tried : t = s.tokens ∨
        ∃ v, S.chain.tokens.approve s.router.stable S.here S.pool amount s.tokens = some v ∧
          S.chain.tokens.approve s.router.stable S.here S.pool 0 v = some t)
      (since : s.router.deferredSince id ≠ 0)
      (grace : s.router.deferredSince id + FALLBACK_GRACE ≤ c.timestamp) (may_ : may = true)
      (moved : S.chain.tokens.transfer s.router.stable S.here i.finalReceiver amount t = some u) :
      Ends S c s id amount i may ⟨{ s with tokens := u },
        [.finalizeFallback id i.finalReceiver amount], true⟩
  /-- The swap is blocked, and the delivery is deferred. -/
  | deferred {t : σ} (token : i.finalToken ≠ s.router.stable)
      (tried : t = s.tokens ∨
        ∃ v, S.chain.tokens.approve s.router.stable S.here S.pool amount s.tokens = some v ∧
          S.chain.tokens.approve s.router.stable S.here S.pool 0 v = some t) :
      Ends S c s id amount i may ⟨{ s with
          tokens := t
          router := { s.router with
            deferredSince :=
              Function.update s.router.deferredSince id (deferredFrom c s.router id) } },
        [.finalizeDeferred id i.finalReceiver i.finalToken
          (deferredFrom c s.router id + FALLBACK_GRACE)], false⟩

/-- The events of an attempt: those of the pool and one that says it settled, or one that
says it is deferred. -/
theorem Ends.events {i : Intent} {may : Bool} {d : Attempt σ} (h : Ends S c s id amount i may d) :
    (d.settled = true ∧ ∃ (plog : List SwapPool.Event) (v : Event),
      d.log = plog.map .pool ++ [v] ∧ v.settles = some id) ∨
    (d.settled = false ∧ ∃ finalReceiver finalToken retryAfter,
      d.log = [.finalizeDeferred id finalReceiver finalToken retryAfter]) := by
  cases h with
  | stable token moved => exact .inl ⟨rfl, [], _, rfl, rfl⟩
  | swapped token approved swap => exact .inl ⟨rfl, _, _, rfl, rfl⟩
  | fellBack token tried since grace may moved => exact .inl ⟨rfl, [], _, rfl, rfl⟩
  | deferred token tried => exact .inr ⟨rfl, _, _, _, rfl⟩

theorem Ends.gate {i : Intent} {may : Bool} {d : Attempt σ} (h : Ends S c s id amount i may d) :
    d.scene.gate = s.gate := by
  cases h <;> rfl

/-- What is done about a blocked swap. -/
theorem ends_of_deferOrFallBack {i : Intent} {may : Bool} {d : Attempt σ} {t : σ}
    (token : i.finalToken ≠ s.router.stable)
    (tried : t = s.tokens ∨
      ∃ v, S.chain.tokens.approve s.router.stable S.here S.pool amount s.tokens = some v ∧
        S.chain.tokens.approve s.router.stable S.here S.pool 0 v = some t)
    (h : deferOrFallBack S c { s with tokens := t } id amount i.finalToken i.finalReceiver may =
      .ok d) : Ends S c s id amount i may d := by
  unfold deferOrFallBack at h
  dsimp only at h
  split at h
  · obtain rfl := Except.ok.inj h
    exact .deferred token tried
  · next hlate =>
    -- The grace period is over, so this is not the first time.
    rw [not_or, not_lt, Bool.not_eq_false] at hlate
    have hsince : s.router.deferredSince id ≠ 0 := by
      intro h0
      have hnow : deferredFrom c s.router id = c.timestamp := by
        rw [deferredFrom, if_pos h0]
      have hpos : 0 < FALLBACK_GRACE := by decide
      have hle := hlate.1
      rw [hnow] at hle
      omega
    have hfrom : deferredFrom c s.router id = s.router.deferredSince id := by
      rw [deferredFrom, if_neg hsince]
    simp only [bind_eq_ok, pay_eq_ok, pure_eq_ok] at h
    obtain ⟨_, ⟨u, hmoved, rfl⟩, rfl⟩ := h
    rw [update_deferredFrom hsince]
    exact .fellBack token tried hsince (hfrom ▸ hlate.1) hlate.2 hmoved

theorem ends_of_deliver {i : Intent} {may : Bool} {gas : Gas} {d : Attempt σ}
    (h : deliver S c s id amount i may gas = .ok d) : Ends S c s id amount i may d := by
  unfold deliver at h
  split at h
  · next htoken =>
    simp only [bind_eq_ok, pay_eq_ok, pure_eq_ok] at h
    obtain ⟨_, ⟨t, hmoved, rfl⟩, rfl⟩ := h
    exact .stable htoken hmoved
  · next htoken =>
    simp only [bind_eq_ok, exists_unit] at h
    obtain ⟨-, h⟩ := h
    split at h
    · exact ends_of_deferOrFallBack htoken (.inl rfl) h
    · simp only [bind_eq_ok, exists_unit, trySwap, approve_eq_ok] at h
      obtain ⟨-, _, ⟨t, happroved, rfl⟩, h⟩ := h
      split at h
      · next p hp =>
        obtain ⟨out, d, hswap, rfl⟩ := swapAtPool_eq_ok.mp hp
        obtain rfl := pure_eq_ok.mp h
        exact .swapped htoken happroved hswap
      · -- The failed swap is undone, and so is the approval.
        simp only [bind_eq_ok, approve_eq_ok] at h
        obtain ⟨_, ⟨u, hzero, rfl⟩, h⟩ := h
        exact ends_of_deferOrFallBack htoken (.inr ⟨t, happroved, hzero⟩) h

/-- **A settlement that went through.** -/
structure Settles (S : Site σ) (c : Call) (s : Scene σ) (id debridgeId : Bytes32) (wire : U256)
    (receiver autoParams : Bytes) (amount : U256) (i : Intent) (d : Attempt σ)
    (router : SwapRouter) : Prop where
  new : s.router.finalized id = false
  receiver_eq : toAddress receiver = .ok S.here
  asset : s.gate.tokenOf debridgeId = s.router.stable
  amount_eq : Gate.toLocalAmount s.gate s.router.stable wire = .ok amount
  intent : decodeIntent autoParams = some i
  ends : Ends S c s id amount i (mayFallBack c s.router i.finalReceiver) d
  booked : bookAttempt d.scene.router id amount (s.router.deferredSince id) d.settled = .ok router

theorem settles_of_settle {wire : U256} {receiver autoParams : Bytes} {gas : Gas}
    (h : settle S c s id debridgeId wire receiver autoParams gas = .ok (s', log)) :
    ∃ amount i d router, Settles S c s id debridgeId wire receiver autoParams amount i d router ∧
      s' = { d.scene with router } ∧ log = d.log := by
  simp only [settle, bind_eq_ok, exists_unit, revertIf_eq_ok, withReason_eq_ok, orRevert_eq_ok,
    pure_eq_ok, not_not, Bool.not_eq_true, Prod.mk.injEq] at h
  obtain ⟨hnew, target, htarget, rfl, hasset, amount, hamount, i, hi, -, d, hd, router, hb, rfl,
    rfl⟩ := h
  exact ⟨amount, i, d, router, ⟨hnew, htarget, hasset, hamount, hi, ends_of_deliver hd, hb⟩, rfl,
    rfl⟩

/-- **What a settlement does to the accounts.** -/
theorem Settles.accounts {wire : U256} {receiver autoParams : Bytes} {i : Intent} {d : Attempt σ}
    (h : Settles S c s id debridgeId wire receiver autoParams amount i d r') :
    (d.settled = true ∧ Settled s.router id amount r') ∨
      (d.settled = false ∧ Deferred c s.router id amount r') := by
  have hb := h.booked
  -- Whether it settled decides what is booked, and the ending decides whether it settled.
  have hsettles : ∀ router : SwapRouter, bookAttempt s.router id amount
      (s.router.deferredSince id) true = .ok router → Settled s.router id amount router := by
    intro router hb
    simp only [bookAttempt, if_true, bind_eq_ok, repay, debit, pure_eq_ok] at hb
    obtain ⟨owed, howed, out, hout, rfl⟩ := hb
    refine ⟨h.new, rfl, rfl, rfl, ?_, ?_, rfl, rfl⟩
    · split at howed
      · next h0 =>
        obtain rfl := Except.ok.inj howed
        simp only [h0, if_true]
        rfl
      · next h0 =>
        rw [if_neg h0]
        exact checkedSub_eq_ok.mp howed
    · split at hout
      · next hd =>
        rw [show debits s.router (s.router.deferredSince id) = true from hd]
        exact checked_eq_ok.mp hout
      · next hd =>
        obtain rfl := Except.ok.inj hout
        rw [show debits s.router (s.router.deferredSince id) = false from Bool.not_eq_true _ ▸ hd]
        rfl
  cases h.ends with
  | stable token moved => exact .inl ⟨rfl, hsettles _ hb⟩
  | swapped token approved swap => exact .inl ⟨rfl, hsettles _ hb⟩
  | fellBack token tried since grace may moved => exact .inl ⟨rfl, hsettles _ hb⟩
  | deferred token tried =>
    refine .inr ⟨rfl, ?_⟩
    simp only [bookAttempt, Bool.false_eq_true, if_false, bind_eq_ok, incur, pure_eq_ok] at hb
    obtain ⟨owed, howed, rfl⟩ := hb
    refine ⟨h.new, rfl, rfl, rfl, ?_, rfl, rfl, rfl⟩
    split at howed
    · next h0 =>
      simp only [h0, if_true]
      exact checked_eq_ok.mp howed
    · next h0 =>
      obtain rfl := Except.ok.inj howed
      simp only [h0, if_false]
      rfl

/-- **A delivery that was shown to be there.** -/
theorem settles_of_finalize {a : FinalizeArgs} {gas : Gas}
    (h : finalize S c s a gas = .ok (s', log)) :
    ∃ id amount i d router,
      Gate.idFor S.chain.keccak256 s.gate.bridgeDomain
          (Gate.claimParams S.chain (a.claim [])) = .ok id ∧
        s.gate.executed id = true ∧ s.gate.cancelled id = false ∧
        Settles S c s id a.debridgeId a.amount a.receiver a.autoParams amount i d router ∧
        s' = { d.scene with router } ∧ log = d.log := by
  simp only [finalize, bind_eq_ok, exists_unit, revertIf_eq_ok, withReason_eq_ok, not_or,
    Bool.not_eq_false, Bool.not_eq_true] at h
  obtain ⟨id, hid, ⟨hex, hcan⟩, h⟩ := h
  obtain ⟨amount, i, d, router, hs, hs', hlog⟩ := settles_of_settle h
  exact ⟨id, amount, i, d, router, hid, hex, hcan, hs, hs', hlog⟩

/-- **A delivery that was claimed on the way.** -/
theorem settles_of_claimAndFinalize {a : FinalizeArgs} {signatures : List Bytes} {gas : Gas}
    (h : claimAndFinalize S c s a signatures gas = .ok (s', log)) :
    ∃ g amount i d router,
      Gate.claim S.chain s.gate s.tokens (a.claim signatures) = .ok g ∧
        Settles S c { s with gate := g.gate, tokens := g.tokens } g.id a.debridgeId a.amount
          a.receiver a.autoParams amount i d router ∧
        s' = { d.scene with router } ∧ log = g.log.map .gate ++ d.log := by
  simp only [claimAndFinalize, bind_eq_ok, callGate_eq_ok, pure_eq_ok, Prod.mk.injEq] at h
  obtain ⟨_, ⟨g, hg, rfl⟩, ⟨s₁, log₁⟩, h, rfl, rfl⟩ := h
  obtain ⟨amount, i, d, router, hs, hs', rfl⟩ := settles_of_settle h
  exact ⟨g, amount, i, d, router, hg, hs, hs', rfl⟩

/-! ### The source leg -/

/-- **Stable that was acquired**: pulled, and counted by the balance, or bought. -/
inductive Acquires (S : Site σ) (c : Call) (s : Scene σ) (a : BridgeArgs) : PoolReply σ → Prop
  | pulled {t : σ} {out : U256} (token : a.tokenIn = s.router.stable)
      (moved : S.chain.tokens.transferFrom a.tokenIn S.here c.sender S.here a.amountIn s.tokens =
        some t)
      (received : out.toNat + (s.balance S).toNat =
        (({ s with tokens := t } : Scene σ).balance S).toNat) :
      Acquires S c s a ⟨{ s with tokens := t }, [], out⟩
  | bought {t u : σ} {out : U256} {d : SwapPool.Done σ} (token : a.tokenIn ≠ s.router.stable)
      (moved : S.chain.tokens.transferFrom a.tokenIn S.here c.sender S.here a.amountIn s.tokens =
        some t)
      (approved : S.chain.tokens.approve a.tokenIn S.here S.pool a.amountIn t = some u)
      (swap : SwapPool.swap S.chain.tokens S.pool (acting S c) s.pool u a.tokenIn s.router.stable
        a.amountIn a.minStableOut S.here = .ok (out, d)) :
      Acquires S c s a
        ⟨{ s with pool := d.pool, tokens := d.tokens }, d.log.map .pool, out⟩

theorem acquires_of_acquireStable {a : BridgeArgs} {p : PoolReply σ}
    (h : acquireStable S c s a = .ok p) : Acquires S c s a p := by
  unfold acquireStable at h
  split at h
  · next htoken =>
    simp only [bind_eq_ok, pull_eq_ok, checkedSub_eq_ok, pure_eq_ok] at h
    obtain ⟨_, ⟨t, hmoved, rfl⟩, out, hout, rfl⟩ := h
    exact .pulled htoken hmoved hout
  · next htoken =>
    simp only [bind_eq_ok, pull_eq_ok, approve_eq_ok, withReason_eq_ok, swapAtPool_eq_ok] at h
    obtain ⟨_, ⟨t, hmoved, rfl⟩, _, ⟨u, happroved, rfl⟩, out, d, hswap, rfl⟩ := h
    exact .bought htoken hmoved happroved hswap

/-- **A transfer that is ready to be sent**: a whole number of units of what was acquired, the
rest given back. -/
structure Prepares (S : Site σ) (c : Call) (s : Scene σ) (a : BridgeArgs) (leg : PoolReply σ)
    (dust : U256) (t : σ) (p : Prepared σ) : Prop where
  receiver : (s.router.remoteRouter a.chainIdTo).length ≠ 0
  acquired : Acquires S c s a leg
  dust_eq : ∃ unit, Gate.bridgeUnit s.gate s.router.stable = .ok unit ∧ dust = leg.out % unit
  returned : (dust = 0 ∧ t = leg.scene.tokens) ∨
    S.chain.tokens.transfer s.router.stable S.here c.sender dust leg.scene.tokens = some t
  approved : S.chain.tokens.approve s.router.stable S.here S.chain.gate (leg.out - dust) t =
    some p.scene.tokens
  router : p.scene.router = s.router
  gate : p.scene.gate = s.gate
  log : p.log = leg.log
  send : p.send = ⟨s.router.stable, leg.out - dust, a.chainIdTo,
    s.router.remoteRouter a.chainIdTo, Abi.encodeAutoParamsTo
      (intentParams ⟨a.finalToken, a.finalReceiver, a.finalMinOut⟩)⟩

theorem Acquires.frame {a : BridgeArgs} {p : PoolReply σ} (h : Acquires S c s a p) :
    p.scene.router = s.router ∧ p.scene.gate = s.gate ∧ ∃ l : List SwapPool.Event,
      p.log = l.map .pool := by
  cases h with
  | pulled token moved received => exact ⟨rfl, rfl, [], rfl⟩
  | bought token moved approved swap => exact ⟨rfl, rfl, _, rfl⟩

theorem prepares_of_prepareSend {a : BridgeArgs} {p : Prepared σ}
    (h : prepareSend S c s a = .ok p) : ∃ leg dust t, Prepares S c s a leg dust t p := by
  simp only [prepareSend, bind_eq_ok, exists_unit, revertIf_eq_ok, withReason_eq_ok,
    approve_eq_ok, pure_eq_ok] at h
  obtain ⟨-, -, hreceiver, leg, hleg, unit, hunit, -, s₁, hdust, _, ⟨u, happroved, rfl⟩, rfl⟩ := h
  have ha := acquires_of_acquireStable hleg
  obtain ⟨hrouter, hgate, -⟩ := ha.frame
  rw [hgate] at hunit
  rw [returnDust] at hdust
  split at hdust
  · next hzero =>
    obtain rfl := Except.ok.inj hdust
    exact ⟨leg, _, _, hreceiver, ha, ⟨unit, hunit, rfl⟩, .inl ⟨hzero, rfl⟩, happroved, hrouter,
      hgate, rfl, rfl⟩
  · obtain ⟨t, hmoved, rfl⟩ := pay_eq_ok.mp hdust
    rw [hrouter] at hmoved
    exact ⟨leg, _, t, hreceiver, ha, ⟨unit, hunit, rfl⟩, .inr hmoved, happroved, hrouter, hgate,
      rfl, rfl⟩

/-- **A transfer that was sent**, with what the gate made of it. -/
theorem prepares_of_swapAndBridge {a : BridgeArgs} (h : swapAndBridge S c s a = .ok (s', log)) :
    ∃ leg dust t p g, prepareSend S c s a = .ok p ∧ Prepares S c s a leg dust t p ∧
      Gate.send S.chain (acting S c) s.gate p.scene.tokens p.send = .ok g ∧
      s' = { p.scene with
        gate := g.gate
        tokens := g.tokens
        router := { s.router with
          refundOf := Function.update s.router.refundOf g.id ⟨c.sender, p.send.amount⟩ } } ∧
      log = p.log ++ g.log.map .gate ++ [.swapBridged g.id c.sender a.tokenIn a.amountIn
        p.send.amount a.chainIdTo a.finalToken a.finalReceiver] := by
  simp only [swapAndBridge, bind_eq_ok, callGate_eq_ok, pure_eq_ok, Prod.mk.injEq] at h
  obtain ⟨p, hp, _, ⟨g, hg, rfl⟩, rfl, rfl⟩ := h
  obtain ⟨leg, dust, t, P⟩ := prepares_of_prepareSend hp
  rw [P.gate] at hg
  exact ⟨leg, dust, t, p, g, hp, P, hg, by simp only [P.router], rfl⟩

/-! ### Refunds -/

/-- **A refund that was passed on.** -/
theorem forwarded_of_forward (h : forward S s id = .ok (s', log)) :
    Forwarded s.router id s'.router ∧ s.gate.refunded id = true ∧ s'.gate = s.gate ∧
      s'.pool = s.pool ∧
      S.chain.tokens.transfer s.router.stable S.here (s.router.refundOf id).target
        (s.router.refundOf id).amount s.tokens = some s'.tokens ∧
      log = [.refundForwarded id (s.router.refundOf id).target
        (s.router.refundOf id).amount] := by
  simp only [forward, bind_eq_ok, exists_unit, revertIf_eq_ok, checked_eq_ok, pay_eq_ok,
    pure_eq_ok, Bool.not_eq_false, Prod.mk.injEq] at h
  obtain ⟨howed, hrefunded, out, hout, _, ⟨t, hmoved, rfl⟩, rfl, rfl⟩ := h
  exact ⟨⟨howed, rfl, rfl, rfl, rfl, hout, rfl, rfl⟩, hrefunded, rfl, rfl, hmoved, rfl⟩

/-- **A refund that was made and passed on.** -/
theorem forwarded_of_refundAndForward {a : RefundAndForwardArgs}
    (h : refundAndForward S c s a = .ok (s', log)) :
    ∃ g log', Gate.refund S.chain s.gate s.tokens (a.refund s.router.stable) = .ok g ∧
      forward S { s with gate := g.gate, tokens := g.tokens } g.id = .ok (s', log') ∧
      log = g.log.map .gate ++ log' := by
  simp only [refundAndForward, bind_eq_ok, callGate_eq_ok, pure_eq_ok, Prod.mk.injEq] at h
  obtain ⟨_, ⟨g, hg, rfl⟩, ⟨s₁, log₁⟩, h, rfl, rfl⟩ := h
  exact ⟨g, log₁, hg, h, rfl⟩

/-! ### Sweeps -/

/-- **A notice that was filed**: of no more than what is free. -/
structure Schedules (S : Site σ) (c : Call) (s : Scene σ) (amount : U256) (r' : SwapRouter) :
    Prop where
  amount_ne : amount ≠ 0
  covered : amount.toNat + s.router.owedStable.toNat ≤ (s.balance S).toNat
  free_eq : r'.pendingStableRescue.freeAtSchedule.toNat + s.router.owedStable.toNat =
    (s.balance S).toNat
  amount_eq : r'.pendingStableRescue.amount = amount
  scheduledAt : r'.pendingStableRescue.scheduledAt = c.timestamp
  readyAt : r'.pendingStableRescue.readyAt ≠ 0
  settledOut : r'.pendingStableRescue.settledOutAtSchedule = s.router.stableSettledOut
  accounts : r'.accounts = s.router.accounts

/-- What is free is what is there beyond what is owed, when there is any. -/
theorem free_eq (h : free S s ≠ 0) :
    (free S s).toNat + s.router.owedStable.toNat = (s.balance S).toNat := by
  rw [free] at h ⊢
  split
  · next hlt =>
    have hlt : s.router.owedStable.toNat < (s.balance S).toNat := hlt
    rw [BitVec.toNat_sub_of_le (le_of_lt hlt)]
    omega
  · next hle =>
    rw [if_neg hle] at h
    exact absurd rfl h

theorem schedules_of_scheduleStableRescue {target : Address}
    (h : scheduleStableRescue S c s amount target = .ok (r', log)) :
    Schedules S c s amount r' ∧ log = [.stableRescueScheduled amount target
      (c.timestamp + STABLE_RESCUE_DELAY)] := by
  simp only [scheduleStableRescue, bind_eq_ok, exists_unit, revertIf_eq_ok, pure_eq_ok,
    Prod.mk.injEq] at h
  obtain ⟨-, -, hamount, hle, rfl, rfl⟩ := h
  have hle : amount.toNat ≤ (free S s).toNat := not_lt.mp hle
  have hpos : amount.toNat ≠ 0 := fun h0 => hamount (BitVec.eq_of_toNat_eq h0)
  have hfree : free S s ≠ 0 := by
    intro h0
    rw [h0] at hle
    exact hpos (Nat.le_zero.mp hle)
  have heq := free_eq hfree
  have hdelay : STABLE_RESCUE_DELAY ≠ 0 := by decide
  refine ⟨⟨hamount, ?_, heq, rfl, rfl, ?_, rfl, rfl⟩, rfl⟩
  · omega
  · show c.timestamp + STABLE_RESCUE_DELAY ≠ 0
    omega

/-- **A sweep that was made**: of what was noticed, after the delay, and of no more than what
is free and what was free at the notice and has not gone out since. -/
structure Executes (S : Site σ) (c : Call) (s s' : Scene σ) : Prop where
  scheduled : s.router.pendingStableRescue.readyAt ≠ 0
  covered : s.router.pendingStableRescue.amount.toNat + s.router.owedStable.toNat ≤
      (s.balance S).toNat ∨ s.router.pendingStableRescue.amount = 0
  capped : s.router.pendingStableRescue.amount.toNat + s.router.stableSettledOut.toNat ≤
      s.router.pendingStableRescue.freeAtSchedule.toNat +
        s.router.pendingStableRescue.settledOutAtSchedule.toNat ∨
    s.router.pendingStableRescue.amount = 0
  moved : S.chain.tokens.transfer s.router.stable S.here s.router.pendingStableRescue.target
    s.router.pendingStableRescue.amount s.tokens = some s'.tokens
  accounts : s'.router.accounts = s.router.accounts
  pending : s'.router.pendingStableRescue = .none
  gate : s'.gate = s.gate

theorem executes_of_executeStableRescue (h : executeStableRescue S c s = .ok (s', log)) :
    Executes S c s s' ∧ log = [.stableRescued s.router.pendingStableRescue.amount
      s.router.pendingStableRescue.target] := by
  simp only [executeStableRescue, bind_eq_ok, exists_unit, revertIf_eq_ok, checkedSub_eq_ok,
    pay_eq_ok, pure_eq_ok, Prod.mk.injEq] at h
  obtain ⟨-, hready, -, -, since, hsince, hle, _, ⟨t, hmoved, rfl⟩, rfl, rfl⟩ := h
  set n := s.router.pendingStableRescue
  have hle : n.amount.toNat ≤
      (if stillFree n since < free S s then stillFree n since else free S s).toNat := not_lt.mp hle
  have hboth : n.amount.toNat ≤ (stillFree n since).toNat ∧ n.amount.toNat ≤ (free S s).toNat := by
    split at hle
    · next hlt =>
      have hlt : (stillFree n since).toNat < (free S s).toNat := hlt
      omega
    · next hge =>
      have hge : (free S s).toNat ≤ (stillFree n since).toNat := not_lt.mp hge
      omega
  refine ⟨⟨hready, ?_, ?_, hmoved, rfl, rfl, rfl⟩, rfl⟩
  · rcases eq_or_ne (free S s) 0 with h0 | hne
    · rw [h0] at hboth
      exact .inr (BitVec.eq_of_toNat_eq (Nat.le_zero.mp hboth.2))
    · have heq := free_eq hne
      exact .inl (show n.amount.toNat + _ ≤ _ by omega)
  · have hstill := hboth.1
    rw [stillFree] at hstill
    split at hstill
    · next hlt =>
      have hlt : since.toNat < n.freeAtSchedule.toNat := hlt
      rw [BitVec.toNat_sub_of_le (le_of_lt hlt)] at hstill
      have hsince : since.toNat + n.settledOutAtSchedule.toNat = s.router.stableSettledOut.toNat :=
        hsince
      exact .inl (show n.amount.toNat + _ ≤ n.freeAtSchedule.toNat +
        n.settledOutAtSchedule.toNat by omega)
    · exact .inr (BitVec.eq_of_toNat_eq (Nat.le_zero.mp hstill))

/-! ### Calls that leave the accounts alone -/

/-- Is it a call that touches neither the accounts nor the notice? -/
def RouterCall.idle : RouterCall → Bool
  | .transferOwnership _ => true
  | .acceptOwnership => true
  | .setGuardian _ => true
  | .setRemoteRouter _ _ => true
  | .rescue _ _ _ => true
  | _ => false

/-- **The idle calls** move nothing but tokens that are not the stable. -/
theorem idle_of_call {x : RouterCall} (hx : x.idle = true) (h : call S c s x = .ok (s', log)) :
    s'.router.accounts = s.router.accounts ∧
      s'.router.pendingStableRescue = s.router.pendingStableRescue ∧ s'.gate = s.gate ∧
      (s'.tokens = s.tokens ∨ ∃ token target amount, token ≠ s.router.stable ∧
        S.chain.tokens.transfer token S.here target amount s.tokens = some s'.tokens) ∧
      ∀ v ∈ log, v.quiet = true := by
  cases x with
  | transferOwnership _ | setRemoteRouter _ _ =>
    obtain ⟨a, ha, rfl, rfl⟩ := SwapPool.map_eq_ok.mp h
    simp only [transferOwnership, setRemoteRouter, bind_eq_ok, exists_unit, pure_eq_ok] at ha
    obtain ⟨-, -, rfl⟩ := ha
    exact ⟨rfl, rfl, rfl, .inl rfl, List.forall_mem_singleton.mpr rfl⟩
  | acceptOwnership | setGuardian _ =>
    obtain ⟨a, ha, rfl, rfl⟩ := SwapPool.map_eq_ok.mp h
    simp only [acceptOwnership, setGuardian, bind_eq_ok, exists_unit, pure_eq_ok] at ha
    obtain ⟨-, rfl⟩ := ha
    exact ⟨rfl, rfl, rfl, .inl rfl, List.forall_mem_singleton.mpr rfl⟩
  | rescue token amount target =>
    simp only [call, rescue, bind_eq_ok, exists_unit, revertIf_eq_ok, pay_eq_ok, pure_eq_ok,
      Prod.mk.injEq] at h
    obtain ⟨-, -, htoken, _, ⟨t, hmoved, rfl⟩, rfl, rfl⟩ := h
    exact ⟨rfl, rfl, rfl, .inr ⟨token, target, amount, htoken, hmoved⟩, by simp⟩
  | _ => exact absurd hx Bool.false_ne_true

end SwapRouter

end SelendraBridge
