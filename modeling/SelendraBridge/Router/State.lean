import SelendraBridge.Gate.Machine
import SelendraBridge.Pool.Machine
import SelendraBridge.Router.Intent

/-!
# The swap router: storage, reverts, events, and what it stands between

A router takes a token to a token across two chains: it swaps what it is given into the
stable at the pool of its chain, sends the stable through the gate to the router of the
other chain, and that one swaps it into what the user wants. So it holds stable for others
at two moments – after a transfer was claimed into it and before it is delivered, and after
a transfer of its own was refunded to it and before the stable is passed on – and its
storage keeps account of both.

A call of the router sees a `SelendraBridge.Scene`: its own storage, the gate, the pool and
the tokens.
-/

namespace SelendraBridge

namespace SwapRouter

/-- Whom a refund is passed on to, and how much. -/
structure RefundClaim where
  target : Address
  amount : U256
  deriving DecidableEq, Repr

/-- The notice of a sweep of stable; there is none while `readyAt` is zero. -/
structure StableRescue where
  amount : U256
  target : Address
  readyAt : ℕ
  /-- What was free when the notice was filed. -/
  freeAtSchedule : U256
  scheduledAt : ℕ
  /-- `stableSettledOut` when the notice was filed. -/
  settledOutAtSchedule : U256
  deriving DecidableEq, Repr

/-- No notice. -/
def StableRescue.none : StableRescue := ⟨0, 0, 0, 0, 0, 0⟩

end SwapRouter

open SwapRouter in
/-- **The storage of a swap router.** -/
structure SwapRouter where
  stable : Address
  owner : Address
  pendingOwner : Address
  guardian : Address
  /-- The router of another chain, by the id of the chain. -/
  remoteRouter : U256 → Bytes
  finalized : Bytes32 → Bool
  /-- When the swap of a delivery was first found blocked; zero until it is. -/
  deferredSince : Bytes32 → ℕ
  /-- What is held for deliveries that were deferred. -/
  owedStable : U256
  /-- What went out on behalf of users, apart from debts older than the pending notice. -/
  stableSettledOut : U256
  refundOf : Bytes32 → RefundClaim
  pendingStableRescue : StableRescue

namespace SwapRouter

/-- The gas that has to be left for a swap to be tried. -/
def MIN_DELIVER_GAS : ℕ := 250000

/-- How long a blocked swap is retried before the stable may be delivered instead. -/
def FALLBACK_GRACE : ℕ := 6 * 3600

/-- The delay of a sweep of stable. -/
def STABLE_RESCUE_DELAY : ℕ := 48 * 3600

/-- How long a matured notice stays good. -/
def STABLE_RESCUE_WINDOW : ℕ := 7 * 24 * 3600

/-- Why a call reverts. The last group is what reverts outside the contract's own checks. -/
inductive Error
  | notOwner
  | notAuthorized
  | zeroAddress
  | zeroAmount
  | routeNotConfigured (chainIdTo : U256)
  | notDelivered (submissionId : Bytes32)
  | alreadyFinalized (submissionId : Bytes32)
  | notForThisRouter
  | unexpectedAsset
  | badReceiver
  | insufficientGas (left need : ℕ)
  | rescueWouldTakeOwedFunds (requested free : U256)
  | stableRescueRequiresSchedule
  | stableRescueNotScheduled
  | stableRescueNotReady (readyAt : ℕ)
  | stableRescueExpired (readyAt : ℕ)
  | noRefundOwed (submissionId : Bytes32)
  | notRefunded (submissionId : Bytes32)
  | panic
  | abiDecoding
  | tokenCallFailed (token : Address)
  | gate (e : Gate.Error)
  | pool (e : SwapPool.Error)
  deriving DecidableEq, Repr

/-- What a call emits, and what the gate and the pool emit in it. -/
inductive Event
  | gate (e : Gate.Event)
  | pool (e : SwapPool.Event)
  | swapBridged (submissionId : Bytes32) (sender tokenIn : Address) (amountIn stableOut : U256)
      (chainIdTo : U256) (finalToken finalReceiver : Address)
  | finalized (submissionId : Bytes32) (finalReceiver finalToken : Address)
      (stableIn amountOut : U256) (swapped : Bool)
  | finalizeFallback (submissionId : Bytes32) (finalReceiver : Address) (stableAmount : U256)
  | finalizeDeferred (submissionId : Bytes32) (finalReceiver finalToken : Address)
      (retryAfter : ℕ)
  | remoteRouterSet (chainIdTo : U256) (remoteRouter : Bytes)
  | ownershipTransferStarted (previousOwner newOwner : Address)
  | ownershipTransferred (previousOwner newOwner : Address)
  | guardianSet (guardian : Address)
  | stableRescueScheduled (amount : U256) (target : Address) (readyAt : ℕ)
  | stableRescueCancelled (account : Address)
  | stableRescued (amount : U256) (target : Address)
  | refundForwarded (submissionId : Bytes32) (target : Address) (amount : U256)
  deriving DecidableEq, Repr

/-- Storage before anything was written to it. -/
def blank : SwapRouter where
  stable := 0
  owner := 0
  pendingOwner := 0
  guardian := 0
  remoteRouter := fun _ => []
  finalized := fun _ => false
  deferredSince := fun _ => 0
  owedStable := 0
  stableSettledOut := 0
  refundOf := fun _ => ⟨0, 0⟩
  pendingStableRescue := .none

end SwapRouter

/-- **Where a router stands**: on a chain with a gate and a pool, three contracts of three
addresses. -/
structure Site (σ : Type) where
  chain : Chain σ
  /-- The address of the router. -/
  here : Address
  /-- The address of the pool. -/
  pool : Address
  gate_ne : chain.gate ≠ here
  pool_ne : pool ≠ here

/-- **What a call of a router sees.** -/
structure Scene (σ : Type) where
  router : SwapRouter
  gate : Gate
  pool : SwapPool
  tokens : σ

namespace Scene

open Revert SwapRouter

variable {σ : Type} (S : Site σ) (c : Call) (s : Scene σ)

/-- A call that the router makes in the course of one to it. -/
def acting : Call := { c with sender := S.here }

/-- `IERC20(stable).balanceOf(address(this))`. -/
def balance : U256 := S.chain.tokens.balanceOf s.tokens s.router.stable S.here

/-! ### Tokens, gate and pool -/

/-- `safeTransfer`. -/
def pay (token target : Address) (amount : U256) : Except Error (Scene σ) := do
  let tokens ← orRevert (.tokenCallFailed token)
    (S.chain.tokens.transfer token S.here target amount s.tokens)
  return { s with tokens }

/-- `safeTransferFrom` of the caller's tokens to the router. -/
def pull (token : Address) (amount : U256) : Except Error (Scene σ) := do
  let tokens ← orRevert (.tokenCallFailed token)
    (S.chain.tokens.transferFrom token S.here c.sender S.here amount s.tokens)
  return { s with tokens }

/-- `forceApprove`. -/
def approve (token spender : Address) (amount : U256) : Except Error (Scene σ) := do
  let tokens ← orRevert (.tokenCallFailed token)
    (S.chain.tokens.approve token S.here spender amount s.tokens)
  return { s with tokens }

/-- What a call of the gate leaves, with its events and the submission id. -/
structure GateReply (σ : Type) where
  scene : Scene σ
  log : List Event
  id : Bytes32

/-- A call of the gate. -/
def callGate (x : Gate.TransferCall) : Except Error (GateReply σ) := do
  let r ← withReason .gate (Gate.transfer S.chain (acting S c) s.gate s.tokens x)
  return ⟨{ s with gate := r.gate, tokens := r.tokens }, r.log.map .gate, r.id⟩

/-- What a swap at the pool leaves, with its events and the output. -/
structure PoolReply (σ : Type) where
  scene : Scene σ
  log : List Event
  out : U256

/-- A swap at the pool. -/
def swapAtPool (tokenIn tokenOut : Address) (amountIn minAmountOut : U256) (target : Address) :
    Except SwapPool.Error (PoolReply σ) :=
  (SwapPool.swap S.chain.tokens S.pool (acting S c) s.pool s.tokens tokenIn tokenOut amountIn
    minAmountOut target).map fun r =>
      ⟨{ s with pool := r.2.pool, tokens := r.2.tokens }, r.2.log.map .pool, r.1⟩

end Scene

end SelendraBridge
