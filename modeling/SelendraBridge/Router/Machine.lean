import SelendraBridge.Gate.Sends
import SelendraBridge.Router.State

/-!
# The swap router as a machine

| call | where | what it does with stable |
|---|---|---|
| `swapAndBridge` | source | gets some by a swap, sends it through the gate |
| `refundAndForward`, `forwardRefund` | source | passes a refund on to who sent it |
| `finalize`, `claimAndFinalize` | target | delivers a claim, or defers it |
| `rescue` | – | nothing: it sweeps other tokens |
| `scheduleStableRescue` and its two siblings | – | sweeps what is free, after a notice |

A delivery has three ends. The swap runs; or the swap is blocked, and the delivery is
deferred; or it has been blocked for the grace period, and who calls may take the stable
instead. The attempt itself may fail, which is caught and counts as blocked.

The gas that is left is read twice by a delivery and is part of the call here. A world has
the scene of the router, the time, and whether the router is deployed; a step is a call of
the router, the gate or the pool by anybody but the router, which acts only through its
code, or a move of tokens by somebody else. A call that reverts is no step.
-/

namespace SelendraBridge

namespace SwapRouter

open Revert Transition Scene

variable {σ : Type} (S : Site σ) (c : Call) (r : SwapRouter) (s : Scene σ)

/-- What a call that touches only the storage returns. -/
abbrev Result := Except Error (SwapRouter × List Event)

/-! ### Governance -/

/-- `onlyOwner`. -/
def onlyOwner : Except Error Unit := revertIf (c.sender ≠ r.owner) .notOwner

/-- The constructor, which takes the stable of the pool. -/
def construct (pool : SwapPool) : SwapRouter × List Event :=
  ({ blank with stable := pool.stable, owner := c.sender }, [.ownershipTransferred 0 c.sender])

/-- `transferOwnership`. -/
def transferOwnership (newOwner : Address) : Result := do
  onlyOwner c r
  revertIf (newOwner = 0) .zeroAddress
  return ({ r with pendingOwner := newOwner }, [.ownershipTransferStarted r.owner newOwner])

/-- `acceptOwnership`. -/
def acceptOwnership : Result := do
  revertIf (c.sender ≠ r.pendingOwner) .notOwner
  return ({ r with owner := r.pendingOwner, pendingOwner := 0 },
    [.ownershipTransferred r.owner r.pendingOwner])

/-- `setGuardian`. -/
def setGuardian (newGuardian : Address) : Result := do
  onlyOwner c r
  return ({ r with guardian := newGuardian }, [.guardianSet newGuardian])

/-- `setRemoteRouter`. -/
def setRemoteRouter (chainIdTo : U256) (router : Bytes) : Result := do
  onlyOwner c r
  revertIf (router.length ≠ 0 ∧ router.length ≠ 20 ∧ router.length ≠ 32) .badReceiver
  return ({ r with remoteRouter := Function.update r.remoteRouter chainIdTo router },
    [.remoteRouterSet chainIdTo router])

/-! ### The source leg -/

/-- The arguments of `swapAndBridge`. -/
structure BridgeArgs where
  tokenIn : Address
  amountIn : U256
  minStableOut : U256
  chainIdTo : U256
  finalToken : Address
  finalReceiver : Address
  finalMinOut : U256
  deriving DecidableEq, Repr

/-- Leg 1: the stable to bridge, pulled from the caller or bought at the pool. -/
def acquireStable (a : BridgeArgs) : Except Error (PoolReply σ) :=
  if a.tokenIn = s.router.stable then do
    let before := s.balance S
    let s ← s.pull S c a.tokenIn a.amountIn
    let stableOut ← checkedSub .panic (s.balance S) before
    return ⟨s, [], stableOut⟩
  else do
    let s ← s.pull S c a.tokenIn a.amountIn
    let s ← s.approve S a.tokenIn S.pool a.amountIn
    withReason .pool
      (s.swapAtPool S c a.tokenIn s.router.stable a.amountIn a.minStableOut S.here)

/-- The remainder below a bridge unit goes back to the caller. -/
def returnDust (dust : U256) : Except Error (Scene σ) :=
  if dust = 0 then .ok s else s.pay S s.router.stable c.sender dust

/-- What `swapAndBridge` has when it calls the gate: the arguments of the send. -/
structure Prepared (σ : Type) where
  scene : Scene σ
  log : List Event
  send : Gate.SendArgs

/-- `swapAndBridge`, up to its call of the gate. -/
def prepareSend (a : BridgeArgs) : Except Error (Prepared σ) := do
  revertIf (a.amountIn = 0) .zeroAmount
  revertIf (a.finalToken = 0 ∨ a.finalReceiver = 0) .zeroAddress
  let receiver := s.router.remoteRouter a.chainIdTo
  revertIf (receiver.length = 0) (.routeNotConfigured a.chainIdTo)
  let leg ← acquireStable S c s a
  let stable := s.router.stable
  let unit ← withReason .gate (Gate.bridgeUnit leg.scene.gate stable)
  let dust := leg.out % unit
  let stableOut := leg.out - dust
  revertIf (stableOut = 0) .zeroAmount
  let s ← returnDust S c leg.scene dust
  let ap := intentParams ⟨a.finalToken, a.finalReceiver, a.finalMinOut⟩
  let s ← s.approve S stable S.chain.gate stableOut
  return ⟨s, leg.log, stable, stableOut, a.chainIdTo, receiver, Abi.encodeAutoParamsTo ap⟩

/-- `swapAndBridge`. -/
def swapAndBridge (a : BridgeArgs) : Except Error (Scene σ × List Event) := do
  let p ← prepareSend S c s a
  let g ← p.scene.callGate S c (.send p.send)
  let r := g.scene.router
  let r := { r with refundOf := Function.update r.refundOf g.id ⟨c.sender, p.send.amount⟩ }
  return ({ g.scene with router := r }, p.log ++ g.log ++
    [.swapBridged g.id c.sender a.tokenIn a.amountIn p.send.amount a.chainIdTo a.finalToken
      a.finalReceiver])

/-! ### The target leg -/

/-- What the two readings of `gasleft()` in a delivery give. -/
structure Gas where
  first : ℕ
  second : ℕ
  deriving DecidableEq, Repr

/-- `_swapBlocked`. -/
def swapBlocked (finalToken : Address) (amount finalMinOut : U256) : Bool :=
  if s.pool.paused then true
  else if (s.pool.tokens finalToken).listed = false then true
  else
    match SwapPool.quote (acting S c) s.pool s.router.stable finalToken amount with
    | .ok out =>
      decide (out = 0 ∨ out < finalMinOut ∨ out > (s.pool.tokens finalToken).reserve)
    | .error _ => true

/-- What an attempt at a delivery leaves, with its events and whether it settled. -/
structure Attempt (σ : Type) where
  scene : Scene σ
  log : List Event
  settled : Bool

/-- The time from which a delivery counts as deferred: the first time stays. -/
def deferredFrom (id : Bytes32) : ℕ :=
  if r.deferredSince id = 0 then c.timestamp else r.deferredSince id

/-- `_deferOrFallBack`. -/
def deferOrFallBack (id : Bytes32) (amount : U256) (finalToken finalReceiver : Address)
    (mayFallBack : Bool) : Except Error (Attempt σ) :=
  let since := deferredFrom c s.router id
  let r := { s.router with deferredSince := Function.update s.router.deferredSince id since }
  let retryAfter := since + FALLBACK_GRACE
  if c.timestamp < retryAfter ∨ mayFallBack = false then
    .ok ⟨{ s with router := r }, [.finalizeDeferred id finalReceiver finalToken retryAfter], false⟩
  else do
    let s ← { s with router := r }.pay S s.router.stable finalReceiver amount
    return ⟨s, [.finalizeFallback id finalReceiver amount], true⟩

/-- The attempt of the swap, and what is done when it fails. -/
def trySwap (id : Bytes32) (amount : U256) (i : Intent) (mayFallBack : Bool) :
    Except Error (Attempt σ) := do
  let s ← s.approve S s.router.stable S.pool amount
  match s.swapAtPool S c s.router.stable i.finalToken amount i.finalMinOut i.finalReceiver with
  | .ok p =>
    return ⟨p.scene, p.log ++ [.finalized id i.finalReceiver i.finalToken amount p.out true], true⟩
  | .error _ => do
    let s ← s.approve S s.router.stable S.pool 0
    deferOrFallBack S c s id amount i.finalToken i.finalReceiver mayFallBack

/-- `_deliver`. -/
def deliver (id : Bytes32) (amount : U256) (i : Intent) (mayFallBack : Bool) (gas : Gas) :
    Except Error (Attempt σ) :=
  if i.finalToken = s.router.stable then do
    let s ← s.pay S s.router.stable i.finalReceiver amount
    return ⟨s, [.finalized id i.finalReceiver i.finalToken amount amount false], true⟩
  else do
    revertIf (gas.first < MIN_DELIVER_GAS) (.insufficientGas gas.first MIN_DELIVER_GAS)
    if swapBlocked S c s i.finalToken amount i.finalMinOut then
      deferOrFallBack S c s id amount i.finalToken i.finalReceiver mayFallBack
    else do
      revertIf (gas.second < MIN_DELIVER_GAS) (.insufficientGas gas.second MIN_DELIVER_GAS)
      trySwap S c s id amount i mayFallBack

/-- The debt that a settled delivery was counted in. -/
def repay (owedAlready : ℕ) (amount : U256) : Except Error U256 :=
  if owedAlready = 0 then .ok r.owedStable else checkedSub .panic r.owedStable amount

/-- Was the stable of a settled delivery no debt yet when the pending notice was filed? -/
def debits (owedAlready : ℕ) : Bool :=
  decide (owedAlready = 0 ∨ r.pendingStableRescue.scheduledAt = 0 ∨
    r.pendingStableRescue.scheduledAt ≤ owedAlready)

/-- What went out, with a settled delivery. -/
def debit (owedAlready : ℕ) (amount : U256) : Except Error U256 :=
  if debits r owedAlready then checked .panic (r.stableSettledOut.toNat + amount.toNat)
  else .ok r.stableSettledOut

/-- The debt, with a deferred delivery. -/
def incur (owedAlready : ℕ) (amount : U256) : Except Error U256 :=
  if owedAlready = 0 then checked .panic (r.owedStable.toNat + amount.toNat)
  else .ok r.owedStable

/-- How `_settle` books what came of a delivery. -/
def bookAttempt (id : Bytes32) (amount : U256) (owedAlready : ℕ) (settled : Bool) :
    Except Error SwapRouter :=
  if settled then do
    let r := { r with finalized := Function.update r.finalized id true }
    let owedStable ← repay r owedAlready amount
    let stableSettledOut ← debit r owedAlready amount
    return { r with owedStable, stableSettledOut }
  else do
    let owedStable ← incur r owedAlready amount
    return { r with owedStable }

/-- `_toAddress`. -/
def toAddress (receiver : Bytes) : Except Error Address :=
  orRevert .badReceiver (BigEndian.toWord 20 receiver)

/-- May who calls take the stable instead of the token? -/
def mayFallBack (finalReceiver : Address) : Bool :=
  decide (c.sender = finalReceiver ∨ c.sender = r.owner ∨ c.sender = r.guardian)

/-- `_settle`. -/
def settle (id debridgeId : Bytes32) (amount : U256) (receiver autoParams : Bytes) (gas : Gas) :
    Except Error (Scene σ × List Event) := do
  revertIf (s.router.finalized id = true) (.alreadyFinalized id)
  let target ← toAddress receiver
  revertIf (target ≠ S.here) .notForThisRouter
  revertIf (s.gate.tokenOf debridgeId ≠ s.router.stable) .unexpectedAsset
  let amount ← withReason .gate (Gate.toLocalAmount s.gate s.router.stable amount)
  let i ← orRevert .abiDecoding (decodeIntent autoParams)
  revertIf (i.finalReceiver = 0) .zeroAddress
  let owedAlready := s.router.deferredSince id
  let may := mayFallBack c s.router i.finalReceiver
  let d ← deliver S c s id amount i may gas
  let router ← bookAttempt d.scene.router id amount owedAlready d.settled
  return ({ d.scene with router }, d.log)

/-- The arguments of `finalize`. -/
structure FinalizeArgs where
  debridgeId : Bytes32
  amount : U256
  bridgeDecimals : UInt8
  chainIdFrom : U256
  nonce : U256
  receiver : Bytes
  autoParams : Bytes
  nativeSender : Bytes
  deriving DecidableEq, Repr

/-- The claim of the same transfer. -/
def FinalizeArgs.claim (a : FinalizeArgs) (signatures : List Bytes) : Gate.ClaimArgs where
  debridgeId := a.debridgeId
  amount := a.amount
  bridgeDecimals := a.bridgeDecimals
  chainIdFrom := a.chainIdFrom
  nonce := a.nonce
  receiver := a.receiver
  autoParams := a.autoParams
  nativeSender := a.nativeSender
  signatures

/-- `finalize`. -/
def finalize (a : FinalizeArgs) (gas : Gas) : Except Error (Scene σ × List Event) := do
  let id ← withReason .gate (Gate.idFor S.chain.keccak256 s.gate.bridgeDomain
    (Gate.claimParams S.chain (a.claim [])))
  revertIf (s.gate.executed id = false ∨ s.gate.cancelled id = true) (.notDelivered id)
  settle S c s id a.debridgeId a.amount a.receiver a.autoParams gas

/-- `claimAndFinalize`. -/
def claimAndFinalize (a : FinalizeArgs) (signatures : List Bytes) (gas : Gas) :
    Except Error (Scene σ × List Event) := do
  let g ← s.callGate S c (.claim (a.claim signatures))
  let d ← settle S c g.scene g.id a.debridgeId a.amount a.receiver a.autoParams gas
  return (d.1, g.log ++ d.2)

/-! ### Refunds -/

/-- `_forwardRefund`. -/
def forward (id : Bytes32) : Except Error (Scene σ × List Event) := do
  let claim := s.router.refundOf id
  revertIf (claim.target = 0) (.noRefundOwed id)
  revertIf (s.gate.refunded id = false) (.notRefunded id)
  let stableSettledOut ← checked .panic (s.router.stableSettledOut.toNat + claim.amount.toNat)
  let router := { s.router with
    refundOf := Function.update s.router.refundOf id ⟨0, 0⟩
    stableSettledOut }
  let s ← { s with router }.pay S s.router.stable claim.target claim.amount
  return (s, [.refundForwarded id claim.target claim.amount])

/-- The arguments of `refundAndForward`: those of a refund, but for the token. -/
structure RefundAndForwardArgs where
  debridgeId : Bytes32
  amount : U256
  bridgeDecimals : UInt8
  chainIdTo : U256
  nonce : U256
  receiver : Bytes
  autoParams : Bytes
  nativeSender : Bytes
  signatures : List Bytes
  deriving DecidableEq, Repr

/-- The refund of the same transfer, in stable. -/
def RefundAndForwardArgs.refund (a : RefundAndForwardArgs) (stable : Address) :
    Gate.RefundArgs where
  token := stable
  debridgeId := a.debridgeId
  amount := a.amount
  bridgeDecimals := a.bridgeDecimals
  chainIdTo := a.chainIdTo
  nonce := a.nonce
  receiver := a.receiver
  autoParams := a.autoParams
  nativeSender := a.nativeSender
  signatures := a.signatures

/-- `refundAndForward`. -/
def refundAndForward (a : RefundAndForwardArgs) : Except Error (Scene σ × List Event) := do
  let g ← s.callGate S c (.refund (a.refund s.router.stable))
  let d ← forward S g.scene g.id
  return (d.1, g.log ++ d.2)

/-! ### Sweeps -/

/-- `rescue`. -/
def rescue (token : Address) (amount : U256) (target : Address) :
    Except Error (Scene σ × List Event) := do
  onlyOwner c s.router
  revertIf (target = 0) .zeroAddress
  revertIf (token = s.router.stable) .stableRescueRequiresSchedule
  let s ← s.pay S token target amount
  return (s, [])

/-- What is in the router beyond what it owes. -/
def free : U256 :=
  if s.balance S > s.router.owedStable then s.balance S - s.router.owedStable else 0

/-- `scheduleStableRescue`. -/
def scheduleStableRescue (amount : U256) (target : Address) : Result := do
  onlyOwner c s.router
  revertIf (target = 0) .zeroAddress
  revertIf (amount = 0) .zeroAmount
  let readyAt := c.timestamp + STABLE_RESCUE_DELAY
  let freeNow := free S s
  revertIf (amount > freeNow) (.rescueWouldTakeOwedFunds amount freeNow)
  let pendingStableRescue : StableRescue :=
    ⟨amount, target, readyAt, freeNow, c.timestamp, s.router.stableSettledOut⟩
  return ({ s.router with pendingStableRescue }, [.stableRescueScheduled amount target readyAt])

/-- `cancelStableRescue`. -/
def cancelStableRescue : Result := do
  revertIf (c.sender ≠ r.owner ∧ c.sender ≠ r.guardian) .notAuthorized
  revertIf (r.pendingStableRescue.readyAt = 0) .stableRescueNotScheduled
  return ({ r with pendingStableRescue := .none }, [.stableRescueCancelled c.sender])

/-- What was free at the notice, less what went out since. -/
def stillFree (n : StableRescue) (settledSince : U256) : U256 :=
  if n.freeAtSchedule > settledSince then n.freeAtSchedule - settledSince else 0

/-- `executeStableRescue`. -/
def executeStableRescue : Except Error (Scene σ × List Event) := do
  onlyOwner c s.router
  let n := s.router.pendingStableRescue
  revertIf (n.readyAt = 0) .stableRescueNotScheduled
  revertIf (c.timestamp < n.readyAt) (.stableRescueNotReady n.readyAt)
  revertIf (c.timestamp > n.readyAt + STABLE_RESCUE_WINDOW) (.stableRescueExpired n.readyAt)
  let router := { s.router with pendingStableRescue := .none }
  let freeNow := free S s
  let settledSince ← checkedSub .panic s.router.stableSettledOut n.settledOutAtSchedule
  let allowed := if stillFree n settledSince < freeNow then stillFree n settledSince else freeNow
  revertIf (n.amount > allowed) (.rescueWouldTakeOwedFunds n.amount allowed)
  let s ← { s with router }.pay S s.router.stable n.target n.amount
  return (s, [.stableRescued n.amount n.target])

/-! ### The machine -/

/-- The calls of the router, with their arguments. -/
inductive RouterCall
  | transferOwnership (newOwner : Address)
  | acceptOwnership
  | setGuardian (newGuardian : Address)
  | setRemoteRouter (chainIdTo : U256) (router : Bytes)
  | swapAndBridge (a : BridgeArgs)
  | finalize (a : FinalizeArgs) (gas : Gas)
  | claimAndFinalize (a : FinalizeArgs) (signatures : List Bytes) (gas : Gas)
  | forwardRefund (id : Bytes32)
  | refundAndForward (a : RefundAndForwardArgs)
  | rescue (token : Address) (amount : U256) (target : Address)
  | scheduleStableRescue (amount : U256) (target : Address)
  | cancelStableRescue
  | executeStableRescue
  deriving DecidableEq, Repr

/-- A call that touched only the storage. -/
def keepScene (x : SwapRouter × List Event) : Scene σ × List Event :=
  ({ s with router := x.1 }, x.2)

/-- A call. -/
def call : RouterCall → Except Error (Scene σ × List Event)
  | .transferOwnership newOwner => (transferOwnership c s.router newOwner).map (keepScene s)
  | .acceptOwnership => (acceptOwnership c s.router).map (keepScene s)
  | .setGuardian newGuardian => (setGuardian c s.router newGuardian).map (keepScene s)
  | .setRemoteRouter chainIdTo router =>
    (setRemoteRouter c s.router chainIdTo router).map (keepScene s)
  | .swapAndBridge a => swapAndBridge S c s a
  | .finalize a gas => finalize S c s a gas
  | .claimAndFinalize a signatures gas => claimAndFinalize S c s a signatures gas
  | .forwardRefund id => forward S s id
  | .refundAndForward a => refundAndForward S c s a
  | .rescue token amount target => rescue S c s token amount target
  | .scheduleStableRescue amount target =>
    (scheduleStableRescue S c s amount target).map (keepScene s)
  | .cancelStableRescue => (cancelStableRescue c s.router).map (keepScene s)
  | .executeStableRescue => executeStableRescue S c s

/-- A router on its chain, at a time. -/
structure World (σ : Type) where
  scene : Scene σ
  now : ℕ
  /-- Whether the gate's code has been replaced. -/
  upgraded : Bool
  /-- Whether the router is there. -/
  deployed : Bool

/-- The gate of a world, with what it sees. -/
def World.gate {σ : Type} (w : World σ) : Gate.World σ :=
  ⟨w.scene.gate, w.scene.tokens, w.now, w.upgraded⟩

/-- What can happen next. -/
inductive Label (σ : Type)
  /-- A call of the gate, or a move of tokens by somebody else. -/
  | gate (l : Gate.Label σ)
  | pool (c : Call) (x : SwapPool.PoolCall)
  /-- The router is deployed. -/
  | deploy (c : Call)
  | router (c : Call) (x : RouterCall)

/-- Is it a step of the router's own making? It has no key to call with. -/
def ownCall (here : Address) : Gate.Label σ → Bool
  | .govern c _ => c.sender == here
  | .transfer c _ => c.sender == here
  | .tokens _ => false

/-- **One step.** -/
def exec (w : World σ) : Label σ → Option (World σ × List Event)
  | .gate l =>
    if ownCall S.here l then none
    else (Gate.exec S.chain w.gate l).map fun x =>
      (⟨{ w.scene with gate := x.1.gate, tokens := x.1.tokens }, x.1.now, x.1.upgraded, w.deployed⟩,
        x.2.log.map .gate)
  | .pool c x =>
    if w.upgraded = true ∨ c.timestamp < w.now ∨ c.sender = S.here then none
    else match SwapPool.call S.chain.tokens S.pool c w.scene.pool w.scene.tokens x with
      | .ok d => some (⟨{ w.scene with pool := d.pool, tokens := d.tokens }, c.timestamp, false,
          w.deployed⟩, d.log.map .pool)
      | .error _ => none
  | .deploy c =>
    if w.upgraded = true ∨ c.timestamp < w.now ∨ w.deployed = true then none
    else
      let r := construct c w.scene.pool
      some (⟨{ w.scene with router := r.1 }, c.timestamp, false, true⟩, r.2)
  | .router c x =>
    if w.upgraded = true ∨ c.timestamp < w.now ∨ c.sender = S.here ∨ w.deployed = false then none
    else match call S c w.scene x with
      | .ok d => some (⟨d.1, c.timestamp, false, true⟩, d.2)
      | .error _ => none

/-- A step of a run. -/
abbrev Step (σ : Type) := Entry (World σ) (Label σ) (List Event)

/-- **Where a run starts**: a gate just initialized, after the epoch, and no router yet. -/
structure Initial (w : World σ) : Prop where
  gate : Gate.Initial w.gate
  now : w.now ≠ 0
  router : w.scene.router = { blank with stable := w.scene.pool.stable }
  deployed : w.deployed = false

/-- The events of a run. -/
def logOf (tr : List (Step σ)) : List Event := tr.flatMap Entry.out

/-- The call that a call of the router makes of the gate, and what the gate sees then. -/
def RouterCall.atGate : RouterCall → Option (Gate.TransferCall)
  | .swapAndBridge a => ((prepareSend S c s a).toOption).map fun p => .send p.send
  | .claimAndFinalize a signatures _ => some (.claim (a.claim signatures))
  | .refundAndForward a => some (.refund (a.refund s.router.stable))
  | _ => none

/-- The strings that a call of the router has hashed. -/
def RouterCall.hashed (x : RouterCall) : List Bytes :=
  ((x.atGate S c s).toList.flatMap fun y => y.hashed S.chain (acting S c) s.gate) ++
    match x with
    | .finalize a _ => (Gate.idPreimage S.chain.keccak256 s.gate.bridgeDomain
        (Gate.claimParams S.chain (a.claim []))).toList
    | _ => []

/-- **What a step hashed.** -/
def hashedBy (e : Step σ) : List Bytes :=
  match e.label with
  | .gate (.transfer c x) => x.hashed S.chain c e.pre.scene.gate
  | .router c x => x.hashed S c e.pre.scene
  | _ => []

/-- What a run hashed. -/
def hashedIn (tr : List (Step σ)) : List Bytes := tr.flatMap (hashedBy S)

end SwapRouter

end SelendraBridge
