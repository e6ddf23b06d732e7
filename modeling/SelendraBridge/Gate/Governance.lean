import SelendraBridge.Gate.State

/-!
# What the owner and the guardian can do

Every action that grants power – a new validator, a lower threshold, a new asset or
scale, a replaced guardian, new code – has to be scheduled under an id that names it and
its parameters, and is consumed by the call that takes it, no earlier than the delay and
no later than the grace period after it. During the setup phase the registry and the
guardian may be set without a schedule. Actions that only restrict – removing a
validator, raising the threshold, pausing – wait for nothing.

The functions here are the owner's half of the contract, one by one, each from the
storage before to the storage after and the events.
-/

namespace SelendraBridge

namespace Gate

open Revert

variable {σ : Type} (E : Chain σ) (c : Call) (g : Gate)

/-- What a call of this file returns: the storage and the events. -/
abbrev Result := Except Error (Gate × List Event)

/-! ### Modifiers -/

/-- `onlyOwner`. -/
def onlyOwner : Except Error Unit := revertIf (c.sender ≠ g.owner) .notOwner

/-- The owner, or the guardian. -/
def ownerOrGuardian : Except Error Unit :=
  revertIf (c.sender ≠ g.owner ∧ c.sender ≠ g.guardian) .notAuthorizedToPause

/-! ### Action ids -/

/-- The scheme of the action ids. -/
def GOVERNANCE_ID_V2 : Bytes := ascii "Gate.governance.v2"

/-- The kinds of power-granting actions. -/
inductive ActionKind
  | addValidator
  | lowerThreshold
  | setBridgeDecimals
  | setLocalToken
  | setGuardian
  deriving DecidableEq, Repr

/-- The name of a kind, as it enters the id. -/
def ActionKind.name : ActionKind → Bytes
  | .addValidator => ascii "addValidator"
  | .lowerThreshold => ascii "lowerThreshold"
  | .setBridgeDecimals => ascii "setBridgeDecimals"
  | .setLocalToken => ascii "setLocalToken"
  | .setGuardian => ascii "setGuardian"

theorem ActionKind.name_inj {k l : ActionKind} (h : k.name = l.name) : k = l := by
  cases k <;> cases l <;> first | rfl | exact absurd h (by decide)

/-- A power-granting action, with its parameters. -/
inductive Action
  | addValidator (v : Address)
  | lowerThreshold (t : U256)
  | setBridgeDecimals (token : Address) (bridgeDecimals : UInt8)
  | setLocalToken (debridgeId : Bytes32) (localToken : Address)
  | setGuardian (newGuardian : Address)
  deriving DecidableEq, Repr

/-- The kind of an action. -/
def Action.kind : Action → ActionKind
  | .addValidator _ => .addValidator
  | .lowerThreshold _ => .lowerThreshold
  | .setBridgeDecimals _ _ => .setBridgeDecimals
  | .setLocalToken _ _ => .setLocalToken
  | .setGuardian _ => .setGuardian

/-- The parameters of an action, as words. -/
def Action.args : Action → List Bytes32
  | .addValidator v => [addressWord v]
  | .lowerThreshold t => [t]
  | .setBridgeDecimals token bridgeDecimals =>
    [addressWord token, BitVec.ofNat 256 bridgeDecimals.toNat]
  | .setLocalToken debridgeId localToken => [debridgeId, addressWord localToken]
  | .setGuardian newGuardian => [addressWord newGuardian]

/-- `abi.encode(GOVERNANCE_ID_V2, kind, args…)`. -/
def Action.encoded (a : Action) : Bytes := Abi.encodeAction GOVERNANCE_ID_V2 a.kind.name a.args

/-- The id of an action. -/
def actionId (a : Action) : Bytes32 := E.keccak256 a.encoded

/-- A byte is read back from its word. -/
theorem ofNat_toNat_inj {m n : UInt8} (h : BitVec.ofNat 256 m.toNat = BitVec.ofNat 256 n.toNat) :
    m = n := by
  have h' := congrArg BitVec.toNat h
  have hm := m.toNat_lt
  have hn := n.toNat_lt
  rw [BitVec.toNat_ofNat, BitVec.toNat_ofNat, Nat.mod_eq_of_lt (by omega),
    Nat.mod_eq_of_lt (by omega)] at h'
  exact UInt8.toNat_inj.mp h'

/-- An action is its kind and its parameters. -/
theorem Action.eq_of_kind_args {a b : Action} (hk : a.kind = b.kind) (h : a.args = b.args) :
    a = b := by
  rcases a with v | t | ⟨token, n⟩ | ⟨d, token⟩ | gd <;>
    rcases b with v' | t' | ⟨token', n'⟩ | ⟨d', token'⟩ | gd' <;>
    first
    | (simp only [Action.kind, reduceCtorEq] at hk; done)
    | simp only [Action.args, List.cons.injEq, addressWord_inj, and_true] at h
  · rw [h]
  · rw [h]
  · rw [h.1, ofNat_toNat_inj h.2]
  · rw [h.1, h.2]
  · rw [h]

/-- **Two actions with one encoding are one action**, parameters included. -/
theorem Action.encoded_inj {a b : Action} (h : a.encoded = b.encoded) : a = b := by
  have hname : ∀ k : ActionKind, k.name.length ≤ 32 := by
    intro k
    cases k <;> decide
  obtain ⟨hk, hargs⟩ := Abi.encodeAction_inj (by decide) (hname a.kind) (hname b.kind) h
  exact Action.eq_of_kind_args (ActionKind.name_inj hk) hargs

/-! ### The timelock -/

/-- `_schedule`. -/
def schedule (id : Bytes32) : Gate × List Event :=
  let readyAt := c.timestamp + GOVERNANCE_DELAY
  ({ g with governanceReadyAt := Function.update g.governanceReadyAt id readyAt },
    [.governanceScheduled id readyAt])

/-- `_consumeGovernance`. -/
def consumeGovernance (id : Bytes32) : Except Error Gate := do
  let readyAt := g.governanceReadyAt id
  revertIf (readyAt = 0) (.governanceNotScheduled id)
  revertIf (c.timestamp < readyAt) (.governanceNotReady id readyAt)
  revertIf (c.timestamp > readyAt + SCHEDULE_GRACE) (.scheduleExpired id readyAt)
  return { g with governanceReadyAt := Function.update g.governanceReadyAt id 0 }

/-- `_consumeGovernance`, under the condition on which an action has to be scheduled. -/
def consumeGovernanceIf (p : Prop) [Decidable p] (id : Bytes32) : Except Error Gate :=
  if p then consumeGovernance c g id else .ok g

/-- `scheduleAddValidator`. -/
def scheduleAddValidator (v : Address) : Result := do
  onlyOwner c g
  revertIf (v = 0) .zeroValidator
  let id := actionId E (.addValidator v)
  let (g, log) := schedule c g id
  return (g, log ++ [.addValidatorScheduled id v (c.timestamp + GOVERNANCE_DELAY)])

/-- `scheduleLowerThreshold`. -/
def scheduleLowerThreshold (t : U256) : Result := do
  onlyOwner c g
  revertIf (t = 0) (.invalidThreshold t g.validatorCount)
  let id := actionId E (.lowerThreshold t)
  let (g, log) := schedule c g id
  return (g, log ++ [.lowerThresholdScheduled id t (c.timestamp + GOVERNANCE_DELAY)])

/-- `scheduleSetLocalToken`. -/
def scheduleSetLocalToken (debridgeId : Bytes32) (localToken : Address) : Result := do
  onlyOwner c g
  revertIf (localToken = 0) .zeroAddress
  revertIf (c.hasCode localToken = false) (.tokenHasNoCode localToken)
  let current := g.tokenOf debridgeId
  revertIf (current ≠ 0) (.localTokenAlreadySet debridgeId current)
  let id := actionId E (.setLocalToken debridgeId localToken)
  let (g, log) := schedule c g id
  return (g, log ++
    [.setLocalTokenScheduled id debridgeId localToken (c.timestamp + GOVERNANCE_DELAY)])

/-- The bounds a wire scale must meet, against the token's own decimals. -/
def checkScale (token : Address) (bridgeDecimals localDecimals : UInt8) : Except Error Unit :=
  revertIf (bridgeDecimals > localDecimals ∨ localDecimals.toNat - bridgeDecimals.toNat > 77)
    (.invalidBridgeDecimals token bridgeDecimals localDecimals)

/-- `scheduleSetBridgeDecimals`. -/
def scheduleSetBridgeDecimals (tokens : σ) (token : Address) (bridgeDecimals : UInt8) :
    Result := do
  onlyOwner c g
  revertIf (token = 0) .zeroAddress
  revertIf (c.hasCode token = false) (.tokenHasNoCode token)
  revertIf ((g.bridgeDecimalsOf token).set = true) (.bridgeDecimalsAlreadySet token)
  let localDecimals ← orRevert (.tokenCallFailed token) (E.tokens.decimals tokens token)
  checkScale token bridgeDecimals localDecimals
  let id := actionId E (.setBridgeDecimals token bridgeDecimals)
  let (g, log) := schedule c g id
  return (g, log ++
    [.setBridgeDecimalsScheduled id token bridgeDecimals (c.timestamp + GOVERNANCE_DELAY)])

/-- `scheduleSetGuardian`. -/
def scheduleSetGuardian (newGuardian : Address) : Result := do
  onlyOwner c g
  let id := actionId E (.setGuardian newGuardian)
  let (g, log) := schedule c g id
  return (g, log ++ [.setGuardianScheduled id newGuardian (c.timestamp + GOVERNANCE_DELAY)])

/-- `cancelScheduledGovernance`. -/
def cancelScheduledGovernance (id : Bytes32) : Result := do
  ownerOrGuardian c g
  return ({ g with governanceReadyAt := Function.update g.governanceReadyAt id 0 },
    [.governanceCancelled id])

/-! ### The actions -/

/-- `setValidator`. -/
def setValidator (v : Address) (active : Bool) : Result := do
  onlyOwner c g
  revertIf (v = 0) .zeroValidator
  if active = true ∧ g.isValidator v = false then
    let g ← consumeGovernance c g (actionId E (.addValidator v))
    let validatorCount ← checked .panic (g.validatorCount.toNat + 1)
    return ({ g with isValidator := Function.update g.isValidator v true, validatorCount },
      [.validatorSet v active])
  else if active = false ∧ g.isValidator v = true then
    let validatorCount ← checkedSub .panic g.validatorCount 1
    revertIf (validatorCount < g.threshold) (.invalidThreshold g.threshold validatorCount)
    return ({ g with isValidator := Function.update g.isValidator v false, validatorCount },
      [.validatorSet v active])
  else return (g, [])

/-- `setThreshold`. -/
def setThreshold (t : U256) : Result := do
  onlyOwner c g
  revertIf (t = 0 ∨ t > g.validatorCount) (.invalidThreshold t g.validatorCount)
  let g ← consumeGovernanceIf c g (t < g.threshold) (actionId E (.lowerThreshold t))
  return ({ g with threshold := t }, [.thresholdSet t])

/-- `setLocalToken`. -/
def setLocalToken (debridgeId : Bytes32) (localToken : Address) : Result := do
  onlyOwner c g
  revertIf (localToken = 0) .zeroAddress
  let current := g.tokenOf debridgeId
  revertIf (current ≠ 0) (.localTokenAlreadySet debridgeId current)
  let g ← consumeGovernanceIf c g (g.inSetupPhase c = false)
    (actionId E (.setLocalToken debridgeId localToken))
  revertIf ((g.bridgeDecimalsOf localToken).set = false) (.bridgeDecimalsUnset localToken)
  return ({ g with tokenOf := Function.update g.tokenOf debridgeId localToken },
    [.localTokenSet debridgeId localToken])

/-- `setBridgeDecimals`. -/
def setBridgeDecimals (tokens : σ) (token : Address) (bridgeDecimals : UInt8) : Result := do
  onlyOwner c g
  revertIf (token = 0) .zeroAddress
  revertIf ((g.bridgeDecimalsOf token).set = true) (.bridgeDecimalsAlreadySet token)
  let localDecimals ← orRevert (.tokenCallFailed token) (E.tokens.decimals tokens token)
  checkScale token bridgeDecimals localDecimals
  let g ← consumeGovernanceIf c g (g.inSetupPhase c = false)
    (actionId E (.setBridgeDecimals token bridgeDecimals))
  return ({ g with
      bridgeDecimalsOf :=
        Function.update g.bridgeDecimalsOf token ⟨true, bridgeDecimals, localDecimals⟩ },
    [.bridgeDecimalsSet token bridgeDecimals localDecimals])

/-- `setGuardian`. -/
def setGuardian (newGuardian : Address) : Result := do
  onlyOwner c g
  let current := g.guardian
  if newGuardian = current then return (g, [])
  else
    let g ← consumeGovernanceIf c g (current ≠ 0 ∧ g.inSetupPhase c = false)
      (actionId E (.setGuardian newGuardian))
    return ({ g with guardian := newGuardian }, [.guardianSet newGuardian])

/-! ### What waits for nothing -/

/-- `transferOwnership`. -/
def transferOwnership (newOwner : Address) : Result := do
  onlyOwner c g
  revertIf (newOwner = 0) .zeroAddress
  return ({ g with pendingOwner := newOwner }, [.ownershipTransferStarted g.owner newOwner])

/-- `acceptOwnership`. -/
def acceptOwnership : Result := do
  revertIf (c.sender ≠ g.pendingOwner) .notOwner
  return ({ g with owner := g.pendingOwner, pendingOwner := 0 },
    [.ownershipTransferred g.owner g.pendingOwner])

/-- `seal`. -/
def sealGate : Result := do
  onlyOwner c g
  revertIf (g.isSealed = true) .alreadySealed
  return ({ g with isSealed := true }, [.isSealed])

/-- `setSupportedChain`. -/
def setSupportedChain (chainId : U256) (ok : Bool) : Result := do
  onlyOwner c g
  return ({ g with supportedChain := Function.update g.supportedChain chainId ok },
    [.supportedChainSet chainId ok])

/-- `setMinSendAmount`. -/
def setMinSendAmount (token : Address) (minAmount : U256) : Result := do
  onlyOwner c g
  revertIf (token = 0) .zeroAddress
  return ({ g with minSendAmount := Function.update g.minSendAmount token minAmount },
    [.minSendAmountSet token minAmount])

/-- `pause`. -/
def pause : Result := do
  ownerOrGuardian c g
  if g.paused = false then return ({ g with paused := true }, [.paused c.sender])
  else return (g, [])

/-- `unpause`. -/
def unpause : Result := do
  onlyOwner c g
  if g.paused = true then return ({ g with paused := false }, [.unpaused c.sender])
  else return (g, [])

/-! ### Upgrades -/

/-- `_scheduleUpgrade`, behind both forms of `scheduleUpgrade`. -/
def scheduleUpgrade (implementation : Address) (data : Bytes) : Result := do
  onlyOwner c g
  revertIf (implementation = 0) .zeroAddress
  revertIf (c.hasCode implementation = false) (.implementationHasNoCode implementation)
  let readyAt := c.timestamp + UPGRADE_DELAY
  let dataHash := E.keccak256 data
  return ({ g with
      upgradeReadyAt := Function.update g.upgradeReadyAt implementation readyAt
      upgradeCodehash :=
        Function.update g.upgradeCodehash implementation (c.codehash implementation)
      upgradeDataHash := Function.update g.upgradeDataHash implementation dataHash },
    [.upgradeScheduled implementation readyAt dataHash data])

/-- The three `delete`s of a scheduled upgrade. -/
def clearUpgrade (implementation : Address) : Gate :=
  { g with
    upgradeReadyAt := Function.update g.upgradeReadyAt implementation 0
    upgradeCodehash := Function.update g.upgradeCodehash implementation 0
    upgradeDataHash := Function.update g.upgradeDataHash implementation 0 }

/-- `cancelScheduledUpgrade`. -/
def cancelScheduledUpgrade (implementation : Address) : Result := do
  ownerOrGuardian c g
  return (clearUpgrade g implementation, [.upgradeCancelled implementation])

/-- `_requireMaturedUpgrade`. -/
def requireMaturedUpgrade (implementation : Address) : Except Error Unit := do
  let readyAt := g.upgradeReadyAt implementation
  revertIf (readyAt = 0) (.upgradeNotScheduled implementation)
  revertIf (c.timestamp < readyAt) (.upgradeNotReady implementation readyAt)
  revertIf (c.timestamp > readyAt + SCHEDULE_GRACE)
    (.scheduleExpired (addressWord implementation) readyAt)
  let pinned := g.upgradeCodehash implementation
  revertIf (c.codehash implementation ≠ pinned)
    (.implementationCodeChanged implementation pinned (c.codehash implementation))

/-- `_authorizeUpgrade`. -/
def authorizeUpgrade (implementation : Address) : Except Error Gate := do
  onlyOwner c g
  requireMaturedUpgrade c g implementation
  return clearUpgrade g implementation

/-- `upgradeToAndCall`. Whether the proxy machinery then takes the new implementation and
its call is not the gate's to say: `accepted`. -/
def upgradeToAndCall (newImplementation : Address) (data : Bytes) (accepted : Bool) : Result := do
  onlyOwner c g
  requireMaturedUpgrade c g newImplementation
  let pinned := g.upgradeDataHash newImplementation
  let given := E.keccak256 data
  revertIf (given ≠ pinned) (.upgradeDataMismatch newImplementation pinned given)
  let g ← authorizeUpgrade c g newImplementation
  revertIf (accepted = false) (.upgradeFailed newImplementation)
  return (g, [])

/-! ### Initialization -/

/-- The validators of `initialize`, one by one. -/
def initValidators : List Address → Gate → Except Error (Gate × List Event)
  | [], g => .ok (g, [])
  | v :: vs, g => do
    revertIf (v = 0) .zeroValidator
    if g.isValidator v = false then
      let validatorCount ← checked .panic (g.validatorCount.toNat + 1)
      let (g', log) ← initValidators vs
        { g with isValidator := Function.update g.isValidator v true, validatorCount }
      return (g', .validatorSet v true :: log)
    else initValidators vs g

/-- `initialize`, on blank storage. -/
def initializeGate (validators : List Address) (threshold : U256) (bridgeDomain : Bytes32) :
    Result := do
  revertIf (g.initialized ≠ 0) .invalidInitialization
  revertIf (bridgeDomain = 0) .zeroBridgeDomain
  let g := { g with
    initialized := 1
    bridgeDomain
    setupDeadline := c.timestamp + SETUP_WINDOW
    owner := c.sender }
  let (g, log) ← initValidators validators g
  revertIf (threshold = 0 ∨ threshold > g.validatorCount)
    (.invalidThreshold threshold g.validatorCount)
  return ({ g with threshold },
    .ownershipTransferred 0 c.sender :: log ++ [.thresholdSet threshold])

/-- The tokens of `initializeV2`, registered at their own decimals. -/
def migrateTokens (tokens : σ) : List Address → Gate → Except Error (Gate × List Event)
  | [], g => .ok (g, [])
  | token :: rest, g => do
    revertIf (token = 0) .zeroAddress
    if (g.bridgeDecimalsOf token).set = true then migrateTokens tokens rest g
    else
      let localDecimals ← orRevert (.tokenCallFailed token) (E.tokens.decimals tokens token)
      let (g', log) ← migrateTokens tokens rest { g with
        bridgeDecimalsOf :=
          Function.update g.bridgeDecimalsOf token ⟨true, localDecimals, localDecimals⟩ }
      return (g', .bridgeDecimalsSet token localDecimals localDecimals :: log)

/-- The chains of `initializeV2`. -/
def migrateChains : List U256 → Gate → Gate × List Event
  | [], g => (g, [])
  | chain :: rest, g =>
    if g.supportedChain chain = false then
      let r := migrateChains rest
        { g with supportedChain := Function.update g.supportedChain chain true }
      (r.1, .supportedChainSet chain true :: r.2)
    else migrateChains rest g

/-- `initializeV2`. -/
def initializeV2 (tokens : σ) (legacyTokens : List Address) (legacyChains : List U256) :
    Result := do
  revertIf (g.initialized ≥ 2) .invalidInitialization
  revertIf (c.sender ≠ g.owner) .notOwner
  revertIf (g.setupDeadline ≠ 0) .notALegacyGate
  revertIf (g.paused = false) .migrationRequiresPause
  let (g, log) ← migrateTokens E tokens legacyTokens { g with initialized := 2 }
  let (g, log') := migrateChains legacyChains g
  return (g, log ++ log' ++ [.migratedToV2 legacyTokens.length legacyChains.length])

end Gate

end SelendraBridge
