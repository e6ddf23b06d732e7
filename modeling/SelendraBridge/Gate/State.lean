import SelendraBridge.BridgeHash
import SelendraBridge.Evm
import SelendraBridge.Lib.Revert

/-!
# The gate: storage, reverts and events

A gate locks tokens on one chain against a transfer to another, and releases tokens on
that other chain when a quorum of validators has signed the transfer. Its storage has
two halves that the calls keep apart: the *books* – which transfers were sent, claimed,
cancelled, refunded, and the next nonce of each corridor – and what the *owner*
governs – the validators and their threshold, the registry of assets and their scales,
the timelocks, the pause.
-/

namespace SelendraBridge

/-- The wire scale registered for a token, and the token's own decimals at the time. -/
structure BridgeDecimals where
  set : Bool
  bridgeDecimals : UInt8
  localDecimals : UInt8
  deriving DecidableEq, Repr

/-- **The storage of a gate.** -/
structure Gate where
  owner : Address
  pendingOwner : Address
  isValidator : Address → Bool
  validatorCount : U256
  threshold : U256
  bridgeDomain : Bytes32
  paused : Bool
  guardian : Address
  /-- The next nonce towards a chain. -/
  nonceTo : U256 → U256
  /-- Who sent a transfer; zero once it was refunded. -/
  sentBy : Bytes32 → Address
  refunded : Bytes32 → Bool
  /-- Claimed or cancelled. -/
  executed : Bytes32 → Bool
  cancelled : Bytes32 → Bool
  /-- The local token of an asset; zero when there is none. -/
  tokenOf : Bytes32 → Address
  upgradeReadyAt : Address → ℕ
  governanceReadyAt : Bytes32 → ℕ
  isSealed : Bool
  supportedChain : U256 → Bool
  bridgeDecimalsOf : Address → BridgeDecimals
  setupDeadline : ℕ
  upgradeCodehash : Address → Bytes32
  upgradeDataHash : Address → Bytes32
  minSendAmount : Address → U256
  /-- The version the proxy was initialized to. -/
  initialized : ℕ

namespace Gate

/-- The delay of an upgrade. -/
def UPGRADE_DELAY : ℕ := 48 * 3600

/-- The delay of a governance action. -/
def GOVERNANCE_DELAY : ℕ := 48 * 3600

/-- How long a matured schedule stays good. -/
def SCHEDULE_GRACE : ℕ := 7 * 24 * 3600

/-- The length of the setup phase. -/
def SETUP_WINDOW : ℕ := 7 * 24 * 3600

/-- The longest execution payload. -/
def MAX_AUTO_PARAMS_LENGTH : ℕ := 4096

/-- Why a call reverts. The last group is what reverts outside the contract's own
checks: arithmetic, the ABI decoder, signature recovery, a token, the proxy. -/
inductive Error
  | notOwner
  | zeroAmount
  | alreadyExecuted
  | notEnoughSignatures (got want : U256)
  | invalidSignerOrder
  | unknownAsset (debridgeId : Bytes32)
  | badReceiver
  | unsupportedTokenBehavior (expected received : U256)
  | tooManySignatures (supplied : ℕ) (validatorCount : U256)
  | zeroValidator
  | zeroAddress
  | invalidThreshold (threshold validatorCount : U256)
  | enforcedPause
  | notAuthorizedToPause
  | notSent (submissionId : Bytes32)
  | alreadyRefunded (submissionId : Bytes32)
  | tokenMismatch (debridgeId : Bytes32) (token : Address)
  | localTokenAlreadySet (debridgeId : Bytes32) (current : Address)
  | bridgeDecimalsAlreadySet (token : Address)
  | bridgeDecimalsUnset (token : Address)
  | invalidBridgeDecimals (token : Address) (bridgeDecimals localDecimals : UInt8)
  | bridgeScaleMismatch (debridgeId : Bytes32) (signed registered : UInt8)
  | inexactAmount (amount unit : U256)
  | zeroBridgeDomain
  | upgradeNotScheduled (implementation : Address)
  | upgradeNotReady (implementation : Address) (readyAt : ℕ)
  | implementationHasNoCode (implementation : Address)
  | implementationCodeChanged (implementation : Address) (scheduled current : Bytes32)
  | upgradeDataMismatch (implementation : Address) (scheduled given : Bytes32)
  | governanceNotScheduled (actionId : Bytes32)
  | governanceNotReady (actionId : Bytes32) (readyAt : ℕ)
  | scheduleExpired (key : Bytes32) (readyAt : ℕ)
  | alreadySealed
  | tokenHasNoCode (token : Address)
  | belowMinSendAmount (amount minAmount : U256)
  | autoParamsTooLong (length max : ℕ)
  | notSealed
  | unsupportedChain (chainIdTo : U256)
  | amountTooWide (amount : U256)
  | migrationRequiresPause
  | notALegacyGate
  | panic
  | abiDecoding
  | ecdsa
  | tokenCallFailed (token : Address)
  | invalidInitialization
  | upgradeFailed (implementation : Address)
  deriving DecidableEq, Repr

/-- What a call emits. -/
inductive Event
  | sent (submissionId debridgeId : Bytes32) (amount : U256) (bridgeDecimals : UInt8)
      (chainIdFrom chainIdTo : U256) (receiver : Bytes) (nonce : U256) (autoParams : Bytes)
      (nativeSender : Bytes) (token : Address)
  | claimed (submissionId debridgeId : Bytes32) (receiver : Address) (amount : U256)
  | cancelled (submissionId debridgeId : Bytes32) (chainIdFrom nonce : U256)
  | refunded (submissionId debridgeId : Bytes32) (sender : Address) (amount : U256)
  | ownershipTransferStarted (previousOwner newOwner : Address)
  | ownershipTransferred (previousOwner newOwner : Address)
  | validatorSet (validator : Address) (active : Bool)
  | thresholdSet (threshold : U256)
  | localTokenSet (debridgeId : Bytes32) (localToken : Address)
  | bridgeDecimalsSet (token : Address) (bridgeDecimals localDecimals : UInt8)
  | guardianSet (guardian : Address)
  | paused (account : Address)
  | unpaused (account : Address)
  | upgradeScheduled (implementation : Address) (readyAt : ℕ) (dataHash : Bytes32) (data : Bytes)
  | upgradeCancelled (implementation : Address)
  | governanceScheduled (actionId : Bytes32) (readyAt : ℕ)
  | governanceCancelled (actionId : Bytes32)
  | addValidatorScheduled (actionId : Bytes32) (validator : Address) (readyAt : ℕ)
  | lowerThresholdScheduled (actionId : Bytes32) (threshold : U256) (readyAt : ℕ)
  | setLocalTokenScheduled (actionId debridgeId : Bytes32) (localToken : Address) (readyAt : ℕ)
  | setBridgeDecimalsScheduled (actionId : Bytes32) (token : Address) (bridgeDecimals : UInt8)
      (readyAt : ℕ)
  | setGuardianScheduled (actionId : Bytes32) (newGuardian : Address) (readyAt : ℕ)
  | minSendAmountSet (token : Address) (minAmount : U256)
  | isSealed
  | supportedChainSet (chainId : U256) (ok : Bool)
  | migratedToV2 (tokensRegistered chainsListed : ℕ)
  deriving DecidableEq, Repr

/-- Storage before anything was written to it. -/
def blank : Gate where
  owner := 0
  pendingOwner := 0
  isValidator := fun _ => false
  validatorCount := 0
  threshold := 0
  bridgeDomain := 0
  paused := false
  guardian := 0
  nonceTo := fun _ => 0
  sentBy := fun _ => 0
  refunded := fun _ => false
  executed := fun _ => false
  cancelled := fun _ => false
  tokenOf := fun _ => 0
  upgradeReadyAt := fun _ => 0
  governanceReadyAt := fun _ => 0
  isSealed := false
  supportedChain := fun _ => false
  bridgeDecimalsOf := fun _ => ⟨false, 0, 0⟩
  setupDeadline := 0
  upgradeCodehash := fun _ => 0
  upgradeDataHash := fun _ => 0
  minSendAmount := fun _ => 0
  initialized := 0

/-! ### The two halves of the storage -/

/-- **The books**: the part of the storage that transfers write. -/
structure Books where
  bridgeDomain : Bytes32
  nonceTo : U256 → U256
  sentBy : Bytes32 → Address
  refunded : Bytes32 → Bool
  executed : Bytes32 → Bool
  cancelled : Bytes32 → Bool

/-- The books of a gate. -/
def books (g : Gate) : Books where
  bridgeDomain := g.bridgeDomain
  nonceTo := g.nonceTo
  sentBy := g.sentBy
  refunded := g.refunded
  executed := g.executed
  cancelled := g.cancelled

/-- A gate with other books. -/
def withBooks (g : Gate) (b : Books) : Gate :=
  { g with
    bridgeDomain := b.bridgeDomain
    nonceTo := b.nonceTo
    sentBy := b.sentBy
    refunded := b.refunded
    executed := b.executed
    cancelled := b.cancelled }

@[simp] theorem books_withBooks (g : Gate) (b : Books) : (g.withBooks b).books = b := rfl

/-- Is the owner still setting the gate up? -/
def inSetupPhase (g : Gate) (c : Call) : Bool :=
  !g.isSealed && decide (c.timestamp ≤ g.setupDeadline)

end Gate

end SelendraBridge
