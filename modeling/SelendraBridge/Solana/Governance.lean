import SelendraBridge.Solana.Transfer

/-!
# The instructions of the owner and the guardian

What grants power – a new validator, a lower threshold, a new asset or guardian once the
gate is set up – waits: it is scheduled in an account of its own, becomes ready two days
later, is good for a week, and is burnt when it is used. What takes power away is
immediate, and so is everything about assets while the gate is being set up.

Times are signed 64-bit seconds of the cluster's clock.
-/

namespace SelendraBridge

namespace Solana

open Revert

/-- `GOVERNANCE_DELAY`. -/
def GOVERNANCE_DELAY : ℕ := 48 * 60 * 60

/-- `GOVERNANCE_GRACE`. -/
def GOVERNANCE_GRACE : ℕ := 7 * 24 * 60 * 60

/-- `SETUP_WINDOW`. -/
def SETUP_WINDOW : ℕ := 7 * 24 * 60 * 60

/-- `GOVERNANCE_LEN`. -/
def GOVERNANCE_LEN : ℕ := 8

/-- `VAULT_BINDING_LEN`. -/
def VAULT_BINDING_LEN : ℕ := 33

/-- `CONFIG_SLACK`. -/
def CONFIG_SLACK : ℕ := 64

/-- `ASSET_CONFIG_LEN`. -/
def ASSET_CONFIG_LEN : ℕ := 32 * 3 + 2

/-- `ASSET_CONFIG_SLACK`. -/
def ASSET_CONFIG_SLACK : ℕ := 32

/-- `MAX_THRESHOLD`. -/
def MAX_THRESHOLD : ℕ := 8

/-- `InitArgs`. -/
structure InitArgs where
  bridgeDomain : Bytes32
  validators : List Address
  threshold : BitVec 32
  chainId : U64
  maxValidators : BitVec 32
  maxCorridors : BitVec 32
  guardian : Pubkey
  /-- The length of a vector has four bytes. -/
  validators_lt : validators.length < 2 ^ 32

/-- `GovernanceAction`. -/
inductive GovernanceAction
  | addValidator (validator : Address)
  | lowerThreshold (threshold : BitVec 32)
  | registerAsset (debridgeId : Bytes32) (bridgeDecimals : UInt8)
  | setGuardian (guardian : Pubkey)
  deriving DecidableEq, Repr

/-! ### The ids of actions -/

section Actions

variable (keccak256 : Bytes → Bytes32)

/-- `ACTION_ID_VERSION`. -/
def ACTION_ID_VERSION : Bytes := ascii "gate-governance-v2:"

/-- `add_validator_action_id`. -/
def addValidatorActionId (v : Address) : Bytes32 :=
  keccak256 (ACTION_ID_VERSION ++ (ascii "addValidator" ++ addressBytes v))

/-- `set_guardian_action_id`. -/
def setGuardianActionId (guardian : Pubkey) : Bytes32 :=
  keccak256 (ACTION_ID_VERSION ++ (ascii "setGuardian" ++ wordBytes guardian))

/-- `lower_threshold_action_id`. -/
def lowerThresholdActionId (t : BitVec 32) : Bytes32 :=
  keccak256 (ACTION_ID_VERSION ++ (ascii "lowerThreshold" ++ be32 (t.setWidth 64)))

/-- `register_asset_action_id`. -/
def registerAssetActionId (debridgeId : Bytes32) (mint vault : Pubkey) (bridgeDecimals : UInt8) :
    Bytes32 :=
  keccak256 (ACTION_ID_VERSION ++ (ascii "registerAsset" ++ (wordBytes debridgeId ++
    (wordBytes mint ++ (wordBytes vault ++ [bridgeDecimals])))))

end Actions

/-! ### Times -/

/-- `checked_add` of a signed time. -/
def checkedAdd (t : BitVec 64) (n : ℕ) : Option (BitVec 64) :=
  if t.toInt + n < 2 ^ 63 then some (t + BitVec.ofNat 64 n) else none

/-- `saturating_add` of a signed time. -/
def saturatingAdd (t : BitVec 64) (n : ℕ) : BitVec 64 :=
  (checkedAdd t n).getD (BitVec.ofNat 64 (2 ^ 63 - 1))

/-- `in_setup_phase`. -/
def inSetupPhase (cfg : Config) (now : BitVec 64) : Bool :=
  !cfg.isSealed && cfg.setupDeadline != 0 && now.sle cfg.setupDeadline

/-- `guardian_change_needs_schedule`. -/
def guardianChangeNeedsSchedule (cfg : Config) (now : BitVec 64) : Bool :=
  !inSetupPhase cfg now && cfg.guardian != 0

/-- `governance_consumable`. -/
def governanceConsumable (readyAt now : BitVec 64) : Except ProgramError Unit := do
  check (readyAt ≠ 0) .governanceNotScheduled
  check (now.slt readyAt = false) .governanceNotReady
  check ((saturatingAdd readyAt GOVERNANCE_GRACE).slt now = false) .governanceExpired

/-- `["gov", action_id]`. -/
def govSeeds (actionId : Bytes32) : List Bytes := [ascii "gov", wordBytes actionId]

/-- `["vault", vault]`. -/
def vaultSeeds (vault : Pubkey) : List Bytes := [ascii "vault", wordBytes vault]

section Schedules

variable (R : Runtime) (clock : Clock) (s : Accounts)

/-- Does an account hold a schedule? -/
def isSchedule (a : Account) : Prop := a.owner = R.programId ∧ GOVERNANCE_LEN ≤ a.data.length

instance (a : Account) : Decidable (isSchedule R a) :=
  inferInstanceAs (Decidable (_ ∧ _))

/-- `consume_governance`. -/
def consumeGovernance (govAi : AccountInfo) (actionId : Bytes32) :
    Except ProgramError Accounts := do
  revertIf (govAi.key ≠ R.findProgramAddress (govSeeds actionId)) .invalidSeeds
  check (isSchedule R (s govAi.key)) .governanceNotScheduled
  let sched ← orRevert .invalidAccountData
    ((scheduleCodec.get (s govAi.key).data).map Prod.fst)
  let now ← orRevert .unsupportedSysvar clock
  governanceConsumable sched.readyAt now
  writeFront R s govAi (scheduleCodec.put ⟨0⟩)

/-- `consume_governance` where it is asked for, with the account that then has to be there. -/
def consumeGovernanceIf (needed : Prop) [Decidable needed] (govAi : Option AccountInfo)
    (actionId : Bytes32) : Except ProgramError Accounts :=
  if needed then do
    let govAi ← orRevert (.custom .governanceNotScheduled) govAi
    consumeGovernance R clock s govAi actionId
  else .ok s

/-- Create an account unless it is there. -/
def createUnless (done : Prop) [Decidable done] (payer target : AccountInfo) (space : ℕ) :
    Except ProgramError Accounts :=
  if done then .ok s else createPdaAccount R s payer target space

/-- `write_schedule`. -/
def writeSchedule (owner govAi : AccountInfo) (actionId : Bytes32) :
    Except ProgramError Accounts := do
  revertIf (govAi.key ≠ R.findProgramAddress (govSeeds actionId)) .invalidSeeds
  revertIf (¬isSchedule R (s govAi.key) ∧ (s govAi.key).data ≠ [] ∧
    (s govAi.key).owner ≠ R.programId) .illegalOwner
  let s ← createUnless R s (isSchedule R (s govAi.key)) owner govAi GOVERNANCE_LEN
  let now ← orRevert .unsupportedSysvar clock
  let readyAt ← orRevert .arithmeticOverflow (checkedAdd now GOVERNANCE_DELAY)
  writeFront R s govAi (scheduleCodec.put ⟨readyAt⟩)

end Schedules

/-! ### The validators -/

/-- The accounts of an instruction of the owner: the config, who signs, and the rest. -/
structure OwnerAccounts where
  config : AccountInfo
  owner : AccountInfo
  rest : List AccountInfo

/-- The accounts of an instruction of the owner. -/
def OwnerAccounts.next : List AccountInfo → Except ProgramError OwnerAccounts
  | config :: owner :: rest => .ok ⟨config, owner, rest⟩
  | _ => .error .notEnoughAccountKeys

/-- Only the owner, and signed. -/
def onlyOwner (cfg : Config) (who : AccountInfo) : Except ProgramError Unit :=
  revertIf (who.key ≠ cfg.owner ∨ who.isSigner = false) .missingRequiredSignature

/-- Is this the guardian? -/
def Config.isGuardian (cfg : Config) (who : Pubkey) : Bool :=
  cfg.guardian != 0 && who == cfg.guardian

/-- `check_threshold_cap`. -/
def checkThresholdCap (threshold : BitVec 32) : Except ProgramError Unit :=
  check (threshold.toNat ≤ MAX_THRESHOLD) .thresholdTooHigh

/-- The duplicates and the zero address of `validate_validator_set`, from the front. -/
def checkDistinct (before : List Address) : List Address → Except ProgramError Unit
  | [] => .ok ()
  | v :: rest => do
    check (v ≠ 0) .zeroValidator
    check (v ∉ before) .duplicateValidator
    checkDistinct (before ++ [v]) rest

/-- `validate_validator_set`. -/
def validateValidatorSet (validators : List Address) (threshold : BitVec 32) :
    Except ProgramError Unit := do
  revertIf (threshold = 0 ∨ threshold.toNat > validators.length) .invalidArgument
  checkThresholdCap threshold
  checkDistinct [] validators

/-- `authorized_to_set_paused`. -/
def authorizedToSetPaused (isOwner isGuardian paused : Bool) : Bool :=
  if paused then isOwner || isGuardian else isOwner

section Instructions

variable (R : Runtime) (clock : Clock) (s : Accounts) (accounts : List AccountInfo)

/-- `require_upgrade_authority`. -/
def requireUpgradeAuthority (programAi programDataAi : AccountInfo) (who : Pubkey) :
    Except ProgramError Unit := do
  revertIf (programAi.key ≠ R.programId) .incorrectProgramId
  revertIf ((s programAi.key).owner ≠ R.loaderId) .incorrectProgramId
  revertIf (programDataAi.key ≠ R.programDataAddress) .invalidArgument
  let state ← orRevert .invalidAccountData (R.loaderState (s programDataAi.key).data)
  match state with
  | .programData (some authority) => revertIf (authority ≠ who) .missingRequiredSignature
  | .programData none => .error .invalidArgument
  | .other => .error .invalidAccountData

/-- The accounts of `init`. -/
structure InitAccounts where
  config : AccountInfo
  payer : AccountInfo
  program : AccountInfo
  programData : AccountInfo

/-- The accounts of `init`, the system program third. -/
def InitAccounts.next : List AccountInfo → Except ProgramError InitAccounts
  | config :: payer :: _ :: program :: programData :: _ =>
    .ok ⟨config, payer, program, programData⟩
  | _ => .error .notEnoughAccountKeys

/-- The config that `init` writes. -/
def initialConfig (payer : Pubkey) (now : BitVec 64) (a : InitArgs) : Config where
  owner := payer
  bridgeDomain := a.bridgeDomain
  guardian := a.guardian
  validators := a.validators
  threshold := a.threshold
  chainId := a.chainId
  paused := false
  maxValidators := a.maxValidators
  maxCorridors := a.maxCorridors
  nonceTo := []
  isSealed := false
  setupDeadline := saturatingAdd now SETUP_WINDOW

/-- `process_init`. -/
def processInit (a : InitArgs) : Except ProgramError Accounts := do
  let x ← InitAccounts.next accounts
  revertIf (x.config.key ≠ R.findProgramAddress configSeeds) .invalidSeeds
  revertIf ((s x.config.key).data ≠ []) .accountAlreadyInitialized
  validateValidatorSet a.validators a.threshold
  revertIf (a.chainId = 0) .invalidArgument
  revertIf (a.maxValidators.toNat < a.validators.length ∨ a.maxCorridors = 0) .invalidArgument
  revertIf (x.payer.isSigner = false) .missingRequiredSignature
  requireUpgradeAuthority R s x.program x.programData x.payer.key
  let s ← createPdaAccount R s x.payer x.config
    (configSpace a.maxValidators.toNat a.maxCorridors.toNat + CONFIG_SLACK)
  check (a.bridgeDomain ≠ 0) .zeroBridgeDomain
  let now ← orRevert .unsupportedSysvar clock
  (initialConfig x.payer.key now a).store R s x.config

/-- `process_set_validator`. -/
def processSetValidator (validator : Address) (active : Bool) : Except ProgramError Accounts := do
  let x ← OwnerAccounts.next accounts
  let cfg ← loadConfig R s x.config
  onlyOwner cfg x.owner
  check (validator ≠ 0) .zeroValidator
  if active = true ∧ cfg.isValidator validator = false then do
    check (cfg.validators.length < cfg.maxValidators.toNat) .atCapacity
    let s ← consumeGovernanceIf R clock s True x.rest.head?
      (addValidatorActionId R.keccak256 validator)
    { cfg with validators := cfg.validators ++ [validator] }.store R s x.config
  else if active = false ∧ cfg.isValidator validator = true then do
    let validators := cfg.validators.filter (· != validator)
    revertIf (validators.length < cfg.threshold.toNat) .invalidArgument
    { cfg with validators := validators }.store R s x.config
  else return s

/-- `process_set_threshold`. -/
def processSetThreshold (threshold : BitVec 32) : Except ProgramError Accounts := do
  let x ← OwnerAccounts.next accounts
  let cfg ← loadConfig R s x.config
  onlyOwner cfg x.owner
  revertIf (threshold = 0 ∨ threshold.toNat > cfg.validators.length) .invalidArgument
  checkThresholdCap threshold
  let s ← consumeGovernanceIf R clock s (threshold < cfg.threshold) x.rest.head?
    (lowerThresholdActionId R.keccak256 threshold)
  { cfg with threshold := threshold }.store R s x.config

/-- `process_register_corridor`. -/
def processRegisterCorridor (chainIdTo : U64) : Except ProgramError Accounts := do
  let x ← OwnerAccounts.next accounts
  let cfg ← loadConfig R s x.config
  onlyOwner cfg x.owner
  revertIf (chainIdTo = cfg.chainId) .invalidArgument
  if cfg.corridorRegistered chainIdTo = true then return s
  else do
    check (cfg.nonceTo.length < cfg.maxCorridors.toNat) .atCapacity
    { cfg with nonceTo := cfg.nonceTo ++ [(chainIdTo, 0)] }.store R s x.config

/-- `process_set_paused`. -/
def processSetPaused (paused : Bool) : Except ProgramError Accounts := do
  let x ← OwnerAccounts.next accounts
  let cfg ← loadConfig R s x.config
  revertIf (x.owner.isSigner = false) .missingRequiredSignature
  revertIf (authorizedToSetPaused (x.owner.key == cfg.owner) (cfg.isGuardian x.owner.key) paused =
    false) .missingRequiredSignature
  if cfg.paused = paused then return s
  else Config.store R s { cfg with paused := paused } x.config

/-- `process_set_guardian`. -/
def processSetGuardian (guardian : Pubkey) : Except ProgramError Accounts := do
  let x ← OwnerAccounts.next accounts
  let cfg ← loadConfig R s x.config
  onlyOwner cfg x.owner
  if guardian = cfg.guardian then return s
  else do
    let now ← orRevert .unsupportedSysvar clock
    let s ← consumeGovernanceIf R clock s (guardianChangeNeedsSchedule cfg now = true)
      x.rest.head? (setGuardianActionId R.keccak256 guardian)
    { cfg with guardian := guardian }.store R s x.config

/-- `process_seal`. -/
def processSeal : Except ProgramError Accounts := do
  let x ← OwnerAccounts.next accounts
  let cfg ← loadConfig R s x.config
  onlyOwner cfg x.owner
  check (cfg.isSealed = false) .alreadySealed
  { cfg with isSealed := true }.store R s x.config

/-! ### Assets -/

/-- `check_asset_accounts`: the decimals of the mint. -/
def checkAssetAccounts (mint vault tokenProgram : AccountInfo) (bridgeDecimals : UInt8) :
    Except ProgramError UInt8 := do
  revertIf (tokenProgram.key ≠ R.splTokenId) .incorrectProgramId
  revertIf ((s mint.key).owner ≠ tokenProgram.key) .illegalOwner
  let decimals ← orRevert .invalidAccountData (R.unpackMint (s mint.key).data)
  check ((bridgeUnit decimals bridgeDecimals).isSome = true) .invalidBridgeDecimals
  let t ← splMintAndOwner R s vault tokenProgram
  revertIf (t.mint ≠ mint.key) .invalidAccountData
  revertIf (t.owner ≠ R.findProgramAddress vaultAuthoritySeeds) .invalidAccountData
  revertIf (t.delegate ≠ none ∨ t.closeAuthority ≠ none) .invalidAccountData
  return decimals

/-- `asset_write_allowed`. -/
def assetWriteAllowed (existing incoming : AssetConfig) : Except ProgramError Bool :=
  if existing.mint = 0 ∧ existing.vault = 0 then .ok true
  else if existing = incoming then .ok false
  else .error (.custom .assetAlreadyRegistered)

/-- `legacy_asset_upgrade_allowed`. -/
def legacyAssetUpgradeAllowed (length : ℕ) (existing incoming : AssetConfig) : Prop :=
  (length = LEGACY_ASSET_CONFIG_LEN ∨ length = LEGACY_ASSET_CONFIG_LEN + 1) ∧
    existing.mint ≠ 0 ∧ existing.debridgeId = incoming.debridgeId ∧
    existing.mint = incoming.mint ∧ existing.vault = incoming.vault ∧
    existing.bridgeDecimals = 0 ∧ existing.localDecimals = 0 ∧
    incoming.bridgeDecimals = incoming.localDecimals

instance (length : ℕ) (existing incoming : AssetConfig) :
    Decidable (legacyAssetUpgradeAllowed length existing incoming) :=
  inferInstanceAs (Decidable (_ ∧ _))

/-- What a registration does to the asset that is there. -/
inductive Registering
  | fresh
  | rerun
  | legacyUpgrade
  deriving DecidableEq, Repr

/-- What there is already, against what is to be registered. -/
def registering (asset : Account) (record : AssetConfig) : Except ProgramError Registering :=
  if asset.data = [] then .ok .fresh
  else do
    revertIf (asset.owner ≠ R.programId) .illegalOwner
    let existing ← decodeAssetConfig asset.data
    if legacyAssetUpgradeAllowed asset.data.length existing record then return .legacyUpgrade
    else do
      let write ← assetWriteAllowed existing record
      return if write then .fresh else .rerun

/-- The schedule that a new asset takes past the setup phase. -/
def consumeRegistration (cfg : Config) (r : Registering) (govAi : Option AccountInfo)
    (actionId : Bytes32) : Except ProgramError Accounts :=
  if r = .fresh then do
    let now ← orRevert .unsupportedSysvar clock
    consumeGovernanceIf R clock s (inSetupPhase cfg now = false) govAi actionId
  else .ok s

/-- Is there a binding in the account of a vault? -/
def isBinding (a : Account) : Prop := a.owner = R.programId ∧ VAULT_BINDING_LEN ≤ a.data.length

instance (a : Account) : Decidable (isBinding R a) := inferInstanceAs (Decidable (_ ∧ _))

/-- What a vault is committed to; a binding without a mint is none. -/
def vaultBinding (a : Account) : Except ProgramError (Option VaultBinding) :=
  if isBinding R a then do
    let b ← orRevert .invalidAccountData ((bindingCodec.get a.data).map Prod.fst)
    return if b.mint = 0 then none else some b
  else do
    revertIf (a.data ≠ [] ∧ a.owner ≠ R.programId) .illegalOwner
    return none

/-- `bind_vault`. -/
def bindVault (payer bindingAi : AccountInfo) (vault : Pubkey) (want : VaultBinding) :
    Except ProgramError Accounts := do
  revertIf (bindingAi.key ≠ R.findProgramAddress (vaultSeeds vault)) .invalidSeeds
  let existing ← vaultBinding R (s bindingAi.key)
  check (existing = none ∨ existing = some want) .vaultAssetMismatch
  let s ← createUnless R s (isBinding R (s bindingAi.key)) payer bindingAi VAULT_BINDING_LEN
  writeFront R s bindingAi (bindingCodec.put want)

/-- The account of an asset, made or grown to the current size. -/
def makeRoom (owner assetAi : AccountInfo) (space : ℕ) : Except ProgramError Accounts :=
  if (s assetAi.key).data = [] then createPdaAccount R s owner assetAi space
  else if (s assetAi.key).data.length < space then growProgramAccount R s owner assetAi space
  else .ok s

/-- The accounts of `register_asset`. -/
structure RegisterAccounts where
  config : AccountInfo
  owner : AccountInfo
  asset : AccountInfo
  mint : AccountInfo
  vault : AccountInfo
  tokenProgram : AccountInfo
  binding : AccountInfo
  rest : List AccountInfo

/-- The accounts of `register_asset`, the system program seventh. -/
def RegisterAccounts.next : List AccountInfo → Except ProgramError RegisterAccounts
  | config :: owner :: asset :: mint :: vault :: tokenProgram :: _ :: binding :: rest =>
    .ok ⟨config, owner, asset, mint, vault, tokenProgram, binding, rest⟩
  | _ => .error .notEnoughAccountKeys

/-- `process_register_asset`. -/
def processRegisterAsset (debridgeId : Bytes32) (bridgeDecimals : UInt8) :
    Except ProgramError Accounts := do
  let x ← RegisterAccounts.next accounts
  let cfg ← loadConfig R s x.config
  onlyOwner cfg x.owner
  let localDecimals ← checkAssetAccounts R s x.mint x.vault x.tokenProgram bridgeDecimals
  revertIf (x.asset.key ≠ R.findProgramAddress (assetSeeds debridgeId)) .invalidSeeds
  let record : AssetConfig := ⟨debridgeId, x.mint.key, x.vault.key, bridgeDecimals, localDecimals⟩
  let r ← registering R (s x.asset.key) record
  let s ← consumeRegistration R clock s cfg r x.rest.head?
    (registerAssetActionId R.keccak256 debridgeId x.mint.key x.vault.key bridgeDecimals)
  let s ← bindVault R s x.owner x.binding x.vault.key ⟨x.mint.key, bridgeDecimals⟩
  if r = .rerun then return s
  else do
    let s ← makeRoom R s x.owner x.asset (ASSET_CONFIG_LEN + ASSET_CONFIG_SLACK)
    writeZeroPadded R s x.asset (assetCodec.put record)

/-! ### Schedules -/

/-- The accounts of `schedule_action`: a registration names three more. -/
structure ScheduleAccounts where
  config : AccountInfo
  owner : AccountInfo
  gov : AccountInfo
  rest : List AccountInfo

/-- The accounts of `schedule_action`, the system program fourth. -/
def ScheduleAccounts.next : List AccountInfo → Except ProgramError ScheduleAccounts
  | config :: owner :: gov :: _ :: rest => .ok ⟨config, owner, gov, rest⟩
  | _ => .error .notEnoughAccountKeys

/-- The mint, the vault and the token program of a scheduled registration. -/
def assetAccounts : List AccountInfo → Except ProgramError (AccountInfo × AccountInfo × AccountInfo)
  | mint :: vault :: tokenProgram :: _ => .ok (mint, vault, tokenProgram)
  | _ => .error .notEnoughAccountKeys

/-- The id of an action that may be scheduled. -/
def schedulable (cfg : Config) (rest : List AccountInfo) :
    GovernanceAction → Except ProgramError Bytes32
  | .addValidator validator => do
    check (validator ≠ 0) .zeroValidator
    check (cfg.isValidator validator = false) .notSchedulable
    check (cfg.validators.length < cfg.maxValidators.toNat) .atCapacity
    return addValidatorActionId R.keccak256 validator
  | .lowerThreshold threshold => do
    check (threshold ≠ 0 ∧ threshold < cfg.threshold) .notSchedulable
    return lowerThresholdActionId R.keccak256 threshold
  | .registerAsset debridgeId bridgeDecimals => do
    let (mint, vault, tokenProgram) ← assetAccounts rest
    let _ ← checkAssetAccounts R s mint vault tokenProgram bridgeDecimals
    return registerAssetActionId R.keccak256 debridgeId mint.key vault.key bridgeDecimals
  | .setGuardian guardian => return setGuardianActionId R.keccak256 guardian

/-- `process_schedule_action`. -/
def processScheduleAction (action : GovernanceAction) : Result := do
  let x ← ScheduleAccounts.next accounts
  let cfg ← loadConfig R s x.config
  onlyOwner cfg x.owner
  let actionId ← schedulable R s cfg x.rest action
  let s ← writeSchedule R clock s x.owner x.gov actionId
  return (s, [.scheduled actionId])

/-- `process_cancel_scheduled_governance`. -/
def processCancelScheduledGovernance (actionId : Bytes32) : Except ProgramError Accounts := do
  let x ← OwnerAccounts.next accounts
  let gov ← orRevert .notEnoughAccountKeys x.rest.head?
  let cfg ← loadConfig R s x.config
  revertIf (x.owner.isSigner = false) .missingRequiredSignature
  revertIf (x.owner.key ≠ cfg.owner ∧ cfg.isGuardian x.owner.key = false) .missingRequiredSignature
  revertIf (gov.key ≠ R.findProgramAddress (govSeeds actionId)) .invalidSeeds
  if ¬isSchedule R (s gov.key) then return s
  else do
    writeFront R s gov (scheduleCodec.put ⟨0⟩)

end Instructions

end Solana

end SelendraBridge
