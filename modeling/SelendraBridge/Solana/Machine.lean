import SelendraBridge.Lib.Transition
import SelendraBridge.Solana.Governance

/-!
# The program as a machine

A cluster runs one instruction of the program after another, each with a clock and a list
of accounts that whoever submits it made up. In between everybody else does as they
please, within the rules of the runtime: an address of the program's, and an account that
the program has, changes in its balance only. An instruction that fails changes nothing.

Which accounts an instruction can write follows from its kind
(`SelendraBridge.Solana.Instruction.writes`), and that is all that is ever needed of the
instructions a result is not about: `SelendraBridge.Solana.wrote_of_exec`.
-/

namespace SelendraBridge

namespace Solana

open Revert Transition

/-- `GateInstruction`. -/
inductive Instruction
  | init (a : InitArgs)
  | send (a : SendArgs)
  | claim (a : ClaimArgs)
  | setValidator (validator : Address) (active : Bool)
  | setThreshold (threshold : BitVec 32)
  | registerAsset (debridgeId : Bytes32) (bridgeDecimals : UInt8)
  | registerCorridor (chainIdTo : U64)
  | pause
  | unpause
  | setGuardian (guardian : Pubkey)
  | cancel (a : ClaimArgs)
  | refund (a : RefundArgs)
  | scheduleGovernance (actionId : Bytes32)
  | cancelScheduledGovernance (actionId : Bytes32)
  | sealGate
  | scheduleAction (action : GovernanceAction)

section Instructions

variable (R : Runtime) (clock : Clock) (s : Accounts) (accounts : List AccountInfo)

/-- An instruction that logs nothing. -/
def quiet (r : Except ProgramError Accounts) : Result := r.map fun s => (s, [])

/-- `process_instruction`. -/
def processInstruction : Instruction → Result
  | .init a => quiet (processInit R clock s accounts a)
  | .send a => processSend R clock s accounts a
  | .claim a => processClaim R s accounts a
  | .setValidator validator active =>
    quiet (processSetValidator R clock s accounts validator active)
  | .setThreshold threshold => quiet (processSetThreshold R clock s accounts threshold)
  | .registerAsset debridgeId bridgeDecimals =>
    quiet (processRegisterAsset R clock s accounts debridgeId bridgeDecimals)
  | .registerCorridor chainIdTo => quiet (processRegisterCorridor R s accounts chainIdTo)
  | .pause => quiet (processSetPaused R s accounts true)
  | .unpause => quiet (processSetPaused R s accounts false)
  | .setGuardian guardian => quiet (processSetGuardian R clock s accounts guardian)
  | .cancel a => processCancel R s accounts a
  | .refund a => processRefund R s accounts a
  | .scheduleGovernance _ => .error (.custom .useTypedSchedule)
  | .cancelScheduledGovernance actionId =>
    quiet (processCancelScheduledGovernance R s accounts actionId)
  | .sealGate => quiet (processSeal R s accounts)
  | .scheduleAction action => processScheduleAction R clock s accounts action

/-- The submission id that a line of the log is about. -/
def Log.id : Log → Option Bytes32
  | .sent e => some e.submissionId
  | .claimed id => some id
  | .cancelled id _ _ _ => some id
  | .refunded id _ _ _ => some id
  | _ => none

/-- The action that a line of the log is about. -/
def Log.action : Log → Option Bytes32
  | .scheduled actionId => some actionId
  | _ => none

/-- The schedule of a registration, and the binding of its vault. -/
def registerSeeds (debridgeId : Bytes32) (bridgeDecimals : UInt8) : List (List Bytes) :=
  match RegisterAccounts.next accounts with
  | .ok x => [vaultSeeds x.vault.key, govSeeds (registerAssetActionId R.keccak256 debridgeId
      x.mint.key x.vault.key bridgeDecimals)]
  | .error _ => []

/-- **The seeds of the accounts that an instruction can write**, given what it logged. -/
def Instruction.writes (log : List Log) : Instruction → List (List Bytes)
  | .init _ => [configSeeds]
  | .send _ => configSeeds :: (log.filterMap Log.id).map sentSeeds
  | .claim _ => (log.filterMap Log.id).map executedSeeds
  | .setValidator validator _ =>
    [configSeeds, govSeeds (addValidatorActionId R.keccak256 validator)]
  | .setThreshold threshold =>
    [configSeeds, govSeeds (lowerThresholdActionId R.keccak256 threshold)]
  | .registerAsset debridgeId bridgeDecimals =>
    assetSeeds debridgeId :: registerSeeds R accounts debridgeId bridgeDecimals
  | .registerCorridor _ => [configSeeds]
  | .pause => [configSeeds]
  | .unpause => [configSeeds]
  | .setGuardian guardian => [configSeeds, govSeeds (setGuardianActionId R.keccak256 guardian)]
  | .cancel _ => (log.filterMap Log.id).map executedSeeds
  | .refund _ => (log.filterMap Log.id).flatMap fun id => [refundedSeeds id, sentSeeds id]
  | .scheduleGovernance _ => []
  | .cancelScheduledGovernance actionId => [govSeeds actionId]
  | .sealGate => [configSeeds]
  | .scheduleAction _ => (log.filterMap Log.action).map govSeeds

end Instructions

/-! ### The machine -/

/-- What can happen next. -/
inductive Label
  /-- An instruction, with the clock and the accounts it is given. -/
  | instruction (clock : Clock) (accounts : List AccountInfo) (ix : Instruction)
  /-- Others have their way with the accounts. -/
  | others (s : Accounts)

variable (R : Runtime)

/-- What others leave of a change they want: not what is the program's. -/
def others (s want : Accounts) : Accounts := fun k =>
  if R.isDerived k = true ∨ (s k).owner = R.programId then
    { s k with lamports := (want k).lamports }
  else want k

/-- **One step.** -/
def exec (s : Accounts) : Label → Option (Accounts × List Log)
  | .instruction clock accounts ix =>
    match processInstruction R clock s accounts ix with
    | .ok r => some r
    | .error _ => none
  | .others want => some (others R s want, [])

/-- What an instruction leaves of the accounts: everything, when it fails. -/
def execute (clock : Clock) (s : Accounts) (accounts : List AccountInfo) (ix : Instruction) :
    Accounts :=
  match processInstruction R clock s accounts ix with
  | .ok r => r.1
  | .error _ => s

/-- A step of a run. -/
abbrev Step := Entry Accounts Label (List Log)

/-- **Where a run starts**: the program is deployed and has no accounts yet. -/
structure Deployed (s : Accounts) : Prop where
  derived : ∀ k, R.isDerived k = true → (s k).Free R
  none : ∀ k, (s k).owner ≠ R.programId

/-- The seeds of the accounts that a step can write. -/
def writesOf (e : Step) : List (List Bytes) :=
  match e.label with
  | .instruction _ accounts ix => ix.writes R accounts e.out
  | .others _ => []

variable {R} {s s' : Accounts} {clock : Clock} {accounts : List AccountInfo} {log : List Log}

theorem exec_instruction {ix : Instruction}
    (h : exec R s (.instruction clock accounts ix) = some (s', log)) :
    processInstruction R clock s accounts ix = .ok (s', log) := by
  rw [exec] at h
  split at h
  · next r hr =>
    obtain rfl := Option.some.inj h
    exact hr
  · exact absurd h (by simp)

theorem quiet_eq_ok {r : Except ProgramError Accounts} :
    quiet r = .ok (s', log) ↔ r = .ok s' ∧ log = [] := by
  cases r with
  | error e => simp [quiet, Except.map]
  | ok s => simp [quiet, Except.map, eq_comm]

/-- **What a step did to a transfer**: one of the four instructions, or nothing that the
log would name. -/
inductive Moves (R : Runtime) (s : Accounts) (l : Label) (s' : Accounts) (log : List Log) : Prop
  | send {clock accounts a x cfg asset wire id}
      (label : l = .instruction clock accounts (.send a))
      (next : SendAccounts.next accounts = .ok x)
      (spec : Sends R clock s a x cfg asset wire id s' log)
  | claim {clock accounts a x cfg asset localAmount id}
      (label : l = .instruction clock accounts (.claim a))
      (next : ClaimAccounts.next accounts = .ok x)
      (spec : Claims R s a x cfg asset localAmount id s' log)
  | cancel {clock accounts a x cfg id}
      (label : l = .instruction clock accounts (.cancel a))
      (next : CancelAccounts.next accounts = .ok x) (spec : Cancels R s a x cfg id s' log)
  | refund {clock accounts a x cfg asset sent id}
      (label : l = .instruction clock accounts (.refund a))
      (next : RefundAccounts.next accounts = .ok x)
      (spec : Refunds R s a x cfg asset sent id s' log)
  | quiet (log_id : ∀ line ∈ log, line.id = none)

theorem moves_of_exec {l : Label} (h : exec R s l = some (s', log)) : Moves R s l s' log := by
  cases l with
  | others want =>
    simp only [exec, Option.some.injEq, Prod.mk.injEq] at h
    obtain ⟨-, rfl⟩ := h
    exact .quiet (by simp)
  | instruction clock accounts ix =>
    have h := exec_instruction h
    cases ix with
    | send a =>
      obtain ⟨x, cfg, asset, wire, id, hx, S⟩ := sends_of_processSend h
      exact .send rfl hx S
    | claim a =>
      obtain ⟨x, cfg, asset, localAmount, id, hx, C⟩ := claims_of_processClaim h
      exact .claim rfl hx C
    | cancel a =>
      obtain ⟨x, cfg, id, hx, C⟩ := cancels_of_processCancel h
      exact .cancel rfl hx C
    | refund a =>
      obtain ⟨x, cfg, asset, sent, id, hx, F⟩ := refunds_of_processRefund h
      exact .refund rfl hx F
    | scheduleAction action =>
      simp only [processInstruction, processScheduleAction, bind_eq_ok, exists_unit, pure_eq_ok,
        Prod.mk.injEq] at h
      obtain ⟨_, -, _, -, -, _, -, _, -, -, rfl⟩ := h
      exact .quiet (by simp [Log.id])
    | scheduleGovernance actionId => exact absurd h (by simp [processInstruction])
    | _ =>
      obtain rfl := (quiet_eq_ok.mp h).2
      exact .quiet (by simp)

/-! ### What an instruction writes -/

/-- **Writing the accounts of some seeds.** -/
abbrev WroteSeeds (R : Runtime) (seeds : List (List Bytes)) (s s' : Accounts) : Prop :=
  Wrote R (seeds.map R.findProgramAddress) s s'

theorem wrote_of_store {cfg : Config} {ai : AccountInfo}
    (h : cfg.store R s ai = .ok s') : Wrote R [ai.key] s s' := by
  simp only [Config.store, revertIf_bind_eq_ok] at h
  exact wrote_of_writeZeroPadded h.2

/-- Writing the account of a key that is the address of some seeds. -/
theorem Wrote.seeds {key : Pubkey} {sd : List Bytes} {seeds : List (List Bytes)}
    (h : Wrote R [key] s s') (hkey : key = R.findProgramAddress sd) (hmem : sd ∈ seeds) :
    WroteSeeds R seeds s s' := by
  refine h.mono fun k hk => ?_
  obtain rfl := List.mem_singleton.mp hk
  exact List.mem_map.mpr ⟨sd, hmem, hkey.symm⟩

theorem wrote_of_consumeGovernance {ai : AccountInfo} {actionId : Bytes32}
    (h : consumeGovernance R clock s ai actionId = .ok s') :
    WroteSeeds R [govSeeds actionId] s s' := by
  simp only [consumeGovernance, bind_eq_ok, exists_unit, revertIf_eq_ok, not_not] at h
  obtain ⟨hkey, -, -, -, -, -, -, hw⟩ := h
  exact (wrote_of_writeFront hw).seeds hkey List.mem_cons_self

theorem wrote_of_consumeGovernanceIf {p : Prop} [Decidable p] {ai : Option AccountInfo}
    {actionId : Bytes32} (h : consumeGovernanceIf R clock s p ai actionId = .ok s') :
    WroteSeeds R [govSeeds actionId] s s' := by
  unfold consumeGovernanceIf at h
  split at h
  · rw [orRevert_bind_eq_ok] at h
    obtain ⟨gov, -, h⟩ := h
    exact wrote_of_consumeGovernance h
  · obtain rfl := Except.ok.inj h
    exact .refl _ _

theorem wrote_of_createUnless (hR : R.Lawful) {p : Prop} [Decidable p] {payer target : AccountInfo}
    {space : ℕ} (h : createUnless R s p payer target space = .ok s') :
    Wrote R [target.key] s s' := by
  unfold createUnless at h
  split at h
  · obtain rfl := Except.ok.inj h
    exact .refl _ _
  · exact (took_of_createPdaAccount hR h).wrote hR

theorem wrote_of_writeSchedule (hR : R.Lawful) {owner gov : AccountInfo} {actionId : Bytes32}
    (h : writeSchedule R clock s owner gov actionId = .ok s') :
    WroteSeeds R [govSeeds actionId] s s' := by
  simp only [writeSchedule, bind_eq_ok, exists_unit, revertIf_eq_ok, not_not] at h
  obtain ⟨hkey, -, s₁, hc, _, -, _, -, hw⟩ := h
  exact ((wrote_of_createUnless hR hc).trans (wrote_of_writeFront hw)).seeds hkey
    List.mem_cons_self

theorem wrote_of_bindVault (hR : R.Lawful) {payer ai : AccountInfo} {vault : Pubkey}
    {want : VaultBinding} (h : bindVault R s payer ai vault want = .ok s') :
    WroteSeeds R [vaultSeeds vault] s s' := by
  simp only [bindVault, bind_eq_ok, exists_unit, revertIf_eq_ok, not_not] at h
  obtain ⟨hkey, _, -, -, s₁, hc, hw⟩ := h
  exact ((wrote_of_createUnless hR hc).trans (wrote_of_writeFront hw)).seeds hkey
    List.mem_cons_self

theorem wrote_of_makeRoom (hR : R.Lawful) {owner ai : AccountInfo} {space : ℕ}
    (h : makeRoom R s owner ai space = .ok s') : Wrote R [ai.key] s s' := by
  unfold makeRoom at h
  split at h
  · exact (took_of_createPdaAccount hR h).wrote hR
  · split at h
    · exact wrote_of_growProgramAccount hR h
    · obtain rfl := Except.ok.inj h
      exact .refl _ _

theorem Configured.wrote {cfg cfg' : Config} {ai : AccountInfo} {s₁ s₂ : Accounts}
    {seeds : List (List Bytes)} (h : Configured R s ai cfg)
    (hs : cfg'.store R s₁ ai = .ok s₂) (hmem : configSeeds ∈ seeds) :
    WroteSeeds R seeds s₁ s₂ := (wrote_of_store hs).seeds h.key hmem

theorem wrote_of_processInit (hR : R.Lawful) {a : InitArgs}
    (h : processInit R clock s accounts a = .ok s') : WroteSeeds R [configSeeds] s s' := by
  simp only [processInit, bind_eq_ok, exists_unit, revertIf_eq_ok, not_not] at h
  obtain ⟨x, -, hkey, -, -, -, -, -, -, s₁, hc, -, _, -, hs⟩ := h
  exact (((took_of_createPdaAccount hR hc).wrote hR).trans (wrote_of_store hs)).seeds hkey
    List.mem_cons_self

theorem Sends.wrote (hR : R.Lawful) {a : SendArgs} {x : SendAccounts} {cfg : Config}
    {asset : AssetConfig} {wire : U64} {id : Bytes32}
    (S : Sends R clock s a x cfg asset wire id s' log) :
    WroteSeeds R [configSeeds, sentSeeds id] s s' := by
  obtain ⟨bumped, s₁, s₂, lockedAt, -, hs₁, hs₂, hs₃⟩ := S.steps
  have h₁ : WroteSeeds R [configSeeds, sentSeeds id] s s₁ := S.config.wrote hs₁ (by simp)
  have h₂ : WroteSeeds R [configSeeds, sentSeeds id] s₁ s₂ :=
    ((took_of_createSentRecord hR hs₂).wrote hR).seeds S.sent_key (by simp)
  exact (h₁.trans h₂).trans ((wrote_of_splTransfer hR hs₃).mono (List.nil_subset _))

theorem Claims.wrote (hR : R.Lawful) {a : ClaimArgs} {x : ClaimAccounts} {cfg : Config}
    {asset : AssetConfig} {localAmount : U64} {id : Bytes32}
    (C : Claims R s a x cfg asset localAmount id s' log) :
    WroteSeeds R [executedSeeds id] s s' := by
  obtain ⟨s₁, hs₁, hs₂⟩ := C.steps
  have h₁ : WroteSeeds R [executedSeeds id] s s₁ :=
    ((took_of_createMarker hR hs₁).wrote hR).seeds C.executed_key (by simp)
  exact h₁.trans ((wrote_of_splTransfer hR hs₂).mono (List.nil_subset _))

theorem Cancels.wrote (hR : R.Lawful) {a : ClaimArgs} {x : CancelAccounts} {cfg : Config}
    {id : Bytes32} (C : Cancels R s a x cfg id s' log) : WroteSeeds R [executedSeeds id] s s' :=
  ((took_of_createMarker hR C.step).wrote hR).seeds C.executed_key (by simp)

theorem Refunds.wrote (hR : R.Lawful) {a : RefundArgs} {x : RefundAccounts} {cfg : Config}
    {asset : AssetConfig} {sent : SentRecord} {id : Bytes32}
    (F : Refunds R s a x cfg asset sent id s' log) :
    WroteSeeds R [refundedSeeds id, sentSeeds id] s s' := by
  obtain ⟨s₁, s₂, hs₁, hs₂, hs₃⟩ := F.steps
  have h₁ : WroteSeeds R [refundedSeeds id, sentSeeds id] s s₁ :=
    ((took_of_createMarker hR hs₁).wrote hR).seeds F.refunded_key (by simp)
  have h₂ : WroteSeeds R [refundedSeeds id, sentSeeds id] s₁ s₂ :=
    (wrote_of_writeData hs₂ (by simp)).seeds F.sent_key (by simp)
  exact (h₁.trans h₂).trans ((wrote_of_splTransfer hR hs₃).mono (List.nil_subset _))

theorem wrote_of_processSetValidator {validator : Address} {active : Bool}
    (h : processSetValidator R clock s accounts validator active = .ok s') :
    WroteSeeds R [configSeeds, govSeeds (addValidatorActionId R.keccak256 validator)] s s' := by
  simp only [processSetValidator, bind_eq_ok, exists_unit] at h
  obtain ⟨x, -, cfg, hcfg, -, -, h⟩ := h
  have C := configured_of_loadConfig hcfg
  split at h
  · simp only [bind_eq_ok, exists_unit] at h
    obtain ⟨-, s₁, hgov, hs⟩ := h
    exact ((wrote_of_consumeGovernanceIf hgov).mono (by simp)).trans (C.wrote hs (by simp))
  · split at h
    · simp only [bind_eq_ok, exists_unit] at h
      obtain ⟨-, hs⟩ := h
      exact C.wrote hs (by simp)
    · obtain rfl := pure_eq_ok.mp h
      exact .refl _ _

theorem wrote_of_processSetThreshold {threshold : BitVec 32}
    (h : processSetThreshold R clock s accounts threshold = .ok s') :
    WroteSeeds R [configSeeds, govSeeds (lowerThresholdActionId R.keccak256 threshold)] s s' := by
  simp only [processSetThreshold, bind_eq_ok, exists_unit] at h
  obtain ⟨x, -, cfg, hcfg, -, -, -, s₁, hgov, hs⟩ := h
  exact ((wrote_of_consumeGovernanceIf hgov).mono (by simp)).trans
    ((configured_of_loadConfig hcfg).wrote hs (by simp))

theorem wrote_of_processRegisterCorridor {chainIdTo : U64}
    (h : processRegisterCorridor R s accounts chainIdTo = .ok s') :
    WroteSeeds R [configSeeds] s s' := by
  simp only [processRegisterCorridor, bind_eq_ok, exists_unit] at h
  obtain ⟨x, -, cfg, hcfg, -, -, h⟩ := h
  split at h
  · obtain rfl := pure_eq_ok.mp h
    exact .refl _ _
  · simp only [bind_eq_ok, exists_unit] at h
    obtain ⟨-, hs⟩ := h
    exact (configured_of_loadConfig hcfg).wrote hs (by simp)

theorem wrote_of_processSetPaused {paused : Bool}
    (h : processSetPaused R s accounts paused = .ok s') :
    WroteSeeds R [configSeeds] s s' := by
  simp only [processSetPaused, bind_eq_ok, exists_unit] at h
  obtain ⟨x, -, cfg, hcfg, -, -, h⟩ := h
  split at h
  · obtain rfl := pure_eq_ok.mp h
    exact .refl _ _
  · exact (configured_of_loadConfig hcfg).wrote h (by simp)

theorem wrote_of_processSetGuardian {guardian : Pubkey}
    (h : processSetGuardian R clock s accounts guardian = .ok s') :
    WroteSeeds R [configSeeds, govSeeds (setGuardianActionId R.keccak256 guardian)] s s' := by
  simp only [processSetGuardian, bind_eq_ok, exists_unit] at h
  obtain ⟨x, -, cfg, hcfg, -, h⟩ := h
  split at h
  · obtain rfl := pure_eq_ok.mp h
    exact .refl _ _
  · simp only [bind_eq_ok] at h
    obtain ⟨_, -, s₁, hgov, hs⟩ := h
    exact ((wrote_of_consumeGovernanceIf hgov).mono (by simp)).trans
      ((configured_of_loadConfig hcfg).wrote hs (by simp))

theorem wrote_of_processSeal (h : processSeal R s accounts = .ok s') :
    WroteSeeds R [configSeeds] s s' := by
  simp only [processSeal, bind_eq_ok, exists_unit] at h
  obtain ⟨x, -, cfg, hcfg, -, -, hs⟩ := h
  exact (configured_of_loadConfig hcfg).wrote hs (by simp)

theorem wrote_of_consumeRegistration {cfg : Config} {r : Registering} {ai : Option AccountInfo}
    {actionId : Bytes32} (h : consumeRegistration R clock s cfg r ai actionId = .ok s') :
    WroteSeeds R [govSeeds actionId] s s' := by
  unfold consumeRegistration at h
  split at h
  · rw [orRevert_bind_eq_ok] at h
    obtain ⟨now, -, h⟩ := h
    exact wrote_of_consumeGovernanceIf h
  · obtain rfl := Except.ok.inj h
    exact .refl _ _

theorem wrote_of_processRegisterAsset (hR : R.Lawful) {debridgeId : Bytes32}
    {bridgeDecimals : UInt8}
    (h : processRegisterAsset R clock s accounts debridgeId bridgeDecimals = .ok s') :
    WroteSeeds R (assetSeeds debridgeId :: registerSeeds R accounts debridgeId bridgeDecimals)
      s s' := by
  simp only [processRegisterAsset, bind_eq_ok, exists_unit, revertIf_eq_ok, not_not] at h
  obtain ⟨x, hx, cfg, -, -, localDecimals, -, hkey, r, -, s₁, hgov, s₂, hbind, h⟩ := h
  rw [registerSeeds, hx]
  have h₀ : WroteSeeds R (assetSeeds debridgeId :: [vaultSeeds x.vault.key,
      govSeeds (registerAssetActionId R.keccak256 debridgeId x.mint.key x.vault.key
        bridgeDecimals)]) s₁ s₂ := (wrote_of_bindVault hR hbind).mono (by simp)
  have h₁ := ((wrote_of_consumeRegistration hgov).mono (by simp)).trans h₀
  split at h
  · obtain rfl := pure_eq_ok.mp h
    exact h₁
  · simp only [bind_eq_ok] at h
    obtain ⟨s₃, hroom, hw⟩ := h
    exact h₁.trans (((wrote_of_makeRoom hR hroom).trans (wrote_of_writeZeroPadded hw)).seeds hkey
      List.mem_cons_self)

theorem wrote_of_processScheduleAction (hR : R.Lawful) {action : GovernanceAction}
    (h : processScheduleAction R clock s accounts action = .ok (s', log)) :
    WroteSeeds R ((log.filterMap Log.action).map govSeeds) s s' := by
  simp only [processScheduleAction, bind_eq_ok, exists_unit, pure_eq_ok, Prod.mk.injEq] at h
  obtain ⟨x, -, cfg, -, -, actionId, -, s₁, hs, rfl, rfl⟩ := h
  exact wrote_of_writeSchedule hR hs

theorem wrote_of_processCancelScheduledGovernance {actionId : Bytes32}
    (h : processCancelScheduledGovernance R s accounts actionId = .ok s') :
    WroteSeeds R [govSeeds actionId] s s' := by
  simp only [processCancelScheduledGovernance, bind_eq_ok, exists_unit, revertIf_eq_ok,
    not_not] at h
  obtain ⟨x, -, gov, -, cfg, -, -, -, hkey, h⟩ := h
  split at h
  · obtain rfl := pure_eq_ok.mp h
    exact .refl _ _
  · exact (wrote_of_writeFront h).seeds hkey List.mem_cons_self

/-- **An instruction writes what its kind says**, one case for each kind. -/
theorem wrote_of_processInstruction (hR : R.Lawful) {ix : Instruction}
    (h : processInstruction R clock s accounts ix = .ok (s', log)) :
    WroteSeeds R (ix.writes R accounts log) s s' := by
  cases ix with
  | init a => exact wrote_of_processInit hR (quiet_eq_ok.mp h).1
  | send a =>
    obtain ⟨x, cfg, asset, wire, id, -, S⟩ := sends_of_processSend h
    rw [S.log]
    exact S.wrote hR
  | claim a =>
    obtain ⟨x, cfg, asset, localAmount, id, -, C⟩ := claims_of_processClaim h
    rw [C.log]
    exact C.wrote hR
  | setValidator validator active => exact wrote_of_processSetValidator (quiet_eq_ok.mp h).1
  | setThreshold threshold => exact wrote_of_processSetThreshold (quiet_eq_ok.mp h).1
  | registerAsset debridgeId bridgeDecimals =>
    exact wrote_of_processRegisterAsset hR (quiet_eq_ok.mp h).1
  | registerCorridor chainIdTo => exact wrote_of_processRegisterCorridor (quiet_eq_ok.mp h).1
  | pause => exact wrote_of_processSetPaused (quiet_eq_ok.mp h).1
  | unpause => exact wrote_of_processSetPaused (quiet_eq_ok.mp h).1
  | setGuardian guardian => exact wrote_of_processSetGuardian (quiet_eq_ok.mp h).1
  | cancel a =>
    obtain ⟨x, cfg, id, -, C⟩ := cancels_of_processCancel h
    rw [C.log]
    exact C.wrote hR
  | refund a =>
    obtain ⟨x, cfg, asset, sent, id, -, F⟩ := refunds_of_processRefund h
    rw [F.log]
    exact F.wrote hR
  | scheduleGovernance actionId => exact absurd h (by simp [processInstruction])
  | cancelScheduledGovernance actionId =>
    exact wrote_of_processCancelScheduledGovernance (quiet_eq_ok.mp h).1
  | sealGate => exact wrote_of_processSeal (quiet_eq_ok.mp h).1
  | scheduleAction action => exact wrote_of_processScheduleAction hR h

end Solana

end SelendraBridge
