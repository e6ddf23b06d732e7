import SelendraBridge.Gate.Machine

/-!
# What a governing call does, said once

There are two dozen calls of the owner and the guardian, and what the rest of the
development needs to know of any of them is one record,
`SelendraBridge.Gate.Governed`: the books stay, the two timelocks move by at most one
operation of `Timelock.Op`, a timelocked action is taken only when it is ripe, and a
power that the storage has after the call and had not before is one that the call took.

The record is stated for gates that were initialized at the current version. On those
the migration of older gates reverts, and that is the one call that would register a
token outside the timelock and outside the setup phase.
-/

namespace SelendraBridge

namespace Gate

open Revert Timelock

/-! ### The two timelocks -/

/-- **The governance timelock** of a gate: which action ids are scheduled. -/
def governance (g : Gate) : Pending Bytes32 Unit := fun id =>
  if g.governanceReadyAt id = 0 then none else some (g.governanceReadyAt id, ())

/-- **The upgrade timelock** of a gate: which implementations are scheduled, with the
code and the hash of the call data that were pinned. -/
def upgrades (g : Gate) : Pending Address (Bytes32 × Bytes32) := fun implementation =>
  if g.upgradeReadyAt implementation = 0 then none
  else some (g.upgradeReadyAt implementation,
    g.upgradeCodehash implementation, g.upgradeDataHash implementation)

/-- The action that a call schedules. -/
def GovCall.schedules : GovCall → Option Action
  | .scheduleAddValidator v => some (.addValidator v)
  | .scheduleLowerThreshold t => some (.lowerThreshold t)
  | .scheduleSetLocalToken debridgeId localToken => some (.setLocalToken debridgeId localToken)
  | .scheduleSetBridgeDecimals token bridgeDecimals =>
    some (.setBridgeDecimals token bridgeDecimals)
  | .scheduleSetGuardian newGuardian => some (.setGuardian newGuardian)
  | _ => none

/-- The action id that a call cancels. -/
def GovCall.cancels : GovCall → Option Bytes32
  | .cancelScheduledGovernance id => some id
  | _ => none

section Ops

variable {σ : Type} (E : Chain σ) (c : Call) (g : Gate)

/-- **The timelocked action that a call takes**: a validator that is not one yet, a
threshold below the current one; and, once the setup phase is over, any entry of the
registry and any guardian in place of another. -/
def GovCall.takes : GovCall → Option Action
  | .setValidator v active =>
    if active = true ∧ g.isValidator v = false then some (.addValidator v) else none
  | .setThreshold t => if t < g.threshold then some (.lowerThreshold t) else none
  | .setLocalToken debridgeId localToken =>
    if g.inSetupPhase c = false then some (.setLocalToken debridgeId localToken) else none
  | .setBridgeDecimals token bridgeDecimals =>
    if g.inSetupPhase c = false then some (.setBridgeDecimals token bridgeDecimals) else none
  | .setGuardian newGuardian =>
    if newGuardian ≠ g.guardian ∧ g.guardian ≠ 0 ∧ g.inSetupPhase c = false then
      some (.setGuardian newGuardian) else none
  | _ => none

/-- What a call does to the governance timelock. -/
def GovCall.governanceOp (x : GovCall) : Option (Op Bytes32 Unit) :=
  match x.schedules, x.takes c g with
  | some a, _ => some (.schedule (actionId E a) ())
  | none, some a => some (.clear (actionId E a))
  | none, none => x.cancels.map .clear

/-- What a call does to the upgrade timelock. -/
def GovCall.upgradeOp : GovCall → Option (Op Address (Bytes32 × Bytes32))
  | .scheduleUpgrade implementation data =>
    some (.schedule implementation (c.codehash implementation, E.keccak256 data))
  | .cancelScheduledUpgrade implementation => some (.clear implementation)
  | .upgradeToAndCall newImplementation _ _ => some (.clear newImplementation)
  | _ => none

/-- **What a governing call does.** -/
structure Governed (x : GovCall) (g' : Gate) : Prop where
  books : g'.books = g.books
  setupDeadline : g'.setupDeadline = g.setupDeadline
  governance : g'.governance = (x.governanceOp E c g).elim g.governance
    (Op.effect GOVERNANCE_DELAY c.timestamp g.governance)
  upgrades : g'.upgrades = (x.upgradeOp E c).elim g.upgrades
    (Op.effect UPGRADE_DELAY c.timestamp g.upgrades)
  /-- An action is taken only when it is ripe. -/
  ripe : ∀ a, x.takes c g = some a → ∃ r, g.governance (actionId E a) = some (r, ()) ∧
    r ≤ c.timestamp ∧ c.timestamp ≤ r + SCHEDULE_GRACE
  /-- So is an upgrade, to the pinned code and with the pinned data. -/
  upgraded : ∀ implementation data accepted, x = .upgradeToAndCall implementation data accepted →
    ∃ r, g.upgrades implementation =
        some (r, c.codehash implementation, E.keccak256 data) ∧
      r ≤ c.timestamp ∧ c.timestamp ≤ r + SCHEDULE_GRACE
  validators : ∀ v, g'.isValidator v = true →
    g.isValidator v = true ∨ x.takes c g = some (.addValidator v)
  threshold : g.threshold ≤ g'.threshold ∨ x.takes c g = some (.lowerThreshold g'.threshold)
  /-- The registry is written once. -/
  tokens : ∀ d, g'.tokenOf d = g.tokenOf d ∨ g.tokenOf d = 0 ∧ (g.inSetupPhase c = true ∨
    x.takes c g = some (.setLocalToken d (g'.tokenOf d)))
  /-- So are the scales. -/
  scales : ∀ token, g'.bridgeDecimalsOf token = g.bridgeDecimalsOf token ∨
    (g.bridgeDecimalsOf token).set = false ∧ (g.inSetupPhase c = true ∨
      x.takes c g = some (.setBridgeDecimals token (g'.bridgeDecimalsOf token).bridgeDecimals))
  guardian : g'.guardian = g.guardian ∨ g.guardian = 0 ∨ g.inSetupPhase c = true ∨
    x.takes c g = some (.setGuardian g'.guardian)

end Ops

variable {σ : Type} {E : Chain σ} {c : Call} {g g' : Gate}

/-! ### How the tables move -/

theorem governance_schedule {id : Bytes32} (h : g'.governanceReadyAt =
    Function.update g.governanceReadyAt id (c.timestamp + GOVERNANCE_DELAY)) :
    g'.governance = Op.effect GOVERNANCE_DELAY c.timestamp g.governance (.schedule id ()) := by
  funext k
  rw [governance, Op.effect, h]
  rcases eq_or_ne k id with rfl | hne
  · simp [GOVERNANCE_DELAY]
  · simp [hne, governance]

theorem governance_clear (c : Call) {id : Bytes32}
    (h : g'.governanceReadyAt = Function.update g.governanceReadyAt id 0) :
    g'.governance = Op.effect GOVERNANCE_DELAY c.timestamp g.governance (.clear id) := by
  funext k
  rw [governance, Op.effect, h]
  rcases eq_or_ne k id with rfl | hne
  · simp
  · simp [hne, governance]

theorem upgrades_schedule {implementation : Address} {codehash dataHash : Bytes32}
    (hr : g'.upgradeReadyAt =
      Function.update g.upgradeReadyAt implementation (c.timestamp + UPGRADE_DELAY))
    (hc : g'.upgradeCodehash = Function.update g.upgradeCodehash implementation codehash)
    (hd : g'.upgradeDataHash = Function.update g.upgradeDataHash implementation dataHash) :
    g'.upgrades = Op.effect UPGRADE_DELAY c.timestamp g.upgrades
      (.schedule implementation (codehash, dataHash)) := by
  funext k
  rw [upgrades, Op.effect, hr, hc, hd]
  rcases eq_or_ne k implementation with rfl | hne
  · simp [UPGRADE_DELAY]
  · simp [hne, upgrades]

theorem upgrades_clear (c : Call) {implementation : Address} :
    (clearUpgrade g implementation).upgrades =
      Op.effect UPGRADE_DELAY c.timestamp g.upgrades (.clear implementation) := by
  funext k
  rw [upgrades, Op.effect, clearUpgrade]
  rcases eq_or_ne k implementation with rfl | hne
  · simp
  · simp [hne, upgrades]

/-- What `_consumeGovernance` checks and writes. -/
theorem consumeGovernance_eq_ok {id : Bytes32} (h : consumeGovernance c g id = .ok g') :
    g' = { g with governanceReadyAt := Function.update g.governanceReadyAt id 0 } ∧
      ∃ r, g.governance id = some (r, ()) ∧ r ≤ c.timestamp ∧
        c.timestamp ≤ r + SCHEDULE_GRACE := by
  simp only [consumeGovernance, bind_eq_ok, exists_unit, revertIf_eq_ok, pure_eq_ok, not_lt] at h
  obtain ⟨hne, hready, hgrace, rfl⟩ := h
  exact ⟨rfl, _, by rw [governance, if_neg hne], hready, hgrace⟩

/-- What `_requireMaturedUpgrade` checks. -/
theorem requireMaturedUpgrade_eq_ok {implementation : Address}
    (h : requireMaturedUpgrade c g implementation = .ok ()) :
    ∃ r, g.upgrades implementation =
        some (r, c.codehash implementation, g.upgradeDataHash implementation) ∧
      r ≤ c.timestamp ∧ c.timestamp ≤ r + SCHEDULE_GRACE := by
  simp only [requireMaturedUpgrade, bind_eq_ok, exists_unit, revertIf_eq_ok, not_lt, not_not] at h
  obtain ⟨hne, hready, hgrace, hcode⟩ := h
  exact ⟨_, by rw [upgrades, if_neg hne, hcode], hready, hgrace⟩

/-! ### The kinds of calls -/

/-- A call that touches neither timelock and grants nothing. -/
theorem Governed.restricting {x : GovCall} (hop : x.governanceOp E c g = none)
    (htakes : x.takes c g = none) (hup : x.upgradeOp E c = none)
    (hrest : g' = { g with
      owner := g'.owner
      pendingOwner := g'.pendingOwner
      isValidator := g'.isValidator
      validatorCount := g'.validatorCount
      threshold := g'.threshold
      paused := g'.paused
      isSealed := g'.isSealed
      supportedChain := g'.supportedChain
      minSendAmount := g'.minSendAmount })
    (hval : ∀ v, g'.isValidator v = true → g.isValidator v = true)
    (hthr : g.threshold ≤ g'.threshold) : Governed E c g x g' where
  books := by rw [hrest]; rfl
  setupDeadline := by rw [hrest]
  governance := by rw [hop, hrest]; rfl
  upgrades := by rw [hup, hrest]; rfl
  ripe a h := absurd (htakes.symm.trans h) (by simp)
  upgraded implementation data accepted h := by
    rw [h] at hup
    exact absurd hup (by simp [GovCall.upgradeOp])
  validators v h := .inl (hval v h)
  threshold := .inl hthr
  tokens d := .inl (by rw [hrest])
  scales token := .inl (by rw [hrest])
  guardian := .inl (by rw [hrest])

/-- A call that schedules an action. -/
theorem Governed.scheduling {x : GovCall} {a : Action} (hx : x.schedules = some a)
    (htakes : x.takes c g = none) (hup : x.upgradeOp E c = none) :
    Governed E c g x (schedule c g (actionId E a)).1 where
  books := rfl
  setupDeadline := rfl
  governance := by
    rw [GovCall.governanceOp, hx]
    exact governance_schedule rfl
  upgrades := by rw [hup]; rfl
  ripe b h := absurd (htakes.symm.trans h) (by simp)
  upgraded implementation data accepted h := by
    rw [h] at hx
    exact absurd hx (by simp [GovCall.schedules])
  validators v h := .inl h
  threshold := .inl (BitVec.le_refl _)
  tokens d := .inl rfl
  scales token := .inl rfl
  guardian := .inl rfl

/-- **The gate between the timelock and the action**: a call that takes `a` under a
condition has consumed its schedule when the condition holds, and changed nothing yet
when it does not. -/
theorem taken {x : GovCall} {a : Action} {p : Prop} [Decidable p] {g₁ : Gate}
    (hx : x.schedules = none) (hcan : x.cancels = none)
    (htakes : x.takes c g = if p then some a else none)
    (h : consumeGovernanceIf c g p (actionId E a) = .ok g₁) :
    g₁ = { g with governanceReadyAt := g₁.governanceReadyAt } ∧
      g₁.governance = (x.governanceOp E c g).elim g.governance
        (Op.effect GOVERNANCE_DELAY c.timestamp g.governance) ∧
      ∀ b, x.takes c g = some b → ∃ r, g.governance (actionId E b) = some (r, ()) ∧
        r ≤ c.timestamp ∧ c.timestamp ≤ r + SCHEDULE_GRACE := by
  rw [consumeGovernanceIf] at h
  by_cases hp : p
  · rw [if_pos hp] at h htakes
    obtain ⟨rfl, hripe⟩ := consumeGovernance_eq_ok h
    refine ⟨rfl, ?_, ?_⟩
    · rw [GovCall.governanceOp, hx, htakes]
      exact governance_clear c rfl
    · intro b hb
      obtain rfl := Option.some.inj (htakes.symm.trans hb)
      exact hripe
  · rw [if_neg hp] at h htakes
    obtain rfl := Except.ok.inj h
    refine ⟨rfl, ?_, fun b hb => absurd (htakes.symm.trans hb) (by simp)⟩
    rw [GovCall.governanceOp, hx, htakes, hcan]
    rfl

/-- An unchanged threshold is not lower. -/
theorem threshold_le_of_eq (h : g'.threshold = g.threshold) : g.threshold ≤ g'.threshold := by
  rw [h]
  exact BitVec.le_refl _

/-- Either the setup phase is on, or the call takes the action it takes outside it. -/
theorem setup_or_takes {x : GovCall} {a : Action}
    (h : x.takes c g = if g.inSetupPhase c = false then some a else none) :
    g.inSetupPhase c = true ∨ x.takes c g = some a := by
  rcases Bool.eq_false_or_eq_true (g.inSetupPhase c) with hs | hs
  · exact .inl hs
  · exact .inr (h.trans (if_pos hs))

/-! ### Call by call -/

theorem governed_setValidator {v : Address} {active : Bool} {log : List Event}
    (h : setValidator E c g v active = .ok (g', log)) :
    Governed E c g (.setValidator v active) g' := by
  rw [setValidator, onlyOwner, revertIf_bind_eq_ok, revertIf_bind_eq_ok] at h
  obtain ⟨-, -, h⟩ := h
  by_cases hadd : active = true ∧ g.isValidator v = false
  · have htakes : (GovCall.setValidator v active).takes c g = some (.addValidator v) := if_pos hadd
    rw [if_pos hadd] at h
    simp only [bind_eq_ok, checked_eq_ok, pure_eq_ok, Prod.mk.injEq] at h
    obtain ⟨g₁, hconsume, n, hn, rfl, -⟩ := h
    obtain ⟨hg₁, hgov, hripe⟩ := taken (x := .setValidator v active) (a := .addValidator v) rfl rfl
      rfl ((if_pos hadd).trans hconsume)
    have hval : g₁.isValidator = g.isValidator := by rw [hg₁]
    have hthr : g₁.threshold = g.threshold := by rw [hg₁]
    exact {
      books := by rw [hg₁]; rfl
      setupDeadline := by rw [hg₁]
      governance := hgov
      upgrades := by rw [hg₁]; rfl
      ripe := hripe
      upgraded := by simp
      validators := by
        intro v' hv'
        rcases eq_or_ne v' v with rfl | hne
        · exact .inr htakes
        · have hv₁ : Function.update g₁.isValidator v true v' = true := hv'
          rw [Function.update_of_ne hne, hval] at hv₁
          exact .inl hv₁
      threshold := .inl (threshold_le_of_eq hthr)
      tokens := fun d => .inl (by rw [hg₁])
      scales := fun token => .inl (by rw [hg₁])
      guardian := .inl (by rw [hg₁]) }
  · have htakes : (GovCall.setValidator v active).takes c g = none := if_neg hadd
    rw [if_neg hadd] at h
    by_cases hrem : active = false ∧ g.isValidator v = true
    · rw [if_pos hrem] at h
      simp only [bind_eq_ok, exists_unit, revertIf_eq_ok, pure_eq_ok, Prod.mk.injEq] at h
      obtain ⟨n, -, -, rfl, -⟩ := h
      refine .restricting ?_ htakes rfl rfl ?_ (BitVec.le_refl _)
      · rw [GovCall.governanceOp, htakes]; rfl
      · intro v' hv'
        rcases eq_or_ne v' v with rfl | hne
        · exact absurd hv' (by simp)
        · have hv₁ : Function.update g.isValidator v false v' = true := hv'
          rwa [Function.update_of_ne hne] at hv₁
    · rw [if_neg hrem] at h
      obtain ⟨rfl, -⟩ := Prod.mk.inj (Except.ok.inj h)
      refine .restricting ?_ htakes rfl rfl (fun _ h => h) (BitVec.le_refl _)
      rw [GovCall.governanceOp, htakes]; rfl

theorem governed_setThreshold {t : U256} {log : List Event}
    (h : setThreshold E c g t = .ok (g', log)) : Governed E c g (.setThreshold t) g' := by
  simp only [setThreshold, bind_eq_ok, exists_unit, pure_eq_ok, Prod.mk.injEq] at h
  obtain ⟨-, -, g₁, hconsume, rfl, -⟩ := h
  obtain ⟨hg₁, hgov, hripe⟩ := taken (x := .setThreshold t) rfl rfl rfl hconsume
  exact {
    books := by rw [hg₁]; rfl
    setupDeadline := by rw [hg₁]
    governance := hgov
    upgrades := by rw [hg₁]; rfl
    ripe := hripe
    upgraded := by simp
    validators := fun v hv => .inl (by rwa [hg₁] at hv)
    threshold := by
      by_cases hlt : t < g.threshold
      · exact .inr (if_pos hlt)
      · exact .inl (BitVec.not_lt.mp hlt)
    tokens := fun d => .inl (by rw [hg₁])
    scales := fun token => .inl (by rw [hg₁])
    guardian := .inl (by rw [hg₁]) }

theorem governed_setLocalToken {d : Bytes32} {token : Address} {log : List Event}
    (h : setLocalToken E c g d token = .ok (g', log)) :
    Governed E c g (.setLocalToken d token) g' := by
  simp only [setLocalToken, bind_eq_ok, exists_unit, revertIf_eq_ok, pure_eq_ok, Prod.mk.injEq,
    not_not] at h
  obtain ⟨-, -, hcur, g₁, hconsume, -, rfl, -⟩ := h
  obtain ⟨hg₁, hgov, hripe⟩ := taken (x := .setLocalToken d token) rfl rfl rfl hconsume
  have htok : g₁.tokenOf = g.tokenOf := by rw [hg₁]
  have hthr : g₁.threshold = g.threshold := by rw [hg₁]
  exact {
    books := by rw [hg₁]; rfl
    setupDeadline := by rw [hg₁]
    governance := hgov
    upgrades := by rw [hg₁]; rfl
    ripe := hripe
    upgraded := by simp
    validators := fun v hv => .inl (by rwa [hg₁] at hv)
    threshold := .inl (threshold_le_of_eq hthr)
    tokens := by
      intro d'
      rcases eq_or_ne d' d with rfl | hne
      · refine .inr ⟨hcur, ?_⟩
        dsimp only
        rw [Function.update_self]
        exact setup_or_takes rfl
      · exact .inl ((Function.update_of_ne hne _ _).trans (congrFun htok d'))
    scales := fun token => .inl (by rw [hg₁])
    guardian := .inl (by rw [hg₁]) }

theorem governed_setBridgeDecimals {tokens : σ} {token : Address} {n : UInt8} {log : List Event}
    (h : setBridgeDecimals E c g tokens token n = .ok (g', log)) :
    Governed E c g (.setBridgeDecimals token n) g' := by
  simp only [setBridgeDecimals, bind_eq_ok, exists_unit, revertIf_eq_ok, pure_eq_ok,
    Prod.mk.injEq, Bool.not_eq_true] at h
  obtain ⟨-, -, hunset, localDecimals, -, -, g₁, hconsume, rfl, -⟩ := h
  obtain ⟨hg₁, hgov, hripe⟩ := taken (x := .setBridgeDecimals token n) rfl rfl rfl hconsume
  have hscale : g₁.bridgeDecimalsOf = g.bridgeDecimalsOf := by rw [hg₁]
  have hthr : g₁.threshold = g.threshold := by rw [hg₁]
  exact {
    books := by rw [hg₁]; rfl
    setupDeadline := by rw [hg₁]
    governance := hgov
    upgrades := by rw [hg₁]; rfl
    ripe := hripe
    upgraded := by simp
    validators := fun v hv => .inl (by rwa [hg₁] at hv)
    threshold := .inl (threshold_le_of_eq hthr)
    tokens := fun d => .inl (by rw [hg₁])
    scales := by
      intro token'
      rcases eq_or_ne token' token with rfl | hne
      · refine .inr ⟨hunset, ?_⟩
        dsimp only
        rw [Function.update_self]
        exact setup_or_takes rfl
      · exact .inl ((Function.update_of_ne hne _ _).trans (congrFun hscale token'))
    guardian := .inl (by rw [hg₁]) }

theorem governed_setGuardian {newGuardian : Address} {log : List Event}
    (h : setGuardian E c g newGuardian = .ok (g', log)) :
    Governed E c g (.setGuardian newGuardian) g' := by
  rw [setGuardian, onlyOwner, revertIf_bind_eq_ok] at h
  obtain ⟨-, h⟩ := h
  by_cases hsame : newGuardian = g.guardian
  · have htakes : (GovCall.setGuardian newGuardian).takes c g = none := if_neg (by simp [hsame])
    rw [if_pos hsame] at h
    obtain ⟨rfl, -⟩ := Prod.mk.inj (Except.ok.inj h)
    refine .restricting ?_ htakes rfl rfl (fun _ h => h) (BitVec.le_refl _)
    rw [GovCall.governanceOp, htakes]; rfl
  · rw [if_neg hsame] at h
    simp only [bind_eq_ok, pure_eq_ok, Prod.mk.injEq] at h
    obtain ⟨g₁, hconsume, rfl, -⟩ := h
    have htakes : (GovCall.setGuardian newGuardian).takes c g =
        if g.guardian ≠ 0 ∧ g.inSetupPhase c = false then some (.setGuardian newGuardian)
        else none := by
      simp only [GovCall.takes, ne_eq, hsame, not_false_eq_true, true_and]
    obtain ⟨hg₁, hgov, hripe⟩ := taken rfl rfl htakes hconsume
    have hthr : g₁.threshold = g.threshold := by rw [hg₁]
    exact {
      books := by rw [hg₁]; rfl
      setupDeadline := by rw [hg₁]
      governance := hgov
      upgrades := by rw [hg₁]; rfl
      ripe := hripe
      upgraded := by simp
      validators := fun v hv => .inl (by rwa [hg₁] at hv)
      threshold := .inl (threshold_le_of_eq hthr)
      tokens := fun d => .inl (by rw [hg₁])
      scales := fun token => .inl (by rw [hg₁])
      guardian := by
        by_cases hzero : g.guardian = 0
        · exact .inr (.inl hzero)
        · rcases Bool.eq_false_or_eq_true (g.inSetupPhase c) with hs | hs
          · exact .inr (.inr (.inl hs))
          · exact .inr (.inr (.inr (htakes.trans (if_pos ⟨hzero, hs⟩)))) }

theorem governed_upgradeToAndCall {implementation : Address} {data : Bytes} {accepted : Bool}
    {log : List Event} (h : upgradeToAndCall E c g implementation data accepted = .ok (g', log)) :
    Governed E c g (.upgradeToAndCall implementation data accepted) g' := by
  simp only [upgradeToAndCall, authorizeUpgrade, bind_eq_ok, exists_unit, revertIf_eq_ok,
    pure_eq_ok, Prod.mk.injEq, not_not] at h
  obtain ⟨-, hmature, hdata, g₁, ⟨-, -, rfl⟩, -, rfl, -⟩ := h
  exact {
    books := rfl
    setupDeadline := rfl
    governance := rfl
    upgrades := upgrades_clear c
    ripe := by simp [GovCall.takes]
    upgraded := by
      rintro _ _ _ ⟨⟩
      rw [hdata]
      exact requireMaturedUpgrade_eq_ok hmature
    validators := fun v hv => .inl hv
    threshold := .inl (BitVec.le_refl _)
    tokens := fun d => .inl rfl
    scales := fun token => .inl rfl
    guardian := .inl rfl }

theorem governed_scheduleUpgrade {implementation : Address} {data : Bytes} {log : List Event}
    (h : scheduleUpgrade E c g implementation data = .ok (g', log)) :
    Governed E c g (.scheduleUpgrade implementation data) g' := by
  simp only [scheduleUpgrade, bind_eq_ok, exists_unit, pure_eq_ok, Prod.mk.injEq] at h
  obtain ⟨-, -, -, rfl, -⟩ := h
  exact {
    books := rfl
    setupDeadline := rfl
    governance := rfl
    upgrades := upgrades_schedule rfl rfl rfl
    ripe := by simp [GovCall.takes]
    upgraded := by simp
    validators := fun v hv => .inl hv
    threshold := .inl (BitVec.le_refl _)
    tokens := fun d => .inl rfl
    scales := fun token => .inl rfl
    guardian := .inl rfl }

theorem governed_cancelScheduledUpgrade {implementation : Address} {log : List Event}
    (h : cancelScheduledUpgrade c g implementation = .ok (g', log)) :
    Governed E c g (.cancelScheduledUpgrade implementation) g' := by
  simp only [cancelScheduledUpgrade, bind_eq_ok, exists_unit, pure_eq_ok, Prod.mk.injEq] at h
  obtain ⟨-, rfl, -⟩ := h
  exact {
    books := rfl
    setupDeadline := rfl
    governance := rfl
    upgrades := upgrades_clear c
    ripe := by simp [GovCall.takes]
    upgraded := by simp
    validators := fun v hv => .inl hv
    threshold := .inl (BitVec.le_refl _)
    tokens := fun d => .inl rfl
    scales := fun token => .inl rfl
    guardian := .inl rfl }

theorem governed_cancelScheduledGovernance {id : Bytes32} {log : List Event}
    (h : cancelScheduledGovernance c g id = .ok (g', log)) :
    Governed E c g (.cancelScheduledGovernance id) g' := by
  simp only [cancelScheduledGovernance, bind_eq_ok, exists_unit, pure_eq_ok, Prod.mk.injEq] at h
  obtain ⟨-, rfl, -⟩ := h
  exact {
    books := rfl
    setupDeadline := rfl
    governance := governance_clear c rfl
    upgrades := rfl
    ripe := by simp [GovCall.takes]
    upgraded := by simp
    validators := fun v hv => .inl hv
    threshold := .inl (BitVec.le_refl _)
    tokens := fun d => .inl rfl
    scales := fun token => .inl rfl
    guardian := .inl rfl }

/-- **What every governing call does**, on a gate initialized at this version. -/
theorem governed_of_govern {tokens : σ} {x : GovCall} {log : List Event}
    (h : govern E c g tokens x = .ok (g', log)) (hdeadline : g.setupDeadline ≠ 0) :
    Governed E c g x g' := by
  cases x with
  | migrate legacyTokens legacyChains =>
    -- A gate with a setup deadline is not an older one.
    simp only [govern, initializeV2, bind_eq_ok, exists_unit, revertIf_eq_ok, not_not] at h
    obtain ⟨-, -, hlegacy, -⟩ := h
    exact absurd hlegacy hdeadline
  | scheduleUpgrade implementation data => exact governed_scheduleUpgrade h
  | cancelScheduledUpgrade implementation => exact governed_cancelScheduledUpgrade h
  | upgradeToAndCall implementation data accepted => exact governed_upgradeToAndCall h
  | scheduleAddValidator v =>
    simp only [govern, scheduleAddValidator, bind_eq_ok, exists_unit, pure_eq_ok,
      Prod.mk.injEq] at h
    obtain ⟨-, -, rfl, -⟩ := h
    exact .scheduling rfl rfl rfl
  | scheduleLowerThreshold t =>
    simp only [govern, scheduleLowerThreshold, bind_eq_ok, exists_unit, pure_eq_ok,
      Prod.mk.injEq] at h
    obtain ⟨-, -, rfl, -⟩ := h
    exact .scheduling rfl rfl rfl
  | scheduleSetLocalToken d token =>
    simp only [govern, scheduleSetLocalToken, bind_eq_ok, exists_unit, pure_eq_ok,
      Prod.mk.injEq] at h
    obtain ⟨-, -, -, -, rfl, -⟩ := h
    exact .scheduling rfl rfl rfl
  | scheduleSetBridgeDecimals token n =>
    simp only [govern, scheduleSetBridgeDecimals, bind_eq_ok, exists_unit, pure_eq_ok,
      Prod.mk.injEq] at h
    obtain ⟨-, -, -, -, localDecimals, -, -, rfl, -⟩ := h
    exact .scheduling rfl rfl rfl
  | scheduleSetGuardian newGuardian =>
    simp only [govern, scheduleSetGuardian, bind_eq_ok, exists_unit, pure_eq_ok,
      Prod.mk.injEq] at h
    obtain ⟨-, rfl, -⟩ := h
    exact .scheduling rfl rfl rfl
  | cancelScheduledGovernance id => exact governed_cancelScheduledGovernance h
  | setValidator v active => exact governed_setValidator h
  | setThreshold t => exact governed_setThreshold h
  | setLocalToken d token => exact governed_setLocalToken h
  | setBridgeDecimals token n => exact governed_setBridgeDecimals h
  | setGuardian newGuardian => exact governed_setGuardian h
  | transferOwnership newOwner =>
    simp only [govern, transferOwnership, bind_eq_ok, exists_unit, pure_eq_ok, Prod.mk.injEq] at h
    obtain ⟨-, -, rfl, -⟩ := h
    exact .restricting rfl rfl rfl rfl (fun _ h => h) (BitVec.le_refl _)
  | acceptOwnership =>
    simp only [govern, acceptOwnership, bind_eq_ok, exists_unit, pure_eq_ok, Prod.mk.injEq] at h
    obtain ⟨-, rfl, -⟩ := h
    exact .restricting rfl rfl rfl rfl (fun _ h => h) (BitVec.le_refl _)
  | sealGate =>
    simp only [govern, Gate.sealGate, bind_eq_ok, exists_unit, pure_eq_ok, Prod.mk.injEq] at h
    obtain ⟨-, -, rfl, -⟩ := h
    exact .restricting rfl rfl rfl rfl (fun _ h => h) (BitVec.le_refl _)
  | setSupportedChain chainId ok =>
    simp only [govern, setSupportedChain, bind_eq_ok, exists_unit, pure_eq_ok, Prod.mk.injEq] at h
    obtain ⟨-, rfl, -⟩ := h
    exact .restricting rfl rfl rfl rfl (fun _ h => h) (BitVec.le_refl _)
  | setMinSendAmount token minAmount =>
    simp only [govern, setMinSendAmount, bind_eq_ok, exists_unit, pure_eq_ok, Prod.mk.injEq] at h
    obtain ⟨-, -, rfl, -⟩ := h
    exact .restricting rfl rfl rfl rfl (fun _ h => h) (BitVec.le_refl _)
  | pause =>
    simp only [govern, Gate.pause, bind_eq_ok, exists_unit] at h
    obtain ⟨-, h⟩ := h
    split at h <;> obtain ⟨rfl, -⟩ := Prod.mk.inj (Except.ok.inj h) <;>
      exact .restricting rfl rfl rfl rfl (fun _ h => h) (BitVec.le_refl _)
  | unpause =>
    simp only [govern, Gate.unpause, bind_eq_ok, exists_unit] at h
    obtain ⟨-, h⟩ := h
    split at h <;> obtain ⟨rfl, -⟩ := Prod.mk.inj (Except.ok.inj h) <;>
      exact .restricting rfl rfl rfl rfl (fun _ h => h) (BitVec.le_refl _)

/-! ### Where a run starts -/

/-- The loop of `initialize` writes only the validators and their count. -/
theorem initValidators_eq_ok {vs : List Address} {log : List Event}
    (h : initValidators vs g = .ok (g', log)) :
    g' = { g with isValidator := g'.isValidator, validatorCount := g'.validatorCount } := by
  induction vs generalizing g g' log with
  | nil =>
    obtain ⟨rfl, -⟩ := Prod.mk.inj (Except.ok.inj h)
    rfl
  | cons v vs ih =>
    rw [initValidators, revertIf_bind_eq_ok] at h
    obtain ⟨-, h⟩ := h
    split at h
    · simp only [bind_eq_ok, pure_eq_ok, Prod.mk.injEq, Prod.exists] at h
      obtain ⟨n, -, g₁, log₁, hrest, rfl, -⟩ := h
      rw [ih hrest]
    · exact ih h

/-- **A gate just initialized** has blank storage but for the owner, the domain, the
deadline of the setup phase and the validators. -/
theorem Initial.gate_eq {w : World σ} (h : Initial w) : w.gate.setupDeadline ≠ 0 ∧
    w.gate.bridgeDomain ≠ 0 ∧ w.upgraded = false ∧ w.gate = { blank with
      owner := w.gate.owner
      initialized := 1
      bridgeDomain := w.gate.bridgeDomain
      setupDeadline := w.gate.setupDeadline
      isValidator := w.gate.isValidator
      validatorCount := w.gate.validatorCount
      threshold := w.gate.threshold } := by
  obtain ⟨c, validators, threshold, bridgeDomain, log, h, -, hup⟩ := h
  simp only [initializeGate, bind_eq_ok, exists_unit, revertIf_eq_ok, pure_eq_ok, Prod.exists,
    Prod.mk.injEq] at h
  obtain ⟨-, hdomain, g₁, log₁, hinit, -, hg, -⟩ := h
  have hg₁ := initValidators_eq_ok hinit
  have hd : g₁.setupDeadline = c.timestamp + SETUP_WINDOW := by rw [hg₁]
  have hb : g₁.bridgeDomain = bridgeDomain := by rw [hg₁]
  rw [← hg]
  refine ⟨?_, ?_, hup, ?_⟩
  · rw [hd]
    exact Nat.ne_of_gt (Nat.add_pos_right _ (by decide))
  · rw [hb]
    exact hdomain
  · rw [hg₁]

/-- The setup deadline, once set, stays set. -/
theorem setupDeadline_step {w w' : World σ} {l : Label σ} {o : Out}
    (hd : w.gate.setupDeadline ≠ 0) (h : exec E w l = some (w', o)) :
    w'.gate.setupDeadline ≠ 0 := by
  cases l with
  | govern c x =>
    obtain ⟨-, -, hgov, -⟩ := exec_govern h
    rw [(governed_of_govern hgov hd).setupDeadline]
    exact hd
  | transfer c x =>
    obtain ⟨-, -, r, hr, rfl, -⟩ := exec_transfer h
    obtain ⟨b, hb, -⟩ := transfer_frame hr
    rw [hb]
    exact hd
  | tokens s =>
    obtain ⟨rfl, -⟩ := exec_tokens h
    exact hd

end Gate

end SelendraBridge
