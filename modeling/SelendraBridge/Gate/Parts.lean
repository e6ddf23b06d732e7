import SelendraBridge.Gate.Governed

/-!
# The parts of the storage that few calls touch

Quorums are formed by the validators, their count and the threshold; amounts are converted
by the registry of tokens and scales. Of the two dozen governing calls two touch the
first and three the second, and the rest leave both alone: that is said once here, for
every call (`SelendraBridge.Gate.parts_of_govern`), and no deadline comes into it.
-/

namespace SelendraBridge

namespace Gate

open Revert

variable {σ : Type} {E : Chain σ} {g g' : Gate}

/-- What quorums are formed by. -/
def seats (g : Gate) : (Address → Bool) × U256 × U256 :=
  (g.isValidator, g.validatorCount, g.threshold)

/-- What amounts are converted by. -/
def registry (g : Gate) : (Bytes32 → Address) × (Address → BridgeDecimals) :=
  (g.tokenOf, g.bridgeDecimalsOf)

/-- The calls that may touch the seats. -/
def GovCall.touchesSeats : GovCall → Bool
  | .setValidator _ _ => true
  | .setThreshold _ => true
  | _ => false

/-- The calls that may touch the registry. -/
def GovCall.touchesRegistry : GovCall → Bool
  | .migrate _ _ => true
  | .setLocalToken _ _ => true
  | .setBridgeDecimals _ _ => true
  | _ => false

theorem parts_of_consumeGovernanceIf {c : Call} {p : Prop} [Decidable p] {id : Bytes32}
    (h : consumeGovernanceIf c g p id = .ok g') :
    g'.seats = g.seats ∧ g'.registry = g.registry := by
  unfold consumeGovernanceIf at h
  split at h
  · obtain ⟨rfl, -⟩ := consumeGovernance_eq_ok h
    exact ⟨rfl, rfl⟩
  · obtain rfl := Except.ok.inj h
    exact ⟨rfl, rfl⟩

theorem seats_of_migrateTokens {tokens : σ} {legacyTokens : List Address} {log : List Event}
    (h : migrateTokens E tokens legacyTokens g = .ok (g', log)) : g'.seats = g.seats := by
  induction legacyTokens generalizing g g' log with
  | nil =>
    obtain ⟨rfl, -⟩ := Prod.mk.inj (Except.ok.inj h)
    rfl
  | cons token rest ih =>
    rw [migrateTokens, revertIf_bind_eq_ok] at h
    obtain ⟨-, h⟩ := h
    split at h
    · exact ih h
    · simp only [bind_eq_ok, pure_eq_ok, Prod.mk.injEq, Prod.exists] at h
      obtain ⟨_, -, _, _, hrest, rfl, -⟩ := h
      have hseats := ih hrest
      exact hseats

theorem parts_migrateChains (chains : List U256) (g : Gate) :
    (migrateChains chains g).1.seats = g.seats ∧
      (migrateChains chains g).1.registry = g.registry := by
  induction chains generalizing g with
  | nil => exact ⟨rfl, rfl⟩
  | cons chain rest ih =>
    rw [migrateChains]
    split
    · exact ih _
    · exact ih _

/-- **What a governing call leaves alone**, one case for each call. -/
theorem parts_of_govern {c : Call} {tokens : σ} {x : GovCall} {log : List Event}
    (h : govern E c g tokens x = .ok (g', log)) :
    (x.touchesSeats = false → g'.seats = g.seats) ∧
      (x.touchesRegistry = false → g'.registry = g.registry) := by
  cases x with
  | setValidator v active =>
    refine ⟨fun hx => absurd hx (by simp [GovCall.touchesSeats]), fun _ => ?_⟩
    simp only [govern, setValidator, bind_eq_ok, exists_unit] at h
    obtain ⟨-, -, h⟩ := h
    split at h
    · simp only [bind_eq_ok, pure_eq_ok, Prod.mk.injEq] at h
      obtain ⟨g₁, hconsume, _, -, rfl, -⟩ := h
      obtain ⟨rfl, -⟩ := consumeGovernance_eq_ok hconsume
      rfl
    · split at h
      · simp only [bind_eq_ok, exists_unit, pure_eq_ok, Prod.mk.injEq] at h
        obtain ⟨_, -, -, rfl, -⟩ := h
        rfl
      · obtain ⟨rfl, -⟩ := Prod.mk.inj (Except.ok.inj h)
        rfl
  | setThreshold t =>
    refine ⟨fun hx => absurd hx (by simp [GovCall.touchesSeats]), fun _ => ?_⟩
    simp only [govern, setThreshold, bind_eq_ok, exists_unit, pure_eq_ok, Prod.mk.injEq] at h
    obtain ⟨-, -, g₁, hconsume, rfl, -⟩ := h
    have hreg := (parts_of_consumeGovernanceIf hconsume).2
    exact hreg
  | migrate legacyTokens legacyChains =>
    refine ⟨fun _ => ?_, fun hx => absurd hx (by simp [GovCall.touchesRegistry])⟩
    simp only [govern, initializeV2, bind_eq_ok, exists_unit, pure_eq_ok, Prod.mk.injEq,
      Prod.exists] at h
    obtain ⟨-, -, -, -, g₁, log₁, htokens, rfl, -⟩ := h
    rw [(parts_migrateChains _ _).1, seats_of_migrateTokens htokens]
    rfl
  | setLocalToken d token =>
    refine ⟨fun _ => ?_, fun hx => absurd hx (by simp [GovCall.touchesRegistry])⟩
    simp only [govern, setLocalToken, bind_eq_ok, exists_unit, pure_eq_ok, Prod.mk.injEq] at h
    obtain ⟨-, -, -, g₁, hconsume, -, rfl, -⟩ := h
    have hseats := (parts_of_consumeGovernanceIf hconsume).1
    exact hseats
  | setBridgeDecimals token n =>
    refine ⟨fun _ => ?_, fun hx => absurd hx (by simp [GovCall.touchesRegistry])⟩
    simp only [govern, setBridgeDecimals, bind_eq_ok, exists_unit, pure_eq_ok, Prod.mk.injEq] at h
    obtain ⟨-, -, -, _, -, -, g₁, hconsume, rfl, -⟩ := h
    have hseats := (parts_of_consumeGovernanceIf hconsume).1
    exact hseats
  | setGuardian newGuardian =>
    simp only [govern, setGuardian, bind_eq_ok, exists_unit] at h
    obtain ⟨-, h⟩ := h
    split at h
    · obtain ⟨rfl, -⟩ := Prod.mk.inj (Except.ok.inj h)
      exact ⟨fun _ => rfl, fun _ => rfl⟩
    · simp only [bind_eq_ok, pure_eq_ok, Prod.mk.injEq] at h
      obtain ⟨g₁, hconsume, rfl, -⟩ := h
      obtain ⟨hseats, hreg⟩ := parts_of_consumeGovernanceIf hconsume
      exact ⟨fun _ => hseats, fun _ => hreg⟩
  | upgradeToAndCall implementation data accepted =>
    simp only [govern, upgradeToAndCall, authorizeUpgrade, bind_eq_ok, exists_unit, pure_eq_ok,
      Prod.mk.injEq] at h
    obtain ⟨-, -, -, g₁, ⟨-, -, rfl⟩, -, rfl, -⟩ := h
    exact ⟨fun _ => rfl, fun _ => rfl⟩
  | pause =>
    simp only [govern, Gate.pause, bind_eq_ok, exists_unit] at h
    obtain ⟨-, h⟩ := h
    split at h <;> obtain ⟨rfl, -⟩ := Prod.mk.inj (Except.ok.inj h) <;>
      exact ⟨fun _ => rfl, fun _ => rfl⟩
  | unpause =>
    simp only [govern, Gate.unpause, bind_eq_ok, exists_unit] at h
    obtain ⟨-, h⟩ := h
    split at h <;> obtain ⟨rfl, -⟩ := Prod.mk.inj (Except.ok.inj h) <;>
      exact ⟨fun _ => rfl, fun _ => rfl⟩
  | scheduleSetBridgeDecimals token n =>
    simp only [govern, scheduleSetBridgeDecimals, bind_eq_ok, exists_unit, pure_eq_ok,
      Prod.mk.injEq] at h
    obtain ⟨-, -, -, -, _, -, -, rfl, -⟩ := h
    exact ⟨fun _ => rfl, fun _ => rfl⟩
  | scheduleUpgrade _ _ =>
    simp only [govern, scheduleUpgrade, bind_eq_ok, exists_unit, pure_eq_ok, Prod.mk.injEq] at h
    obtain ⟨-, -, -, rfl, -⟩ := h
    exact ⟨fun _ => rfl, fun _ => rfl⟩
  | scheduleSetLocalToken _ _ =>
    simp only [govern, scheduleSetLocalToken, bind_eq_ok, exists_unit, pure_eq_ok,
      Prod.mk.injEq] at h
    obtain ⟨-, -, -, -, rfl, -⟩ := h
    exact ⟨fun _ => rfl, fun _ => rfl⟩
  | scheduleAddValidator _ | scheduleLowerThreshold _ | transferOwnership _ | sealGate
  | setMinSendAmount _ _ =>
    simp only [govern, scheduleAddValidator, scheduleLowerThreshold, transferOwnership,
      Gate.sealGate, setMinSendAmount, bind_eq_ok, exists_unit, pure_eq_ok, Prod.mk.injEq] at h
    obtain ⟨-, -, rfl, -⟩ := h
    exact ⟨fun _ => rfl, fun _ => rfl⟩
  | cancelScheduledUpgrade _ | acceptOwnership | scheduleSetGuardian _
  | cancelScheduledGovernance _ | setSupportedChain _ _ =>
    simp only [govern, cancelScheduledUpgrade, acceptOwnership, scheduleSetGuardian,
      cancelScheduledGovernance, setSupportedChain, bind_eq_ok, exists_unit, pure_eq_ok,
      Prod.mk.injEq] at h
    obtain ⟨-, rfl, -⟩ := h
    exact ⟨fun _ => rfl, fun _ => rfl⟩

/-- A transfer leaves both alone. -/
theorem parts_of_transfer {c : Call} {tokens : σ} {x : TransferCall} {r : Done σ}
    (h : transfer E c g tokens x = .ok r) :
    r.gate.seats = g.seats ∧ r.gate.registry = g.registry := by
  obtain ⟨b, hb, -⟩ := transfer_frame h
  rw [hb]
  exact ⟨rfl, rfl⟩

end Gate

end SelendraBridge
