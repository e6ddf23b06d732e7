import SelendraBridge.Gate.Governed

/-!
# Power waits

Along every run of a gate from its initialization, a power that a step grants was
announced: the step that scheduled it, by the same name and with the same parameters, is
in the run, at least the delay and at most the delay and the grace period earlier, and
nothing in between rescheduled, cancelled or used it up
(`SelendraBridge.Gate.power_scheduled`). For an upgrade the parameters are the
implementation, its code and the call data.

Ids are hashes, so two actions could share one. The results assume that the hash does not
collide on the strings that the run's own calls hashed, and nothing about other strings.
-/

namespace SelendraBridge

namespace Gate

open Revert Transition Timelock

/-! ### Powers -/

/-- **What the timelocks guard.** -/
inductive Power
  | action (a : Action)
  | upgrade (implementation : Address) (codehash : Bytes32) (data : Bytes)
  deriving DecidableEq

/-- Where a schedule is kept. -/
inductive Slot
  | governance (id : Bytes32)
  | upgrade (implementation : Address)
  deriving DecidableEq

/-- The string that names a power: what is hashed to schedule it and to take it. -/
def Power.hashed : Power → Bytes
  | .action a => a.encoded
  | .upgrade _ _ data => data

variable {σ : Type} (E : Chain σ)

/-- Where the schedule of a power is kept. -/
def Power.slot : Power → Slot
  | .action a => .governance (actionId E a)
  | .upgrade implementation _ _ => .upgrade implementation

/-- The time of a step. -/
def time (e : Step σ) : ℕ := e.post.now

/-- **The power that a call schedules.** -/
def GovCall.announces (c : Call) : GovCall → Option Power
  | .scheduleUpgrade implementation data =>
    some (.upgrade implementation (c.codehash implementation) data)
  | x => x.schedules.map .action

/-- **The power that a call takes.** -/
def GovCall.grants (c : Call) (g : Gate) : GovCall → Option Power
  | .upgradeToAndCall newImplementation data _ =>
    some (.upgrade newImplementation (c.codehash newImplementation) data)
  | x => (x.takes c g).map .action

/-- The schedule that a call cancels. -/
def GovCall.drops : GovCall → Option Slot
  | .cancelScheduledUpgrade implementation => some (.upgrade implementation)
  | x => x.cancels.map .governance

/-- The power that a step schedules. -/
def announced (e : Step σ) : Option Power :=
  match e.label with
  | .govern c x => x.announces c
  | _ => none

/-- The power that a step grants. -/
def granted (e : Step σ) : Option Power :=
  match e.label with
  | .govern c x => x.grants c e.pre.gate
  | _ => none

/-- The schedule that a step cancels. -/
def dropped (e : Step σ) : Option Slot :=
  match e.label with
  | .govern _ x => x.drops
  | _ => none

/-- **A step that touches a schedule**: it schedules there, takes what is scheduled
there, or cancels it. -/
def Touches (e : Step σ) (slot : Slot) : Prop :=
  (∃ p, p.slot E = slot ∧ (announced e = some p ∨ granted e = some p)) ∨ dropped e = some slot

/-- The strings that the steps of a run hashed for the timelocks. -/
def governanceHashed (tr : List (Step σ)) : List Bytes :=
  tr.flatMap fun e => ((announced e).toList ++ (granted e).toList).map Power.hashed

/-- The setup phase is over at a step. -/
def AfterSetup (e : Step σ) : Prop :=
  e.pre.gate.isSealed = true ∨ e.pre.gate.setupDeadline < time e

/-- **A power that the storage has after a step and had not before.** For an upgrade it
is the upgrade itself. -/
def Gains (e : Step σ) : Power → Prop
  | .action (.addValidator v) =>
    e.pre.gate.isValidator v = false ∧ e.post.gate.isValidator v = true
  | .action (.lowerThreshold t) => e.post.gate.threshold = t ∧ t < e.pre.gate.threshold
  | .action (.setLocalToken d token) =>
    AfterSetup e ∧ e.post.gate.tokenOf d = token ∧ e.pre.gate.tokenOf d ≠ token
  | .action (.setBridgeDecimals token n) =>
    AfterSetup e ∧ (e.post.gate.bridgeDecimalsOf token).bridgeDecimals = n ∧
      e.post.gate.bridgeDecimalsOf token ≠ e.pre.gate.bridgeDecimalsOf token
  | .action (.setGuardian gd) =>
    AfterSetup e ∧ e.pre.gate.guardian ≠ 0 ∧ e.post.gate.guardian = gd ∧ e.pre.gate.guardian ≠ gd
  | .upgrade implementation codehash data =>
    ∃ c accepted, e.label = .govern c (.upgradeToAndCall implementation data accepted) ∧
      c.codehash implementation = codehash

/-! ### What a call announces, grants and cancels -/

variable {E} {c : Call} {g : Gate} {x : GovCall}

theorem announces_action {a : Action} :
    x.announces c = some (.action a) ↔ x.schedules = some a := by
  cases x <;> simp [GovCall.announces, GovCall.schedules]

theorem grants_action {a : Action} : x.grants c g = some (.action a) ↔ x.takes c g = some a := by
  cases x <;> simp [GovCall.grants, GovCall.takes]

theorem drops_governance {id : Bytes32} :
    x.drops = some (.governance id) ↔ x.cancels = some id := by
  cases x <;> simp [GovCall.drops, GovCall.cancels]

theorem announces_upgrade {implementation : Address} {codehash : Bytes32} {data : Bytes} :
    x.announces c = some (.upgrade implementation codehash data) ↔
      x = .scheduleUpgrade implementation data ∧ c.codehash implementation = codehash := by
  cases x with
  | scheduleUpgrade implementation' data' =>
    simp only [GovCall.announces, Option.some.injEq, Power.upgrade.injEq,
      GovCall.scheduleUpgrade.injEq]
    constructor
    · rintro ⟨rfl, rfl, rfl⟩
      exact ⟨⟨rfl, rfl⟩, rfl⟩
    · rintro ⟨⟨rfl, rfl⟩, rfl⟩
      exact ⟨rfl, rfl, rfl⟩
  | _ => simp [GovCall.announces, GovCall.schedules]

theorem grants_upgrade {implementation : Address} {codehash : Bytes32} {data : Bytes} :
    x.grants c g = some (.upgrade implementation codehash data) ↔
      (∃ accepted, x = .upgradeToAndCall implementation data accepted) ∧
        c.codehash implementation = codehash := by
  cases x with
  | upgradeToAndCall implementation' data' accepted' =>
    simp only [GovCall.grants, Option.some.injEq, Power.upgrade.injEq,
      GovCall.upgradeToAndCall.injEq]
    constructor
    · rintro ⟨rfl, rfl, rfl⟩
      exact ⟨⟨accepted', rfl, rfl, rfl⟩, rfl⟩
    · rintro ⟨⟨accepted, rfl, rfl, rfl⟩, rfl⟩
      exact ⟨rfl, rfl, rfl⟩
  | _ => simp [GovCall.grants, GovCall.takes]

/-! ### The two timelocks, in the machine -/

variable (E) in
/-- What a step does to the governance timelock. -/
def governanceOp (e : Step σ) : Option (Op Bytes32 Unit) :=
  match e.label with
  | .govern c x => x.governanceOp E c e.pre.gate
  | _ => none

variable (E) in
/-- What a step does to the upgrade timelock. -/
def upgradeOp (e : Step σ) : Option (Op Address (Bytes32 × Bytes32)) :=
  match e.label with
  | .govern c x => x.upgradeOp E c
  | _ => none

/-- **The governance timelock is one**: its table moves by the steps' operations. -/
theorem clocked_governance : Clocked (exec E) (fun w => w.gate.setupDeadline ≠ 0)
    (fun w => w.gate.governance) (governanceOp E) time GOVERNANCE_DELAY where
  keeps := setupDeadline_step
  step := by
    intro w l w' o hd h
    cases l with
    | govern c x =>
      obtain ⟨-, -, hgov, -, hnow, -⟩ := exec_govern h
      show w'.gate.governance = (x.governanceOp E c w.gate).elim w.gate.governance
        (Op.effect GOVERNANCE_DELAY w'.now w.gate.governance)
      rw [hnow]
      exact (governed_of_govern hgov hd).governance
    | transfer c x =>
      obtain ⟨-, -, r, hr, rfl, -⟩ := exec_transfer h
      obtain ⟨b, hb, -⟩ := transfer_frame hr
      show r.gate.governance = w.gate.governance
      rw [hb]
      rfl
    | tokens s =>
      obtain ⟨rfl, -⟩ := exec_tokens h
      rfl

/-- **So is the upgrade timelock.** -/
theorem clocked_upgrades : Clocked (exec E) (fun w => w.gate.setupDeadline ≠ 0)
    (fun w => w.gate.upgrades) (upgradeOp E) time UPGRADE_DELAY where
  keeps := setupDeadline_step
  step := by
    intro w l w' o hd h
    cases l with
    | govern c x =>
      obtain ⟨-, -, hgov, -, hnow, -⟩ := exec_govern h
      show w'.gate.upgrades = (x.upgradeOp E c).elim w.gate.upgrades
        (Op.effect UPGRADE_DELAY w'.now w.gate.upgrades)
      rw [hnow]
      exact (governed_of_govern hgov hd).upgrades
    | transfer c x =>
      obtain ⟨-, -, r, hr, rfl, -⟩ := exec_transfer h
      obtain ⟨b, hb, -⟩ := transfer_frame hr
      show r.gate.upgrades = w.gate.upgrades
      rw [hb]
      rfl
    | tokens s =>
      obtain ⟨rfl, -⟩ := exec_tokens h
      rfl

/-- Nothing is scheduled on a gate just initialized. -/
theorem Initial.unscheduled {w : World σ} (h : Initial w) :
    (∀ id, w.gate.governance id = none) ∧
      ∀ implementation, w.gate.upgrades implementation = none := by
  obtain ⟨-, -, -, hg⟩ := h.gate_eq
  rw [hg]
  exact ⟨fun id => rfl, fun implementation => rfl⟩

/-! ### A step that touches a schedule does something to the timelock -/

theorem governanceOp_of_touches {e : Step σ} {id : Bytes32} (h : Touches E e (.governance id)) :
    ∃ op, governanceOp E e = some op ∧ op.key = id := by
  rcases e with ⟨w, l, o, w'⟩
  cases l with
  | govern c x =>
    rcases h with ⟨p, hp, h⟩ | h
    · rcases p with a | ⟨i, ch, data⟩
      · obtain rfl : actionId E a = id := Slot.governance.inj hp
        rcases h with h | h
        · have hx : x.schedules = some a := announces_action.mp h
          exact ⟨.schedule (actionId E a) (),
            by simp only [governanceOp, GovCall.governanceOp, hx], rfl⟩
        · have hx : x.takes c w.gate = some a := grants_action.mp h
          have hs : x.schedules = none := by
            cases x <;> first | rfl | simp [GovCall.takes] at hx
          exact ⟨.clear (actionId E a),
            by simp only [governanceOp, GovCall.governanceOp, hx, hs], rfl⟩
      · exact absurd hp (by simp [Power.slot])
    · have hx : x.cancels = some id := drops_governance.mp h
      have hs : x.schedules = none := by
        cases x <;> first | rfl | simp [GovCall.cancels] at hx
      have ht : x.takes c w.gate = none := by
        cases x <;> first | rfl | simp [GovCall.cancels] at hx
      exact ⟨.clear id, by simp only [governanceOp, GovCall.governanceOp, hx, hs, ht]; rfl, rfl⟩
  | transfer c x =>
    rcases h with ⟨p, -, h | h⟩ | h <;> exact absurd h (by simp [announced, granted, dropped])
  | tokens s =>
    rcases h with ⟨p, -, h | h⟩ | h <;> exact absurd h (by simp [announced, granted, dropped])

theorem upgradeOp_of_touches {e : Step σ} {implementation : Address}
    (h : Touches E e (.upgrade implementation)) :
    ∃ op, upgradeOp E e = some op ∧ op.key = implementation := by
  rcases e with ⟨w, l, o, w'⟩
  cases l with
  | govern c x =>
    rcases h with ⟨p, hp, h⟩ | h
    · rcases p with a | ⟨i, ch, data⟩
      · exact absurd hp (by simp [Power.slot])
      · obtain rfl : i = implementation := Slot.upgrade.inj hp
        rcases h with h | h
        · obtain ⟨rfl, -⟩ := announces_upgrade.mp h
          exact ⟨_, rfl, rfl⟩
        · obtain ⟨⟨accepted, rfl⟩, -⟩ := grants_upgrade.mp h
          exact ⟨_, rfl, rfl⟩
    · have hx : x = .cancelScheduledUpgrade implementation := by
        cases x <;> simp_all [dropped, GovCall.drops, GovCall.cancels]
      rw [hx]
      exact ⟨_, rfl, rfl⟩
  | transfer c x =>
    rcases h with ⟨p, -, h | h⟩ | h <;> exact absurd h (by simp [announced, granted, dropped])
  | tokens s =>
    rcases h with ⟨p, -, h | h⟩ | h <;> exact absurd h (by simp [announced, granted, dropped])

/-- What schedules an action id is an announcement of an action of that id. -/
theorem announced_of_governanceOp {e : Step σ} {id : Bytes32}
    (h : governanceOp E e = some (.schedule id ())) :
    ∃ a, announced e = some (.action a) ∧ actionId E a = id := by
  rcases e with ⟨w, l, o, w'⟩
  cases l with
  | govern c x =>
    simp only [governanceOp, GovCall.governanceOp] at h
    rcases hs : x.schedules with _ | a
    · rcases ht : x.takes c w.gate with _ | b
      · simp [hs, ht] at h
      · simp [hs, ht] at h
    · simp only [hs, Option.some.injEq, Op.schedule.injEq, and_true] at h
      exact ⟨a, announces_action.mpr hs, h⟩
  | transfer c x => exact absurd h (by simp [governanceOp])
  | tokens s => exact absurd h (by simp [governanceOp])

/-- What schedules an implementation is an announcement of its upgrade. -/
theorem announced_of_upgradeOp {e : Step σ} {implementation : Address}
    {codehash dataHash : Bytes32}
    (h : upgradeOp E e = some (.schedule implementation (codehash, dataHash))) :
    ∃ data, announced e = some (.upgrade implementation codehash data) ∧
      E.keccak256 data = dataHash := by
  rcases e with ⟨w, l, o, w'⟩
  cases l with
  | govern c x =>
    cases x with
    | scheduleUpgrade implementation' data =>
      simp only [upgradeOp, GovCall.upgradeOp, Option.some.injEq, Op.schedule.injEq,
        Prod.mk.injEq] at h
      obtain ⟨rfl, rfl, rfl⟩ := h
      exact ⟨data, rfl, rfl⟩
    | _ => exact absurd h (by simp [upgradeOp, GovCall.upgradeOp])
  | transfer c x => exact absurd h (by simp [upgradeOp])
  | tokens s => exact absurd h (by simp [upgradeOp])

/-! ### What a step that grants found -/

/-- A step that takes an action found it ripe. -/
theorem ripe_of_granted {w w' : World σ} {l : Label σ} {o : Out} {a : Action}
    (hd : w.gate.setupDeadline ≠ 0) (h : exec E w l = some (w', o))
    (hp : granted ⟨w, l, o, w'⟩ = some (.action a)) :
    ∃ r, w.gate.governance (actionId E a) = some (r, ()) ∧ r ≤ w'.now ∧
      w'.now ≤ r + SCHEDULE_GRACE := by
  cases l with
  | govern c x =>
    obtain ⟨-, -, hgov, -, hnow, -⟩ := exec_govern h
    rw [hnow]
    exact (governed_of_govern hgov hd).ripe a (grants_action.mp hp)
  | transfer c x => exact absurd hp (by simp [granted])
  | tokens s => exact absurd hp (by simp [granted])

/-- A step that upgrades found the upgrade ripe, with that code and that data pinned. -/
theorem upgraded_of_granted {w w' : World σ} {l : Label σ} {o : Out} {implementation : Address}
    {codehash : Bytes32} {data : Bytes} (hd : w.gate.setupDeadline ≠ 0)
    (h : exec E w l = some (w', o))
    (hp : granted ⟨w, l, o, w'⟩ = some (.upgrade implementation codehash data)) :
    ∃ r, w.gate.upgrades implementation = some (r, codehash, E.keccak256 data) ∧ r ≤ w'.now ∧
      w'.now ≤ r + SCHEDULE_GRACE := by
  cases l with
  | govern c x =>
    obtain ⟨-, -, hgov, -, hnow, -⟩ := exec_govern h
    obtain ⟨⟨accepted, rfl⟩, rfl⟩ := grants_upgrade.mp hp
    rw [hnow]
    exact (governed_of_govern hgov hd).upgraded _ _ _ rfl
  | transfer c x => exact absurd hp (by simp [granted])
  | tokens s => exact absurd hp (by simp [granted])

/-- Outside the setup phase at a call. -/
theorem inSetupPhase_of_afterSetup {w w' : World σ} {c : Call} {x : GovCall} {o : Out}
    (hnow : w'.now = c.timestamp) (h : AfterSetup ⟨w, .govern c x, o, w'⟩) :
    w.gate.inSetupPhase c = false := by
  rw [inSetupPhase, Bool.and_eq_false_iff, Bool.not_eq_false', decide_eq_false_iff_not, not_le]
  rcases h with h | h
  · exact .inl h
  · exact .inr (by rw [← hnow]; exact h)

/-- A step that writes only the books gains no power. -/
theorem not_gains {e : Step σ} {p : Power} (hg : ∃ b, e.post.gate = e.pre.gate.withBooks b)
    (hl : ∀ c x, e.label ≠ .govern c x) : ¬Gains e p := by
  obtain ⟨b, hb⟩ := hg
  intro h
  rcases p with a | ⟨i, ch, data⟩
  · cases a with
    | addValidator v =>
      obtain ⟨hpre, hpost⟩ := h
      rw [hb] at hpost
      exact absurd (hpre.symm.trans hpost) (by simp)
    | lowerThreshold t =>
      obtain ⟨rfl, hlt⟩ := h
      rw [hb] at hlt
      exact BitVec.lt_irrefl _ hlt
    | setLocalToken d token =>
      obtain ⟨-, rfl, hne⟩ := h
      exact hne (by rw [hb]; rfl)
    | setBridgeDecimals token n =>
      obtain ⟨-, -, hne⟩ := h
      exact hne (by rw [hb]; rfl)
    | setGuardian gd =>
      obtain ⟨-, -, rfl, hne⟩ := h
      exact hne (by rw [hb]; rfl)
  · obtain ⟨c, accepted, hlabel, -⟩ := h
    exact hl _ _ hlabel

/-- **Power changes only by a call that takes it.** -/
theorem granted_of_gains {w w' : World σ} {l : Label σ} {o : Out} {p : Power}
    (hd : w.gate.setupDeadline ≠ 0) (h : exec E w l = some (w', o))
    (hp : Gains ⟨w, l, o, w'⟩ p) : granted ⟨w, l, o, w'⟩ = some p := by
  cases l with
  | govern c x =>
    obtain ⟨-, -, hgov, -, hnow, -⟩ := exec_govern h
    have G := governed_of_govern hgov hd
    rcases p with a | ⟨i, ch, data⟩
    · refine grants_action.mpr ?_
      cases a with
      | addValidator v =>
        obtain ⟨hpre, hpost⟩ := hp
        rcases G.validators v hpost with hold | htake
        · exact absurd hold (by simp [show w.gate.isValidator v = false from hpre])
        · exact htake
      | lowerThreshold t =>
        obtain ⟨rfl, hlt⟩ := hp
        rcases G.threshold with hle | htake
        · exact absurd hlt (BitVec.not_lt.mpr hle)
        · exact htake
      | setLocalToken d token =>
        obtain ⟨hsetup, rfl, hne⟩ := hp
        have hs := inSetupPhase_of_afterSetup hnow hsetup
        rcases G.tokens d with hsame | ⟨-, hin | htake⟩
        · exact absurd hsame.symm hne
        · exact absurd hin (by simp [hs])
        · exact htake
      | setBridgeDecimals token n =>
        obtain ⟨hsetup, rfl, hne⟩ := hp
        have hs := inSetupPhase_of_afterSetup hnow hsetup
        rcases G.scales token with hsame | ⟨-, hin | htake⟩
        · exact absurd hsame hne
        · exact absurd hin (by simp [hs])
        · exact htake
      | setGuardian gd =>
        obtain ⟨hsetup, hzero, rfl, hne⟩ := hp
        have hs := inSetupPhase_of_afterSetup hnow hsetup
        rcases G.guardian with hsame | hz | hin | htake
        · exact absurd hsame.symm hne
        · exact absurd hz hzero
        · exact absurd hin (by simp [hs])
        · exact htake
    · obtain ⟨c', accepted, hl, hcode⟩ := hp
      obtain ⟨rfl, rfl⟩ := Label.govern.inj hl
      exact (grants_upgrade (g := w.gate)).mpr ⟨⟨accepted, rfl⟩, hcode⟩
  | transfer c x =>
    obtain ⟨-, -, r, hr, rfl, -⟩ := exec_transfer h
    obtain ⟨b, hb, -⟩ := transfer_frame hr
    exact absurd hp (not_gains ⟨b, hb⟩ (by simp))
  | tokens s =>
    obtain ⟨rfl, -⟩ := exec_tokens h
    exact absurd hp (not_gains ⟨w.gate.books, rfl⟩ (by simp))

/-! ### Over a run -/

theorem mem_governanceHashed {tr : List (Step σ)} {e : Step σ} {p : Power} (he : e ∈ tr)
    (hp : announced e = some p ∨ granted e = some p) : p.hashed ∈ governanceHashed tr := by
  refine List.mem_flatMap.mpr ⟨e, he, List.mem_map.mpr ⟨p, ?_, rfl⟩⟩
  rw [List.mem_append, Option.mem_toList, Option.mem_toList]
  exact hp

variable {w₀ w : World σ}

/-- **Every power that a run grants was announced.** The announcement names the same
power, parameters included; it came at least 48 hours and at most 48 hours and 7 days
before; and no step in between touched its schedule. Power is gained in no other way. -/
theorem power_scheduled {tr : List (Step σ)} (h₀ : Initial w₀) (hrun : Run (exec E) w₀ tr w)
    (hcoll : CollisionFree E.keccak256 (governanceHashed tr)) :
    (∀ before e after p, tr = before ++ e :: after → granted e = some p →
      ∃ earlier sched between, before = earlier ++ sched :: between ∧
        announced sched = some p ∧ time sched + 48 * 3600 ≤ time e ∧
        time e ≤ time sched + 48 * 3600 + 7 * 24 * 3600 ∧
        ∀ e' ∈ between, ¬Touches E e' (p.slot E)) ∧
    ∀ e ∈ tr, ∀ p, Gains e p → granted e = some p := by
  have hd₀ : w₀.gate.setupDeadline ≠ 0 := h₀.gate_eq.1
  have hd : ∀ e ∈ tr, e.pre.gate.setupDeadline ≠ 0 := fun e he =>
    hrun.invariant_pre (P := fun w => w.gate.setupDeadline ≠ 0) hd₀
      (fun _ _ _ _ => setupDeadline_step) he
  refine ⟨?_, fun e he p hp => granted_of_gains (hd e he) (hrun.exec_of_mem he) hp⟩
  rintro before e after p rfl hp
  have he : e ∈ before ++ e :: after := by simp
  have hex := hrun.exec_of_mem he
  have hash_e : p.hashed ∈ governanceHashed (before ++ e :: after) :=
    mem_governanceHashed he (.inr hp)
  rcases p with a | ⟨i, ch, data⟩
  · obtain ⟨r, hpend, hready, hgrace⟩ := ripe_of_granted (hd e he) hex hp
    obtain ⟨earlier, sched, between, rfl, hop, hlo, hhi, hquiet⟩ :=
      clocked_governance.matured hd₀ h₀.unscheduled.1 hrun hpend hready hgrace
    obtain ⟨b, hb, hid⟩ := announced_of_governanceOp hop
    have hash_b : b.encoded ∈ governanceHashed ((earlier ++ sched :: between) ++ e :: after) :=
      mem_governanceHashed (p := .action b) (by simp) (.inl hb)
    obtain rfl : b = a := Action.encoded_inj (hcoll _ hash_b _ hash_e hid)
    refine ⟨earlier, sched, between, rfl, hb, hlo, hhi, fun e' he' htouch => ?_⟩
    obtain ⟨op, hop', hkey⟩ := governanceOp_of_touches htouch
    exact hquiet e' he' op hop' hkey
  · obtain ⟨r, hpend, hready, hgrace⟩ := upgraded_of_granted (hd e he) hex hp
    obtain ⟨earlier, sched, between, rfl, hop, hlo, hhi, hquiet⟩ :=
      clocked_upgrades.matured hd₀ h₀.unscheduled.2 hrun hpend hready hgrace
    obtain ⟨data', hb, hhash⟩ := announced_of_upgradeOp hop
    have hash_b : data' ∈ governanceHashed ((earlier ++ sched :: between) ++ e :: after) :=
      mem_governanceHashed (p := .upgrade i ch data') (by simp) (.inl hb)
    obtain rfl : data' = data := hcoll _ hash_b _ hash_e hhash
    refine ⟨earlier, sched, between, rfl, hb, hlo, hhi, fun e' he' htouch => ?_⟩
    obtain ⟨op, hop', hkey⟩ := upgradeOp_of_touches htouch
    exact hquiet e' he' op hop' hkey

/-! ### A validator is added -/

/-- The second validator is scheduled, and added 48 hours later. -/
def addingValidator : List (Step Ledger) × World Ledger :=
  traceOf (exec (tableChain 1 0xf1)) (started noTokens)
    [.govern (callAt 0x0a 2000) (.scheduleAddValidator validator₂),
      .govern (callAt 0x0a (2000 + 48 * 3600)) (.setValidator validator₂ true)]

theorem power_scheduled_addValidator :
    addingValidator.1.map granted = [none, some (.action (.addValidator validator₂))] ∧
      (∀ before e after p, addingValidator.1 = before ++ e :: after → granted e = some p →
        ∃ earlier sched between, before = earlier ++ sched :: between ∧
          announced sched = some p ∧ time sched + 48 * 3600 ≤ time e ∧
          time e ≤ time sched + 48 * 3600 + 7 * 24 * 3600 ∧
          ∀ e' ∈ between, ¬Touches (tableChain 1 0xf1) e' (p.slot (tableChain 1 0xf1))) := by
  refine ⟨by decide +kernel, (power_scheduled (initial_started noTokens) (run_traceOf ?_) ?_).1⟩
  · decide +kernel
  · decide +kernel

end Gate

end SelendraBridge
