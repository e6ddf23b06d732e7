import SelendraBridge.Solana.Cluster
import SelendraBridge.Solana.Powers

/-!
# Power waits on Solana too

Along every run of the program from its deployment, a power that a step grants was
announced: the `scheduleAction` of the same power, parameters included, is in the run, at
least the delay and at most the delay and the grace period earlier, and nothing in between
scheduled it again, cancelled it or used it up
(`SelendraBridge.Solana.powers_waited`). Power is gained in no other way.

A schedule lives in an account of its own, among others that the run writes. What a step
does to the accounts of schedules is `SelendraBridge.Solana.Tended`, one case for each kind
of instruction; it makes the machine one with a timelock in it
(`SelendraBridge.Solana.clocked_schedules`), as long as the run's seeds have addresses of
their own. The machine is cut down to the steps that write some fixed seeds for that, and
the run is one of its runs.
-/

namespace SelendraBridge

namespace Solana

open Revert Transition Timelock

variable {R : Runtime} {s₀ s s' s₁ s₂ : Accounts} {clock : Clock} {accounts : List AccountInfo}
  {log : List Log} {tr : List Step} {cfg : Config}

/-! ### What an instruction that may take a power does -/

variable (R) in
/-- **Taking a power, or none**: with one, its schedule was ripe and is used up; without,
no schedule is written. -/
structure Takes (clock : Clock) (p : Option Power) (seeds : List (List Bytes)) (s s' : Accounts) :
    Prop where
  some : ∀ q, p = some q → Consumed R clock (q.actionId R.keccak256) s s'
  none : p = none → WroteSeeds R seeds s s'

/-- The address of a schedule is not among those of some seeds. -/
def Apart (R : Runtime) (id : Bytes32) (seeds : List (List Bytes)) : Prop :=
  R.findProgramAddress (govSeeds id) ∉ seeds.map R.findProgramAddress

variable (R) in
/-- **Using up a schedule, or none**, and then writing other accounts. -/
def Uses (clock : Clock) (s s' : Accounts) (seeds : List (List Bytes)) : Option Power → Prop
  | some q => ∃ s₁, Consumed R clock (q.actionId R.keccak256) s s₁ ∧ WroteSeeds R seeds s₁ s'
  | none => WroteSeeds R seeds s s'

/-- What is used up stays so, if the other accounts are none of its address. -/
theorem Uses.takes (hR : R.Lawful) {p : Option Power} {seeds : List (List Bytes)}
    (h : Uses R clock s s' seeds p) (hapart : ∀ q, p = some q →
      Apart R (q.actionId R.keccak256) seeds) : Takes R clock p seeds s s' := by
  cases p with
  | none => exact ⟨by simp, fun _ => h⟩
  | some q =>
    obtain ⟨s₁, hc, hw⟩ := h
    refine ⟨?_, by simp⟩
    rintro q' hq
    obtain rfl := Option.some.inj hq
    exact hc.wrote hR hw (hapart q rfl)

/-- Using up a schedule where it is asked for, and then writing other accounts. -/
theorem uses_of_consumeGovernanceIf {needed : Prop} [Decidable needed] {ai : Option AccountInfo}
    {q : Power} {seeds : List (List Bytes)}
    (h : consumeGovernanceIf R clock s needed ai (q.actionId R.keccak256) = .ok s₁)
    (hw : WroteSeeds R seeds s₁ s') :
    Uses R clock s s' seeds (if needed then some q else none) := by
  unfold consumeGovernanceIf at h
  split at h
  · next hneeded =>
    obtain ⟨gov, -, h⟩ := bind_eq_ok.mp h
    rw [if_pos hneeded]
    exact ⟨s₁, consumed_of_consumeGovernance h, hw⟩
  · next hneeded =>
    obtain rfl := Except.ok.inj h
    rw [if_neg hneeded]
    exact hw

theorem uses_of_processSetValidator {v : Address} {active : Bool}
    (h : processSetValidator R clock s accounts v active = .ok s') :
    ∃ cfg, configAt R s = some cfg ∧ Uses R clock s s' [configSeeds]
      (Instruction.grants R clock s accounts cfg (.setValidator v active)) := by
  simp only [processSetValidator, bind_eq_ok, exists_unit] at h
  obtain ⟨x, -, cfg, hcfg, -, -, h⟩ := h
  have hc := configured_of_loadConfig hcfg
  refine ⟨cfg, hc.configAt_eq, ?_⟩
  rw [Instruction.grants]
  split at h
  · next hadd =>
    simp only [bind_eq_ok, exists_unit] at h
    obtain ⟨-, s₁, hgov, hstore⟩ := h
    have hw : WroteSeeds R [configSeeds] s₁ s' := hc.wrote hstore List.mem_cons_self
    have ht := uses_of_consumeGovernanceIf (q := .addValidator v) hgov hw
    rw [if_pos trivial] at ht
    rw [if_pos hadd]
    exact ht
  · next hadd =>
    rw [if_neg hadd]
    split at h
    · simp only [bind_eq_ok, exists_unit] at h
      exact hc.wrote h.2 List.mem_cons_self
    · obtain rfl := pure_eq_ok.mp h
      exact .refl _ _

theorem uses_of_processSetThreshold {t : BitVec 32}
    (h : processSetThreshold R clock s accounts t = .ok s') :
    ∃ cfg, configAt R s = some cfg ∧ Uses R clock s s' [configSeeds]
      (Instruction.grants R clock s accounts cfg (.setThreshold t)) := by
  simp only [processSetThreshold, bind_eq_ok, exists_unit] at h
  obtain ⟨x, -, cfg, hcfg, -, -, -, s₁, hgov, hstore⟩ := h
  have hc := configured_of_loadConfig hcfg
  exact ⟨cfg, hc.configAt_eq, uses_of_consumeGovernanceIf (q := .lowerThreshold t) hgov
    (hc.wrote hstore List.mem_cons_self)⟩

theorem uses_of_processSetGuardian {g : Pubkey}
    (h : processSetGuardian R clock s accounts g = .ok s') :
    ∃ cfg, configAt R s = some cfg ∧ Uses R clock s s' [configSeeds]
      (Instruction.grants R clock s accounts cfg (.setGuardian g)) := by
  simp only [processSetGuardian, bind_eq_ok, exists_unit] at h
  obtain ⟨x, -, cfg, hcfg, -, h⟩ := h
  have hc := configured_of_loadConfig hcfg
  refine ⟨cfg, hc.configAt_eq, ?_⟩
  rw [Instruction.grants]
  split at h
  · next heq =>
    obtain rfl := pure_eq_ok.mp h
    rw [if_neg fun hg => hg.2.2 heq]
    exact .refl _ _
  · next hne =>
    simp only [bind_eq_ok, orRevert_eq_ok] at h
    obtain ⟨now, hnow, s₁, hgov, hstore⟩ := h
    have hw : WroteSeeds R [configSeeds] s₁ s' := hc.wrote hstore List.mem_cons_self
    have ht := uses_of_consumeGovernanceIf (q := .setGuardian g) hgov hw
    -- The source's condition is the one that the power is read off by.
    have hiff : (setupOver cfg clock = true ∧ cfg.guardian ≠ 0 ∧ g ≠ cfg.guardian) ↔
        guardianChangeNeedsSchedule cfg now = true := by
      simp [setupOver, guardianChangeNeedsSchedule, hnow, hne]
    simp only [hiff]
    exact ht

/-- Registering writes over nothing that is registered, or the same again. -/
theorem registering_eq_fresh {d : Bytes32} {record : AssetConfig} {r : Registering}
    (h : registering R (s (R.findProgramAddress (assetSeeds d))) record = .ok r) :
    r = .fresh ↔ assetAt R s d = none := by
  rw [registering] at h
  rw [assetAt]
  split at h
  · next hnil =>
    obtain rfl := Except.ok.inj h
    rw [if_neg fun hc => hc.2 hnil]
    simp
  · next hne =>
    simp only [bind_eq_ok, exists_unit, revertIf_eq_ok, not_not] at h
    obtain ⟨howner, existing, hget, h⟩ := h
    rw [if_pos ⟨howner, hne⟩, hget]
    simp only [Except.toOption, Option.bind_some, AssetConfig.named]
    split at h
    · next hlegacy =>
      obtain rfl := pure_eq_ok.mp h
      rw [if_neg fun hc => hlegacy.2.1 hc.1]
      simp
    · simp only [bind_eq_ok, assetWriteAllowed] at h
      obtain ⟨write, hwrite, h⟩ := h
      obtain rfl := pure_eq_ok.mp h
      split at hwrite
      · next hzero =>
        obtain rfl := Except.ok.inj hwrite
        rw [if_pos hzero]
        simp
      · next hzero =>
        rw [if_neg hzero]
        split at hwrite
        · obtain rfl := Except.ok.inj hwrite
          simp
        · exact absurd hwrite (by simp)

theorem uses_of_processRegisterAsset (hR : R.Lawful) {d : Bytes32} {n : UInt8}
    (h : processRegisterAsset R clock s accounts d n = .ok s') :
    ∃ x cfg, RegisterAccounts.next accounts = .ok x ∧ configAt R s = some cfg ∧
      Uses R clock s s' [assetSeeds d, vaultSeeds x.vault.key]
        (Instruction.grants R clock s accounts cfg (.registerAsset d n)) := by
  simp only [processRegisterAsset, bind_eq_ok, exists_unit, revertIf_eq_ok, not_not] at h
  obtain ⟨x, hx, cfg, hcfg, -, localDecimals, -, hkey, r, hr, s₁, hgov, s₂, hbind, h⟩ := h
  refine ⟨x, cfg, hx, (configured_of_loadConfig hcfg).configAt_eq, ?_⟩
  rw [hkey] at hr
  have hfresh := registering_eq_fresh hr
  have hrest : WroteSeeds R [assetSeeds d, vaultSeeds x.vault.key] s₁ s' := by
    have hb : WroteSeeds R [assetSeeds d, vaultSeeds x.vault.key] s₁ s₂ :=
      (wrote_of_bindVault hR hbind).mono (by simp)
    split at h
    · obtain rfl := pure_eq_ok.mp h
      exact hb
    · simp only [bind_eq_ok] at h
      obtain ⟨s₃, hroom, hw⟩ := h
      exact hb.trans (((wrote_of_makeRoom hR hroom).trans (wrote_of_writeZeroPadded hw)).seeds hkey
        List.mem_cons_self)
  rw [Instruction.grants, hx]
  simp only [Except.toOption, Option.map_some]
  unfold consumeRegistration at hgov
  split at hgov
  · next hr' =>
    simp only [bind_eq_ok, orRevert_eq_ok] at hgov
    obtain ⟨now, hnow, hgov⟩ := hgov
    have ht := uses_of_consumeGovernanceIf
      (q := .registerAsset d x.mint.key x.vault.key n) hgov hrest
    have hiff : (setupOver cfg clock = true ∧ assetAt R s d = none) ↔
        inSetupPhase cfg now = false := by
      simp [setupOver, hnow, hfresh.mp hr']
    simp only [hiff]
    exact ht
  · next hr' =>
    obtain rfl := Except.ok.inj hgov
    rw [if_neg fun hc => hr' (hfresh.mpr hc.2)]
    exact hrest

/-! ### What scheduling and cancelling do -/

theorem checkedAdd_eq_some {t r : BitVec 64} {n : ℕ} (hn : n < 9223372036854775808)
    (h : checkedAdd t n = some r) : r.toInt = t.toInt + n := by
  have hle := BitVec.le_toInt t
  norm_num at hle
  rw [checkedAdd, Option.ite_none_right_eq_some] at h
  obtain ⟨hlt, heq⟩ := h
  obtain rfl := Option.some.inj heq
  have hofNat : (BitVec.ofNat 64 n).toInt = n := by
    rw [BitVec.toInt_ofNat']
    exact Int.bmod_eq_of_le (by norm_num) (by norm_num; omega)
  rw [BitVec.toInt_add, hofNat, Int.bmod_eq_of_le (by norm_num; omega) (by norm_num; omega)]

/-- What is scheduled is the power that the action is. -/
theorem power_of_schedulable {x : ScheduleAccounts} {action : GovernanceAction} {id : Bytes32}
    (hx : ScheduleAccounts.next accounts = .ok x)
    (h : schedulable R s cfg x.rest action = .ok id) :
    ∃ q : Power, action.power accounts = some q ∧ q.actionId R.keccak256 = id := by
  cases action with
  | addValidator v =>
    simp only [schedulable, bind_eq_ok, exists_unit, pure_eq_ok] at h
    obtain ⟨-, -, -, rfl⟩ := h
    exact ⟨.addValidator v, rfl, rfl⟩
  | lowerThreshold t =>
    simp only [schedulable, bind_eq_ok, exists_unit, pure_eq_ok] at h
    obtain ⟨-, rfl⟩ := h
    exact ⟨.lowerThreshold t, rfl, rfl⟩
  | registerAsset d n =>
    simp only [schedulable, bind_eq_ok, pure_eq_ok] at h
    obtain ⟨⟨mint, vault, tokenProgram⟩, hassets, _, -, rfl⟩ := h
    refine ⟨.registerAsset d mint.key vault.key n, ?_, rfl⟩
    rw [GovernanceAction.power, hx, ok_bind, hassets]
    rfl
  | setGuardian g =>
    obtain rfl := pure_eq_ok.mp h
    exact ⟨.setGuardian g, rfl, rfl⟩

/-- **Scheduling** writes the ready time of the power that the action is, and logs it. -/
theorem schedules_of_processScheduleAction {action : GovernanceAction}
    (h : processScheduleAction R clock s accounts action = .ok (s', log)) :
    ∃ q now r, action.power accounts = some q ∧ clock = some now ∧
      r.toInt = now.toInt + GOVERNANCE_DELAY ∧
      scheduleOf R s' (q.actionId R.keccak256) = some r ∧
      log = [.scheduled (q.actionId R.keccak256)] := by
  simp only [processScheduleAction, bind_eq_ok, exists_unit, pure_eq_ok, Prod.mk.injEq] at h
  obtain ⟨x, hx, cfg, -, -, id, hid, s₁, hw, rfl, rfl⟩ := h
  obtain ⟨q, hq, rfl⟩ := power_of_schedulable hx hid
  simp only [writeSchedule, bind_eq_ok, exists_unit, revertIf_eq_ok, orRevert_eq_ok, not_not] at hw
  obtain ⟨hkey, -, s₂, -, now, hnow, r, hr, hw⟩ := hw
  exact ⟨q, now, r, hq, hnow, checkedAdd_eq_some (by decide) hr,
    scheduleOf_of_writeFront hkey hw, rfl⟩

/-- **Cancelling** leaves nothing scheduled, and the account whose it was. -/
theorem cancels_of_processCancelScheduledGovernance {id : Bytes32}
    (h : processCancelScheduledGovernance R s accounts id = .ok s') : readyOf R s' id = none ∧
      (s' (R.findProgramAddress (govSeeds id))).owner =
        (s (R.findProgramAddress (govSeeds id))).owner := by
  simp only [processCancelScheduledGovernance, bind_eq_ok, exists_unit, revertIf_eq_ok,
    not_not] at h
  obtain ⟨x, -, gov, -, cfg, -, -, -, hkey, h⟩ := h
  split at h
  · next hnot =>
    obtain rfl := pure_eq_ok.mp h
    refine ⟨?_, rfl⟩
    rw [readyOf, scheduleOf, ← hkey]
    simp [hnot]
  · have hz := scheduleOf_of_writeFront hkey h
    obtain ⟨-, hwd⟩ := writeFront_eq_ok.mp h
    obtain ⟨-, howner, -⟩ := writeData_eq_ok.mp hwd
    exact ⟨readyOf_zero hz, (owner_of_scheduleOf hz).trans (hkey ▸ howner).symm⟩

/-! ### What a step does to the schedules -/

section Tending

variable {L seeds : List (List Bytes)}

variable (R) in
/-- The accounts of the schedules among some seeds hold no tokens. -/
def Untokened (L : List (List Bytes)) (s : Accounts) : Prop :=
  ∀ id, govSeeds id ∈ L → (s (R.findProgramAddress (govSeeds id))).owner ≠ R.splTokenId

variable (R) in
/-- **What a step does to the schedules among some seeds**: what its operation says. -/
structure Tended (L : List (List Bytes)) (e : Step) : Prop where
  mem : ∀ x, governanceOp R e = some x → govSeeds x.key ∈ L
  same : ∀ id, govSeeds id ∈ L → (∀ x, governanceOp R e = some x → x.key ≠ id) →
    (e.pre (R.findProgramAddress (govSeeds id))).Same (e.post (R.findProgramAddress (govSeeds id)))
  untokened : Untokened R L e.post
  cleared : ∀ id, governanceOp R e = some (.clear id) → readyOf R e.post id = none
  scheduled : ∀ id, governanceOp R e = some (.schedule id ()) → ∃ now, clockOf e = some now ∧
    readyOf R e.post id = some (instant now + GOVERNANCE_DELAY, ())
  taken : ∀ q, granted R e = some q →
    Consumed R (clockOf e) (q.actionId R.keccak256) e.pre e.post

/-- A step that does nothing to the timelock grants nothing. -/
theorem granted_of_governanceOp_none {e : Step} (h : governanceOp R e = none) :
    granted R e = none := by
  rcases hgr : granted R e with _ | q
  · rfl
  · rw [governanceOp, hgr] at h
    split at h <;> exact absurd h (by simp)

theorem apart_of_injOn (hinj : Set.InjOn R.findProgramAddress {sd | sd ∈ L})
    (hsub : ∀ sd ∈ seeds, sd ∈ L) {id : Bytes32} (hid : govSeeds id ∈ L)
    (hnot : govSeeds id ∉ seeds) : Apart R id seeds := by
  intro hmem
  obtain ⟨sd, hsd, heq⟩ := List.mem_map.mp hmem
  exact hnot (hinj (hsub sd hsd) hid heq ▸ hsd)

/-- A step that writes some seeds leaves the schedules among the others alone. -/
theorem same_of_wroteSeeds (hinj : Set.InjOn R.findProgramAddress {sd | sd ∈ L})
    (hs : Untokened R L s) (hsub : ∀ sd ∈ seeds, sd ∈ L) (hw : WroteSeeds R seeds s s')
    {id : Bytes32} (hid : govSeeds id ∈ L) (hnot : govSeeds id ∉ seeds) :
    (s (R.findProgramAddress (govSeeds id))).Same (s' (R.findProgramAddress (govSeeds id))) :=
  hw.same _ (hs id hid) (apart_of_injOn hinj hsub hid hnot)

variable {e : Step}

/-- A step that writes no schedule. -/
theorem tended_of_wroteSeeds (hinj : Set.InjOn R.findProgramAddress {sd | sd ∈ L})
    (hs : Untokened R L e.pre) (hsub : ∀ sd ∈ seeds, sd ∈ L) (hw : WroteSeeds R seeds e.pre e.post)
    (hop : governanceOp R e = none) (hnot : ∀ id, govSeeds id ∉ seeds) : Tended R L e := by
  have hsame : ∀ id, govSeeds id ∈ L → (e.pre (R.findProgramAddress (govSeeds id))).Same
      (e.post (R.findProgramAddress (govSeeds id))) := fun id hid =>
    same_of_wroteSeeds hinj hs hsub hw hid (hnot id)
  refine ⟨?_, fun id hid _ => hsame id hid, fun id hid => (hsame id hid).owner ▸ hs id hid, ?_, ?_,
    ?_⟩
  · simp [hop]
  · simp [hop]
  · simp [hop]
  · simp [granted_of_governanceOp_none hop]

/-- A step that writes one schedule. -/
theorem tended_of_one (hinj : Set.InjOn R.findProgramAddress {sd | sd ∈ L})
    (hs : Untokened R L e.pre) (hsub : ∀ sd ∈ seeds, sd ∈ L) (hw : WroteSeeds R seeds e.pre e.post)
    {x : Op Bytes32 Unit} (hop : governanceOp R e = some x)
    (hone : ∀ id, govSeeds id ∈ seeds ↔ id = x.key)
    (howner : (e.post (R.findProgramAddress (govSeeds x.key))).owner ≠ R.splTokenId)
    (hcleared : ∀ id, x = .clear id → readyOf R e.post id = none)
    (hscheduled : ∀ id, x = .schedule id () → ∃ now, clockOf e = some now ∧
      readyOf R e.post id = some (instant now + GOVERNANCE_DELAY, ()))
    (htaken : ∀ q, granted R e = some q →
      Consumed R (clockOf e) (q.actionId R.keccak256) e.pre e.post) : Tended R L e := by
  have hsame : ∀ id, govSeeds id ∈ L → id ≠ x.key →
      (e.pre (R.findProgramAddress (govSeeds id))).Same
        (e.post (R.findProgramAddress (govSeeds id))) := fun id hid hne =>
    same_of_wroteSeeds hinj hs hsub hw hid fun hmem => hne ((hone id).mp hmem)
  refine ⟨?_, ?_, ?_, ?_, ?_, htaken⟩
  · rintro y hy
    obtain rfl := Option.some.inj (hop.symm.trans hy)
    exact hsub _ ((hone _).mpr rfl)
  · exact fun id hid hne => hsame id hid fun heq => hne x hop heq.symm
  · intro id hid
    by_cases heq : id = x.key
    · exact heq ▸ howner
    · exact (hsame id hid heq).owner ▸ hs id hid
  · exact fun id hc => hcleared id (Option.some.inj (hop.symm.trans hc))
  · exact fun id hc => hscheduled id (Option.some.inj (hop.symm.trans hc))

/-- A step of an instruction that may take a power. -/
theorem tended_of_takes (hR : R.Lawful) (hinj : Set.InjOn R.findProgramAddress {sd | sd ∈ L})
    (hs : Untokened R L e.pre) (hannounced : announced e = none) (hdropped : dropped e = none)
    {p : Option Power} (hgranted : granted R e = p) {taken : List (List Bytes)}
    (ht : Takes R (clockOf e) p taken e.pre e.post) (hw : WroteSeeds R seeds e.pre e.post)
    (hsub : ∀ sd ∈ seeds, sd ∈ L) (htaken : ∀ sd ∈ taken, sd ∈ seeds)
    (hnot : ∀ id, govSeeds id ∉ taken)
    (hone : ∀ q, p = some q → ∀ id, govSeeds id ∈ seeds ↔ id = q.actionId R.keccak256) :
    Tended R L e := by
  rcases p with _ | q
  · have hop : governanceOp R e = none := by
      simp [governanceOp, hannounced, hgranted, hdropped]
    exact tended_of_wroteSeeds hinj hs (fun sd hsd => hsub sd (htaken sd hsd)) (ht.none rfl) hop
      hnot
  · have hop : governanceOp R e = some (.clear (q.actionId R.keccak256)) := by
      simp [governanceOp, hannounced, hgranted]
    have hc := ht.some q rfl
    refine tended_of_one hinj hs hsub hw hop (hone q rfl) ?_ ?_ (by simp) ?_
    · rw [Op.key, owner_of_scheduleOf hc.burnt]
      exact hR.programId_ne_splTokenId
    · rintro id heq
      obtain rfl := Op.clear.inj heq
      exact readyOf_zero hc.burnt
    · exact fun q' hq' => ht.some q' (hgranted ▸ hq')

theorem govSeeds_inj {i j : Bytes32} : govSeeds i = govSeeds j ↔ i = j := by
  simp [govSeeds]

/-- The seeds of a schedule are those of no other account. -/
theorem govSeeds_ne (i : Bytes32) : govSeeds i ≠ configSeeds ∧ (∀ d, govSeeds i ≠ assetSeeds d) ∧
    (∀ j, govSeeds i ≠ executedSeeds j) ∧ (∀ j, govSeeds i ≠ refundedSeeds j) ∧
    (∀ j, govSeeds i ≠ sentSeeds j) ∧ ∀ v, govSeeds i ≠ vaultSeeds v := by
  have hhead : ∀ {a b : Bytes} {x y : List Bytes}, a ≠ b → a :: x ≠ b :: y := fun hne heq =>
    hne (List.head_eq_of_cons_eq heq)
  exact ⟨hhead (by decide), fun _ => hhead (by decide), fun _ => hhead (by decide),
    fun _ => hhead (by decide), fun _ => hhead (by decide), fun _ => hhead (by decide)⟩

/-- A step of one of the three instructions that may take a power and store a config. -/
theorem tended_of_config (hR : R.Lawful) (hinj : Set.InjOn R.findProgramAddress {sd | sd ∈ L})
    (hs : Untokened R L s) {ix : Instruction} {q : Power}
    (hannounced : announced ⟨s, .instruction clock accounts ix, log, s'⟩ = none)
    (hdropped : dropped ⟨s, .instruction clock accounts ix, log, s'⟩ = none)
    (hwrites : ix.writes R accounts log = [configSeeds, govSeeds (q.actionId R.keccak256)])
    (hgrants : ∀ cfg p, ix.grants R clock s accounts cfg = some p → p = q)
    (hu : ∃ cfg, configAt R s = some cfg ∧
      Uses R clock s s' [configSeeds] (ix.grants R clock s accounts cfg))
    (hw : WroteSeeds R (ix.writes R accounts log) s s')
    (hsub : ∀ sd ∈ ix.writes R accounts log, sd ∈ L) :
    Tended R L ⟨s, .instruction clock accounts ix, log, s'⟩ := by
  have hconfig : ∀ id, govSeeds id ∉ [configSeeds] := fun id => by simp [(govSeeds_ne _).1]
  have hapart : Apart R (q.actionId R.keccak256) [configSeeds] := by
    refine apart_of_injOn hinj (fun sd hsd => hsub sd ?_) (hsub _ ?_) (hconfig _)
    · rw [hwrites, List.mem_singleton.mp hsd]
      exact List.mem_cons_self
    · simp [hwrites]
  obtain ⟨cfg, hcfg, hu⟩ := hu
  have ht := hu.takes hR fun p hp => hgrants cfg p hp ▸ hapart
  refine tended_of_takes hR hinj hs hannounced hdropped (granted_instruction hcfg _) ht hw hsub ?_
    hconfig ?_
  · simp [hwrites]
  · intro p hp id
    obtain rfl := hgrants cfg p hp
    simp [hwrites, (govSeeds_ne _).1, govSeeds_inj]

/-- **One step tends the schedules**, one case for each kind of instruction. -/
theorem tended_step (hR : R.Lawful) (hinj : Set.InjOn R.findProgramAddress {sd | sd ∈ L})
    (hs : Untokened R L s) {l : Label} (he : exec R s l = some (s', log))
    (hsub : ∀ sd ∈ writesOf R ⟨s, l, log, s'⟩, sd ∈ L) : Tended R L ⟨s, l, log, s'⟩ := by
  cases l with
  | others want =>
    simp only [exec, Option.some.injEq, Prod.mk.injEq] at he
    obtain ⟨rfl, -⟩ := he
    have hsame : ∀ id, (s (R.findProgramAddress (govSeeds id))).Same
        (others R s want (R.findProgramAddress (govSeeds id))) := by
      intro id
      simp only [others, hR.isDerived, true_or, if_true]
      exact ⟨rfl, rfl⟩
    have hop : governanceOp R ⟨s, .others want, log, others R s want⟩ = none := rfl
    exact ⟨by simp [hop], fun id _ _ => hsame id, fun id hid => (hsame id).owner ▸ hs id hid,
      by simp [hop], by simp [hop], by simp [granted]⟩
  | instruction clock accounts ix =>
    have h := exec_instruction he
    have hw := wrote_of_processInstruction hR h
    replace hsub : ∀ sd ∈ ix.writes R accounts log, sd ∈ L := hsub
    -- An instruction that neither announces nor takes anything, and writes no schedule.
    have hquiet : (∀ cfg, ix.grants R clock s accounts cfg = none) →
        (∀ action, ix ≠ .scheduleAction action) → (∀ id, ix ≠ .cancelScheduledGovernance id) →
        (∀ id, govSeeds id ∉ ix.writes R accounts log) →
        Tended R L ⟨s, .instruction clock accounts ix, log, s'⟩ := by
      intro hgrants hsched hcancel hnot
      refine tended_of_wroteSeeds hinj hs hsub hw ?_ hnot
      have hann : announced ⟨s, .instruction clock accounts ix, log, s'⟩ = none := by
        cases ix <;> first | rfl | exact absurd rfl (hsched _)
      have hdrop : dropped ⟨s, .instruction clock accounts ix, log, s'⟩ = none := by
        cases ix <;> first | rfl | exact absurd rfl (hcancel _)
      simp [governanceOp, hann, hdrop, granted, hgrants]
    cases ix with
    | setValidator v active =>
      refine tended_of_config (q := .addValidator v) hR hinj hs rfl rfl rfl ?_
        (uses_of_processSetValidator (quiet_eq_ok.mp h).1) hw hsub
      intro cfg p hp
      simp only [Instruction.grants, Option.ite_none_right_eq_some, Option.some.injEq] at hp
      exact hp.2.symm
    | setThreshold t =>
      refine tended_of_config (q := .lowerThreshold t) hR hinj hs rfl rfl rfl ?_
        (uses_of_processSetThreshold (quiet_eq_ok.mp h).1) hw hsub
      intro cfg p hp
      simp only [Instruction.grants, Option.ite_none_right_eq_some, Option.some.injEq] at hp
      exact hp.2.symm
    | setGuardian g =>
      refine tended_of_config (q := .setGuardian g) hR hinj hs rfl rfl rfl ?_
        (uses_of_processSetGuardian (quiet_eq_ok.mp h).1) hw hsub
      intro cfg p hp
      simp only [Instruction.grants, Option.ite_none_right_eq_some, Option.some.injEq] at hp
      exact hp.2.symm
    | registerAsset d n =>
      obtain ⟨x, cfg, hx, hcfg, hu⟩ := uses_of_processRegisterAsset hR (quiet_eq_ok.mp h).1
      have hwrites : Instruction.writes R accounts log (.registerAsset d n) = [assetSeeds d,
          vaultSeeds x.vault.key, govSeeds (registerAssetActionId R.keccak256 d x.mint.key
            x.vault.key n)] := by
        rw [Instruction.writes, registerSeeds, hx]
      have hapart : Apart R (registerAssetActionId R.keccak256 d x.mint.key x.vault.key n)
          [assetSeeds d, vaultSeeds x.vault.key] :=
        apart_of_injOn hinj (fun sd hsd => hsub sd (by
            show sd ∈ Instruction.writes R accounts log (.registerAsset d n)
            rw [hwrites]
            exact List.mem_append_left [_] hsd))
          (hsub _ (by
            show _ ∈ Instruction.writes R accounts log (.registerAsset d n)
            simp [hwrites]))
          (by simp [(govSeeds_ne _).2.1, (govSeeds_ne _).2.2.2.2.2])
      have hgrants : ∀ q, Instruction.grants R clock s accounts cfg (.registerAsset d n) = some q →
          q = .registerAsset d x.mint.key x.vault.key n := by
        intro q hq
        simp only [Instruction.grants, hx, Except.toOption, Option.map_some,
          Option.ite_none_right_eq_some, Option.some.injEq] at hq
        exact hq.2.symm
      have ht := hu.takes hR fun q hq => hgrants q hq ▸ hapart
      refine tended_of_takes hR hinj hs rfl rfl (granted_instruction hcfg _) ht hw hsub ?_ ?_ ?_
      · simp [hwrites]
      · simp [(govSeeds_ne _).2.1, (govSeeds_ne _).2.2.2.2.2]
      · intro q hq id
        obtain rfl := hgrants q hq
        simp [hwrites, (govSeeds_ne _).2.1, (govSeeds_ne _).2.2.2.2.2, govSeeds_inj,
          Power.actionId]
    | scheduleAction action =>
      obtain ⟨q, now, r, hq, hnow, hr, hsched, hlog⟩ := schedules_of_processScheduleAction h
      have hwrites : Instruction.writes R accounts log (.scheduleAction action) =
          [govSeeds (q.actionId R.keccak256)] := by
        rw [Instruction.writes, hlog]
        rfl
      have hready : readyOf R s' (q.actionId R.keccak256) =
          if r = 0 then none else some (instant now + GOVERNANCE_DELAY, ()) := by
        rw [readyOf, hsched, Option.bind_some]
        have hi := @instant_of_toInt r
        have hi' := @instant_of_toInt now
        rw [show instant r = instant now + GOVERNANCE_DELAY by omega]
      have hop : governanceOp R ⟨s, .instruction clock accounts (.scheduleAction action), log, s'⟩ =
          some (if readyOf R s' (q.actionId R.keccak256) = none then
            .clear (q.actionId R.keccak256) else .schedule (q.actionId R.keccak256) ()) := by
        simp only [governanceOp, announced, hq]
      refine tended_of_one hinj hs hsub hw hop ?_ ?_ ?_ ?_ (by simp [granted, Instruction.grants])
      · intro id
        rw [hwrites, List.mem_singleton, govSeeds_inj]
        split <;> rfl
      · have howner := owner_of_scheduleOf hsched
        split <;> exact howner ▸ hR.programId_ne_splTokenId
      · intro id heq
        split at heq
        · next hnone =>
          obtain rfl := Op.clear.inj heq
          exact hnone
        · exact absurd heq (by simp)
      · intro id heq
        split at heq
        · exact absurd heq (by simp)
        · next hsome =>
          obtain ⟨rfl, -⟩ := Op.schedule.inj heq
          refine ⟨now, hnow, ?_⟩
          rw [hready] at hsome ⊢
          split at hsome
          · exact absurd rfl hsome
          · next hr₀ => rw [if_neg hr₀]
    | cancelScheduledGovernance id =>
      obtain ⟨hnone, howner⟩ :=
        cancels_of_processCancelScheduledGovernance (quiet_eq_ok.mp h).1
      have hop : governanceOp R ⟨s, .instruction clock accounts (.cancelScheduledGovernance id),
          log, s'⟩ = some (.clear id) := by
        simp [governanceOp, announced, granted, Instruction.grants, dropped]
      refine tended_of_one hinj hs hsub hw hop ?_ ?_ ?_ (by simp)
        (by simp [granted, Instruction.grants])
      · intro j
        rw [Instruction.writes, List.mem_singleton, govSeeds_inj]
        rfl
      · exact howner ▸ hs id (hsub _ (by simp [Instruction.writes]))
      · rintro j heq
        obtain rfl := Op.clear.inj heq
        exact hnone
    | registerCorridor chainIdTo =>
      exact hquiet (fun _ => rfl) (by simp) (by simp)
        (by simp [Instruction.writes, (govSeeds_ne _).1])
    | pause =>
      exact hquiet (fun _ => rfl) (by simp) (by simp)
        (by simp [Instruction.writes, (govSeeds_ne _).1])
    | unpause =>
      exact hquiet (fun _ => rfl) (by simp) (by simp)
        (by simp [Instruction.writes, (govSeeds_ne _).1])
    | sealGate =>
      exact hquiet (fun _ => rfl) (by simp) (by simp)
        (by simp [Instruction.writes, (govSeeds_ne _).1])
    | init a =>
      exact hquiet (fun _ => rfl) (by simp) (by simp)
        (by simp [Instruction.writes, (govSeeds_ne _).1])
    | scheduleGovernance id =>
      exact hquiet (fun _ => rfl) (by simp) (by simp) (by simp [Instruction.writes])
    | send a =>
      exact hquiet (fun _ => rfl) (by simp) (by simp)
        (by simp [Instruction.writes, (govSeeds_ne _).1, ((govSeeds_ne _).2.2.2.2.1 _).symm])
    | claim a =>
      exact hquiet (fun _ => rfl) (by simp) (by simp)
        (by simp [Instruction.writes, ((govSeeds_ne _).2.2.1 _).symm])
    | cancel a =>
      exact hquiet (fun _ => rfl) (by simp) (by simp)
        (by simp [Instruction.writes, ((govSeeds_ne _).2.2.1 _).symm])
    | refund a =>
      exact hquiet (fun _ => rfl) (by simp) (by simp)
        (by simp [Instruction.writes, (govSeeds_ne _).2.2.2.1, (govSeeds_ne _).2.2.2.2.1])

/-! ### The timelock in the machine -/

variable (R) in
/-- The machine, taking only the steps that write some seeds. -/
abbrev execOn (L : List (List Bytes)) : Accounts → Label → Option (Accounts × List Log) :=
  restrict (exec R) fun e => ∀ sd ∈ writesOf R e, sd ∈ L

variable (R) in
/-- The schedules among some seeds, as a table. -/
def pendingOn (L : List (List Bytes)) (s : Accounts) : Pending Bytes32 Unit := fun id =>
  if govSeeds id ∈ L then readyOf R s id else none

/-- The time of a step, counted from the first there is. -/
def time (e : Step) : ℕ := (clockOf e).elim 0 instant

/-- **The schedules are a timelock**: their table moves by the steps' operations. -/
theorem clocked_schedules (hR : R.Lawful)
    (hinj : Set.InjOn R.findProgramAddress {sd | sd ∈ L}) :
    Clocked (execOn R L) (Untokened R L) (pendingOn R L) (governanceOp R) time
      GOVERNANCE_DELAY where
  keeps := by
    intro s l s' log hs h
    obtain ⟨he, hsub⟩ := restrict_eq_some.mp h
    exact (tended_step hR hinj hs he hsub).untokened
  step := by
    intro s l s' log hs h
    obtain ⟨he, hsub⟩ := restrict_eq_some.mp h
    have T := tended_step hR hinj hs he hsub
    funext id
    by_cases hkey : ∃ x, governanceOp R ⟨s, l, log, s'⟩ = some x ∧ x.key = id
    · obtain ⟨x, hop, rfl⟩ := hkey
      rw [hop, Option.elim_some, pendingOn, if_pos (T.mem x hop)]
      rcases x with ⟨id, ⟨⟩⟩ | id
      · obtain ⟨now, hnow, hready⟩ := T.scheduled id hop
        rw [Op.effect, Op.key, Function.update_self, hready, time, hnow, Option.elim_some]
      · rw [Op.effect, Op.key, Function.update_self, T.cleared id hop]
    · have hne : ∀ x, governanceOp R ⟨s, l, log, s'⟩ = some x → x.key ≠ id :=
        fun x hop heq => hkey ⟨x, hop, heq⟩
      have hsame : pendingOn R L s' id = pendingOn R L s id := by
        rw [pendingOn, pendingOn]
        split
        · next hid => exact readyOf_eq (scheduleOf_same (T.same id hid hne))
        · rfl
      rw [hsame]
      rcases hop : governanceOp R ⟨s, l, log, s'⟩ with _ | x
      · rfl
      · have hx := hne x hop
        rcases x with ⟨k, u⟩ | k
        · exact (Function.update_of_ne (Ne.symm hx) _ _).symm
        · exact (Function.update_of_ne (Ne.symm hx) _ _).symm

end Tending

/-- Nothing is scheduled on a cluster just deployed to. -/
theorem unscheduled_of_deployed (hR : R.Lawful) (h : Deployed R s) (L : List (List Bytes)) :
    Untokened R L s ∧ ∀ id, pendingOn R L s id = none := by
  have howner : ∀ id, (s (R.findProgramAddress (govSeeds id))).owner = R.systemId :=
    fun id => (h.derived _ (hR.isDerived _)).owner
  refine ⟨fun id _ => howner id ▸ hR.systemId_ne_splTokenId, fun id => ?_⟩
  have hnot : ¬isSchedule R (s (R.findProgramAddress (govSeeds id))) := fun hs =>
    h.none _ hs.1
  rw [pendingOn, readyOf, scheduleOf]
  simp [hnot]

/-! ### Steps that touch, announce and grant -/

/-- A step that touches a schedule does something to the timelock there. -/
theorem governanceOp_of_touches {e : Step} {id : Bytes32} (h : Touches R e id) :
    ∃ x, governanceOp R e = some x ∧ x.key = id := by
  rcases e with ⟨s, l, log, s'⟩
  rcases hann : announced ⟨s, l, log, s'⟩ with _ | q
  · rcases hgr : granted R ⟨s, l, log, s'⟩ with _ | q
    · rcases h with ⟨p, -, h | h⟩ | h
      · exact absurd (hann.symm.trans h) (by simp)
      · exact absurd (hgr.symm.trans h) (by simp)
      · exact ⟨.clear id, by simp [governanceOp, hann, hgr, h], rfl⟩
    · rcases h with ⟨p, rfl, h | h⟩ | h
      · exact absurd (hann.symm.trans h) (by simp)
      · obtain rfl := Option.some.inj (hgr.symm.trans h)
        exact ⟨.clear (q.actionId R.keccak256), by simp [governanceOp, hann, hgr], rfl⟩
      · -- A cancellation grants nothing.
        rcases l with ⟨clock, accounts, ix⟩ | want
        · cases ix <;> simp [dropped, granted, Instruction.grants] at h hgr
        · simp [dropped] at h
  · -- What is announced is neither granted nor cancelled by the same step.
    have hnone : granted R ⟨s, l, log, s'⟩ = none ∧ dropped ⟨s, l, log, s'⟩ = none := by
      rcases l with ⟨clock, accounts, ix⟩ | want
      · cases ix <;> simp [announced, granted, dropped, Instruction.grants] at hann ⊢
      · simp [announced] at hann
    rcases h with ⟨p, rfl, h | h⟩ | h
    · obtain rfl := Option.some.inj (hann.symm.trans h)
      refine ⟨_, by rw [governanceOp, hann], ?_⟩
      dsimp only
      split <;> rfl
    · exact absurd (hnone.1.symm.trans h) (by simp)
    · exact absurd (hnone.2.symm.trans h) (by simp)

/-- What schedules an action id is an announcement of a power of that id. -/
theorem announced_of_governanceOp {e : Step} {id : Bytes32}
    (h : governanceOp R e = some (.schedule id ())) :
    ∃ q, announced e = some q ∧ q.actionId R.keccak256 = id := by
  rw [governanceOp] at h
  split at h
  · next q hq =>
    refine ⟨q, hq, ?_⟩
    dsimp only at h
    split at h
    · exact absurd (Option.some.inj h) (by simp)
    · exact (Op.schedule.inj (Option.some.inj h)).1
  · split at h
    · exact absurd (Option.some.inj h) (by simp)
    · obtain ⟨j, -, hj⟩ := Option.map_eq_some_iff.mp h
      exact absurd hj (by simp)

/-! ### The config, from one step to the next -/

variable (R) in
/-- **What a step leaves of a config, as far as power goes**: validators, threshold and
guardian are as they were, or take none of it away, or the step grants what they gain. -/
structure Empowers (e : Step) (c c' : Config) : Prop where
  validators : ∀ v ∈ c'.validators, v ∈ c.validators ∨ granted R e = some (.addValidator v)
  threshold : c.threshold ≤ c'.threshold ∨ granted R e = some (.lowerThreshold c'.threshold)
  guardian : c'.guardian = c.guardian ∨ c.guardian = 0 ∨ setupOver c (clockOf e) = false ∨
    granted R e = some (.setGuardian c'.guardian)

/-- A config with the same validators, threshold and guardian. -/
theorem empowers_of_eq {e : Step} {c c' : Config} (hv : c'.validators = c.validators)
    (ht : c'.threshold = c.threshold) (hg : c'.guardian = c.guardian) : Empowers R e c c' :=
  ⟨fun _ h => .inl (hv ▸ h), .inl (ht ▸ BitVec.le_refl _), .inl hg⟩

/-- **What is stored is the config** from then on. -/
theorem configAt_of_store {ai : AccountInfo} {c : Config}
    (hkey : ai.key = R.findProgramAddress configSeeds) (hs : c.store R s ai = .ok s')
    (hv : c.validators.length < 2 ^ 32) (hn : c.nonceTo.length < 2 ^ 32) :
    configAt R s' = some c := by
  simp only [Config.store, revertIf_bind_eq_ok, writeZeroPadded_eq_ok, writeData_eq_ok] at hs
  obtain ⟨-, -, -, howner, rfl⟩ := hs
  have hvalid : configCodec.Valid c := by
    refine ⟨trivial, trivial, trivial, ⟨hv, fun _ _ => trivial⟩, trivial, trivial, trivial, trivial,
      trivial, ⟨hn, fun _ _ => ⟨trivial, trivial⟩⟩, trivial, trivial⟩
  rw [configAt, hkey]
  rw [hkey] at howner
  simp only [Function.update_self, howner, if_true]
  rw [configCodec.get_put _ hvalid, Option.map_some]

theorem seated_of_configAt (h : Chartered R s) {c : Config} (hc : configAt R s = some c) :
    c.Seated := by
  rw [configAt, Option.ite_none_right_eq_some] at hc
  obtain ⟨howner, hget⟩ := hc
  obtain ⟨⟨c', rest⟩, hdata, rfl⟩ := Option.map_eq_some_iff.mp hget
  have hconfig : Configured R s ⟨R.findProgramAddress configSeeds, false, false⟩ c' :=
    ⟨rfl, howner, rest, hdata⟩
  exact h.seated hconfig

section Empowering

variable {c c' : Config}

/-- What was stored is what is found. -/
theorem eq_of_store {ai : AccountInfo} {d : Config}
    (hkey : ai.key = R.findProgramAddress configSeeds) (hstore : d.store R s₁ ai = .ok s')
    (hc' : configAt R s' = some c') (hv : d.validators.length < 2 ^ 32)
    (hn : d.nonceTo.length < 2 ^ 32) : d = c' :=
  Option.some.inj ((configAt_of_store hkey hstore hv hn).symm.trans hc')

theorem empowers_of_processSetValidator (hs : Chartered R s) {v : Address} {active : Bool}
    (h : processSetValidator R clock s accounts v active = .ok s') (hc : configAt R s = some c)
    (hc' : configAt R s' = some c') :
    Empowers R ⟨s, .instruction clock accounts (.setValidator v active), log, s'⟩ c c' := by
  have hseated := seated_of_configAt hs hc
  simp only [processSetValidator, bind_eq_ok, exists_unit, check_eq_ok] at h
  obtain ⟨x, -, cfg, hcfg, -, -, h⟩ := h
  have hx := configured_of_loadConfig hcfg
  obtain rfl := Option.some.inj (hx.configAt_eq.symm.trans hc)
  split at h
  · next hadd =>
    simp only [bind_eq_ok, exists_unit, check_eq_ok] at h
    obtain ⟨hroom, s₁, -, hstore⟩ := h
    have hmax := cfg.maxValidators.isLt
    obtain rfl := eq_of_store hx.key hstore hc' (by
      simp only [List.length_append, List.length_singleton]
      omega) hseated.corridors_lt
    refine ⟨fun w hw => ?_, .inl (BitVec.le_refl _), .inl rfl⟩
    rcases List.mem_append.mp hw with hw | hw
    · exact .inl hw
    · obtain rfl := List.mem_singleton.mp hw
      right
      rw [granted_instruction hc, Instruction.grants, if_pos hadd]
  · split at h
    · simp only [bind_eq_ok, exists_unit] at h
      have hlen := List.length_filter_le (· != v) cfg.validators
      obtain rfl := eq_of_store hx.key h.2 hc' (lt_of_le_of_lt hlen hseated.validators_lt)
        hseated.corridors_lt
      exact ⟨fun w hw => .inl (List.mem_of_mem_filter hw), .inl (BitVec.le_refl _), .inl rfl⟩
    · obtain rfl := pure_eq_ok.mp h
      obtain rfl := Option.some.inj (hc.symm.trans hc')
      exact empowers_of_eq rfl rfl rfl

theorem empowers_of_processSetThreshold (hs : Chartered R s) {t : BitVec 32}
    (h : processSetThreshold R clock s accounts t = .ok s') (hc : configAt R s = some c)
    (hc' : configAt R s' = some c') :
    Empowers R ⟨s, .instruction clock accounts (.setThreshold t), log, s'⟩ c c' := by
  have hseated := seated_of_configAt hs hc
  simp only [processSetThreshold, bind_eq_ok, exists_unit] at h
  obtain ⟨x, -, cfg, hcfg, -, -, -, s₁, -, hstore⟩ := h
  have hx := configured_of_loadConfig hcfg
  obtain rfl := Option.some.inj (hx.configAt_eq.symm.trans hc)
  obtain rfl := eq_of_store hx.key hstore hc' hseated.validators_lt hseated.corridors_lt
  refine ⟨fun w hw => .inl hw, ?_, .inl rfl⟩
  by_cases hlt : t < cfg.threshold
  · right
    rw [granted_instruction hc, Instruction.grants, if_pos hlt]
  · exact .inl (BitVec.not_lt.mp hlt)

theorem empowers_of_processSetGuardian (hs : Chartered R s) {g : Pubkey}
    (h : processSetGuardian R clock s accounts g = .ok s') (hc : configAt R s = some c)
    (hc' : configAt R s' = some c') :
    Empowers R ⟨s, .instruction clock accounts (.setGuardian g), log, s'⟩ c c' := by
  have hseated := seated_of_configAt hs hc
  simp only [processSetGuardian, bind_eq_ok, exists_unit] at h
  obtain ⟨x, -, cfg, hcfg, -, h⟩ := h
  have hx := configured_of_loadConfig hcfg
  obtain rfl := Option.some.inj (hx.configAt_eq.symm.trans hc)
  split at h
  · obtain rfl := pure_eq_ok.mp h
    obtain rfl := Option.some.inj (hc.symm.trans hc')
    exact empowers_of_eq rfl rfl rfl
  · next hne =>
    simp only [bind_eq_ok] at h
    obtain ⟨now, -, s₁, -, hstore⟩ := h
    obtain rfl := eq_of_store hx.key hstore hc' hseated.validators_lt hseated.corridors_lt
    refine ⟨fun w hw => .inl hw, .inl (BitVec.le_refl _), .inr ?_⟩
    by_cases hzero : cfg.guardian = 0
    · exact .inl hzero
    · by_cases hover : setupOver cfg clock = true
      · right; right
        rw [granted_instruction hc, Instruction.grants, if_pos ⟨hover, hzero, hne⟩]
      · exact .inr (.inl (Bool.not_eq_true _ ▸ hover))

theorem Sends.empowers (hR : R.Lawful) (hs : Chartered R s) {a : SendArgs} {x : SendAccounts}
    {asset : AssetConfig} {wire : U64} {id : Bytes32}
    (S : Sends R clock s a x cfg asset wire id s' log) (hc : configAt R s = some c)
    (hc' : configAt R s' = some c') {e : Step} : Empowers R e c c' := by
  have hseated := seated_of_configAt hs hc
  obtain rfl := Option.some.inj (S.config.configAt_eq.symm.trans hc)
  obtain ⟨bumped, s₁, s₂, lockedAt, hbump, hs₁, hs₂, hs₃⟩ := S.steps
  obtain ⟨nonceTo, hin, hb⟩ := bind_eq_ok.mp hbump
  obtain rfl := pure_eq_ok.mp hb
  -- The record's account was free, and the config's was not; the rest moves tokens.
  have howner : (s₁ (R.findProgramAddress configSeeds)).owner = R.programId :=
    ((wrote_of_store hs₁).kept _ (S.config.key ▸ S.config.owner)).1
  have ht := took_of_createSentRecord hR hs₂
  have hne : R.findProgramAddress configSeeds ≠ x.sent.key := by
    intro heq
    rw [heq] at howner
    exact hR.programId_ne_systemId (howner.symm.trans ht.free.owner)
  have hsame := ht.other _ hne
  have hspl : (s₂ (R.findProgramAddress configSeeds)).owner ≠ R.splTokenId := by
    rw [hsame.owner, howner]
    exact hR.programId_ne_splTokenId
  have hlast := (wrote_of_splTransfer hR hs₃).same _ hspl List.not_mem_nil
  rw [configAt_same hlast, configAt_same hsame] at hc'
  obtain rfl := eq_of_store S.config.key hs₁ hc' hseated.validators_lt
    (by simpa only [length_of_bumpIn hin] using hseated.corridors_lt)
  exact empowers_of_eq rfl rfl rfl

/-- Storing a config of the same validators, threshold and guardian. -/
theorem empowers_of_store {ai : AccountInfo} {d : Config} (hc : c.Seated)
    (hkey : ai.key = R.findProgramAddress configSeeds) (hstore : d.store R s₁ ai = .ok s')
    (hc' : configAt R s' = some c') (hv : d.validators = c.validators)
    (ht : d.threshold = c.threshold) (hg : d.guardian = c.guardian)
    (hn : d.nonceTo.length < 2 ^ 32) {e : Step} : Empowers R e c c' := by
  obtain rfl := eq_of_store hkey hstore hc' (hv ▸ hc.validators_lt) hn
  exact empowers_of_eq hv ht hg

theorem empowers_of_processSetPaused (hs : Chartered R s) {paused : Bool}
    (h : processSetPaused R s accounts paused = .ok s') (hc : configAt R s = some c)
    (hc' : configAt R s' = some c') {e : Step} : Empowers R e c c' := by
  have hseated := seated_of_configAt hs hc
  simp only [processSetPaused, bind_eq_ok, exists_unit] at h
  obtain ⟨x, -, cfg, hcfg, -, -, h⟩ := h
  have hx := configured_of_loadConfig hcfg
  obtain rfl := Option.some.inj (hx.configAt_eq.symm.trans hc)
  split at h
  · obtain rfl := pure_eq_ok.mp h
    obtain rfl := Option.some.inj (hc.symm.trans hc')
    exact empowers_of_eq rfl rfl rfl
  · exact empowers_of_store hseated hx.key h hc' rfl rfl rfl hseated.corridors_lt

/-- **One step empowers nobody that it does not grant it to**, one case for each kind of
instruction. -/
theorem empowers_step (hR : R.Lawful) (hs : Chartered R s) {l : Label}
    (he : exec R s l = some (s', log))
    (hinj : ∀ sd ∈ writesOf R ⟨s, l, log, s'⟩,
      R.findProgramAddress sd = R.findProgramAddress configSeeds → sd = configSeeds)
    {c c' : Config} (hc : configAt R s = some c) (hc' : configAt R s' = some c') :
    Empowers R ⟨s, l, log, s'⟩ c c' := by
  have hsame : (s (R.findProgramAddress configSeeds)).Same
      (s' (R.findProgramAddress configSeeds)) → Empowers R ⟨s, l, log, s'⟩ c c' := by
    intro h
    obtain rfl := Option.some.inj (hc.symm.trans ((configAt_same h).symm.trans hc'))
    exact empowers_of_eq rfl rfl rfl
  have hseated := seated_of_configAt hs hc
  cases l with
  | others want =>
    simp only [exec, Option.some.injEq, Prod.mk.injEq] at he
    obtain ⟨rfl, -⟩ := he
    refine hsame ?_
    have hd := hR.isDerived configSeeds
    simp only [others, hd, true_or, if_true]
    exact ⟨rfl, rfl⟩
  | instruction clock accounts ix =>
    have h := exec_instruction he
    obtain ⟨ha, hx, hr, hsent, hg, hv⟩ := configSeeds_ne
    -- An instruction that does not write the config's seeds leaves the config alone.
    have hother : configSeeds ∉ ix.writes R accounts log →
        Empowers R ⟨s, .instruction clock accounts ix, log, s'⟩ c c' := by
      intro hnot
      refine hsame ((wrote_of_processInstruction hR h).same _ hs.owner fun hk => ?_)
      obtain ⟨sd, hsd, heq⟩ := List.mem_map.mp hk
      exact hnot (hinj sd hsd heq ▸ hsd)
    cases ix with
    | init a =>
      -- There is a config already, so its account is not free.
      have h := (quiet_eq_ok.mp h).1
      simp only [processInit, bind_eq_ok, exists_unit, revertIf_eq_ok, not_not] at h
      obtain ⟨x, -, hkey, -, -, -, -, -, -, s₁, hcreate, -⟩ := h
      have hfree := (took_of_createPdaAccount hR hcreate).free
      rw [hkey] at hfree
      rw [configAt, Option.ite_none_right_eq_some] at hc
      exact absurd (hc.1.symm.trans hfree.owner) hR.programId_ne_systemId
    | send a =>
      obtain ⟨x, cfg, asset, wire, id, -, S⟩ := sends_of_processSend h
      exact S.empowers hR hs hc hc'
    | setValidator v active =>
      exact empowers_of_processSetValidator hs (quiet_eq_ok.mp h).1 hc hc'
    | setThreshold t => exact empowers_of_processSetThreshold hs (quiet_eq_ok.mp h).1 hc hc'
    | setGuardian guardian => exact empowers_of_processSetGuardian hs (quiet_eq_ok.mp h).1 hc hc'
    | registerCorridor chainIdTo =>
      have h := (quiet_eq_ok.mp h).1
      simp only [processRegisterCorridor, bind_eq_ok, exists_unit] at h
      obtain ⟨x, -, cfg, hcfg, -, -, h⟩ := h
      have hx := configured_of_loadConfig hcfg
      obtain rfl := Option.some.inj (hx.configAt_eq.symm.trans hc)
      split at h
      · obtain rfl := pure_eq_ok.mp h
        exact hsame (.refl _)
      · simp only [bind_eq_ok, exists_unit, check_eq_ok] at h
        obtain ⟨hroom, hstore⟩ := h
        have hmax := cfg.maxCorridors.isLt
        refine empowers_of_store hseated hx.key hstore hc' rfl rfl rfl ?_
        simp only [List.length_append, List.length_singleton]
        omega
    | pause => exact empowers_of_processSetPaused hs (quiet_eq_ok.mp h).1 hc hc'
    | unpause => exact empowers_of_processSetPaused hs (quiet_eq_ok.mp h).1 hc hc'
    | sealGate =>
      have h := (quiet_eq_ok.mp h).1
      simp only [processSeal, bind_eq_ok, exists_unit] at h
      obtain ⟨x, -, cfg, hcfg, -, -, hstore⟩ := h
      have hx := configured_of_loadConfig hcfg
      obtain rfl := Option.some.inj (hx.configAt_eq.symm.trans hc)
      exact empowers_of_store hseated hx.key hstore hc' rfl rfl rfl hseated.corridors_lt
    | claim a => exact hother (configSeeds_notMem hx _)
    | cancel a => exact hother (configSeeds_notMem hx _)
    | refund a => exact hother (by simp [Instruction.writes, hr, hsent])
    | scheduleGovernance actionId => exact hother (by simp [Instruction.writes])
    | cancelScheduledGovernance actionId => exact hother (by simp [Instruction.writes, hg])
    | scheduleAction action => exact hother (configSeeds_notMem hg _)
    | registerAsset debridgeId bridgeDecimals =>
      refine hother ?_
      rw [Instruction.writes, registerSeeds]
      split <;> simp [ha, hv, hg]

end Empowering

/-! ### The asset that is registered -/

@[simp] theorem length_put_asset (asset : AssetConfig) :
    (assetCodec.put asset).length = ASSET_CONFIG_LEN := by
  simp [assetCodec, Borsh.Codec.iso, Borsh.Codec.pair, word, Borsh.Codec.array, Borsh.Codec.u8,
    ASSET_CONFIG_LEN]

/-- What was written into enough room is read back. -/
theorem decodeAssetConfig_put (asset : AssetConfig) {rest : Bytes} (h : rest ≠ []) :
    decodeAssetConfig (assetCodec.put asset ++ rest) = .ok asset := by
  have hpos := List.length_pos_iff.mpr h
  have hlen : (assetCodec.put asset ++ rest).length = ASSET_CONFIG_LEN + rest.length := by
    rw [List.length_append, length_put_asset]
  have hlong : ¬((assetCodec.put asset ++ rest).length = LEGACY_ASSET_CONFIG_LEN ∨
      (assetCodec.put asset ++ rest).length = LEGACY_ASSET_CONFIG_LEN + 1) := by
    rw [hlen, ASSET_CONFIG_LEN, LEGACY_ASSET_CONFIG_LEN]
    omega
  rw [decodeAssetConfig, if_neg hlong,
    assetCodec.get_put rest ⟨trivial, trivial, trivial, trivial, trivial⟩]
  rfl

/-- There is room after `make_room`. -/
theorem le_length_of_makeRoom (hR : R.Lawful) {owner ai : AccountInfo} {space : ℕ}
    (h : makeRoom R s owner ai space = .ok s') : space ≤ (s' ai.key).data.length := by
  unfold makeRoom at h
  split at h
  · rw [(took_of_createPdaAccount hR h).data_eq, List.length_replicate]
  · split at h
    · obtain ⟨s₁, -, hw⟩ := bind_eq_ok.mp h
      obtain ⟨-, -, rfl⟩ := writeData_eq_ok.mp hw
      rw [Function.update_self, List.length_append, List.length_replicate]
      omega
    · next hroom =>
      obtain rfl := Except.ok.inj h
      exact not_lt.mp hroom

/-- **A new binding is the one that the instruction names.** -/
theorem assetAt_of_processRegisterAsset (hR : R.Lawful) {d : Bytes32} {n : UInt8}
    {asset : AssetConfig} (h : processRegisterAsset R clock s accounts d n = .ok s')
    (hpre : assetAt R s d = none) (hpost : assetAt R s' d = some asset) :
    ∃ x, RegisterAccounts.next accounts = .ok x ∧ asset.mint = x.mint.key ∧
      asset.vault = x.vault.key ∧ asset.bridgeDecimals = n := by
  simp only [processRegisterAsset, bind_eq_ok, exists_unit, revertIf_eq_ok, not_not] at h
  obtain ⟨x, hx, cfg, hcfg, -, localDecimals, -, hkey, r, hr, s₁, -, s₂, -, h⟩ := h
  rw [hkey] at hr
  obtain rfl := (registering_eq_fresh hr).mpr hpre
  rw [if_neg (by simp)] at h
  simp only [bind_eq_ok] at h
  obtain ⟨s₃, hroom, hw⟩ := h
  have hspace := le_length_of_makeRoom hR hroom
  obtain ⟨-, hwd⟩ := writeZeroPadded_eq_ok.mp hw
  obtain ⟨-, howner, rfl⟩ := writeData_eq_ok.mp hwd
  have hrest : List.replicate ((s₃ x.asset.key).data.length - (assetCodec.put
      ⟨d, x.mint.key, x.vault.key, n, localDecimals⟩).length) (0 : UInt8) ≠ [] := by
    rw [ne_eq, List.replicate_eq_nil_iff, length_put_asset]
    simp only [ASSET_CONFIG_LEN, ASSET_CONFIG_SLACK] at hspace ⊢
    omega
  rw [assetAt, ← hkey] at hpost
  simp only [Function.update_self, howner, decodeAssetConfig_put _ hrest, Except.toOption,
    Option.bind_some] at hpost
  rw [Option.ite_none_right_eq_some] at hpost
  rw [AssetConfig.named, Option.ite_none_left_eq_some] at hpost
  obtain rfl := Option.some.inj hpost.2.2
  exact ⟨x, hx, rfl, rfl, rfl⟩

/-- **Power changes only by a step that takes it.** -/
theorem granted_of_gains (hR : R.Lawful) (hs : Chartered R s) {l : Label}
    (he : exec R s l = some (s', log))
    (hinj : ∀ sd ∈ writesOf R ⟨s, l, log, s'⟩,
      R.findProgramAddress sd = R.findProgramAddress configSeeds → sd = configSeeds)
    {p : Power} (h : Gains R ⟨s, l, log, s'⟩ p) : granted R ⟨s, l, log, s'⟩ = some p := by
  cases p with
  | addValidator v =>
    obtain ⟨c, c', hc, hc', hold, hnew⟩ := h
    rcases (empowers_step hR hs he hinj hc hc').validators v hnew with hmem | hg
    · exact absurd hmem hold
    · exact hg
  | lowerThreshold t =>
    obtain ⟨c, c', hc, hc', rfl, hlt⟩ := h
    rcases (empowers_step hR hs he hinj hc hc').threshold with hle | hg
    · exact absurd hlt (BitVec.not_lt.mpr hle)
    · exact hg
  | registerAsset d mint vault n =>
    obtain ⟨clock, accounts, n', c, asset, rfl, hc, hover, hpre, hpost, rfl, rfl, rfl⟩ := h
    have h := (quiet_eq_ok.mp (exec_instruction he)).1
    obtain ⟨x, hx, hmint, hvault, hn⟩ := assetAt_of_processRegisterAsset hR h hpre hpost
    rw [granted_instruction hc, Instruction.grants, if_pos ⟨hover, hpre⟩, hx, hmint, hvault, hn]
    rfl
  | setGuardian g =>
    obtain ⟨c, c', hc, hc', hover, hzero, rfl, hne⟩ := h
    rcases (empowers_step hR hs he hinj hc hc').guardian with hsame | hz | hin | hg
    · exact absurd hsame.symm hne
    · exact absurd hz hzero
    · exact absurd hover (by rw [hin]; decide)
    · exact hg

/-! ### Over a run -/

theorem mem_governanceHashed {e : Step} {p : Power} (he : e ∈ tr)
    (hp : announced e = some p ∨ granted R e = some p) : p.hashed ∈ governanceHashed R tr := by
  refine List.mem_flatMap.mpr ⟨e, he, List.mem_map.mpr ⟨p, ?_, rfl⟩⟩
  rw [List.mem_append, Option.mem_toList, Option.mem_toList]
  exact hp

/-- **Every power that a run grants was announced.** The announcement names the same
power, parameters included; it came at least 48 hours and at most 48 hours and 7 days
before; and no step in between touched its schedule. Power is gained in no other way, and
distinct powers have distinct action ids. -/
theorem powers_waited (hR : R.Lawful) (h₀ : Deployed R s₀) (hrun : Run (exec R) s₀ tr s)
    (hinj : Set.InjOn R.findProgramAddress {sd | sd ∈ configSeeds :: tr.flatMap (writesOf R)})
    (hcoll : CollisionFree R.keccak256 (governanceHashed R tr)) :
    (∀ before e after p, tr = before ++ e :: after → granted R e = some p →
      ∃ earlier sched between S T, before = earlier ++ sched :: between ∧
        announced sched = some p ∧ clockOf sched = some S ∧ clockOf e = some T ∧
        S.toInt + 48 * 3600 ≤ T.toInt ∧ T.toInt ≤ S.toInt + 48 * 3600 + 7 * 24 * 3600 ∧
        ∀ e' ∈ between, ¬Touches R e' (p.actionId R.keccak256)) ∧
    (∀ e ∈ tr, ∀ p, Gains R e p → granted R e = some p) ∧
    ∀ p q : Power, CollisionFree R.keccak256 [p.hashed, q.hashed] →
      p.actionId R.keccak256 = q.actionId R.keccak256 → p = q := by
  refine ⟨?_, ?_, fun p q => Power.actionId_inj⟩
  · -- The run, as one of the machine that writes the run's own seeds.
    let L := tr.flatMap (writesOf R)
    have hinjL : Set.InjOn R.findProgramAddress {sd | sd ∈ L} :=
      hinj.mono fun sd hsd => List.mem_cons_of_mem _ hsd
    have hon : Run (execOn R L) s₀ tr s :=
      hrun.restrict fun e he sd hsd => List.mem_flatMap.mpr ⟨e, he, hsd⟩
    have C := clocked_schedules hR hinjL
    obtain ⟨hun, hnone⟩ := unscheduled_of_deployed hR h₀ L
    have htended : ∀ e ∈ tr, Tended R L e := by
      intro e he
      obtain ⟨tr₁, tr₂, htr⟩ := List.append_of_mem he
      obtain ⟨hpre, hexec, -⟩ := (htr ▸ hon).split
      obtain ⟨hexec, hsub⟩ := restrict_eq_some.mp hexec
      exact tended_step hR hinjL (hpre.invariant hun fun _ _ _ _ => C.keeps) hexec hsub
    rintro before e after p htr hp
    have he : e ∈ tr := by simp [htr]
    have T := htended e he
    obtain ⟨⟨now, r, hnow, hsched, hzero, hready, hgrace⟩, -⟩ := T.taken p hp
    obtain ⟨x, hx, hkey⟩ :=
      governanceOp_of_touches (R := R) (e := e) (.inl ⟨p, rfl, .inr hp⟩)
    have hpend : pendingOn R L e.pre (p.actionId R.keccak256) = some (instant r, ()) := by
      rw [pendingOn, if_pos (hkey ▸ T.mem x hx), readyOf, hsched, Option.bind_some, if_neg hzero]
    have htime : time e = instant now := by rw [time, hnow, Option.elim_some]
    have hr := @instant_of_toInt r
    have hn := @instant_of_toInt now
    have hripe : instant r ≤ time e := by omega
    have hfresh : time e ≤ instant r + GOVERNANCE_GRACE := by omega
    obtain ⟨earlier, sched, between, rfl, hop, hlo, hhi, hquiet⟩ :=
      C.matured hun hnone (htr ▸ hon) hpend hripe hfresh
    have hmem : sched ∈ tr := by simp [htr]
    obtain ⟨q, hq, hid⟩ := announced_of_governanceOp hop
    obtain ⟨S, hS, -⟩ := (htended sched hmem).scheduled _ hop
    have hstime : time sched = instant S := by rw [time, hS, Option.elim_some]
    have hs := @instant_of_toInt S
    rw [q.actionId_eq, p.actionId_eq] at hid
    obtain rfl : q = p := Power.hashed_inj (hcoll _ (mem_governanceHashed hmem (.inl hq)) _
      (mem_governanceHashed he (.inr hp)) hid)
    rw [htime, hstime] at hlo hhi
    simp only [GOVERNANCE_DELAY, GOVERNANCE_GRACE] at hlo hhi
    refine ⟨earlier, sched, between, S, now, rfl, hq, hS, hnow, by omega, by omega, ?_⟩
    intro e' he' htouch
    obtain ⟨x', hop', hkey'⟩ := governanceOp_of_touches htouch
    exact hquiet e' he' x' hop' hkey'
  · intro e he p hp
    obtain ⟨tr₁, tr₂, rfl⟩ := List.append_of_mem he
    obtain ⟨hpre, hexec, -⟩ := hrun.split
    have hconfig : ∀ sd ∈ (tr₁ ++ e :: tr₂).flatMap (writesOf R),
        R.findProgramAddress sd = R.findProgramAddress configSeeds → sd = configSeeds :=
      fun sd hsd heq => hinj (List.mem_cons_of_mem _ hsd) List.mem_cons_self heq
    rw [List.flatMap_append, List.flatMap_cons] at hconfig
    refine granted_of_gains hR (chartered_of_run hR h₀ hpre fun sd hsd => ?_) hexec
      (fun sd hsd => ?_) hp
    · exact hconfig sd (List.mem_append_left _ hsd)
    · exact hconfig sd (List.mem_append_right _ (List.mem_append_left _ hsd))

/-! ### An asset is registered on a sealed gate -/

/-- The gate is sealed with no asset; the asset is scheduled, and registered 48 hours
later. -/
def lateAsset : List Step × Accounts :=
  traceOf (exec Cluster.runtime) Cluster.deployed <|
    Cluster.wiring.take 2 ++ Cluster.wiring.drop 3 ++
    [.instruction Cluster.clock
      [Cluster.pda configSeeds, Cluster.signer Cluster.payer,
        Cluster.pda (govSeeds (registerAssetActionId digestOf Cluster.debridgeId Cluster.mint
          Cluster.vault 6)), Cluster.writable 0, Cluster.writable Cluster.mint,
        Cluster.writable Cluster.vault, Cluster.writable Cluster.splTokenId]
      (.scheduleAction (.registerAsset Cluster.debridgeId 6)),
    .instruction (some 173800)
      [Cluster.pda configSeeds, Cluster.signer Cluster.payer,
        Cluster.pda (assetSeeds Cluster.debridgeId), Cluster.writable Cluster.mint,
        Cluster.writable Cluster.vault, Cluster.writable Cluster.splTokenId, Cluster.writable 0,
        Cluster.pda (vaultSeeds Cluster.vault),
        Cluster.pda (govSeeds (registerAssetActionId digestOf Cluster.debridgeId Cluster.mint
          Cluster.vault 6))]
      (.registerAsset Cluster.debridgeId 6)]

theorem powers_waited_lateAsset :
    lateAsset.1.map (granted Cluster.runtime) = [none, none, none, none,
      some (.registerAsset Cluster.debridgeId Cluster.mint Cluster.vault 6)] ∧
    ∀ before e after p, lateAsset.1 = before ++ e :: after →
      granted Cluster.runtime e = some p →
      ∃ earlier sched between S T, before = earlier ++ sched :: between ∧
        announced sched = some p ∧ clockOf sched = some S ∧ clockOf e = some T ∧
        S.toInt + 48 * 3600 ≤ T.toInt ∧ T.toInt ≤ S.toInt + 48 * 3600 + 7 * 24 * 3600 ∧
        ∀ e' ∈ between, ¬Touches Cluster.runtime e' (p.actionId Cluster.runtime.keccak256) := by
  have hinj : ∀ a ∈ configSeeds :: lateAsset.1.flatMap (writesOf Cluster.runtime),
      ∀ b ∈ configSeeds :: lateAsset.1.flatMap (writesOf Cluster.runtime),
        Cluster.runtime.findProgramAddress a = Cluster.runtime.findProgramAddress b → a = b := by
    decide +kernel
  refine ⟨by decide +kernel, (powers_waited Cluster.lawful Cluster.deployed_deployed
    (run_traceOf ?_) (fun a ha b hb => hinj a ha b hb) ?_).1⟩
  · decide +kernel
  · decide +kernel

end Solana

end SelendraBridge
