import SelendraBridge.Lib.Timelock
import SelendraBridge.Solana.Seats

/-!
# The powers of the Solana gate, and their schedules

| power | taken by | when it has to wait |
|---|---|---|
| a new validator | `setValidator` | always |
| a lower threshold | `setThreshold` | always |
| a new asset | `registerAsset` | past the setup phase |
| another guardian | `setGuardian` | past the setup phase, if there is one |

A power is named by a string with its parameters in it
(`SelendraBridge.Solana.Power.hashed_inj`); the hash is its action id, and the account of
that id says when it is ready. What an instruction takes is read off the state before it
(`SelendraBridge.Solana.granted`), and an instruction that takes a power found its account
ripe and left it empty (`SelendraBridge.Solana.Consumed`).
-/

namespace SelendraBridge

namespace Solana

open Revert Transition Timelock

/-! ### Powers -/

/-- **What the timelock guards.** -/
inductive Power
  | addValidator (validator : Address)
  | lowerThreshold (threshold : BitVec 32)
  | registerAsset (debridgeId : Bytes32) (mint vault : Pubkey) (bridgeDecimals : UInt8)
  | setGuardian (guardian : Pubkey)
  deriving DecidableEq

/-- The string that names a power. -/
def Power.hashed : Power → Bytes
  | .addValidator v => ACTION_ID_VERSION ++ (ascii "addValidator" ++ addressBytes v)
  | .lowerThreshold t => ACTION_ID_VERSION ++ (ascii "lowerThreshold" ++ be32 (t.setWidth 64))
  | .registerAsset debridgeId mint vault bridgeDecimals =>
    ACTION_ID_VERSION ++ (ascii "registerAsset" ++ (wordBytes debridgeId ++
      (wordBytes mint ++ (wordBytes vault ++ [bridgeDecimals]))))
  | .setGuardian guardian => ACTION_ID_VERSION ++ (ascii "setGuardian" ++ wordBytes guardian)

/-- The action id of a power. -/
def Power.actionId (keccak256 : Bytes → Bytes32) : Power → Bytes32
  | .addValidator v => addValidatorActionId keccak256 v
  | .lowerThreshold t => lowerThresholdActionId keccak256 t
  | .registerAsset debridgeId mint vault bridgeDecimals =>
    registerAssetActionId keccak256 debridgeId mint vault bridgeDecimals
  | .setGuardian guardian => setGuardianActionId keccak256 guardian

/-- Every action id is the hash of its power's string. -/
theorem Power.actionId_eq (keccak256 : Bytes → Bytes32) (p : Power) :
    p.actionId keccak256 = keccak256 p.hashed := by
  cases p <;> rfl

theorem be32_inj {v w : U64} : be32 v = be32 w ↔ v = w := by
  rw [be32_eq, be32_eq, wordBytes_inj]
  constructor
  · intro h
    have hv := congrArg BitVec.toNat h
    rw [BitVec.toNat_setWidth_of_le (by omega), BitVec.toNat_setWidth_of_le (by omega)] at hv
    exact BitVec.eq_of_toNat_eq hv
  · rintro rfl
    rfl

/-- How long the string of a power is: another length for each kind. -/
theorem Power.length_hashed (p : Power) : p.hashed.length = ACTION_ID_VERSION.length +
    match p with
    | .addValidator _ => 32
    | .lowerThreshold _ => 46
    | .registerAsset .. => 110
    | .setGuardian _ => 43 := by
  have hadd : (ascii "addValidator").length = 12 := by decide
  have hlower : (ascii "lowerThreshold").length = 14 := by decide
  have hregister : (ascii "registerAsset").length = 13 := by decide
  have hset : (ascii "setGuardian").length = 11 := by decide
  cases p <;>
    simp only [Power.hashed, List.length_append, length_addressBytes, length_wordBytes, be32_eq,
      List.length_singleton, hadd, hlower, hregister, hset]

/-- **Two powers with one string are one power**, parameters included. -/
theorem Power.hashed_inj {p q : Power} (h : p.hashed = q.hashed) : p = q := by
  have hlen := congrArg List.length h
  rw [p.length_hashed, q.length_hashed] at hlen
  -- The lengths tell the kinds apart; then the fields are read off one after another.
  rcases p with v | t | ⟨d, mint, vault, n⟩ | g <;>
    rcases q with v' | t' | ⟨d', mint', vault', n'⟩ | g' <;>
    simp only [Nat.add_left_cancel_iff, Nat.reduceEqDiff] at hlen
  · rw [Power.hashed, Power.hashed, List.append_cancel_left_eq, List.append_cancel_left_eq,
      addressBytes_inj] at h
    rw [h]
  · rw [Power.hashed, Power.hashed, List.append_cancel_left_eq, List.append_cancel_left_eq,
      be32_inj] at h
    have ht := congrArg BitVec.toNat h
    rw [BitVec.toNat_setWidth_of_le (by omega), BitVec.toNat_setWidth_of_le (by omega)] at ht
    rw [BitVec.eq_of_toNat_eq ht]
  · rw [Power.hashed, Power.hashed, List.append_cancel_left_eq, List.append_cancel_left_eq] at h
    obtain ⟨hd, h⟩ := wordBytes_append_inj.mp h
    obtain ⟨hmint, h⟩ := wordBytes_append_inj.mp h
    obtain ⟨hvault, h⟩ := wordBytes_append_inj.mp h
    rw [hd, hmint, hvault, List.head_eq_of_cons_eq h]
  · rw [Power.hashed, Power.hashed, List.append_cancel_left_eq, List.append_cancel_left_eq,
      wordBytes_inj] at h
    rw [h]

/-- **Distinct powers have distinct action ids**, where the hash does not collide. -/
theorem Power.actionId_inj {keccak256 : Bytes → Bytes32} {p q : Power}
    (hcoll : CollisionFree keccak256 [p.hashed, q.hashed])
    (h : p.actionId keccak256 = q.actionId keccak256) : p = q := by
  rw [p.actionId_eq, q.actionId_eq] at h
  exact Power.hashed_inj (collisionFree_pair.mp hcoll h)

/-! ### What the accounts say -/

section Accounts

variable (R : Runtime) (s : Accounts)

/-- The config, once the gate is initialized. -/
def configAt : Option Config :=
  let a := s (R.findProgramAddress configSeeds)
  if a.owner = R.programId then (configCodec.get a.data).map Prod.fst else none

/-- A record that names a mint or a vault. -/
def AssetConfig.named (asset : AssetConfig) : Option AssetConfig :=
  if asset.mint = 0 ∧ asset.vault = 0 then none else some asset

/-- **The asset registered under an id**, if there is one: a record of no mint and no
vault registers none. -/
def assetAt (debridgeId : Bytes32) : Option AssetConfig :=
  let a := s (R.findProgramAddress (assetSeeds debridgeId))
  if a.owner = R.programId ∧ a.data ≠ [] then
    (decodeAssetConfig a.data).toOption.bind AssetConfig.named
  else none

/-- What the account of an action says about its time. -/
def scheduleOf (actionId : Bytes32) : Option (BitVec 64) :=
  let a := s (R.findProgramAddress (govSeeds actionId))
  if isSchedule R a then (scheduleCodec.get a.data).map fun r => r.1.readyAt else none

/-- A signed time, counted from the first there is. -/
def instant (t : BitVec 64) : ℕ := (t.toInt + 9223372036854775808).toNat

/-- When an action is ready, if it is scheduled. -/
def readyOf (actionId : Bytes32) : Option (ℕ × Unit) :=
  (scheduleOf R s actionId).bind fun r => if r = 0 then none else some (instant r, ())

end Accounts

/-! ### What a step announces, grants and cancels -/

/-- The power that a scheduled action is, with the accounts that it names. -/
def GovernanceAction.power (accounts : List AccountInfo) : GovernanceAction → Option Power
  | .addValidator v => some (.addValidator v)
  | .lowerThreshold t => some (.lowerThreshold t)
  | .registerAsset debridgeId bridgeDecimals =>
    (ScheduleAccounts.next accounts >>= fun x => assetAccounts x.rest).toOption.map fun a =>
      .registerAsset debridgeId a.1.key a.2.1.key bridgeDecimals
  | .setGuardian guardian => some (.setGuardian guardian)

/-- The setup phase is over, by the clock. -/
def setupOver (cfg : Config) (clock : Clock) : Bool := clock.any fun now => !inSetupPhase cfg now

/-- **The power that an instruction takes**, on a gate with a config. -/
def Instruction.grants (R : Runtime) (clock : Clock) (s : Accounts) (accounts : List AccountInfo)
    (cfg : Config) : Instruction → Option Power
  | .setValidator v active =>
    if active = true ∧ cfg.isValidator v = false then some (.addValidator v) else none
  | .setThreshold t => if t < cfg.threshold then some (.lowerThreshold t) else none
  | .registerAsset debridgeId bridgeDecimals =>
    if setupOver cfg clock = true ∧ assetAt R s debridgeId = none then
      (RegisterAccounts.next accounts).toOption.map fun x =>
        .registerAsset debridgeId x.mint.key x.vault.key bridgeDecimals
    else none
  | .setGuardian guardian =>
    if setupOver cfg clock = true ∧ cfg.guardian ≠ 0 ∧ guardian ≠ cfg.guardian then
      some (.setGuardian guardian)
    else none
  | _ => none

/-- The clock of a step. -/
def clockOf (e : Step) : Clock :=
  match e.label with
  | .instruction clock _ _ => clock
  | .others _ => none

/-- **The power that a step schedules.** -/
def announced (e : Step) : Option Power :=
  match e.label with
  | .instruction _ accounts (.scheduleAction action) => action.power accounts
  | _ => none

/-- The schedule that a step cancels. -/
def dropped (e : Step) : Option Bytes32 :=
  match e.label with
  | .instruction _ _ (.cancelScheduledGovernance actionId) => some actionId
  | _ => none

variable (R : Runtime)

/-- **The power that a step grants.** -/
def granted (e : Step) : Option Power :=
  match e.label with
  | .instruction clock accounts ix =>
    (configAt R e.pre).bind fun cfg => ix.grants R clock e.pre accounts cfg
  | .others _ => none

/-- **A step that touches a schedule**: it schedules there, takes what is scheduled
there, or cancels it. -/
def Touches (e : Step) (actionId : Bytes32) : Prop :=
  (∃ p : Power, p.actionId R.keccak256 = actionId ∧
    (announced e = some p ∨ granted R e = some p)) ∨ dropped e = some actionId

/-- What a step does to the timelock. Scheduling at a time whose ready time is zero
schedules nothing, since zero is how an empty account reads. -/
def governanceOp (e : Step) : Option (Op Bytes32 Unit) :=
  match announced e with
  | some p =>
    let id := p.actionId R.keccak256
    some (if readyOf R e.post id = none then .clear id else .schedule id ())
  | none =>
    match granted R e with
    | some p => some (.clear (p.actionId R.keccak256))
    | none => (dropped e).map .clear

/-- The strings that the steps of a run hashed for the timelock. -/
def governanceHashed (tr : List Step) : List Bytes :=
  tr.flatMap fun e => ((announced e).toList ++ (granted R e).toList).map Power.hashed

/-- **A power that the accounts have after a step and had not before.** An asset is one
once `registerAsset` has written it. -/
def Gains (e : Step) : Power → Prop
  | .addValidator v => ∃ c c', configAt R e.pre = some c ∧ configAt R e.post = some c' ∧
      v ∉ c.validators ∧ v ∈ c'.validators
  | .lowerThreshold t => ∃ c c', configAt R e.pre = some c ∧ configAt R e.post = some c' ∧
      c'.threshold = t ∧ t < c.threshold
  | .registerAsset debridgeId mint vault bridgeDecimals => ∃ clock accounts n c asset,
      e.label = .instruction clock accounts (.registerAsset debridgeId n) ∧
      configAt R e.pre = some c ∧ setupOver c clock = true ∧ assetAt R e.pre debridgeId = none ∧
      assetAt R e.post debridgeId = some asset ∧ asset.mint = mint ∧ asset.vault = vault ∧
      asset.bridgeDecimals = bridgeDecimals
  | .setGuardian guardian => ∃ c c', configAt R e.pre = some c ∧ configAt R e.post = some c' ∧
      setupOver c (clockOf e) = true ∧ c.guardian ≠ 0 ∧ c'.guardian = guardian ∧
      c.guardian ≠ guardian

/-! ### Reading the accounts -/

variable {R} {s s' s'' : Accounts} {clock : Clock} {accounts : List AccountInfo} {log : List Log}

theorem Configured.configAt_eq {ai : AccountInfo} {cfg : Config} (h : Configured R s ai cfg) :
    configAt R s = some cfg := by
  obtain ⟨rest, hget⟩ := h.decoded
  have howner := h.owner
  rw [h.key] at howner hget
  rw [configAt]
  simp only [howner, if_true, hget, Option.map_some]

theorem configAt_same
    (h : (s (R.findProgramAddress configSeeds)).Same (s' (R.findProgramAddress configSeeds))) :
    configAt R s' = configAt R s := by
  simp only [configAt, h.owner, h.data]

theorem scheduleOf_same {id : Bytes32}
    (h : (s (R.findProgramAddress (govSeeds id))).Same (s' (R.findProgramAddress (govSeeds id)))) :
    scheduleOf R s' id = scheduleOf R s id := by
  have hiff : isSchedule R (s' (R.findProgramAddress (govSeeds id))) ↔
      isSchedule R (s (R.findProgramAddress (govSeeds id))) := by
    rw [isSchedule, isSchedule, h.owner, h.data]
  simp only [scheduleOf, hiff, h.data]

theorem readyOf_eq {id : Bytes32} (h : scheduleOf R s' id = scheduleOf R s id) :
    readyOf R s' id = readyOf R s id := by
  rw [readyOf, readyOf, h]

theorem readyOf_zero {id : Bytes32} (h : scheduleOf R s id = some 0) : readyOf R s id = none := by
  rw [readyOf, h]
  rfl

theorem instant_of_toInt {t : BitVec 64} : (instant t : ℤ) = t.toInt + 9223372036854775808 := by
  have hle : -9223372036854775808 ≤ t.toInt := by
    have h := BitVec.le_toInt t
    norm_num at h
    exact h
  rw [instant, Int.toNat_of_nonneg (by omega)]

/-- What an instruction grants on a gate with a config. -/
theorem granted_instruction {cfg : Config} (h : configAt R s = some cfg) (ix : Instruction) :
    granted R ⟨s, .instruction clock accounts ix, log, s'⟩ =
      ix.grants R clock s accounts cfg := by
  rw [granted, h]
  rfl

/-! ### Schedules, written and used -/

@[simp] theorem length_put_schedule (r : GovernanceSchedule) :
    (scheduleCodec.put r).length = GOVERNANCE_LEN := by
  simp [scheduleCodec, Borsh.Codec.iso, u64, Borsh.Codec.uint, GOVERNANCE_LEN]

/-- **What was written as a schedule is read back.** -/
theorem scheduleOf_of_writeFront {ai : AccountInfo} {id : Bytes32} {r : BitVec 64}
    (hkey : ai.key = R.findProgramAddress (govSeeds id))
    (h : writeFront R s ai (scheduleCodec.put ⟨r⟩) = .ok s') : scheduleOf R s' id = some r := by
  obtain ⟨hlen, h⟩ := writeFront_eq_ok.mp h
  obtain ⟨-, howner, rfl⟩ := writeData_eq_ok.mp h
  have hsched : isSchedule R { s ai.key with
      data := scheduleCodec.put ⟨r⟩ ++ (s ai.key).data.drop (scheduleCodec.put ⟨r⟩).length } := by
    refine ⟨howner, ?_⟩
    rw [List.length_append, length_put_schedule]
    omega
  rw [scheduleOf]
  simp only [← hkey, Function.update_self, hsched, if_true]
  rw [scheduleCodec.get_put _ trivial, Option.map_some]

/-- A schedule is one of the program's accounts. -/
theorem owner_of_scheduleOf {id : Bytes32} {r : BitVec 64} (h : scheduleOf R s id = some r) :
    (s (R.findProgramAddress (govSeeds id))).owner = R.programId := by
  rw [scheduleOf] at h
  rw [Option.ite_none_right_eq_some] at h
  exact h.1.1

/-- Writing other accounts leaves a schedule alone. -/
theorem Wrote.scheduleOf_eq (hR : R.Lawful) {keys : List Pubkey} {id : Bytes32} {r : BitVec 64}
    (h : Wrote R keys s s') (hs : scheduleOf R s id = some r)
    (hkey : R.findProgramAddress (govSeeds id) ∉ keys) : scheduleOf R s' id = some r := by
  rw [scheduleOf_same (h.same _ ?_ hkey), hs]
  rw [owner_of_scheduleOf hs]
  exact hR.programId_ne_splTokenId

variable (R) in
/-- **An action was ripe, and is used up**: its account was ready, not longer ago than the
grace period, and says now that nothing is scheduled. -/
structure Consumed (clock : Clock) (id : Bytes32) (s s' : Accounts) : Prop where
  ripe : ∃ now r, clock = some now ∧ scheduleOf R s id = some r ∧ r ≠ 0 ∧
    r.toInt ≤ now.toInt ∧ now.toInt ≤ r.toInt + GOVERNANCE_GRACE
  burnt : scheduleOf R s' id = some 0

/-- The grace period ends where it should, or at the end of time. -/
theorem toInt_saturatingAdd_le (t : BitVec 64) {n : ℕ} (hn : n < 9223372036854775808) :
    (saturatingAdd t n).toInt ≤ t.toInt + n := by
  have hle := BitVec.le_toInt t
  norm_num at hle
  rw [saturatingAdd, checkedAdd]
  split
  · next hlt =>
    have hofNat : (BitVec.ofNat 64 n).toInt = n := by
      rw [BitVec.toInt_ofNat']
      exact Int.bmod_eq_of_le (by norm_num) (by norm_num; omega)
    rw [Option.getD_some, BitVec.toInt_add, hofNat,
      Int.bmod_eq_of_le (by norm_num; omega) (by norm_num; omega)]
  · next hge =>
    have hmax : (BitVec.ofNat 64 (2 ^ 63 - 1)).toInt = 2 ^ 63 - 1 := by decide
    rw [Option.getD_none, hmax]
    omega

theorem consumed_of_consumeGovernance {ai : AccountInfo} {id : Bytes32}
    (h : consumeGovernance R clock s ai id = .ok s') : Consumed R clock id s s' := by
  simp only [consumeGovernance, governanceConsumable, bind_eq_ok, exists_unit, revertIf_eq_ok,
    check_eq_ok, orRevert_eq_ok, not_not, Option.map_eq_some_iff] at h
  obtain ⟨hkey, hsched, r, ⟨⟨r', rest⟩, hget, rfl⟩, now, hnow, ⟨hzero, hready, hgrace⟩, hw⟩ := h
  refine ⟨⟨now, r'.readyAt, hnow, ?_, hzero, ?_, ?_⟩, scheduleOf_of_writeFront hkey hw⟩
  · rw [scheduleOf]
    simp only [← hkey, hsched, if_true, hget, Option.map_some]
  · rw [BitVec.slt_eq_decide, decide_eq_false_iff_not, not_lt] at hready
    exact hready
  · rw [BitVec.slt_eq_decide, decide_eq_false_iff_not, not_lt] at hgrace
    exact hgrace.trans (toInt_saturatingAdd_le _ (by decide))

/-- What is used up stays so while other accounts are written. -/
theorem Consumed.wrote (hR : R.Lawful) {keys : List Pubkey} {id : Bytes32}
    (h : Consumed R clock id s s') (hw : Wrote R keys s' s'')
    (hkey : R.findProgramAddress (govSeeds id) ∉ keys) : Consumed R clock id s s'' :=
  ⟨h.ripe, hw.scheduleOf_eq hR h.burnt hkey⟩

end Solana

end SelendraBridge
