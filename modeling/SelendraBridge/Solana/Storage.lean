import SelendraBridge.Solana.Timelock

/-!
# How the config is kept

The config is of no fixed length, and its account is: it is made with room for as many validators
and corridors as were declared, and some bytes more, and never grows. What it holds is written over
from its beginning each time, and filled up with zeros.

| | |
|---|---|
| the formula for the space is the length of what is written | `SelendraBridge.Solana.length_put_config` |
| the account of a reachable state is a config within its caps, and zeros | `SelendraBridge.Solana.Laid` |
| what a step stores is what is loaded afterwards | `SelendraBridge.Solana.KeepsConfig` |
| no instruction finds an account too small | `SelendraBridge.Solana.Fits` |

A config that was written before there were the last two fields is read with both of them zero, if
there are zeros behind it (`SelendraBridge.Solana.get_legacyConfig`).
-/

namespace SelendraBridge

namespace Solana

open Revert Transition Borsh

/-! ### The bytes of a config -/

theorem put_config (cfg : Config) :
    configCodec.put cfg = word.put cfg.owner ++ (word.put cfg.bridgeDomain ++ (word.put cfg.guardian ++
      (address.vec.put cfg.validators ++ (u32.put cfg.threshold ++ (u64.put cfg.chainId ++
        (Codec.bool.put cfg.paused ++ (u32.put cfg.maxValidators ++ (u32.put cfg.maxCorridors ++
          ((u64.pair u64).vec.put cfg.nonceTo ++ (Codec.bool.put cfg.isSealed ++
            u64.put cfg.setupDeadline)))))))))) := rfl

theorem length_put_u64 (v : U64) : (u64.put v).length = 8 := by
  rw [u64, Codec.length_put_uint]

theorem length_put_u32 (v : BitVec 32) : (u32.put v).length = 4 := by
  rw [u32, Codec.length_put_uint]

theorem length_put_address (v : Address) : (address.put v).length = 20 := by
  rw [address, Codec.length_put_array]

theorem length_put_validators (validators : List Address) :
    (address.vec.put validators).length = 4 + 20 * validators.length :=
  Codec.length_put_vec address length_put_address validators

theorem length_put_corridors (nonceTo : List (U64 × U64)) :
    ((u64.pair u64).vec.put nonceTo).length = 4 + 16 * nonceTo.length := by
  refine Codec.length_put_vec (u64.pair u64) (fun e => ?_) nonceTo
  have hput : (u64.pair u64).put e = u64.put e.1 ++ u64.put e.2 := rfl
  rw [hput, List.length_append, length_put_u64, length_put_u64]

/-- **`config_space` is the length of what is written.** -/
theorem length_put_config (cfg : Config) :
    (configCodec.put cfg).length = configSpace cfg.validators.length cfg.nonceTo.length := by
  rw [put_config, configSpace]
  simp only [List.length_append, length_put_word, length_put_validators, length_put_u32,
    length_put_u64, length_put_corridors, Codec.length_put_bool]
  omega

/-- A config whose lists have lengths that four bytes can hold is read back. -/
theorem valid_config {cfg : Config} (hvalidators : cfg.validators.length < 2 ^ 32)
    (hcorridors : cfg.nonceTo.length < 2 ^ 32) : configCodec.Valid cfg :=
  ⟨trivial, trivial, trivial, ⟨hvalidators, fun _ _ => trivial⟩, trivial, trivial, trivial, trivial,
    trivial, ⟨hcorridors, fun _ _ => ⟨trivial, trivial⟩⟩, trivial, trivial⟩

/-! ### A store, byte by byte -/

/-- `write_zero_padded`, on the bytes of an account: the encoding fills them from the beginning, as
far as they go, and the rest is zeroed. -/
def writePadded (front data : Bytes) : Except ProgramError Unit × Bytes :=
  if front.length ≤ data.length then
    (.ok (), front ++ List.replicate (data.length - front.length) 0)
  else (.error .accountDataTooSmall, front.take data.length)

/-- `Config::store`, on the bytes of an account: what comes back, and what the bytes are then. -/
def Config.storeBytes (cfg : Config) (data : Bytes) : Except ProgramError Unit × Bytes :=
  if configSpace cfg.validators.length cfg.nonceTo.length > data.length then
    (.error .accountDataTooSmall, data)
  else writePadded (configCodec.put cfg) data

variable {R : Runtime} {clock : Clock} {s s' : Accounts} {accounts : List AccountInfo}
  {cfg : Config} {ai : AccountInfo} {log : List Log}

/-- A store goes as far as its bytes do. -/
theorem store_eq_ok :
    cfg.store R s ai = .ok s' ↔ (cfg.storeBytes (s ai.key).data).1 = .ok () ∧
      writeData R s ai (cfg.storeBytes (s ai.key).data).2 = .ok s' := by
  rw [Config.store, revertIf_bind_eq_ok, writeZeroPadded_eq_ok, Config.storeBytes, writePadded]
  split_ifs with hspace hfits
  · simp [hspace]
  · simp [hspace, hfits]
  · simp [hspace, hfits]

/-- **A store that fails wrote nothing.** -/
theorem storeBytes_of_error {data : Bytes} {e : ProgramError}
    (h : (cfg.storeBytes data).1 = .error e) : (cfg.storeBytes data).2 = data := by
  rw [Config.storeBytes] at h ⊢
  split_ifs at h ⊢ with hspace
  · rfl
  · -- the formula said that it fits, and it is the length
    rw [gt_iff_lt, not_lt, ← length_put_config] at hspace
    rw [writePadded, if_pos hspace] at h
    cases h

/-! ### The layout before the gate could be sealed -/

/-- The codec of a config without its last two fields. -/
def legacyConfigCodec : Codec (Bytes32 × Bytes32 × Bytes32 × List Address × BitVec 32 × U64 × Bool ×
    BitVec 32 × BitVec 32 × List (U64 × U64)) :=
  word.pair <| word.pair <| word.pair <| address.vec.pair <| u32.pair <| u64.pair <|
    Codec.bool.pair <| u32.pair <| u32.pair (u64.pair u64).vec

/-- A config as it was written then. -/
def Config.legacyPut (cfg : Config) : Bytes :=
  legacyConfigCodec.put (cfg.owner, cfg.bridgeDomain, cfg.guardian, cfg.validators, cfg.threshold,
    cfg.chainId, cfg.paused, cfg.maxValidators, cfg.maxCorridors, cfg.nonceTo)

/-- `config_space` then. -/
def legacyConfigSpace (validators corridors : ℕ) : ℕ :=
  32 + 32 + 32 + 4 + 20 * validators + 4 + 8 + 1 + 4 + 4 + 4 + 16 * corridors

/-- A config with nothing in the fields that were added. -/
def Config.unsealed (cfg : Config) : Config := { cfg with isSealed := false, setupDeadline := 0 }

/-- **The fields that were added are nine zeros.** -/
theorem put_unsealed (cfg : Config) :
    configCodec.put cfg.unsealed = cfg.legacyPut ++ List.replicate 9 0 := by
  have hput : configCodec.put cfg.unsealed = cfg.legacyPut ++
      (Codec.bool.put false ++ u64.put 0) := by
    simp only [put_config, Config.unsealed, Config.legacyPut, legacyConfigCodec, Codec.pair,
      List.append_assoc]
  have hzeros : Codec.bool.put false ++ u64.put 0 = List.replicate 9 0 := by decide
  rw [hput, hzeros]

theorem length_legacyPut (cfg : Config) :
    cfg.legacyPut.length = legacyConfigSpace cfg.validators.length cfg.nonceTo.length := by
  have hlength := congrArg List.length (put_unsealed cfg)
  rw [length_put_config, List.length_append, List.length_replicate, configSpace] at hlength
  rw [legacyConfigSpace]
  have hvalidators : cfg.unsealed.validators = cfg.validators := rfl
  have hcorridors : cfg.unsealed.nonceTo = cfg.nonceTo := rfl
  rw [hvalidators, hcorridors] at hlength
  omega

/-- **With zeros behind it, the old layout is read as the same config**, neither sealed nor with a
deadline. -/
theorem get_legacyConfig (hvalidators : cfg.validators.length < 2 ^ 32)
    (hcorridors : cfg.nonceTo.length < 2 ^ 32) {n : ℕ} (hn : 9 ≤ n) :
    configCodec.get (cfg.legacyPut ++ List.replicate n 0) =
      some (cfg.unsealed, List.replicate (n - 9) 0) := by
  have hzeros : List.replicate n (0 : UInt8) = List.replicate 9 0 ++ List.replicate (n - 9) 0 := by
    rw [List.replicate_append_replicate]
    congr 1
    omega
  rw [hzeros, ← List.append_assoc, ← put_unsealed]
  exact configCodec.get_put _ (valid_config hvalidators hcorridors)

/-- An account that was sized for its caps then, and is not full, has enough zeros. -/
theorem nine_le_of_legacy {validators corridors maxValidators maxCorridors n : ℕ}
    (hvalidators : validators ≤ maxValidators) (hcorridors : corridors ≤ maxCorridors)
    (hn : legacyConfigSpace validators corridors + n = legacyConfigSpace maxValidators maxCorridors)
    (hpos : 0 < n) : 9 ≤ n := by
  rw [legacyConfigSpace, legacyConfigSpace] at hn
  rcases Nat.eq_or_lt_of_le hvalidators with rfl | hlt
  · omega
  · omega

/-! ### What the account holds -/

/-- The lists are within the caps. -/
structure Config.Within (cfg : Config) : Prop where
  validators : cfg.validators.length ≤ cfg.maxValidators.toNat
  corridors : cfg.nonceTo.length ≤ cfg.maxCorridors.toNat

theorem Config.Within.valid (h : cfg.Within) : configCodec.Valid cfg :=
  valid_config (lt_of_le_of_lt h.validators cfg.maxValidators.isLt)
    (lt_of_le_of_lt h.corridors cfg.maxCorridors.isLt)

/-- **A config as it is kept**: within its caps, with nothing but zeros behind it, and with room for
all that the caps allow. -/
structure Laid (cfg : Config) (data : Bytes) : Prop where
  within : cfg.Within
  padded : ∃ n, data = configCodec.put cfg ++ List.replicate n 0
  room : configSpace cfg.maxValidators.toNat cfg.maxCorridors.toNat + CONFIG_SLACK ≤ data.length

/-- It is read back. -/
theorem Laid.get {data : Bytes} (h : Laid cfg data) :
    ∃ rest, configCodec.get data = some (cfg, rest) := by
  obtain ⟨n, hdata⟩ := h.padded
  have hget := configCodec.get_put (a := cfg) (List.replicate n 0) h.within.valid
  rw [hdata]
  exact ⟨_, hget⟩

/-- **There is room for any config of the same caps.** -/
theorem Laid.fits {data : Bytes} (h : Laid cfg data) {cfg' : Config} (hwithin : cfg'.Within)
    (hvalidators : cfg'.maxValidators = cfg.maxValidators)
    (hcorridors : cfg'.maxCorridors = cfg.maxCorridors) :
    configSpace cfg'.validators.length cfg'.nonceTo.length ≤ data.length := by
  have hroom := h.room
  have hv := hwithin.validators
  have hc := hwithin.corridors
  rw [hvalidators] at hv
  rw [hcorridors] at hc
  rw [configSpace] at hroom ⊢
  omega

variable (R) in
/-- The address of the config. -/
def configKey : Pubkey := R.findProgramAddress configSeeds

variable (R) in
/-- The program's account holds a config. -/
structure HasConfig (s : Accounts) (cfg : Config) : Prop where
  owner : (s (configKey R)).owner = R.programId
  decoded : ∃ rest, configCodec.get (s (configKey R)).data = some (cfg, rest)

theorem Configured.hasConfig (h : Configured R s ai cfg) : HasConfig R s cfg := by
  have howner := h.owner
  have hdecoded := h.decoded
  rw [h.key] at howner hdecoded
  exact ⟨howner, hdecoded⟩

theorem HasConfig.unique {cfg' : Config} (h : HasConfig R s cfg) (h' : HasConfig R s cfg') :
    cfg = cfg' := by
  obtain ⟨rest, hget⟩ := h.decoded
  obtain ⟨rest', hget'⟩ := h'.decoded
  exact (Prod.mk.inj (Option.some.inj (hget.symm.trans hget'))).1

/-- It is what an instruction loads. -/
theorem HasConfig.load (h : HasConfig R s cfg) (hkey : ai.key = configKey R) :
    loadConfig R s ai = .ok cfg := by
  obtain ⟨rest, hget⟩ := h.decoded
  have hverify : verifyPda R s ai configSeeds = .ok () :=
    verifyPda_eq_ok.mpr ⟨hkey, hkey ▸ h.owner⟩
  rw [loadConfig, hverify, ok_bind, hkey, hget]
  rfl

variable (R) in
/-- **The config's account in a reachable state**: it holds no tokens, and if the program has it,
a config is laid out in it. -/
structure Kept (s : Accounts) : Prop where
  owner : (s (configKey R)).owner ≠ R.splTokenId
  laid : (s (configKey R)).owner = R.programId → ∃ cfg, Laid cfg (s (configKey R)).data

theorem Kept.laid_of (h : Kept R s) (hc : HasConfig R s cfg) : Laid cfg (s (configKey R)).data := by
  obtain ⟨cfg', hlaid⟩ := h.laid hc.owner
  obtain rfl := hc.unique ⟨hc.owner, hlaid.get⟩
  exact hlaid

theorem Kept.same (h : Kept R s) (hs : (s (configKey R)).Same (s' (configKey R))) : Kept R s' :=
  ⟨hs.owner ▸ h.owner, fun howner => hs.data ▸ h.laid (hs.owner ▸ howner)⟩

theorem HasConfig.same (h : HasConfig R s cfg)
    (hs : (s (configKey R)).Same (s' (configKey R))) : HasConfig R s' cfg :=
  ⟨hs.owner.trans h.owner, hs.data ▸ h.decoded⟩

/-! ### What a step stores -/

/-- **The config after an instruction that went through**, from the config before it. -/
def Instruction.edit (cfg : Config) : Instruction → Config
  | .send a =>
    { cfg with nonceTo := (Config.bumpIn a.chainIdTo cfg.nonceTo).toOption.getD cfg.nonceTo }
  | .setValidator validator active =>
    if active = true ∧ cfg.isValidator validator = false then
      { cfg with validators := cfg.validators ++ [validator] }
    else if active = false ∧ cfg.isValidator validator = true then
      { cfg with validators := cfg.validators.filter (· != validator) }
    else cfg
  | .setThreshold threshold => { cfg with threshold := threshold }
  | .registerCorridor chainIdTo =>
    if cfg.corridorRegistered chainIdTo = true then cfg
    else { cfg with nonceTo := cfg.nonceTo ++ [(chainIdTo, 0)] }
  | .pause => { cfg with paused := true }
  | .unpause => { cfg with paused := false }
  | .setGuardian guardian => { cfg with guardian := guardian }
  | .sealGate => { cfg with isSealed := true }
  | _ => cfg

/-- The caps are never changed. -/
theorem edit_caps (cfg : Config) (ix : Instruction) :
    (ix.edit cfg).maxValidators = cfg.maxValidators ∧
      (ix.edit cfg).maxCorridors = cfg.maxCorridors := by
  cases ix with
  | setValidator validator active =>
    rw [Instruction.edit]
    split_ifs <;> exact ⟨rfl, rfl⟩
  | registerCorridor chainIdTo =>
    rw [Instruction.edit]
    split_ifs <;> exact ⟨rfl, rfl⟩
  | _ => exact ⟨rfl, rfl⟩

variable (R) in
/-- A config with zeros behind it, in the program's account. -/
structure Holding (s : Accounts) (cfg : Config) : Prop where
  owner : (s (configKey R)).owner = R.programId
  padded : ∃ n, (s (configKey R)).data = configCodec.put cfg ++ List.replicate n 0

theorem Holding.same (h : Holding R s cfg) (hs : (s (configKey R)).Same (s' (configKey R))) :
    Holding R s' cfg :=
  ⟨hs.owner.trans h.owner, hs.data ▸ h.padded⟩

/-- **What is stored is there.** -/
theorem holding_of_store (hkey : ai.key = configKey R) (h : cfg.store R s ai = .ok s') :
    Holding R s' cfg := by
  simp only [Config.store, revertIf_bind_eq_ok, writeZeroPadded_eq_ok, writeData_eq_ok] at h
  obtain ⟨-, -, -, howner, rfl⟩ := h
  rw [hkey] at howner ⊢
  refine ⟨?_, ?_⟩
  · rw [Function.update_self, howner]
  · rw [Function.update_self]
    exact ⟨_, rfl⟩

/-- A store keeps the length of the account. -/
theorem length_of_store (h : cfg.store R s ai = .ok s') :
    (s' ai.key).data.length = (s ai.key).data.length := by
  simp only [Config.store, revertIf_bind_eq_ok, writeZeroPadded_eq_ok, writeData_eq_ok] at h
  obtain ⟨-, hfits, -, -, rfl⟩ := h
  rw [Function.update_self, List.length_append, List.length_replicate]
  omega

/-- **What a step does to the config's account**: nothing, or it makes it, or it stores the config
after the instruction. -/
inductive ConfigStep (R : Runtime) (s : Accounts) (ix : Instruction) (s' : Accounts) : Prop
  | same (same : (s (configKey R)).Same (s' (configKey R)))
      (edit : ∀ cfg, HasConfig R s cfg → ix.edit cfg = cfg)
  | made {cfg : Config} (label : ∃ a, ix = .init a) (within : cfg.Within)
      (holding : Holding R s' cfg)
      (room : configSpace cfg.maxValidators.toNat cfg.maxCorridors.toNat + CONFIG_SLACK ≤
        (s' (configKey R)).data.length)
  | edited {cfg : Config} (config : HasConfig R s cfg) (holding : Holding R s' (ix.edit cfg))
      (within : cfg.Within → (ix.edit cfg).Within)

/-- An instruction that changed nothing, since the config is already so. -/
theorem ConfigStep.noop {ix : Instruction} (hc : HasConfig R s cfg) (h : ix.edit cfg = cfg) :
    ConfigStep R s ix s := by
  refine .same (.refl _) fun cfg' hc' => ?_
  obtain rfl := hc.unique hc'
  exact h

/-- An instruction that stored the config after it. -/
theorem ConfigStep.stored {ix : Instruction} {cfg' : Config} {s₁ : Accounts}
    (hc : Configured R s ai cfg) (hs : cfg'.store R s₁ ai = .ok s') (h : ix.edit cfg = cfg')
    (hwithin : cfg.Within → cfg'.Within) : ConfigStep R s ix s' := by
  subst h
  exact .edited hc.hasConfig (holding_of_store hc.key hs) hwithin

/-- **What `init` makes**: the config that it was given, with room for all that its caps allow. -/
theorem made_of_processInit (hR : R.Lawful) {a : InitArgs}
    (h : processInit R clock s accounts a = .ok s') :
    ∃ x now, InitAccounts.next accounts = .ok x ∧ clock = some now ∧
      (initialConfig x.payer.key now a).Within ∧
      Holding R s' (initialConfig x.payer.key now a) ∧
      configSpace a.maxValidators.toNat a.maxCorridors.toNat + CONFIG_SLACK ≤
        (s' (configKey R)).data.length := by
  simp only [processInit, bind_eq_ok, exists_unit, revertIf_eq_ok, not_not, not_or, not_lt,
    orRevert_eq_ok] at h
  obtain ⟨x, hx, hkey, -, -, -, ⟨hcap, -⟩, -, -, s₁, hc, -, now, hnow, hs⟩ := h
  refine ⟨x, now, hx, hnow, ⟨hcap, Nat.zero_le _⟩, holding_of_store hkey hs, ?_⟩
  -- the account was made with that room, and the store keeps its length
  have hlength := length_of_store hs
  rw [(took_of_createPdaAccount hR hc).data_eq, List.length_replicate, hkey] at hlength
  exact hlength.ge

theorem configStep_of_processSetValidator {v : Address} {active : Bool}
    (h : processSetValidator R clock s accounts v active = .ok s') :
    ConfigStep R s (.setValidator v active) s' := by
  simp only [processSetValidator, bind_eq_ok, exists_unit, check_eq_ok] at h
  obtain ⟨x, -, cfg, hcfg, -, -, h⟩ := h
  have hc := configured_of_loadConfig hcfg
  split at h
  · next hadd =>
    simp only [bind_eq_ok, exists_unit, check_eq_ok] at h
    obtain ⟨hroom, s₁, -, hstore⟩ := h
    refine .stored hc hstore (if_pos hadd) fun hwithin => ⟨?_, hwithin.corridors⟩
    rw [List.length_append, List.length_singleton]
    exact hroom
  · next hadd =>
    split at h
    · next hremove =>
      simp only [bind_eq_ok, exists_unit] at h
      obtain ⟨-, hstore⟩ := h
      refine .stored hc hstore ((if_neg hadd).trans (if_pos hremove)) fun hwithin =>
        ⟨?_, hwithin.corridors⟩
      exact (List.length_filter_le ..).trans hwithin.validators
    · next hremove =>
      obtain rfl := pure_eq_ok.mp h
      exact .noop hc.hasConfig ((if_neg hadd).trans (if_neg hremove))

theorem configStep_of_processSetThreshold {threshold : BitVec 32}
    (h : processSetThreshold R clock s accounts threshold = .ok s') :
    ConfigStep R s (.setThreshold threshold) s' := by
  simp only [processSetThreshold, bind_eq_ok, exists_unit] at h
  obtain ⟨x, -, cfg, hcfg, -, -, -, s₁, -, hstore⟩ := h
  exact .stored (configured_of_loadConfig hcfg) hstore rfl fun h => ⟨h.1, h.2⟩

theorem configStep_of_processRegisterCorridor {chainIdTo : U64}
    (h : processRegisterCorridor R s accounts chainIdTo = .ok s') :
    ConfigStep R s (.registerCorridor chainIdTo) s' := by
  simp only [processRegisterCorridor, bind_eq_ok, exists_unit] at h
  obtain ⟨x, -, cfg, hcfg, -, -, h⟩ := h
  have hc := configured_of_loadConfig hcfg
  split at h
  · next hthere =>
    obtain rfl := pure_eq_ok.mp h
    exact .noop hc.hasConfig (if_pos hthere)
  · next hnew =>
    simp only [bind_eq_ok, exists_unit, check_eq_ok] at h
    obtain ⟨hroom, hstore⟩ := h
    refine .stored hc hstore (if_neg hnew) fun hwithin => ⟨hwithin.validators, ?_⟩
    rw [List.length_append, List.length_singleton]
    exact hroom

theorem configStep_of_processSetPaused {paused : Bool} {ix : Instruction}
    (hix : ∀ cfg : Config, ix.edit cfg = { cfg with paused := paused })
    (h : processSetPaused R s accounts paused = .ok s') :
    ConfigStep R s ix s' := by
  simp only [processSetPaused, bind_eq_ok, exists_unit] at h
  obtain ⟨x, -, cfg, hcfg, -, -, h⟩ := h
  have hc := configured_of_loadConfig hcfg
  split at h
  · next hsame =>
    obtain rfl := pure_eq_ok.mp h
    refine .noop hc.hasConfig ?_
    rw [hix, ← hsame]
  · exact .stored hc h (hix cfg) fun h => ⟨h.1, h.2⟩

theorem configStep_of_processSetGuardian {guardian : Pubkey}
    (h : processSetGuardian R clock s accounts guardian = .ok s') :
    ConfigStep R s (.setGuardian guardian) s' := by
  simp only [processSetGuardian, bind_eq_ok, exists_unit] at h
  obtain ⟨x, -, cfg, hcfg, -, h⟩ := h
  have hc := configured_of_loadConfig hcfg
  split at h
  · next hsame =>
    obtain rfl := pure_eq_ok.mp h
    refine .noop hc.hasConfig ?_
    rw [Instruction.edit, hsame]
  · simp only [bind_eq_ok] at h
    obtain ⟨_, -, s₁, -, hstore⟩ := h
    exact .stored hc hstore rfl fun h => ⟨h.1, h.2⟩

theorem configStep_of_processSeal (h : processSeal R s accounts = .ok s') :
    ConfigStep R s .sealGate s' := by
  simp only [processSeal, bind_eq_ok, exists_unit] at h
  obtain ⟨x, -, cfg, hcfg, -, -, hstore⟩ := h
  exact .stored (configured_of_loadConfig hcfg) hstore rfl fun h => ⟨h.1, h.2⟩

theorem Sends.configStep (hR : R.Lawful) {a : SendArgs} {x : SendAccounts} {asset : AssetConfig}
    {wire : U64} {id : Bytes32} (S : Sends R clock s a x cfg asset wire id s' log) :
    ConfigStep R s (.send a) s' := by
  obtain ⟨bumped, s₁, s₂, lockedAt, hbump, hs₁, hs₂, hs₃⟩ := S.steps
  obtain ⟨nonceTo, hin, hb⟩ := bind_eq_ok.mp hbump
  obtain rfl := pure_eq_ok.mp hb
  have hholding := holding_of_store S.config.key hs₁
  -- the record's account was free, and the config's was not
  have ht := took_of_createSentRecord hR hs₂
  have hne : configKey R ≠ x.sent.key := by
    intro heq
    have howner := hholding.owner
    rw [heq] at howner
    exact hR.programId_ne_systemId (howner.symm.trans ht.free.owner)
  have h₂ := hholding.same (ht.other _ hne)
  have hnot : (s₂ (configKey R)).owner ≠ R.splTokenId := h₂.owner ▸ hR.programId_ne_splTokenId
  have h₃ := h₂.same ((wrote_of_splTransfer hR hs₃).same _ hnot List.not_mem_nil)
  have hedit : Instruction.edit cfg (.send a) = { cfg with nonceTo } := by
    rw [Instruction.edit, hin]
    rfl
  refine .edited S.config.hasConfig (hedit ▸ h₃) fun hwithin => ?_
  rw [hedit]
  exact ⟨hwithin.validators, (length_of_bumpIn hin).le.trans hwithin.corridors⟩

/-- **What an instruction does to the config's account**, one case for each kind. -/
theorem configStep_of_processInstruction (hR : R.Lawful) (hs : Kept R s) {ix : Instruction}
    (h : processInstruction R clock s accounts ix = .ok (s', log))
    (hinj : ∀ sd ∈ ix.writes R accounts log, R.findProgramAddress sd = configKey R →
      sd = configSeeds) : ConfigStep R s ix s' := by
  obtain ⟨ha, hx, hr, hsent, hg, hv⟩ := configSeeds_ne
  -- an instruction that does not write the config's seeds leaves the config's account alone
  have hsame : configSeeds ∉ ix.writes R accounts log → (∀ cfg, ix.edit cfg = cfg) →
      ConfigStep R s ix s' := by
    intro hnot hedit
    refine .same ((wrote_of_processInstruction hR h).same _ hs.owner fun hk => ?_)
      fun cfg _ => hedit cfg
    obtain ⟨sd, hsd, heq⟩ := List.mem_map.mp hk
    exact hnot (hinj sd hsd heq ▸ hsd)
  cases ix with
  | init a =>
    obtain ⟨x, now, -, -, hwithin, hholding, hroom⟩ := made_of_processInit hR (quiet_eq_ok.mp h).1
    exact .made ⟨a, rfl⟩ hwithin hholding hroom
  | send a =>
    obtain ⟨x, cfg, asset, wire, id, -, S⟩ := sends_of_processSend h
    exact S.configStep hR
  | setValidator v active => exact configStep_of_processSetValidator (quiet_eq_ok.mp h).1
  | setThreshold t => exact configStep_of_processSetThreshold (quiet_eq_ok.mp h).1
  | registerCorridor c => exact configStep_of_processRegisterCorridor (quiet_eq_ok.mp h).1
  | pause => exact configStep_of_processSetPaused (fun _ => rfl) (quiet_eq_ok.mp h).1
  | unpause => exact configStep_of_processSetPaused (fun _ => rfl) (quiet_eq_ok.mp h).1
  | setGuardian g => exact configStep_of_processSetGuardian (quiet_eq_ok.mp h).1
  | sealGate => exact configStep_of_processSeal (quiet_eq_ok.mp h).1
  | claim a => exact hsame (configSeeds_notMem hx _) fun _ => rfl
  | cancel a => exact hsame (configSeeds_notMem hx _) fun _ => rfl
  | refund a => exact hsame (by simp [Instruction.writes, hr, hsent]) fun _ => rfl
  | scheduleGovernance actionId => exact hsame (by simp [Instruction.writes]) fun _ => rfl
  | cancelScheduledGovernance actionId =>
    exact hsame (by simp [Instruction.writes, hg]) fun _ => rfl
  | scheduleAction action => exact hsame (configSeeds_notMem hg _) fun _ => rfl
  | registerAsset debridgeId bridgeDecimals =>
    refine hsame ?_ fun _ => rfl
    rw [Instruction.writes, registerSeeds]
    split <;> simp [ha, hv, hg]

/-- **The config stays laid out.** -/
theorem ConfigStep.kept {ix : Instruction} (h : ConfigStep R s ix s')
    (hR : R.Lawful) (hs : Kept R s)
    (hlength : (s (configKey R)).owner = R.programId →
      (s (configKey R)).data.length ≤ (s' (configKey R)).data.length) : Kept R s' := by
  cases h with
  | same hsame _ => exact hs.same hsame
  | made _ hwithin hholding hroom =>
    exact ⟨hholding.owner ▸ hR.programId_ne_splTokenId, fun _ => ⟨_, hwithin, hholding.padded,
      hroom⟩⟩
  | edited hc hholding hwithin =>
    have hlaid := hs.laid_of hc
    have hle := hlength hc.owner
    refine ⟨hholding.owner ▸ hR.programId_ne_splTokenId, fun _ => ⟨_, hwithin hlaid.within,
      hholding.padded, ?_⟩⟩
    rw [(edit_caps _ ix).1, (edit_caps _ ix).2]
    exact hlaid.room.trans hle

/-- What others do to the config's account. -/
theorem same_of_others (hR : R.Lawful) (want : Accounts) :
    (s (configKey R)).Same (others R s want (configKey R)) := by
  have hd : R.isDerived (configKey R) = true := hR.isDerived configSeeds
  simp only [others, hd, true_or, if_true]
  exact ⟨rfl, rfl⟩

/-- **One step keeps the config.** -/
theorem kept_step (hR : R.Lawful) (hs : Kept R s) {l : Label} (he : exec R s l = some (s', log))
    (hinj : ∀ sd ∈ writesOf R ⟨s, l, log, s'⟩,
      R.findProgramAddress sd = R.findProgramAddress configSeeds → sd = configSeeds) :
    Kept R s' := by
  cases l with
  | others want =>
    simp only [exec, Option.some.injEq, Prod.mk.injEq] at he
    obtain ⟨rfl, -⟩ := he
    exact hs.same (same_of_others hR want)
  | instruction clock accounts ix =>
    have h := exec_instruction he
    exact (configStep_of_processInstruction hR hs h hinj).kept hR hs fun howner =>
      ((wrote_of_processInstruction hR h).kept _ howner).2

/-- **In every reachable state the config is laid out.** -/
theorem kept_of_run {s₀ : Accounts} {tr : List Step} (hR : R.Lawful) (h₀ : Deployed R s₀)
    (hrun : Run (exec R) s₀ tr s)
    (hinj : ∀ sd ∈ tr.flatMap (writesOf R),
      R.findProgramAddress sd = R.findProgramAddress configSeeds → sd = configSeeds) :
    Kept R s := by
  induction hrun with
  | nil =>
    have hfree := h₀.derived _ (hR.isDerived configSeeds)
    refine ⟨hfree.owner ▸ hR.systemId_ne_splTokenId, fun howner => ?_⟩
    exact absurd (howner.symm.trans hfree.owner) hR.programId_ne_systemId
  | snoc _ he ih =>
    rw [List.flatMap_append] at hinj
    refine kept_step hR (ih fun sd hsd => hinj sd (List.mem_append_left _ hsd)) he ?_
    exact fun sd hsd => hinj sd (List.mem_append_right _ (by rwa [List.flatMap_singleton]))

/-- **What a step leaves to be loaded**: what `init` was given, the config as the instruction edits
it, or the config as it was. -/
def KeepsConfig (R : Runtime) (e : Step) : Prop :=
  match e.label with
  | .instruction clock accounts (.init a) =>
    ∃ x now, InitAccounts.next accounts = .ok x ∧ clock = some now ∧
      Holding R e.post (initialConfig x.payer.key now a) ∧
      ∀ ai, ai.key = configKey R → loadConfig R e.post ai = .ok (initialConfig x.payer.key now a)
  | .instruction _ _ ix =>
    ∀ cfg, (∃ ai, loadConfig R e.pre ai = .ok cfg) → Holding R e.post (ix.edit cfg) ∧
      ∀ ai, ai.key = configKey R → loadConfig R e.post ai = .ok (ix.edit cfg)
  | .others _ =>
    ∀ cfg, (∃ ai, loadConfig R e.pre ai = .ok cfg) → Holding R e.post cfg ∧
      ∀ ai, ai.key = configKey R → loadConfig R e.post ai = .ok cfg

/-! ### No account is too small -/

/-- It does not fail on an account that is too small, or on an encoding that does not fit. -/
abbrev Fits {α : Type} (x : Except ProgramError α) : Prop := Avoids .accountDataTooSmall x

@[simp] theorem fits_check {p : Prop} [Decidable p] {e : GateError} : Fits (check p e) := by
  simp [check]

@[simp] theorem fits_invoke {r : Option Accounts} : Fits (invoke r) := by simp [invoke]

@[simp] theorem fits_writeData {data : Bytes} : Fits (writeData R s ai data) := by
  simp [writeData, avoids_bind]

@[simp] theorem fits_verifyPda {seeds : List Bytes} : Fits (verifyPda R s ai seeds) := by
  simp [verifyPda, avoids_bind]

@[simp] theorem fits_loadConfig : Fits (loadConfig R s ai) := by simp [loadConfig, avoids_bind]

@[simp] theorem fits_payRent {payer target : AccountInfo} {space : ℕ} :
    Fits (payRent R s payer target space) := by
  dsimp only [payRent]
  split <;> simp

@[simp] theorem fits_createPdaAccount {payer target : AccountInfo} {space : ℕ} :
    Fits (createPdaAccount R s payer target space) := by
  simp [createPdaAccount, avoids_bind]

@[simp] theorem fits_createUnless {p : Prop} [Decidable p] {payer target : AccountInfo}
    {space : ℕ} : Fits (createUnless R s p payer target space) := by
  unfold createUnless
  split <;> simp

@[simp] theorem fits_makeRoom {owner : AccountInfo} {space : ℕ} :
    Fits (makeRoom R s owner ai space) := by
  unfold makeRoom
  split_ifs <;> simp [growProgramAccount, avoids_bind]

@[simp] theorem fits_splMintAndOwner {token tokenProgram : AccountInfo} :
    Fits (splMintAndOwner R s token tokenProgram) := by
  simp [splMintAndOwner, avoids_bind]

@[simp] theorem fits_receiverTokenAccount {token tokenProgram : AccountInfo} :
    Fits (receiverTokenAccount R s token tokenProgram) := by
  simp [receiverTokenAccount, avoids_bind]

@[simp] theorem fits_verifyAssetBinding {asset : AssetConfig} {tp vault vaultMint mint : Pubkey} :
    Fits (verifyAssetBinding R asset tp vault vaultMint mint) := by
  simp [verifyAssetBinding, avoids_bind]

@[simp] theorem fits_decodeAssetConfig {data : Bytes} : Fits (decodeAssetConfig data) := by
  unfold decodeAssetConfig
  split <;> simp

@[simp] theorem fits_loadAsset {debridgeId : Bytes32} : Fits (loadAsset R s debridgeId ai) := by
  simp [loadAsset, avoids_bind]

@[simp] theorem fits_loadSentRecord {id : Bytes32} : Fits (loadSentRecord R s id ai) := by
  simp [loadSentRecord, decodeSentRecord, avoids_bind]

@[simp] theorem fits_toWire {asset : AssetConfig} {amount : U64} : Fits (asset.toWire amount) := by
  simp [AssetConfig.toWire, AssetConfig.unit, avoids_bind]

@[simp] theorem fits_toLocal {asset : AssetConfig} {wire : U64} : Fits (asset.toLocal wire) := by
  simp [AssetConfig.toLocal, AssetConfig.unit, avoids_bind]

@[simp] theorem fits_bumpIn {chainIdTo : U64} {nonceTo : List (U64 × U64)} :
    Fits (Config.bumpIn chainIdTo nonceTo) := by
  induction nonceTo with
  | nil => simp [Config.bumpIn]
  | cons e rest ih =>
    rw [Config.bumpIn]
    split <;> simp [ih]

@[simp] theorem fits_bumpNonce {chainIdTo : U64} : Fits (cfg.bumpNonce chainIdTo) := by
  simp [Config.bumpNonce]

@[simp] theorem fits_countSigners {digest : Bytes32} {signatures : List Bytes} {last : Address}
    {count : ℕ} : Fits (countSigners R cfg digest signatures last count) := by
  induction signatures generalizing last count with
  | nil => simp [countSigners]
  | cons sig signatures ih => simp [countSigners, recoverEvmAddress, avoids_bind, ih]

@[simp] theorem fits_verifyThreshold {id : Bytes32} {signatures : List Bytes} :
    Fits (verifyThreshold R cfg id signatures) := by
  simp [verifyThreshold, avoids_bind]

@[simp] theorem fits_checkDistinct {before validators : List Address} :
    Fits (checkDistinct before validators) := by
  induction validators generalizing before with
  | nil => simp [checkDistinct]
  | cons v rest ih => simp [checkDistinct, avoids_bind, ih]

@[simp] theorem fits_validateValidatorSet {validators : List Address} {threshold : BitVec 32} :
    Fits (validateValidatorSet validators threshold) := by
  simp [validateValidatorSet, checkThresholdCap, avoids_bind]

@[simp] theorem fits_requireUpgradeAuthority {program programData : AccountInfo} {who : Pubkey} :
    Fits (requireUpgradeAuthority R s program programData who) := by
  simp only [requireUpgradeAuthority, avoids_bind, avoids_revertIf, avoids_orRevert]
  refine ⟨by simp, fun _ _ => ⟨by simp, fun _ _ => ⟨by simp, fun _ _ => ⟨by simp, ?_⟩⟩⟩⟩
  intro state _
  split <;> simp

@[simp] theorem fits_checkAssetAccounts {mint vault tokenProgram : AccountInfo}
    {bridgeDecimals : UInt8} :
    Fits (checkAssetAccounts R s mint vault tokenProgram bridgeDecimals) := by
  simp [checkAssetAccounts, avoids_bind]

@[simp] theorem fits_registering {asset : Account} {record : AssetConfig} :
    Fits (registering R asset record) := by
  unfold registering
  split
  · simp
  · simp only [avoids_bind]
    refine ⟨by simp, fun _ _ => ⟨by simp, fun existing _ => ?_⟩⟩
    split
    · simp
    · simp only [avoids_bind]
      refine ⟨?_, by simp⟩
      unfold assetWriteAllowed
      split_ifs <;> simp

@[simp] theorem fits_vaultBinding {a : Account} : Fits (vaultBinding R a) := by
  unfold vaultBinding
  split <;> simp

@[simp] theorem fits_onlyOwner {who : AccountInfo} : Fits (onlyOwner cfg who) := by simp [onlyOwner]

/-! ### The writes -/

theorem fits_writeFront {front : Bytes} (h : front.length ≤ (s ai.key).data.length) :
    Fits (writeFront R s ai front) := by
  simp only [writeFront, avoids_bind, avoids_revertIf]
  exact ⟨fun hlt => absurd h (not_le.mpr hlt), fun _ _ => fits_writeData⟩

/-- **A store fits where the formula says so.** -/
theorem fits_store
    (h : configSpace cfg.validators.length cfg.nonceTo.length ≤ (s ai.key).data.length) :
    Fits (cfg.store R s ai) := by
  simp only [Config.store, writeZeroPadded, length_put_config, avoids_bind, avoids_revertIf]
  exact ⟨fun hlt => absurd h (not_le.mpr hlt), fun _ _ =>
    ⟨fun hlt => absurd h (not_le.mpr hlt), fun _ _ => fits_writeData⟩⟩

/-- What is made with room for something has it. -/
theorem fits_create_write (hR : R.Lawful) {payer : AccountInfo} {space : ℕ} {front : Bytes}
    (hfront : front.length ≤ space) {s₁ : Accounts}
    (h : createPdaAccount R s payer ai space = .ok s₁) : Fits (writeFront R s₁ ai front) := by
  refine fits_writeFront ?_
  rw [(took_of_createPdaAccount hR h).data_eq, List.length_replicate]
  exact hfront

theorem fits_createMarker (hR : R.Lawful) {payer : AccountInfo} {state : UInt8} :
    Fits (createMarker R s payer ai state) := by
  simp only [createMarker, avoids_bind]
  exact ⟨fits_createPdaAccount, fun s₁ h => fits_create_write hR le_rfl h⟩

theorem fits_createSentRecord (hR : R.Lawful) {payer : AccountInfo} {record : SentRecord} :
    Fits (createSentRecord R s payer ai record) := by
  simp only [createSentRecord, avoids_bind]
  refine ⟨by simp, fun _ _ => ⟨by simp, fun s₁ h => fits_create_write hR ?_ h⟩⟩
  rw [length_put_sentRecord]

theorem fits_consumeGovernance {actionId : Bytes32} :
    Fits (consumeGovernance R clock s ai actionId) := by
  simp only [consumeGovernance, avoids_bind, governanceConsumable]
  refine ⟨by simp, fun _ _ => ⟨by simp, fun _ hsched => ⟨by simp, fun _ _ => ⟨by simp,
    fun _ _ => ⟨by simp, fun _ _ => fits_writeFront ?_⟩⟩⟩⟩⟩
  rw [length_put_schedule]
  exact (check_eq_ok.mp hsched).2

theorem fits_consumeGovernanceIf {p : Prop} [Decidable p] {gov : Option AccountInfo}
    {actionId : Bytes32} : Fits (consumeGovernanceIf R clock s p gov actionId) := by
  unfold consumeGovernanceIf
  split
  · simp only [avoids_bind]
    exact ⟨by simp, fun _ _ => fits_consumeGovernance⟩
  · simp

theorem fits_consumeRegistration {r : Registering} {gov : Option AccountInfo}
    {actionId : Bytes32} : Fits (consumeRegistration R clock s cfg r gov actionId) := by
  unfold consumeRegistration
  split
  · simp only [avoids_bind]
    exact ⟨by simp, fun _ _ => fits_consumeGovernanceIf⟩
  · simp

/-- What is there has room, or is made with it. -/
theorem fits_createUnless_write (hR : R.Lawful) {p : Prop} [Decidable p] {payer : AccountInfo}
    {space : ℕ} {front : Bytes} (hfront : front.length ≤ space)
    (hthere : p → space ≤ (s ai.key).data.length) {s₁ : Accounts}
    (h : createUnless R s p payer ai space = .ok s₁) : Fits (writeFront R s₁ ai front) := by
  unfold createUnless at h
  split at h
  · next hp =>
    obtain rfl := Except.ok.inj h
    exact fits_writeFront (hfront.trans (hthere hp))
  · exact fits_create_write hR hfront h

theorem fits_writeSchedule (hR : R.Lawful) {owner : AccountInfo} {actionId : Bytes32} :
    Fits (writeSchedule R clock s owner ai actionId) := by
  simp only [writeSchedule, avoids_bind]
  refine ⟨by simp, fun _ _ => ⟨by simp, fun _ _ => ⟨by simp, fun s₁ h => ⟨by simp, fun _ _ =>
    ⟨by simp, fun _ _ => fits_createUnless_write hR ?_ And.right h⟩⟩⟩⟩⟩
  rw [length_put_schedule]

theorem length_put_binding (b : VaultBinding) : (bindingCodec.put b).length = VAULT_BINDING_LEN := by
  have hput : bindingCodec.put b = word.put b.mint ++ Codec.u8.put b.bridgeDecimals := rfl
  rw [hput, List.length_append, length_put_word]
  rfl

theorem fits_bindVault (hR : R.Lawful) {payer : AccountInfo} {vault : Pubkey}
    {want : VaultBinding} : Fits (bindVault R s payer ai vault want) := by
  simp only [bindVault, avoids_bind]
  refine ⟨by simp, fun _ _ => ⟨by simp, fun _ _ => ⟨by simp, fun _ _ => ⟨by simp, fun s₁ h =>
    fits_createUnless_write hR (length_put_binding want).le And.right h⟩⟩⟩⟩

/-- An account that room was made in has it. -/
theorem length_of_makeRoom (hR : R.Lawful) {owner : AccountInfo} {space : ℕ}
    (h : makeRoom R s owner ai space = .ok s') : space ≤ (s' ai.key).data.length := by
  unfold makeRoom at h
  split_ifs at h with hnone hshort
  · rw [(took_of_createPdaAccount hR h).data_eq, List.length_replicate]
  · obtain ⟨s₁, -, hw⟩ := bind_eq_ok.mp h
    obtain ⟨-, -, rfl⟩ := writeData_eq_ok.mp hw
    rw [Function.update_self, List.length_append, List.length_replicate]
    omega
  · obtain rfl := Except.ok.inj h
    exact not_lt.mp hshort

theorem fits_writeZeroPadded {front : Bytes} (h : front.length ≤ (s ai.key).data.length) :
    Fits (writeZeroPadded R s ai front) := by
  simp only [writeZeroPadded, avoids_bind, avoids_revertIf]
  exact ⟨fun hlt => absurd h (not_le.mpr hlt), fun _ _ => fits_writeData⟩

/-! ### The instructions -/

theorem fits_quiet {r : Except ProgramError Accounts} (h : Fits r) : Fits (quiet r) := by
  unfold quiet
  exact avoids_map.mpr h

@[simp] theorem fits_ownerAccounts : Fits (OwnerAccounts.next accounts) := by
  unfold OwnerAccounts.next
  split <;> simp

/-- **A store of a config that was loaded and edited fits.** -/
theorem Kept.fits_store (hs : Kept R s) (hc : Configured R s ai cfg) {cfg' : Config}
    {s₁ : Accounts} (hw : (s (configKey R)).data.length ≤ (s₁ (configKey R)).data.length)
    (hwithin : cfg.Within → cfg'.Within) (hvalidators : cfg'.maxValidators = cfg.maxValidators)
    (hcorridors : cfg'.maxCorridors = cfg.maxCorridors) : Fits (cfg'.store R s₁ ai) := by
  have hlaid := hs.laid_of hc.hasConfig
  refine Solana.fits_store ?_
  have hfits := hlaid.fits (hwithin hlaid.within) hvalidators hcorridors
  rw [hc.key]
  exact hfits.trans hw

theorem fits_processInit (hR : R.Lawful) {a : InitArgs} :
    Fits (processInit R clock s accounts a) := by
  have hnext : Fits (InitAccounts.next accounts) := by
    unfold InitAccounts.next
    split <;> simp
  simp only [processInit, avoids_bind]
  refine ⟨hnext, fun x _ => ⟨by simp, fun _ _ => ⟨by simp, fun _ _ => ⟨by simp, fun _ _ =>
    ⟨by simp, fun _ _ => ⟨by simp, fun _ hcap => ⟨by simp, fun _ _ => ⟨by simp, fun _ _ =>
      ⟨by simp, fun s₁ h => ⟨by simp, fun _ _ => ⟨by simp, fun now _ => Solana.fits_store ?_⟩⟩⟩⟩⟩⟩⟩⟩⟩⟩⟩
  have hle := (not_or.mp (revertIf_eq_ok.mp hcap)).1
  rw [(took_of_createPdaAccount hR h).data_eq, List.length_replicate]
  simp only [configSpace, initialConfig, List.length_nil]
  omega

section

variable (hs : Kept R s)

include hs

theorem Kept.fits_processSetValidator {v : Address} {active : Bool} :
    Fits (processSetValidator R clock s accounts v active) := by
  simp only [processSetValidator, avoids_bind]
  refine ⟨by simp, fun x _ => ⟨by simp, fun cfg hcfg => ⟨by simp, fun _ _ => ⟨by simp,
    fun _ _ => ?_⟩⟩⟩⟩
  have hc := configured_of_loadConfig hcfg
  split
  · simp only [avoids_bind]
    refine ⟨by simp, fun _ hroom => ⟨fits_consumeGovernanceIf, fun s₁ hgov => ?_⟩⟩
    have hlength := ((wrote_of_consumeGovernanceIf hgov).kept _ hc.hasConfig.owner).2
    refine hs.fits_store hc hlength (fun hwithin => ⟨?_, hwithin.corridors⟩) rfl rfl
    rw [List.length_append, List.length_singleton]
    exact check_eq_ok.mp hroom
  · split
    · simp only [avoids_bind]
      refine ⟨by simp, fun _ _ => hs.fits_store hc le_rfl (fun hwithin =>
        ⟨(List.length_filter_le ..).trans hwithin.validators, hwithin.corridors⟩) rfl rfl⟩
    · simp

theorem Kept.fits_processSetThreshold {threshold : BitVec 32} :
    Fits (processSetThreshold R clock s accounts threshold) := by
  simp only [processSetThreshold, checkThresholdCap, avoids_bind]
  refine ⟨by simp, fun x _ => ⟨by simp, fun cfg hcfg => ⟨by simp, fun _ _ => ⟨by simp, fun _ _ =>
    ⟨by simp, fun _ _ => ⟨fits_consumeGovernanceIf, fun s₁ hgov => ?_⟩⟩⟩⟩⟩⟩
  have hc := configured_of_loadConfig hcfg
  have hlength := ((wrote_of_consumeGovernanceIf hgov).kept _ hc.hasConfig.owner).2
  exact hs.fits_store hc hlength (fun h => ⟨h.1, h.2⟩) rfl rfl

theorem Kept.fits_processRegisterCorridor {chainIdTo : U64} :
    Fits (processRegisterCorridor R s accounts chainIdTo) := by
  simp only [processRegisterCorridor, avoids_bind]
  refine ⟨by simp, fun x _ => ⟨by simp, fun cfg hcfg => ⟨by simp, fun _ _ => ⟨by simp,
    fun _ _ => ?_⟩⟩⟩⟩
  have hc := configured_of_loadConfig hcfg
  split
  · simp
  · simp only [avoids_bind]
    refine ⟨by simp, fun _ hroom => hs.fits_store hc le_rfl
      (fun hwithin => ⟨hwithin.validators, ?_⟩) rfl rfl⟩
    rw [List.length_append, List.length_singleton]
    exact check_eq_ok.mp hroom

theorem Kept.fits_processSetPaused {paused : Bool} :
    Fits (processSetPaused R s accounts paused) := by
  simp only [processSetPaused, avoids_bind]
  refine ⟨by simp, fun x _ => ⟨by simp, fun cfg hcfg => ⟨by simp, fun _ _ => ⟨by simp,
    fun _ _ => ?_⟩⟩⟩⟩
  split
  · simp
  · exact hs.fits_store (configured_of_loadConfig hcfg) le_rfl (fun h => ⟨h.1, h.2⟩) rfl rfl

theorem Kept.fits_processSetGuardian {guardian : Pubkey} :
    Fits (processSetGuardian R clock s accounts guardian) := by
  simp only [processSetGuardian, avoids_bind]
  refine ⟨by simp, fun x _ => ⟨by simp, fun cfg hcfg => ⟨by simp, fun _ _ => ?_⟩⟩⟩
  have hc := configured_of_loadConfig hcfg
  split
  · simp
  · simp only [avoids_bind]
    refine ⟨by simp, fun now _ => ⟨fits_consumeGovernanceIf, fun s₁ hgov => ?_⟩⟩
    have hlength := ((wrote_of_consumeGovernanceIf hgov).kept _ hc.hasConfig.owner).2
    exact hs.fits_store hc hlength (fun h => ⟨h.1, h.2⟩) rfl rfl

theorem Kept.fits_processSeal : Fits (processSeal R s accounts) := by
  simp only [processSeal, avoids_bind]
  refine ⟨by simp, fun x _ => ⟨by simp, fun cfg hcfg => ⟨by simp, fun _ _ => ⟨by simp, fun _ _ =>
    ?_⟩⟩⟩⟩
  exact hs.fits_store (configured_of_loadConfig hcfg) le_rfl (fun h => ⟨h.1, h.2⟩) rfl rfl

theorem Kept.fits_processSend (hR : R.Lawful) {a : SendArgs} : Fits (processSend R clock s accounts a) := by
  have hnext : Fits (SendAccounts.next accounts) := by
    unfold SendAccounts.next
    split <;> simp
  simp only [processSend, avoids_bind]
  refine ⟨by simp, fun _ _ => ⟨by simp, fun _ _ => ⟨hnext, fun x _ => ⟨by simp, fun cfg hcfg =>
    ⟨by simp, fun _ _ => ⟨by simp, fun _ _ => ⟨by simp, fun _ _ => ⟨by simp, fun asset _ =>
      ⟨by simp, fun vault _ => ⟨by simp, fun user _ => ⟨by simp, fun _ _ => ⟨by simp, fun wire _ =>
        ⟨by simp, fun bumped hbump => ⟨?_, fun s₁ _ => ⟨by simp, fun _ _ => ⟨by simp, fun _ _ =>
          ⟨fits_createSentRecord hR, fun _ _ => ⟨by simp, fun _ _ => by simp⟩⟩⟩⟩⟩⟩⟩⟩⟩⟩⟩⟩⟩⟩⟩⟩⟩⟩
  obtain ⟨nonceTo, hin, hb⟩ := bind_eq_ok.mp hbump
  obtain rfl := pure_eq_ok.mp hb
  exact hs.fits_store (configured_of_loadConfig hcfg) le_rfl (fun hwithin =>
    ⟨hwithin.validators, (length_of_bumpIn hin).le.trans hwithin.corridors⟩) rfl rfl

end

theorem fits_processClaim (hR : R.Lawful) {a : ClaimArgs} : Fits (processClaim R s accounts a) := by
  have hnext : Fits (ClaimAccounts.next accounts) := by
    unfold ClaimAccounts.next
    split <;> simp
  simp only [processClaim, avoids_bind]
  refine ⟨hnext, fun x _ => ⟨by simp, fun cfg _ => ⟨by simp, fun _ _ => ⟨by simp, fun _ _ =>
    ⟨by simp, fun asset _ => ⟨by simp, fun receiver _ => ⟨by simp, fun _ _ => ⟨by simp, fun vault _ =>
      ⟨by simp, fun recv _ => ⟨by simp, fun _ _ => ⟨by simp, fun _ _ => ⟨by simp, fun _ _ =>
        ⟨by simp, fun _ _ => ⟨by simp, fun _ _ => ⟨by simp, fun amount _ => ⟨fits_createMarker hR,
          fun _ _ => ⟨by simp, fun _ _ => ⟨by simp, by simp⟩⟩⟩⟩⟩⟩⟩⟩⟩⟩⟩⟩⟩⟩⟩⟩⟩⟩

theorem fits_processCancel (hR : R.Lawful) {a : ClaimArgs} :
    Fits (processCancel R s accounts a) := by
  have hnext : Fits (CancelAccounts.next accounts) := by
    unfold CancelAccounts.next
    split <;> simp
  simp only [processCancel, avoids_bind]
  exact ⟨hnext, fun x _ => ⟨by simp, fun cfg _ => ⟨by simp, fun _ _ => ⟨by simp, fun _ _ =>
    ⟨by simp, fun _ _ => ⟨by simp, fun _ _ => ⟨fits_createMarker hR, by simp⟩⟩⟩⟩⟩⟩⟩

theorem fits_processRefund (hR : R.Lawful) {a : RefundArgs} :
    Fits (processRefund R s accounts a) := by
  have hnext : Fits (RefundAccounts.next accounts) := by
    unfold RefundAccounts.next
    split <;> simp
  simp only [processRefund, avoids_bind]
  exact ⟨hnext, fun x _ => ⟨by simp, fun cfg _ => ⟨by simp, fun _ _ => ⟨by simp, fun _ _ =>
    ⟨by simp, fun sent _ => ⟨by simp, fun _ _ => ⟨by simp, fun _ _ => ⟨by simp, fun asset _ =>
      ⟨by simp, fun _ _ => ⟨by simp, fun vault _ => ⟨by simp, fun dest _ => ⟨by simp, fun _ _ =>
        ⟨fits_createMarker hR, fun _ _ => ⟨by simp, fun _ _ => ⟨by simp, fun _ _ =>
          ⟨by simp, by simp⟩⟩⟩⟩⟩⟩⟩⟩⟩⟩⟩⟩⟩⟩⟩⟩

theorem fits_processRegisterAsset (hR : R.Lawful) {debridgeId : Bytes32} {bridgeDecimals : UInt8} :
    Fits (processRegisterAsset R clock s accounts debridgeId bridgeDecimals) := by
  have hnext : Fits (RegisterAccounts.next accounts) := by
    unfold RegisterAccounts.next
    split <;> simp
  simp only [processRegisterAsset, avoids_bind]
  refine ⟨hnext, fun x _ => ⟨by simp, fun cfg _ => ⟨by simp, fun _ _ => ⟨by simp, fun decimals _ =>
    ⟨by simp, fun _ _ => ⟨by simp, fun r _ => ⟨fits_consumeRegistration, fun _ _ =>
      ⟨fits_bindVault hR, fun _ _ => ?_⟩⟩⟩⟩⟩⟩⟩⟩
  split
  · simp
  · simp only [avoids_bind]
    refine ⟨by simp, fun s₁ hroom => fits_writeZeroPadded ?_⟩
    rw [length_put_asset]
    exact (by decide : ASSET_CONFIG_LEN ≤ ASSET_CONFIG_LEN + ASSET_CONFIG_SLACK).trans
      (length_of_makeRoom hR hroom)

theorem fits_processScheduleAction (hR : R.Lawful) {action : GovernanceAction} :
    Fits (processScheduleAction R clock s accounts action) := by
  have hnext : Fits (ScheduleAccounts.next accounts) := by
    unfold ScheduleAccounts.next
    split <;> simp
  have hschedulable {cfg : Config} {rest : List AccountInfo} :
      Fits (schedulable R s cfg rest action) := by
    have haccounts : Fits (assetAccounts rest) := by
      unfold assetAccounts
      split <;> simp
    cases action with
    | addValidator v => simp [schedulable, avoids_bind]
    | lowerThreshold t => simp [schedulable]
    | registerAsset d n =>
      simp only [schedulable, avoids_bind]
      exact ⟨haccounts, fun _ _ => ⟨by simp, by simp⟩⟩
    | setGuardian g => simp [schedulable]
  simp only [processScheduleAction, avoids_bind]
  exact ⟨hnext, fun x _ => ⟨by simp, fun cfg _ => ⟨by simp, fun _ _ => ⟨hschedulable, fun _ _ =>
    ⟨fits_writeSchedule hR, by simp⟩⟩⟩⟩⟩

theorem fits_processCancelScheduledGovernance {actionId : Bytes32} :
    Fits (processCancelScheduledGovernance R s accounts actionId) := by
  simp only [processCancelScheduledGovernance, avoids_bind]
  refine ⟨by simp, fun x _ => ⟨by simp, fun gov _ => ⟨by simp, fun cfg _ => ⟨by simp, fun _ _ =>
    ⟨by simp, fun _ _ => ⟨by simp, fun _ _ => ?_⟩⟩⟩⟩⟩⟩
  split
  · simp
  · next hschedule =>
    refine fits_writeFront ?_
    rw [length_put_schedule]
    exact (not_not.mp hschedule).2

/-- **No instruction finds an account too small**, one case for each kind. -/
theorem Kept.fits (hR : R.Lawful) (hs : Kept R s) (ix : Instruction) :
    Fits (processInstruction R clock s accounts ix) := by
  cases ix with
  | init a => exact fits_quiet (fits_processInit hR)
  | send a => exact hs.fits_processSend hR
  | claim a => exact fits_processClaim hR
  | setValidator v active => exact fits_quiet hs.fits_processSetValidator
  | setThreshold t => exact fits_quiet hs.fits_processSetThreshold
  | registerAsset d n => exact fits_quiet (fits_processRegisterAsset hR)
  | registerCorridor c => exact fits_quiet hs.fits_processRegisterCorridor
  | pause => exact fits_quiet hs.fits_processSetPaused
  | unpause => exact fits_quiet hs.fits_processSetPaused
  | setGuardian g => exact fits_quiet hs.fits_processSetGuardian
  | cancel a => exact fits_processCancel hR
  | refund a => exact fits_processRefund hR
  | scheduleGovernance actionId => exact avoids_error.mpr (by simp)
  | cancelScheduledGovernance actionId => exact fits_quiet fits_processCancelScheduledGovernance
  | sealGate => exact fits_quiet hs.fits_processSeal
  | scheduleAction action => exact fits_processScheduleAction hR

/-! ### Over a run -/

theorem Holding.hasConfig (h : Holding R s cfg) (hwithin : cfg.Within) : HasConfig R s cfg := by
  obtain ⟨n, hdata⟩ := h.padded
  have hget := configCodec.get_put (a := cfg) (List.replicate n 0) hwithin.valid
  refine ⟨h.owner, List.replicate n 0, ?_⟩
  rw [hdata]
  exact hget

theorem Kept.holding (hs : Kept R s) (hc : HasConfig R s cfg) : Holding R s cfg :=
  ⟨hc.owner, (hs.laid_of hc).padded⟩

/-- **What a step stores is what is loaded after it.** -/
theorem Kept.keepsConfig (hR : R.Lawful) (hs : Kept R s) {l : Label}
    (he : exec R s l = some (s', log))
    (hinj : ∀ sd ∈ writesOf R ⟨s, l, log, s'⟩,
      R.findProgramAddress sd = R.findProgramAddress configSeeds → sd = configSeeds) :
    KeepsConfig R ⟨s, l, log, s'⟩ := by
  -- what is held and within its caps is loaded
  have hload {cfg : Config} (h : Holding R s' cfg) (hwithin : cfg.Within) :
      ∀ ai, ai.key = configKey R → loadConfig R s' ai = .ok cfg := fun ai hkey =>
    (h.hasConfig hwithin).load hkey
  cases l with
  | others want =>
    rintro cfg ⟨ai, hcfg⟩
    have hc := (configured_of_loadConfig hcfg).hasConfig
    simp only [exec, Option.some.injEq, Prod.mk.injEq] at he
    obtain ⟨rfl, -⟩ := he
    have hholding := (hs.holding hc).same (same_of_others hR want)
    exact ⟨hholding, hload hholding (hs.laid_of hc).within⟩
  | instruction clock accounts ix =>
    have hstep := configStep_of_processInstruction hR hs (exec_instruction he) hinj
    have hedit (hnot : ∀ a, ix ≠ .init a) (cfg : Config) (hc : HasConfig R s cfg) :
        Holding R s' (ix.edit cfg) ∧ (ix.edit cfg).Within := by
      cases hstep with
      | same hsame hsteady =>
        rw [hsteady cfg hc]
        exact ⟨(hs.holding hc).same hsame, (hs.laid_of hc).within⟩
      | made hix _ _ _ =>
        obtain ⟨a, hix⟩ := hix
        exact absurd hix (hnot a)
      | edited hc' hholding hwithin =>
        obtain rfl := hc.unique hc'
        exact ⟨hholding, hwithin (hs.laid_of hc).within⟩
    cases ix with
    | init a =>
      obtain ⟨x, now, hx, hnow, hwithin, hholding, -⟩ :=
        made_of_processInit hR (quiet_eq_ok.mp (exec_instruction he)).1
      exact ⟨x, now, hx, hnow, hholding, hload hholding hwithin⟩
    | _ =>
      rintro cfg ⟨ai, hcfg⟩
      have hc := (configured_of_loadConfig hcfg).hasConfig
      obtain ⟨hholding, hwithin⟩ := hedit (by simp) cfg hc
      exact ⟨hholding, hload hholding hwithin⟩

/-- **The config is what was stored.** In every run from the deployment on, at every state that it
reaches:

* whoever hands over the config's account has a config loaded, within its caps, and behind it the
  account has only zeros;
* every step left to be loaded exactly what it stored;
* no instruction fails on an account that is too small, or on an encoding that does not fit;
* a store of any config that goes through is loaded, and one that fails has written nothing;
* a config in the layout from before the gate could be sealed is loaded as the same, not sealed and
  without a deadline, if there are zeros behind it: nine of them, or any at all in an account of the
  size that its caps had then.

The addresses the run writes are told apart from the config's. -/
theorem config_round_trips {s₀ : Accounts} {tr : List Step} (hR : R.Lawful) (h₀ : Deployed R s₀)
    (hrun : Run (exec R) s₀ tr s)
    (hinj : ∀ sd ∈ tr.flatMap (writesOf R),
      R.findProgramAddress sd = R.findProgramAddress configSeeds → sd = configSeeds) :
    (∀ ai, verifyPda R s ai configSeeds = .ok () →
      ∃ cfg, loadConfig R s ai = .ok cfg ∧ cfg.Within ∧ Holding R s cfg) ∧
    (∀ e ∈ tr, KeepsConfig R e) ∧
    (∀ clock accounts ix, processInstruction R clock s accounts ix ≠ .error .accountDataTooSmall) ∧
    (∀ cfg ai s', cfg.validators.length < 2 ^ 32 → cfg.nonceTo.length < 2 ^ 32 →
      ai.key = configKey R → cfg.store R s ai = .ok s' →
        loadConfig R s' ai = .ok cfg ∧ Holding R s' cfg) ∧
    (∀ (cfg : Config) e, (cfg.storeBytes (s (configKey R)).data).1 = .error e →
      (cfg.storeBytes (s (configKey R)).data).2 = (s (configKey R)).data) ∧
    ∀ (cfg : Config) n s' ai, cfg.Within → ai.key = configKey R →
      (s' ai.key).owner = R.programId → (s' ai.key).data = cfg.legacyPut ++ List.replicate n 0 →
      (9 ≤ n ∨ 0 < n ∧ (s' ai.key).data.length =
        legacyConfigSpace cfg.maxValidators.toNat cfg.maxCorridors.toNat) →
      loadConfig R s' ai = .ok cfg.unsealed := by
  have hs := kept_of_run hR h₀ hrun hinj
  refine ⟨?_, ?_, fun clock accounts ix => hs.fits hR ix, ?_, fun cfg e => storeBytes_of_error, ?_⟩
  · intro ai hverify
    obtain ⟨hkey, howner⟩ := verifyPda_eq_ok.mp hverify
    rw [hkey] at howner
    obtain ⟨cfg, hlaid⟩ := hs.laid howner
    have hc : HasConfig R s cfg := ⟨howner, hlaid.get⟩
    exact ⟨cfg, hc.load hkey, hlaid.within, hs.holding hc⟩
  · intro e he
    obtain ⟨tr₁, tr₂, rfl⟩ := List.append_of_mem he
    obtain ⟨hpre, hexec, -⟩ := hrun.split
    rw [List.flatMap_append, List.flatMap_cons] at hinj
    refine (kept_of_run hR h₀ hpre fun sd hsd => ?_).keepsConfig hR hexec fun sd hsd => ?_
    · exact hinj sd (List.mem_append_left _ hsd)
    · exact hinj sd (List.mem_append_right _ (List.mem_append_left _ hsd))
  · intro cfg ai s' hvalidators hcorridors hkey hstore
    have hholding := holding_of_store hkey hstore
    obtain ⟨n, hdata⟩ := hholding.padded
    have hget := configCodec.get_put (a := cfg) (List.replicate n 0)
      (valid_config hvalidators hcorridors)
    have hc : HasConfig R s' cfg := ⟨hholding.owner, _, hdata ▸ hget⟩
    exact ⟨hc.load hkey, hholding⟩
  · intro cfg n s' ai hwithin hkey howner hdata hzeros
    have hn : 9 ≤ n := by
      rcases hzeros with hn | ⟨hpos, hsized⟩
      · exact hn
      · rw [hdata, List.length_append, List.length_replicate, length_legacyPut] at hsized
        exact nine_le_of_legacy hwithin.validators hwithin.corridors hsized hpos
    have hget := get_legacyConfig (lt_of_le_of_lt hwithin.validators cfg.maxValidators.isLt)
      (lt_of_le_of_lt hwithin.corridors cfg.maxCorridors.isLt) hn
    rw [hkey] at howner hdata
    have hc : HasConfig R s' cfg.unsealed := ⟨howner, _, hdata ▸ hget⟩
    exact hc.load hkey

/-- A gate that was wired and took a transfer has a config that is loaded, with the nonce of the
transfer, and no instruction finds too little room. -/
theorem config_round_trips_filled :
    (∃ cfg, loadConfig Cluster.runtime Cluster.filled (Cluster.pda configSeeds) = .ok cfg ∧
      cfg.nonceTo = [(1, 1)] ∧ Holding Cluster.runtime Cluster.filled cfg) ∧
    ∀ clock accounts ix, processInstruction Cluster.runtime clock Cluster.filled accounts ix ≠
      .error .accountDataTooSmall := by
  have hinj : ∀ sd ∈ (traceOf (exec Cluster.runtime) Cluster.deployed
      (Cluster.wiring ++ [Cluster.sending])).1.flatMap (writesOf Cluster.runtime),
        Cluster.runtime.findProgramAddress sd = Cluster.runtime.findProgramAddress configSeeds →
          sd = configSeeds := by
    decide +kernel
  obtain ⟨hload, -, hfits, -⟩ := config_round_trips Cluster.lawful Cluster.deployed_deployed
    (run_traceOf (by decide +kernel)) hinj
  refine ⟨?_, hfits⟩
  obtain ⟨cfg, hcfg, -, hholding⟩ := hload (Cluster.pda configSeeds) (by decide +kernel)
  refine ⟨cfg, hcfg, ?_, hholding⟩
  have hnonce : (loadConfig Cluster.runtime Cluster.filled (Cluster.pda configSeeds)).toOption.map
      Config.nonceTo = some [(1, 1)] := by
    decide +kernel
  have hfilled : Cluster.filled = (traceOf (exec Cluster.runtime) Cluster.deployed
      (Cluster.wiring ++ [Cluster.sending])).2 := rfl
  rw [hfilled, hcfg] at hnonce
  exact Option.some.inj hnonce

end Solana

end SelendraBridge
