import SelendraBridge.Gate.Quorum
import SelendraBridge.Lib.Tally
import SelendraBridge.Solana.Machine

/-!
# Who sits on the quorum on Solana

The program keeps its validators in a list, in its config, and loads the config from its
account on every instruction. `verify_threshold` walks the signatures as the other
machine's loop does, and so is the same `Tally.tally`.

That every config an instruction can load has its seats in order
(`SelendraBridge.Solana.Config.Seated`) is a fact about one account: `init` makes it, nine
kinds of instructions store into it, and the rest leave it alone
(`SelendraBridge.Solana.chartered_step`), as long as no other address the program derives
in the run is the config's.
-/

namespace SelendraBridge

namespace Solana

open Revert Transition

variable {R : Runtime} {cfg : Config} {s₀ s s' : Accounts} {accounts : List AccountInfo}
  {clock : Clock} {tr : List Step}

/-! ### Quorums -/

/-- The signer that a signature recovers to. -/
def signerOf (R : Runtime) (id : Bytes32) (sig : Bytes) : Except ProgramError Address :=
  recoverEvmAddress R (ethSignedDigest R id) sig

variable (R) in
/-- **A quorum over an id**: distinct validators, at least as many as the threshold, each
recovered from one of the signatures. -/
structure Quorum (cfg : Config) (id : Bytes32) (signatures : List Bytes) (signers : List Address) :
    Prop where
  nodup : signers.Nodup
  enough : cfg.threshold.toNat ≤ signers.length
  isValidator : ∀ v ∈ signers, v ∈ cfg.validators
  signed : ∀ v ∈ signers, ∃ sig ∈ signatures, signerOf R id sig = .ok v

theorem isValidator_iff {v : Address} : cfg.isValidator v = true ↔ v ∈ cfg.validators := by
  rw [Config.isValidator, List.any_eq_true]
  constructor
  · rintro ⟨w, hw, heq⟩
    exact beq_iff_eq.mp heq ▸ hw
  · exact fun h => ⟨v, h, beq_iff_eq.mpr rfl⟩

/-- The loop of `verify_threshold` is the tally of the signers. -/
theorem countSigners_eq_tally {id : Bytes32} (signatures : List Bytes) (last : Address)
    (count : ℕ) :
    countSigners R cfg (ethSignedDigest R id) signatures last count =
      Tally.tally (signerOf R id) (.custom .invalidSignerOrder) cfg.isValidator signatures last
        count := by
  induction signatures generalizing last count with
  | nil => rfl
  | cons sig signatures ih =>
    rw [countSigners, Tally.tally, signerOf]
    simp only [ih, check, not_not]

/-- **Signatures that pass are a quorum.** -/
theorem quorum_of_verifyThreshold {id : Bytes32} {signatures : List Bytes} {u : Unit}
    (h : verifyThreshold R cfg id signatures = .ok u) :
    ∃ signers, Quorum R cfg id signatures signers := by
  simp only [verifyThreshold, bind_eq_ok, exists_unit, check_eq_ok] at h
  obtain ⟨-, count, hcount, hthr⟩ := h
  rw [countSigners_eq_tally] at hcount
  obtain ⟨signers, hn, hnodup, hall⟩ := Tally.exists_members_of_tally hcount
  refine ⟨signers, hnodup, by omega, ?_, ?_⟩
  · exact fun v hv => isValidator_iff.mp (hall v hv).1
  · exact fun v hv => (hall v hv).2

/-- **Ascending signatures of validators are accepted**, once they reach the threshold. -/
theorem verifyThreshold_of_ascending (hzero : (0 : Address) ∉ cfg.validators) {id : Bytes32}
    {signatures : List Bytes} {signers : List Address}
    (hnames : Tally.Names (signerOf R id) signatures signers)
    (hsorted : signers.Pairwise (· < ·)) (hmem : ∀ v ∈ signers, v ∈ cfg.validators)
    (henough : cfg.threshold.toNat ≤ signers.length) :
    verifyThreshold R cfg id signatures = .ok () := by
  have hpos : ∀ v ∈ signers, (0 : Address) < v := by
    intro v hv
    have hne : v ≠ 0 := fun h => hzero (h ▸ hmem v hv)
    have hnat : v.toNat ≠ 0 := fun h => hne (BitVec.eq_of_toNat_eq h)
    exact Nat.pos_of_ne_zero hnat
  have hlen := Tally.length_le hsorted hmem
  have hcount : Tally.tally (signerOf R id) (ProgramError.custom .invalidSignerOrder)
      cfg.isValidator signatures 0 0 = .ok (0 + signers.length) := Tally.tally_of_members hnames
    (List.pairwise_cons.mpr ⟨hpos, hsorted⟩) fun v hv => isValidator_iff.mpr (hmem v hv)
  simp only [verifyThreshold, bind_eq_ok, exists_unit, check_eq_ok]
  refine ⟨?_, signers.length, ?_, ?_⟩
  · rw [List.Forall₂.length_eq hnames]
    omega
  · rw [countSigners_eq_tally, hcount, Nat.zero_add]
  · omega

/-! ### Configs in order -/

/-- **The seats of a config are in order**, and its two lists have lengths that four bytes
can hold. -/
structure Config.Seated (cfg : Config) : Prop where
  nodup : cfg.validators.Nodup
  zero_notMem : (0 : Address) ∉ cfg.validators
  threshold_pos : 1 ≤ cfg.threshold.toNat
  threshold_le : cfg.threshold.toNat ≤ cfg.validators.length
  validators_lt : cfg.validators.length < 2 ^ 32
  corridors_lt : cfg.nonceTo.length < 2 ^ 32

/-- Such a config is read back. -/
theorem Config.Seated.valid (h : cfg.Seated) : configCodec.Valid cfg := by
  refine ⟨trivial, trivial, trivial, ⟨h.validators_lt, fun _ _ => trivial⟩, trivial, trivial,
    trivial, trivial, trivial, ⟨h.corridors_lt, fun _ _ => ⟨trivial, trivial⟩⟩, trivial, trivial⟩

variable (R) in
/-- **The config's account**: it holds no tokens, and if the program has it, it holds a
config with its seats in order. -/
structure Chartered (s : Accounts) : Prop where
  owner : (s (R.findProgramAddress configSeeds)).owner ≠ R.splTokenId
  config : (s (R.findProgramAddress configSeeds)).owner = R.programId →
    ∃ cfg rest, configCodec.get (s (R.findProgramAddress configSeeds)).data = some (cfg, rest) ∧
      cfg.Seated

/-- What an instruction loads from it. -/
theorem Chartered.seated (h : Chartered R s) {ai : AccountInfo} (hc : Configured R s ai cfg) :
    cfg.Seated := by
  obtain ⟨rest, hget⟩ := hc.decoded
  have howner := hc.owner
  rw [hc.key] at howner hget
  obtain ⟨cfg', rest', hget', hcfg'⟩ := h.config howner
  obtain ⟨rfl, -⟩ := Prod.mk.inj (Option.some.inj (hget.symm.trans hget'))
  exact hcfg'

theorem Chartered.same (h : Chartered R s)
    (hs : (s (R.findProgramAddress configSeeds)).Same (s' (R.findProgramAddress configSeeds))) :
    Chartered R s' :=
  ⟨hs.owner ▸ h.owner, fun howner => hs.data ▸ h.config (hs.owner ▸ howner)⟩

/-- **What is stored is loaded.** -/
theorem chartered_of_store (hR : R.Lawful) {ai : AccountInfo}
    (hkey : ai.key = R.findProgramAddress configSeeds) (hs : cfg.store R s ai = .ok s')
    (h : cfg.Seated) : Chartered R s' := by
  simp only [Config.store, revertIf_bind_eq_ok, writeZeroPadded_eq_ok, writeData_eq_ok] at hs
  obtain ⟨-, -, -, howner, rfl⟩ := hs
  rw [hkey] at howner ⊢
  refine ⟨?_, fun _ => ?_⟩
  · rw [Function.update_self, howner]
    exact hR.programId_ne_splTokenId
  · rw [Function.update_self]
    exact ⟨cfg, _, configCodec.get_put _ h.valid, h⟩

/-! ### The instructions that store a config -/

theorem mem_of_checkDistinct {before validators : List Address} {u : Unit}
    (h : checkDistinct before validators = .ok u) :
    (∀ v ∈ validators, v ≠ 0 ∧ v ∉ before) ∧ validators.Nodup := by
  induction validators generalizing before with
  | nil => exact ⟨by simp, List.nodup_nil⟩
  | cons v rest ih =>
    simp only [checkDistinct, bind_eq_ok, exists_unit, check_eq_ok] at h
    obtain ⟨hzero, hnew, h⟩ := h
    obtain ⟨hall, hnodup⟩ := ih h
    refine ⟨?_, List.nodup_cons.mpr ⟨fun hmem => ?_, hnodup⟩⟩
    · intro w hw
      rcases List.mem_cons.mp hw with rfl | hw
      · exact ⟨hzero, hnew⟩
      · obtain ⟨hne, hnot⟩ := hall w hw
        exact ⟨hne, fun hmem => hnot (List.mem_append_left _ hmem)⟩
    · -- The first one was added to those before.
      exact (hall v hmem).2 (by simp)

theorem seated_initialConfig {a : InitArgs} {payer : Pubkey} {now : BitVec 64} {u : Unit}
    (h : validateValidatorSet a.validators a.threshold = .ok u) :
    (initialConfig payer now a).Seated := by
  simp only [validateValidatorSet, bind_eq_ok, exists_unit, revertIf_eq_ok, not_or, not_lt] at h
  obtain ⟨⟨hne, hle⟩, -, hdistinct⟩ := h
  obtain ⟨hall, hnodup⟩ := mem_of_checkDistinct hdistinct
  have hpos : a.threshold.toNat ≠ 0 := fun h => hne (BitVec.eq_of_toNat_eq h)
  exact ⟨hnodup, fun hmem => (hall 0 hmem).1 rfl, Nat.pos_of_ne_zero hpos, hle, a.validators_lt,
    by simp [initialConfig]⟩

theorem chartered_of_processInit (hR : R.Lawful) {a : InitArgs}
    (h : processInit R clock s accounts a = .ok s') : Chartered R s' := by
  simp only [processInit, bind_eq_ok, exists_unit, revertIf_eq_ok, not_not] at h
  obtain ⟨x, -, hkey, -, hvalid, -, -, -, -, s₁, -, -, now, -, hs⟩ := h
  exact chartered_of_store hR hkey hs (seated_initialConfig hvalid)

theorem chartered_of_processSetValidator (hR : R.Lawful) (hs : Chartered R s) {v : Address}
    {active : Bool} (h : processSetValidator R clock s accounts v active = .ok s') :
    Chartered R s' := by
  simp only [processSetValidator, bind_eq_ok, exists_unit, check_eq_ok] at h
  obtain ⟨x, -, cfg, hcfg, -, hzero, h⟩ := h
  have hc := configured_of_loadConfig hcfg
  have hm := hs.seated hc
  split at h
  · next hadd =>
    simp only [bind_eq_ok, exists_unit, check_eq_ok] at h
    obtain ⟨hroom, s₁, -, hstore⟩ := h
    have hnew : v ∉ cfg.validators := fun hmem => by simp [isValidator_iff.mpr hmem] at hadd
    have hmax := cfg.maxValidators.isLt
    refine chartered_of_store hR hc.key hstore
      ⟨?_, ?_, hm.threshold_pos, ?_, ?_, hm.corridors_lt⟩
    · exact List.nodup_append.mpr ⟨hm.nodup, by simp, fun a ha b hb => by
        rintro rfl
        exact hnew (List.mem_singleton.mp hb ▸ ha)⟩
    · intro hmem
      rcases List.mem_append.mp hmem with hmem | hmem
      · exact hm.zero_notMem hmem
      · exact hzero (List.mem_singleton.mp hmem).symm
    · exact hm.threshold_le.trans (by simp)
    · simp only [List.length_append, List.length_singleton]
      omega
  · split at h
    · simp only [bind_eq_ok, exists_unit, revertIf_eq_ok, not_lt] at h
      obtain ⟨hthr, hstore⟩ := h
      have hlen := List.length_filter_le (· != v) cfg.validators
      refine chartered_of_store hR hc.key hstore
        ⟨hm.nodup.filter _, ?_, hm.threshold_pos, hthr, ?_, hm.corridors_lt⟩
      · exact fun hmem => hm.zero_notMem (List.mem_of_mem_filter hmem)
      · exact lt_of_le_of_lt hlen hm.validators_lt
    · obtain rfl := pure_eq_ok.mp h
      exact hs

theorem chartered_of_processSetThreshold (hR : R.Lawful) (hs : Chartered R s)
    {threshold : BitVec 32} (h : processSetThreshold R clock s accounts threshold = .ok s') :
    Chartered R s' := by
  simp only [processSetThreshold, bind_eq_ok, exists_unit, revertIf_eq_ok, not_or, not_lt] at h
  obtain ⟨x, -, cfg, hcfg, -, ⟨hne, hle⟩, -, s₁, -, hstore⟩ := h
  have hc := configured_of_loadConfig hcfg
  have hm := hs.seated hc
  have hpos : threshold.toNat ≠ 0 := fun h => hne (BitVec.eq_of_toNat_eq h)
  exact chartered_of_store hR hc.key hstore
    ⟨hm.nodup, hm.zero_notMem, Nat.pos_of_ne_zero hpos, hle, hm.validators_lt, hm.corridors_lt⟩

theorem chartered_of_processRegisterCorridor (hR : R.Lawful) (hs : Chartered R s) {chainIdTo : U64}
    (h : processRegisterCorridor R s accounts chainIdTo = .ok s') : Chartered R s' := by
  simp only [processRegisterCorridor, bind_eq_ok, exists_unit] at h
  obtain ⟨x, -, cfg, hcfg, -, -, h⟩ := h
  have hc := configured_of_loadConfig hcfg
  have hm := hs.seated hc
  split at h
  · obtain rfl := pure_eq_ok.mp h
    exact hs
  · simp only [bind_eq_ok, exists_unit, check_eq_ok] at h
    obtain ⟨hroom, hstore⟩ := h
    have hmax := cfg.maxCorridors.isLt
    refine chartered_of_store hR hc.key hstore
      ⟨hm.nodup, hm.zero_notMem, hm.threshold_pos, hm.threshold_le, hm.validators_lt, ?_⟩
    simp only [List.length_append, List.length_singleton]
    omega

/-- A config with other flags and the same lists has the same seats. -/
theorem Config.Seated.of_eq {cfg' : Config} (h : cfg.Seated)
    (hval : cfg'.validators = cfg.validators) (hthr : cfg'.threshold = cfg.threshold)
    (hlen : cfg'.nonceTo.length = cfg.nonceTo.length) : cfg'.Seated :=
  ⟨hval ▸ h.nodup, hval ▸ h.zero_notMem, hthr ▸ h.threshold_pos, hthr ▸ hval ▸ h.threshold_le,
    hval ▸ h.validators_lt, hlen ▸ h.corridors_lt⟩

theorem chartered_of_processSetPaused (hR : R.Lawful) (hs : Chartered R s) {paused : Bool}
    (h : processSetPaused R s accounts paused = .ok s') : Chartered R s' := by
  simp only [processSetPaused, bind_eq_ok, exists_unit] at h
  obtain ⟨x, -, cfg, hcfg, -, -, h⟩ := h
  have hc := configured_of_loadConfig hcfg
  split at h
  · obtain rfl := pure_eq_ok.mp h
    exact hs
  · exact chartered_of_store hR hc.key h ((hs.seated hc).of_eq rfl rfl rfl)

theorem chartered_of_processSetGuardian (hR : R.Lawful) (hs : Chartered R s) {guardian : Pubkey}
    (h : processSetGuardian R clock s accounts guardian = .ok s') : Chartered R s' := by
  simp only [processSetGuardian, bind_eq_ok, exists_unit] at h
  obtain ⟨x, -, cfg, hcfg, -, h⟩ := h
  have hc := configured_of_loadConfig hcfg
  split at h
  · obtain rfl := pure_eq_ok.mp h
    exact hs
  · simp only [bind_eq_ok] at h
    obtain ⟨_, -, s₁, -, hstore⟩ := h
    exact chartered_of_store hR hc.key hstore ((hs.seated hc).of_eq rfl rfl rfl)

theorem chartered_of_processSeal (hR : R.Lawful) (hs : Chartered R s)
    (h : processSeal R s accounts = .ok s') : Chartered R s' := by
  simp only [processSeal, bind_eq_ok, exists_unit] at h
  obtain ⟨x, -, cfg, hcfg, -, -, hstore⟩ := h
  have hc := configured_of_loadConfig hcfg
  exact chartered_of_store hR hc.key hstore ((hs.seated hc).of_eq rfl rfl rfl)

/-- Advancing a nonce keeps the number of corridors. -/
theorem length_of_bumpIn {chainIdTo : U64} {nonceTo bumped : List (U64 × U64)}
    (h : Config.bumpIn chainIdTo nonceTo = .ok bumped) : bumped.length = nonceTo.length := by
  induction nonceTo generalizing bumped with
  | nil => exact absurd h (by simp [Config.bumpIn])
  | cons e rest ih =>
    rw [Config.bumpIn] at h
    split at h
    · obtain ⟨n, -, h⟩ := bind_eq_ok.mp h
      obtain rfl := pure_eq_ok.mp h
      rfl
    · obtain ⟨rest', hrest, h⟩ := bind_eq_ok.mp h
      obtain rfl := pure_eq_ok.mp h
      rw [List.length_cons, List.length_cons, ih hrest]

theorem Sends.chartered (hR : R.Lawful) (hs : Chartered R s) {a : SendArgs} {x : SendAccounts}
    {asset : AssetConfig} {wire : U64} {id : Bytes32} {log : List Log}
    (S : Sends R clock s a x cfg asset wire id s' log) : Chartered R s' := by
  obtain ⟨bumped, s₁, s₂, lockedAt, hbump, hs₁, hs₂, hs₃⟩ := S.steps
  obtain ⟨nonceTo, hin, hb⟩ := bind_eq_ok.mp hbump
  obtain rfl := pure_eq_ok.mp hb
  have hseated : Config.Seated { cfg with nonceTo } :=
    (hs.seated S.config).of_eq rfl rfl (length_of_bumpIn hin)
  have h₁ := chartered_of_store hR S.config.key hs₁ hseated
  -- The record's account was free, and the config's was not.
  have howner : (s₁ (R.findProgramAddress configSeeds)).owner = R.programId :=
    ((wrote_of_store hs₁).kept _ (S.config.key ▸ S.config.owner)).1
  have ht := took_of_createSentRecord hR hs₂
  have hne : R.findProgramAddress configSeeds ≠ x.sent.key := by
    intro heq
    rw [heq] at howner
    exact hR.programId_ne_systemId (howner.symm.trans ht.free.owner)
  have h₂ := h₁.same (ht.other _ hne)
  exact h₂.same ((wrote_of_splTransfer hR hs₃).same _ h₂.owner List.not_mem_nil)

/-! ### Every reachable config -/

/-- The config's seeds are those of no other account. -/
theorem configSeeds_ne : (∀ d, configSeeds ≠ assetSeeds d) ∧ (∀ i, configSeeds ≠ executedSeeds i) ∧
    (∀ i, configSeeds ≠ refundedSeeds i) ∧ (∀ i, configSeeds ≠ sentSeeds i) ∧
    (∀ i, configSeeds ≠ govSeeds i) ∧ ∀ v, configSeeds ≠ vaultSeeds v := by
  simp [configSeeds, assetSeeds, executedSeeds, refundedSeeds, sentSeeds, govSeeds, vaultSeeds]

/-- They are not among the seeds of one kind. -/
theorem configSeeds_notMem {f : Bytes32 → List Bytes} (hf : ∀ i, configSeeds ≠ f i)
    (ids : List Bytes32) : configSeeds ∉ ids.map f := by
  intro hmem
  obtain ⟨i, -, heq⟩ := List.mem_map.mp hmem
  exact hf i heq.symm

/-- **One step keeps the config in order**, one case for each kind of instruction. -/
theorem chartered_step (hR : R.Lawful) (hs : Chartered R s) {l : Label} {log : List Log}
    (he : exec R s l = some (s', log))
    (hinj : ∀ sd ∈ writesOf R ⟨s, l, log, s'⟩,
      R.findProgramAddress sd = R.findProgramAddress configSeeds → sd = configSeeds) :
    Chartered R s' := by
  cases l with
  | others want =>
    simp only [exec, Option.some.injEq, Prod.mk.injEq] at he
    obtain ⟨rfl, -⟩ := he
    refine hs.same ?_
    have hd := hR.isDerived configSeeds
    simp only [others, hd, true_or, if_true]
    exact ⟨rfl, rfl⟩
  | instruction clock accounts ix =>
    have h := exec_instruction he
    obtain ⟨ha, hx, hr, hsent, hg, hv⟩ := configSeeds_ne
    -- An instruction that does not write the config's seeds leaves the config's account alone.
    have hsame : configSeeds ∉ ix.writes R accounts log → Chartered R s' := by
      intro hnot
      refine hs.same ((wrote_of_processInstruction hR h).same _ hs.owner fun hk => ?_)
      obtain ⟨sd, hsd, heq⟩ := List.mem_map.mp hk
      exact hnot (hinj sd hsd heq ▸ hsd)
    cases ix with
    | init a => exact chartered_of_processInit hR (quiet_eq_ok.mp h).1
    | send a =>
      obtain ⟨x, cfg, asset, wire, id, -, S⟩ := sends_of_processSend h
      exact S.chartered hR hs
    | setValidator v active => exact chartered_of_processSetValidator hR hs (quiet_eq_ok.mp h).1
    | setThreshold t => exact chartered_of_processSetThreshold hR hs (quiet_eq_ok.mp h).1
    | registerCorridor chainIdTo =>
      exact chartered_of_processRegisterCorridor hR hs (quiet_eq_ok.mp h).1
    | pause => exact chartered_of_processSetPaused hR hs (quiet_eq_ok.mp h).1
    | unpause => exact chartered_of_processSetPaused hR hs (quiet_eq_ok.mp h).1
    | setGuardian guardian => exact chartered_of_processSetGuardian hR hs (quiet_eq_ok.mp h).1
    | sealGate => exact chartered_of_processSeal hR hs (quiet_eq_ok.mp h).1
    | claim a => exact hsame (configSeeds_notMem hx _)
    | cancel a => exact hsame (configSeeds_notMem hx _)
    | refund a => exact hsame (by simp [Instruction.writes, hr, hsent])
    | scheduleGovernance actionId => exact hsame (by simp [Instruction.writes])
    | cancelScheduledGovernance actionId => exact hsame (by simp [Instruction.writes, hg])
    | scheduleAction action => exact hsame (configSeeds_notMem hg _)
    | registerAsset debridgeId bridgeDecimals =>
      refine hsame ?_
      rw [Instruction.writes, registerSeeds]
      split <;> simp [ha, hv, hg]

/-- **In every reachable state of the program the config is in order**, once its address is
told apart from the others that the run writes. -/
theorem chartered_of_run (hR : R.Lawful) (h₀ : Deployed R s₀) (hrun : Run (exec R) s₀ tr s)
    (hinj : ∀ sd ∈ tr.flatMap (writesOf R),
      R.findProgramAddress sd = R.findProgramAddress configSeeds → sd = configSeeds) :
    Chartered R s := by
  induction hrun with
  | nil =>
    have hfree := h₀.derived _ (hR.isDerived configSeeds)
    refine ⟨hfree.owner ▸ hR.systemId_ne_splTokenId, fun howner => ?_⟩
    exact absurd (howner.symm.trans hfree.owner) hR.programId_ne_systemId
  | snoc _ he ih =>
    rw [List.flatMap_append] at hinj
    refine chartered_step hR (ih fun sd hsd => hinj sd (List.mem_append_left _ hsd)) he ?_
    exact fun sd hsd => hinj sd (List.mem_append_right _ (by rwa [List.flatMap_singleton]))

end Solana

end SelendraBridge
