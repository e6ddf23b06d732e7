import SelendraBridge.Signers.ProgramDeeds
import SelendraBridge.Solana.Bindings

/-!
# What the accounts of the program remember

What a mapping of the contract remembers of an id, the program keeps in accounts whose addresses are
derived from the id. A step writes few of those, and tells in its log of which ids. So where the
addresses are told apart, an account that shows an id as cancelled or as locked was written by the
cancellation or by the send of that very id, and the record of a send has the time at which it was
written.
-/

namespace SelendraBridge

open Signers

namespace Solana

open Revert Store Transition

variable {R : Runtime} {s s' s₀ : Accounts} {l : Label} {log : List Log} {id : Bytes32}
  {seeds : List Bytes}

/-! ### Accounts that a step leaves alone -/

/-- **A step leaves alone what it does not write.** -/
theorem same_of_exec (hR : R.Lawful) (h : exec R s l = some (s', log))
    (halone : Alone R seeds (writesOf R ⟨s, l, log, s'⟩))
    (howner : (s (R.findProgramAddress seeds)).owner ≠ R.splTokenId)
    (hnot : seeds ∉ writesOf R ⟨s, l, log, s'⟩) :
    (s (R.findProgramAddress seeds)).Same (s' (R.findProgramAddress seeds)) := by
  cases l with
  | others want =>
    simp only [exec, Option.some.injEq, Prod.mk.injEq] at h
    obtain ⟨rfl, -⟩ := h
    have hd := hR.isDerived seeds
    simp only [others, hd, true_or, if_true]
    exact ⟨rfl, rfl⟩
  | instruction clock accounts ix =>
    exact Alone.same halone hnot howner (wrote_of_processInstruction hR (exec_instruction h))

/-! ### Markers -/

variable (R) in
/-- The account of an id's marker. -/
def markerAt (s : Accounts) (id : Bytes32) : Account := s (R.findProgramAddress (executedSeeds id))

variable (R) in
/-- The account of an id's sent record. -/
def recordAt (s : Accounts) (id : Bytes32) : Account := s (R.findProgramAddress (sentSeeds id))

/-- The account of a marker is none of the others that are written. -/
theorem executedSeeds_ne (id : Bytes32) : executedSeeds id ≠ configSeeds ∧
    (∀ d, executedSeeds id ≠ assetSeeds d) ∧ (∀ i, executedSeeds id ≠ sentSeeds i) ∧
    (∀ i, executedSeeds id ≠ refundedSeeds i) ∧ (∀ i, executedSeeds id ≠ govSeeds i) ∧
    ∀ v, executedSeeds id ≠ vaultSeeds v := by
  have h₁ : ascii "executed" ≠ ascii "asset" := by decide
  have h₂ : ascii "executed" ≠ ascii "sent" := by decide
  have h₃ : ascii "executed" ≠ ascii "refunded" := by decide
  have h₄ : ascii "executed" ≠ ascii "gov" := by decide
  have h₅ : ascii "executed" ≠ ascii "vault" := by decide
  simp [sentSeeds, configSeeds, assetSeeds, executedSeeds, refundedSeeds, govSeeds, vaultSeeds, h₁,
    h₂, h₃, h₄, h₅]

theorem executedSeeds_inj {i j : Bytes32} : executedSeeds i = executedSeeds j ↔ i = j := by
  simp [executedSeeds]

/-- What settles an id in a step. -/
theorem settled_of_executedSeeds_mem (h : exec R s l = some (s', log))
    (hmem : executedSeeds id ∈ writesOf R ⟨s, l, log, s'⟩) :
    (∃ clock accounts a x cfg asset localAmount, l = .instruction clock accounts (.claim a) ∧
      Claims R s a x cfg asset localAmount id s' log) ∨
    ∃ clock accounts a x cfg, l = .instruction clock accounts (.cancel a) ∧
      Cancels R s a x cfg id s' log := by
  obtain ⟨hc, ha, hs, hr, hg, hv⟩ := executedSeeds_ne id
  cases l with
  | others want => exact absurd hmem (by simp [writesOf])
  | instruction clock accounts ix =>
    have he := exec_instruction h
    cases ix with
    | claim a =>
      obtain ⟨x, cfg, asset, localAmount, i, -, C⟩ := claims_of_processClaim he
      obtain ⟨j, hj, heq⟩ := List.mem_map.mp hmem
      rw [C.log] at hj
      obtain rfl := executedSeeds_inj.mp heq
      obtain rfl : i = j := by simpa [Log.id] using hj
      exact .inl ⟨clock, accounts, a, x, cfg, asset, localAmount, rfl, C⟩
    | cancel a =>
      obtain ⟨x, cfg, i, -, C⟩ := cancels_of_processCancel he
      obtain ⟨j, hj, heq⟩ := List.mem_map.mp hmem
      rw [C.log] at hj
      obtain rfl := executedSeeds_inj.mp heq
      obtain rfl : j = i := by simpa [Log.id] using hj
      exact .inr ⟨clock, accounts, a, x, cfg, rfl, C⟩
    | send a =>
      rcases List.mem_cons.mp hmem with hmem | hmem
      · exact absurd hmem hc
      · obtain ⟨i, -, heq⟩ := List.mem_map.mp hmem
        exact absurd heq.symm (hs i)
    | refund a =>
      obtain ⟨i, -, hmem⟩ := List.mem_flatMap.mp hmem
      rcases List.mem_cons.mp hmem with hmem | hmem
      · exact absurd hmem (hr i)
      · exact absurd (List.mem_singleton.mp hmem) (hs i)
    | scheduleAction action =>
      obtain ⟨i, -, heq⟩ := List.mem_map.mp hmem
      exact absurd heq.symm (hg i)
    | registerAsset debridgeId bridgeDecimals =>
      rcases List.mem_cons.mp hmem with hmem | hmem
      · exact absurd hmem (ha _)
      · unfold registerSeeds at hmem
        split at hmem
        · simp [hv, hg] at hmem
        · simp at hmem
    | _ => simp [writesOf, Instruction.writes, hc, hg] at hmem

variable (R) in
/-- The marker of an id says that it is cancelled. -/
structure MarkedCancelled (s : Accounts) (id : Bytes32) : Prop where
  owner : (markerAt R s id).owner = R.programId
  head : (markerAt R s id).data.head? = some MARKER_CANCELLED

/-- **What is marked as cancelled was cancelled** by this step or before. -/
theorem markedCancelled_of_deeds (hR : R.Lawful) (h : exec R s l = some (s', log))
    (halone : Alone R (executedSeeds id) (writesOf R ⟨s, l, log, s'⟩))
    (howner : (markerAt R s id).owner ≠ R.splTokenId) (hid : MarkedCancelled R s' id) :
    MarkedCancelled R s id ∨ ⟨.cancel, id⟩ ∈ deeds log := by
  by_cases hmem : executedSeeds id ∈ writesOf R ⟨s, l, log, s'⟩
  · right
    rcases settled_of_executedSeeds_mem h hmem with
      ⟨clock, accounts, a, x, cfg, asset, localAmount, rfl, C⟩ | ⟨clock, accounts, a, x, cfg, rfl, C⟩
    · -- a claim leaves another mark
      obtain ⟨s₁, hs₁, hs₂⟩ := C.steps
      have ht := took_of_createMarker hR hs₁
      rw [C.executed_key] at ht
      have hs := (wrote_of_splTransfer hR hs₂).same _ (ht.owner ▸ hR.programId_ne_splTokenId)
        List.not_mem_nil
      have hhead := hid.head
      rw [markerAt, hs.data, ht.data_eq] at hhead
      exact absurd hhead (by decide)
    · rw [C.log]
      exact List.mem_singleton_self _
  · left
    have hs := same_of_exec hR h halone howner hmem
    exact ⟨hs.owner.symm.trans hid.owner, hs.data ▸ hid.head⟩

/-! ### Records -/

variable (R) in
/-- The record of an id is alive, and says when it was written. -/
structure RecordedSince (s : Accounts) (id : Bytes32) (lockedAt : BitVec 64) : Prop where
  owner : (recordAt R s id).owner = R.programId
  alive : ∃ record, BridgeSolana.decodeSentRecord (recordAt R s id).data = some record ∧
    ¬(record.amount = 0 ∧ record.debridgeId = 0) ∧ record.lockedAt = lockedAt

/-- The clock of a step, if it is an instruction that could read it. -/
def Label.clock : Label → Clock
  | .instruction clock _ _ => clock
  | .others _ => none

/-- What was written as a sent record is what the relayer reads. -/
theorem relayer_decodeSentRecord_put (record : SentRecord) :
    BridgeSolana.decodeSentRecord (sentCodec.put record) = some record := by
  rw [BridgeSolana.decodeSentRecord, if_pos (length_put_sentRecord record)]
  refine Borsh.Codec.fromSlice_put _ ?_
  simp [sentCodec, Borsh.Codec.iso, Borsh.Codec.pair, word, u64, Borsh.Codec.array,
    Borsh.Codec.uint]

/-- **A send writes the time into its record.** -/
theorem clock_of_processSend (hR : R.Lawful) {clock : Clock} {accounts : List AccountInfo}
    {a : SendArgs} (h : processSend R clock s accounts a = .ok (s', log)) (hid : ⟨.send, id⟩ ∈ deeds log)
    {lockedAt : BitVec 64} (hrecord : RecordedSince R s' id lockedAt) : clock = some lockedAt := by
  simp only [processSend, bind_eq_ok, exists_unit, check_eq_ok, revertIf_eq_ok, orRevert_eq_ok,
    invoke_eq_ok, pure_eq_ok, not_not, Prod.mk.injEq] at h
  obtain ⟨-, -, x, -, cfg, -, -, -, -, asset, -, vault, -, user, -, -, wire, -, bumped, -, s₁, -,
    hkey, now, rfl, s₂, hs₂, s₃, hs₃, rfl, rfl⟩ := h
  obtain rfl := congrArg Deed.id (List.mem_singleton.mp hid)
  have ht := took_of_createSentRecord hR hs₂
  rw [hkey] at ht
  have hs := (wrote_of_splTransfer hR hs₃).same _ (ht.owner ▸ hR.programId_ne_splTokenId)
    List.not_mem_nil
  obtain ⟨record, hread, -, rfl⟩ := hrecord.alive
  rw [recordAt, hs.data, ht.data_eq, relayer_decodeSentRecord_put] at hread
  obtain rfl := Option.some.inj hread
  rfl

/-- **What is locked since a time was sent then**, by this step, or before. -/
theorem recordedSince_of_deeds (hR : R.Lawful) (h : exec R s l = some (s', log))
    (halone : Alone R (sentSeeds id) (writesOf R ⟨s, l, log, s'⟩))
    (howner : (recordAt R s id).owner ≠ R.splTokenId) {lockedAt : BitVec 64}
    (hid : RecordedSince R s' id lockedAt) :
    RecordedSince R s id lockedAt ∨ ⟨.send, id⟩ ∈ deeds log ∧ l.clock = some lockedAt := by
  rcases sentAccount_step hR (e := ⟨s, l, log, s'⟩) h halone howner with hs | hsent | href
  · left
    exact ⟨hs.owner.symm.trans hid.owner, hs.data ▸ hid.alive⟩
  · obtain ⟨a, x, asset, clock, accounts, cfg, wire, rfl, -, S⟩ := hsent
    right
    have hlog : log = _ := S.log
    have hmem : ⟨.send, id⟩ ∈ deeds log := by
      rw [hlog]
      exact List.mem_singleton_self _
    exact ⟨hmem, clock_of_processSend hR (exec_instruction h) hmem hid⟩
  · -- a refund leaves zeros
    obtain ⟨clock, accounts, a, x, cfg, asset, sent, -, F⟩ := refunds_of_mem h href
    obtain ⟨record, hread, halive, -⟩ := hid.alive
    exact absurd (BridgeSolana.retired_of_zeros (F.zeroed hR).2 hread) halive

/-! ### No tokens -/

variable (R) in
/-- The two accounts of an id hold no tokens. -/
structure Tokenless (s : Accounts) (id : Bytes32) : Prop where
  marker : (markerAt R s id).owner ≠ R.splTokenId
  record : (recordAt R s id).owner ≠ R.splTokenId

theorem tokenless_of_deployed (hR : R.Lawful) (h : Deployed R s) (id : Bytes32) :
    Tokenless R s id := by
  have hfree (seeds : List Bytes) : (s (R.findProgramAddress seeds)).owner ≠ R.splTokenId :=
    (h.derived _ (hR.isDerived seeds)).owner ▸ hR.systemId_ne_splTokenId
  exact ⟨hfree _, hfree _⟩

/-- **They never come to hold any.** -/
theorem Tokenless.step (hR : R.Lawful) (h : exec R s l = some (s', log))
    (hmarker : Alone R (executedSeeds id) (writesOf R ⟨s, l, log, s'⟩))
    (hrecord : Alone R (sentSeeds id) (writesOf R ⟨s, l, log, s'⟩)) (hs : Tokenless R s id) :
    Tokenless R s' id := by
  constructor
  · by_cases hmem : executedSeeds id ∈ writesOf R ⟨s, l, log, s'⟩
    · have hmarked : Marked R s' (executedSeeds id) := by
        rcases settled_of_executedSeeds_mem h hmem with
          ⟨clock, accounts, a, x, cfg, asset, localAmount, -, C⟩ |
          ⟨clock, accounts, a, x, cfg, -, C⟩
        · obtain ⟨s₁, hs₁, hs₂⟩ := C.steps
          exact (marked_of_createMarker hR hs₁ C.executed_key).2.wrote (wrote_of_splTransfer hR hs₂)
        · exact (marked_of_createMarker hR C.step C.executed_key).2
      exact hmarked.owner ▸ hR.programId_ne_splTokenId
    · exact (same_of_exec hR h hmarker hs.marker hmem).owner ▸ hs.marker
  · rcases sentAccount_step hR (e := ⟨s, l, log, s'⟩) h hrecord hs.record with
      hsame | ⟨a, x, asset, hsent⟩ | href
    · exact hsame.owner ▸ hs.record
    · exact (hsent.written hR).2.1 ▸ hR.programId_ne_splTokenId
    · obtain ⟨clock, accounts, a, x, cfg, asset, sent, -, F⟩ := refunds_of_mem h href
      exact (F.zeroed hR).1 ▸ hR.programId_ne_splTokenId

/-! ### The chain id of the config -/

/-- The chain id that an instruction sets up. -/
def Instruction.ChainIdIs (chainId : U64) : Instruction → Prop
  | .init a => a.chainId = chainId
  | _ => True

/-- The chain id that a step sets up. -/
def Label.ChainIdIs (chainId : U64) : Label → Prop
  | .instruction _ _ ix => ix.ChainIdIs chainId
  | .others _ => True

variable (R) in
/-- Whatever config there is has a chain id. -/
structure OnChain (chainId : U64) (s : Accounts) : Prop where
  kept : Kept R s
  chainId : ∀ cfg, HasConfig R s cfg → cfg.chainId = chainId

theorem edit_chainId (cfg : Config) (ix : Instruction) : (ix.edit cfg).chainId = cfg.chainId := by
  cases ix with
  | setValidator validator active =>
    rw [Instruction.edit]
    split_ifs <;> rfl
  | registerCorridor chainIdTo =>
    rw [Instruction.edit]
    split_ifs <;> rfl
  | _ => rfl

theorem onChain_of_deployed (hR : R.Lawful) (h : Deployed R s) (chainId : U64) :
    OnChain R chainId s := by
  have hfree := (h.derived _ (hR.isDerived configSeeds)).owner
  have hnot : (s (configKey R)).owner ≠ R.programId := fun howner =>
    hR.programId_ne_systemId (howner.symm.trans hfree)
  exact ⟨⟨hfree ▸ hR.systemId_ne_splTokenId, fun howner => absurd howner hnot⟩,
    fun cfg hcfg => absurd hcfg.owner hnot⟩

/-- **A config keeps its chain id.** -/
theorem OnChain.step (hR : R.Lawful) {chainId : U64} (h : exec R s l = some (s', log))
    (halone : Alone R configSeeds (writesOf R ⟨s, l, log, s'⟩)) (hl : l.ChainIdIs chainId)
    (hs : OnChain R chainId s) : OnChain R chainId s' := by
  refine ⟨kept_step hR hs.kept h halone, fun cfg' hcfg' => ?_⟩
  cases l with
  | others want =>
    simp only [exec, Option.some.injEq, Prod.mk.injEq] at h
    obtain ⟨rfl, -⟩ := h
    have hsame := same_of_others (s := s) hR want
    exact hs.chainId cfg' (hcfg'.same ⟨hsame.owner.symm, hsame.data.symm⟩)
  | instruction clock accounts ix =>
    have he := exec_instruction h
    cases configStep_of_processInstruction hR hs.kept he halone with
    | same hsame _ => exact hs.chainId cfg' (hcfg'.same ⟨hsame.owner.symm, hsame.data.symm⟩)
    | made hix hwithin hholding _ =>
      obtain ⟨a, rfl⟩ := hix
      obtain ⟨x, now, -, -, hwithin', hholding', -⟩ := made_of_processInit hR (quiet_eq_ok.mp he).1
      obtain rfl := hcfg'.unique (hholding'.hasConfig hwithin')
      exact hl
    | edited hcfg hholding hwithin =>
      obtain rfl := hcfg'.unique
        (hholding.hasConfig (hwithin (hs.kept.laid_of hcfg).within))
      rw [edit_chainId]
      exact hs.chainId _ hcfg

/-- What is loaded is what there is. -/
theorem hasConfig_of_configOf {cfg : Config} (h : configOf R s = some cfg) : HasConfig R s cfg := by
  rw [configOf, toOption_eq_some] at h
  exact (configured_of_loadConfig h).hasConfig

end Solana

end SelendraBridge
