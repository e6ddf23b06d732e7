import SelendraBridge.Solana.Cluster

/-!
# One outcome for a submission on Solana

A claim and a cancellation mark an id in one and the same account, a refund in another,
and both only when there is no mark yet. A mark is an account that the program has and
that is not empty, and no step takes that away – the program never gives an account up or
shortens one, and nobody else touches what is the program's. So every id is claimed or
cancelled at most once and refunded at most once, whatever accounts the instructions were
handed (`SelendraBridge.Solana.one_outcome`).

What a refund pays is read from the account of the id's sent record. That account is
written by nothing but the send of that id and its refund, once the addresses of the
accounts that the run writes are told apart; so the record is the one the send left.
-/

namespace SelendraBridge

namespace Solana

open Revert Transition

/-- The ids that a step claimed or cancelled. -/
def Log.settled : Log → Option Bytes32
  | .claimed id => some id
  | .cancelled id _ _ _ => some id
  | _ => none

/-- The ids that a step refunded. -/
def Log.refundedId : Log → Option Bytes32
  | .refunded id _ _ _ => some id
  | _ => none

/-- The ids that a run claimed or cancelled, in order. -/
def settlements (tr : List Step) : List Bytes32 := tr.flatMap fun e => e.out.filterMap Log.settled

/-- The ids that a run refunded, in order. -/
def refunds (tr : List Step) : List Bytes32 := tr.flatMap fun e => e.out.filterMap Log.refundedId

variable (R : Runtime)

/-- The account of some seeds is made. -/
structure Marked (s : Accounts) (seeds : List Bytes) : Prop where
  owner : (s (R.findProgramAddress seeds)).owner = R.programId
  data : (s (R.findProgramAddress seeds)).data ≠ []

/-- **A send in a run.** -/
def Sent (e : Step) (a : SendArgs) (x : SendAccounts) (asset : AssetConfig) (id : Bytes32) : Prop :=
  ∃ clock accounts cfg wire, e.label = .instruction clock accounts (.send a) ∧
    SendAccounts.next accounts = .ok x ∧ Sends R clock e.pre a x cfg asset wire id e.post e.out

/-- **What a refund pays**: out of the vault registered for the asset, to an account,
exactly an amount; the token accounts say so before and after. -/
structure Pays (e : Step) (debridgeId : Bytes32) (target : Pubkey) (amount : U64) : Prop where
  vault : ∃ ai asset authority, Registered R e.pre debridgeId ai asset ∧
    .splTransfer asset.vault target authority amount ∈ e.out ∧
    (asset.vault ≠ target → ∃ t t' u u',
      R.unpackTokenAccount (e.pre asset.vault).data = some t ∧
      R.unpackTokenAccount (e.post asset.vault).data = some t' ∧
      R.unpackTokenAccount (e.pre target).data = some u ∧
      R.unpackTokenAccount (e.post target).data = some u' ∧
      t'.amount.toNat + amount.toNat = t.amount.toNat ∧
      u'.amount.toNat = u.amount.toNat + amount.toNat)

variable {R} {s₀ s s' : Accounts} {l : Label} {log : List Log} {tr : List Step}
  {accounts : List AccountInfo}

/-! ### Marks -/

/-- What the program has it keeps, whatever happens. -/
theorem kept_of_exec (hR : R.Lawful) (h : exec R s l = some (s', log)) {k : Pubkey}
    (hk : (s k).owner = R.programId) :
    (s' k).owner = R.programId ∧ (s k).data.length ≤ (s' k).data.length := by
  cases l with
  | instruction clock accounts ix =>
    exact (wrote_of_processInstruction hR (exec_instruction h)).kept k hk
  | others want =>
    simp only [exec, Option.some.injEq, Prod.mk.injEq] at h
    obtain ⟨rfl, -⟩ := h
    rw [others, if_pos (Or.inr hk)]
    exact ⟨hk, le_rfl⟩

/-- An account that is kept keeps its mark. -/
theorem Marked.of_kept {seeds : List Bytes} (hm : Marked R s seeds)
    (h : (s' (R.findProgramAddress seeds)).owner = R.programId ∧
      (s (R.findProgramAddress seeds)).data.length ≤ (s' (R.findProgramAddress seeds)).data.length) :
    Marked R s' seeds := by
  refine ⟨h.1, fun hnil => hm.data ?_⟩
  have hl := h.2
  rw [hnil, List.length_nil, Nat.le_zero, List.length_eq_zero_iff] at hl
  exact hl

theorem Marked.wrote {keys : List Pubkey} {seeds : List Bytes} (hm : Marked R s seeds)
    (h : Wrote R keys s s') : Marked R s' seeds := hm.of_kept (h.kept _ hm.owner)

theorem marked_of_exec (hR : R.Lawful) (h : exec R s l = some (s', log)) {seeds : List Bytes}
    (hm : Marked R s seeds) : Marked R s' seeds := hm.of_kept (kept_of_exec hR h hm.owner)

/-- A marker that was just created marks what was not marked. -/
theorem marked_of_createMarker (hR : R.Lawful) {payer marker : AccountInfo} {state : UInt8}
    {seeds : List Bytes} (h : createMarker R s payer marker state = .ok s')
    (hkey : marker.key = R.findProgramAddress seeds) : ¬Marked R s seeds ∧ Marked R s' seeds := by
  have ht := took_of_createMarker hR h
  rw [hkey] at ht
  exact ⟨fun hm => hm.data ht.free.data, ht.owner, by simp [ht.data_eq]⟩

/-- Lines that name no id name none that was settled or refunded. -/
theorem filterMap_eq_nil {f : Log → Option Bytes32} (hf : ∀ line, line.id = none → f line = none)
    (h : ∀ line ∈ log, line.id = none) : log.filterMap f = [] :=
  List.filterMap_eq_nil_iff.mpr fun line hline => hf line (h line hline)

/-- **A claim or a cancellation marks an id** that had no mark, one case for each move. -/
theorem settled_of_exec (hR : R.Lawful) (h : exec R s l = some (s', log)) :
    log.filterMap Log.settled = [] ∨ ∃ id, log.filterMap Log.settled = [id] ∧
      ¬Marked R s (executedSeeds id) ∧ Marked R s' (executedSeeds id) := by
  cases moves_of_exec h with
  | send label next S => exact .inl (by rw [S.log]; rfl)
  | claim label next C =>
    obtain ⟨s₁, hs₁, hs₂⟩ := C.steps
    obtain ⟨hnew, hnow⟩ := marked_of_createMarker hR hs₁ C.executed_key
    exact .inr ⟨_, by rw [C.log]; rfl, hnew, hnow.wrote (wrote_of_splTransfer hR hs₂)⟩
  | cancel label next C =>
    exact .inr ⟨_, by rw [C.log]; rfl, marked_of_createMarker hR C.step C.executed_key⟩
  | refund label next F => exact .inl (by rw [F.log]; rfl)
  | quiet hlog =>
    refine .inl (filterMap_eq_nil (fun line hline => ?_) hlog)
    cases line <;> simp_all [Log.id, Log.settled]

/-- **A refund marks an id** that had no such mark. -/
theorem refunded_of_exec (hR : R.Lawful) (h : exec R s l = some (s', log)) :
    log.filterMap Log.refundedId = [] ∨ ∃ id, log.filterMap Log.refundedId = [id] ∧
      ¬Marked R s (refundedSeeds id) ∧ Marked R s' (refundedSeeds id) := by
  cases moves_of_exec h with
  | send label next S => exact .inl (by rw [S.log]; rfl)
  | claim label next C => exact .inl (by rw [C.log]; rfl)
  | cancel label next C => exact .inl (by rw [C.log]; rfl)
  | refund label next F =>
    obtain ⟨s₁, s₂, hs₁, hs₂, hs₃⟩ := F.steps
    obtain ⟨hnew, hnow⟩ := marked_of_createMarker hR hs₁ F.refunded_key
    refine .inr ⟨_, by rw [F.log]; rfl, hnew, ?_⟩
    exact (hnow.wrote (wrote_of_writeData hs₂ (by simp))).wrote (wrote_of_splTransfer hR hs₃)
  | quiet hlog =>
    refine .inl (filterMap_eq_nil (fun line hline => ?_) hlog)
    cases line <;> simp_all [Log.id, Log.refundedId]

theorem nodup_settlements (hR : R.Lawful) (hrun : Run (exec R) s₀ tr s) :
    (settlements tr).Nodup := by
  have hkeep : ∀ s l s' log id, exec R s l = some (s', log) → Marked R s (executedSeeds id) →
      Marked R s' (executedSeeds id) := fun _ _ _ _ _ h => marked_of_exec hR h
  exact (hrun.nodup_of_marks hkeep fun _ _ _ _ h => settled_of_exec hR h).1

/-- What a run refunded is refunded once, and marked. -/
theorem nodup_refunds (hR : R.Lawful) (hrun : Run (exec R) s₀ tr s) :
    (refunds tr).Nodup ∧ ∀ id ∈ refunds tr, Marked R s (refundedSeeds id) := by
  have hkeep : ∀ s l s' log id, exec R s l = some (s', log) → Marked R s (refundedSeeds id) →
      Marked R s' (refundedSeeds id) := fun _ _ _ _ _ h => marked_of_exec hR h
  exact hrun.nodup_of_marks hkeep fun _ _ _ _ h => refunded_of_exec hR h

/-! ### Records -/

/-- The account of a sent record is none of the others that are written. -/
theorem sentSeeds_ne (id : Bytes32) : sentSeeds id ≠ configSeeds ∧
    (∀ d, sentSeeds id ≠ assetSeeds d) ∧ (∀ i, sentSeeds id ≠ executedSeeds i) ∧
    (∀ i, sentSeeds id ≠ refundedSeeds i) ∧ (∀ i, sentSeeds id ≠ govSeeds i) ∧
    ∀ v, sentSeeds id ≠ vaultSeeds v := by
  have h₁ : ascii "sent" ≠ ascii "asset" := by decide
  have h₂ : ascii "sent" ≠ ascii "executed" := by decide
  have h₃ : ascii "sent" ≠ ascii "refunded" := by decide
  have h₄ : ascii "sent" ≠ ascii "gov" := by decide
  have h₅ : ascii "sent" ≠ ascii "vault" := by decide
  simp [sentSeeds, configSeeds, assetSeeds, executedSeeds, refundedSeeds, govSeeds, vaultSeeds, h₁,
    h₂, h₃, h₄, h₅]

theorem sentSeeds_inj {i j : Bytes32} : sentSeeds i = sentSeeds j ↔ i = j := by
  simp [sentSeeds]

theorem mem_map_id {id : Bytes32} (h : id ∈ log.filterMap Log.id) : some id ∈ log.map Log.id := by
  obtain ⟨line, hline, hid⟩ := List.mem_filterMap.mp h
  exact List.mem_map.mpr ⟨line, hline, hid⟩

/-- **The sent record of an id is written by what names the id.** -/
theorem id_of_sentSeeds_mem {id : Bytes32} {ix : Instruction}
    (h : sentSeeds id ∈ ix.writes R accounts log) : some id ∈ log.map Log.id := by
  obtain ⟨hc, ha, he, hr, hg, hv⟩ := sentSeeds_ne id
  cases ix with
  | send a =>
    rcases List.mem_cons.mp h with h | h
    · exact absurd h hc
    · obtain ⟨i, hi, heq⟩ := List.mem_map.mp h
      obtain rfl := sentSeeds_inj.mp heq
      exact mem_map_id hi
  | refund a =>
    obtain ⟨i, hi, h⟩ := List.mem_flatMap.mp h
    rcases List.mem_cons.mp h with h | h
    · exact absurd h (hr i)
    · obtain rfl := sentSeeds_inj.mp (List.mem_singleton.mp h)
      exact mem_map_id hi
  | claim a =>
    obtain ⟨i, -, heq⟩ := List.mem_map.mp h
    exact absurd heq.symm (he i)
  | cancel a =>
    obtain ⟨i, -, heq⟩ := List.mem_map.mp h
    exact absurd heq.symm (he i)
  | scheduleAction action =>
    obtain ⟨i, -, heq⟩ := List.mem_map.mp h
    exact absurd heq.symm (hg i)
  | registerAsset debridgeId bridgeDecimals =>
    rcases List.mem_cons.mp h with h | h
    · exact absurd h (ha _)
    · unfold registerSeeds at h
      split at h
      · simp [hv, hg] at h
      · simp at h
  | _ => simp [Instruction.writes, hc, hg] at h

variable (R) in
/-- What the account of an id's sent record says, after a run: it is the program's only if
the id was sent, and then holds what that send recorded, unless the id was refunded. -/
def Recorded (tr : List Step) (s : Accounts) (id : Bytes32) : Prop :=
  (s (R.findProgramAddress (sentSeeds id))).owner ≠ R.splTokenId ∧
    ((s (R.findProgramAddress (sentSeeds id))).owner = R.programId →
      ∃ e ∈ tr, ∃ a x asset, Sent R e a x asset id ∧ (id ∈ refunds tr ∨
        ∃ lockedAt, (s (R.findProgramAddress (sentSeeds id))).data = sentCodec.put
          ⟨a.debridgeId, x.payer.key, x.userToken.key, asset.mint, a.amount, lockedAt⟩))

/-- A step that leaves the account alone leaves what it says alone. -/
theorem Recorded.same {id : Bytes32} {e : Step} (h : Recorded R tr s id)
    (hs : (s (R.findProgramAddress (sentSeeds id))).Same
      (s' (R.findProgramAddress (sentSeeds id)))) : Recorded R (tr ++ [e]) s' id := by
  refine ⟨hs.owner ▸ h.1, fun howner => ?_⟩
  obtain ⟨e₀, he₀, a, x, asset, hsent, hdata⟩ := h.2 (hs.owner ▸ howner)
  refine ⟨e₀, List.mem_append_left _ he₀, a, x, asset, hsent, ?_⟩
  rcases hdata with href | ⟨lockedAt, hdata⟩
  · left
    rw [refunds, List.flatMap_append]
    exact List.mem_append_left _ href
  · exact .inr ⟨lockedAt, hs.data.trans hdata⟩

/-- What a step that refunded an id did. -/
theorem refunds_of_mem {e : Step} (he : exec R e.pre e.label = some (e.post, e.out)) {id : Bytes32}
    (hid : id ∈ refunds [e]) : ∃ clock accounts a x cfg asset sent,
      e.label = .instruction clock accounts (.refund a) ∧
        Refunds R e.pre a x cfg asset sent id e.post e.out := by
  rw [refunds, List.flatMap_singleton] at hid
  cases moves_of_exec he with
  | send label next S => exact absurd hid (by rw [S.log]; simp [Log.refundedId])
  | claim label next C => exact absurd hid (by rw [C.log]; simp [Log.refundedId])
  | cancel label next C => exact absurd hid (by rw [C.log]; simp [Log.refundedId])
  | quiet hlog =>
    have hnil : e.out.filterMap Log.refundedId = [] := by
      refine filterMap_eq_nil (fun line hline => ?_) hlog
      cases line <;> simp_all [Log.id, Log.refundedId]
    exact absurd (hnil ▸ hid) (List.not_mem_nil)
  | @refund _ _ _ x _ _ sent i label next F =>
    have hlog : e.out.filterMap Log.refundedId = [i] := by rw [F.log]; rfl
    obtain rfl := List.mem_singleton.mp (hlog ▸ hid)
    exact ⟨_, _, _, _, _, _, _, label, F⟩

/-- **What can become of the account of a record** in a step: nothing, a send of its id, or a
refund of it. -/
theorem sentAccount_step (hR : R.Lawful) {e : Step}
    (he : exec R e.pre e.label = some (e.post, e.out)) {id : Bytes32}
    (hinj : ∀ sd ∈ writesOf R e,
      R.findProgramAddress sd = R.findProgramAddress (sentSeeds id) → sd = sentSeeds id)
    (howner : (e.pre (R.findProgramAddress (sentSeeds id))).owner ≠ R.splTokenId) :
    (e.pre (R.findProgramAddress (sentSeeds id))).Same
        (e.post (R.findProgramAddress (sentSeeds id))) ∨
      (∃ a x asset, Sent R e a x asset id) ∨ id ∈ refunds [e] := by
  obtain ⟨pre, label, out, post⟩ := e
  dsimp only at he hinj howner ⊢
  cases label with
  | others want =>
    left
    simp only [exec, Option.some.injEq, Prod.mk.injEq] at he
    obtain ⟨rfl, -⟩ := he
    have hd := hR.isDerived (sentSeeds id)
    simp only [others, hd, true_or, if_true]
    exact ⟨rfl, rfl⟩
  | instruction clock accounts ix =>
    by_cases hmem : sentSeeds id ∈ ix.writes R accounts out
    · have hid := id_of_sentSeeds_mem hmem
      right
      cases moves_of_exec he with
      | send label next S =>
        rw [S.log, List.map_cons, List.map_singleton] at hid
        obtain rfl : id = _ := by simpa [Log.id] using hid
        exact .inl ⟨_, _, _, _, _, _, _, label, next, S⟩
      | refund label next F =>
        right
        rw [F.log, List.map_cons, List.map_singleton] at hid
        obtain rfl : id = _ := by simpa [Log.id] using hid
        rw [refunds, List.flatMap_singleton]
        show _ ∈ out.filterMap _
        rw [F.log]
        exact List.mem_singleton_self _
      | claim label next C =>
        obtain ⟨rfl, rfl, rfl⟩ := Label.instruction.inj label
        obtain ⟨i, -, heq⟩ := List.mem_map.mp hmem
        exact absurd heq.symm ((sentSeeds_ne id).2.2.1 i)
      | cancel label next C =>
        obtain ⟨rfl, rfl, rfl⟩ := Label.instruction.inj label
        obtain ⟨i, -, heq⟩ := List.mem_map.mp hmem
        exact absurd heq.symm ((sentSeeds_ne id).2.2.1 i)
      | quiet hlog =>
        obtain ⟨line, hline, hi⟩ := List.mem_map.mp hid
        exact absurd (hlog line hline) (by simp [hi])
    · left
      have hnot : R.findProgramAddress (sentSeeds id) ∉
          (ix.writes R accounts out).map R.findProgramAddress := by
        intro hk
        obtain ⟨sd, hsd, heq⟩ := List.mem_map.mp hk
        exact hmem (hinj sd hsd heq ▸ hsd)
      exact (wrote_of_processInstruction hR (exec_instruction he)).same _ howner hnot

/-- What a send leaves in the account of its record, which was free. -/
theorem Sent.written (hR : R.Lawful) {e : Step} {a : SendArgs} {x : SendAccounts}
    {asset : AssetConfig} {id : Bytes32} (h : Sent R e a x asset id) :
    (e.pre (R.findProgramAddress (sentSeeds id))).owner ≠ R.programId ∧
    (e.post (R.findProgramAddress (sentSeeds id))).owner = R.programId ∧
    ∃ lockedAt, (e.post (R.findProgramAddress (sentSeeds id))).data = sentCodec.put
      ⟨a.debridgeId, x.payer.key, x.userToken.key, asset.mint, a.amount, lockedAt⟩ := by
  obtain ⟨clock, accounts, cfg, wire, -, -, S⟩ := h
  obtain ⟨bumped, s₁, s₂, lockedAt, -, hs₁, hs₂, hs₃⟩ := S.steps
  have ht := took_of_createSentRecord hR hs₂
  rw [S.sent_key] at ht
  have hs := (wrote_of_splTransfer hR hs₃).same _ (ht.owner ▸ hR.programId_ne_splTokenId)
    (List.not_mem_nil)
  refine ⟨fun howner => ?_, hs.owner.trans ht.owner, lockedAt, hs.data.trans ht.data_eq⟩
  -- what the program has it would have kept while the nonce was written
  have hkept := ((wrote_of_store hs₁).kept _ howner).1
  exact hR.programId_ne_systemId (hkept.symm.trans ht.free.owner)

/-- **What a step leaves of a record**: a send writes it, a refund retires it, and no other
step touches it. -/
theorem recorded_step (hR : R.Lawful) {e : Step}
    (he : exec R e.pre e.label = some (e.post, e.out)) {id : Bytes32}
    (hinj : ∀ sd ∈ writesOf R e,
      R.findProgramAddress sd = R.findProgramAddress (sentSeeds id) → sd = sentSeeds id)
    (h : Recorded R tr e.pre id) : Recorded R (tr ++ [e]) e.post id := by
  rcases sentAccount_step hR he hinj h.1 with hs | ⟨a, x, asset, hsent⟩ | href
  · exact h.same hs
  · obtain ⟨-, howner, lockedAt, hdata⟩ := hsent.written hR
    refine ⟨howner ▸ hR.programId_ne_splTokenId, fun _ => ?_⟩
    exact ⟨e, List.mem_append_right _ (List.mem_singleton_self _), a, x, asset, hsent,
      .inr ⟨lockedAt, hdata⟩⟩
  · obtain ⟨clock, accounts, a, x, cfg, asset, sent, -, F⟩ := refunds_of_mem he href
    have howner := F.sent_key ▸ F.sent_owner
    obtain ⟨e₀, he₀, b, y, asset₀, hsent, -⟩ := h.2 howner
    refine ⟨?_, fun _ => ⟨e₀, List.mem_append_left _ he₀, b, y, asset₀, hsent, .inl ?_⟩⟩
    · rw [(kept_of_exec hR he howner).1]
      exact hR.programId_ne_splTokenId
    · rw [refunds, List.flatMap_append]
      exact List.mem_append_right _ href

/-- **A refund pays what its record says.** -/
theorem Refunds.pays (hR : R.Lawful) {e : Step} {a : RefundArgs} {x : RefundAccounts}
    {cfg : Config} {asset : AssetConfig} {sent : SentRecord} {id : Bytes32}
    (F : Refunds R e.pre a x cfg asset sent id e.post e.out) :
    Pays R e sent.debridgeId sent.sourceToken sent.amount := by
  obtain ⟨s₁, s₂, hs₁, hs₂, hs₃⟩ := F.steps
  obtain ⟨-, -, -, hmoved⟩ := hR.splTransfer hs₃
  have ht := took_of_createMarker hR hs₁
  obtain ⟨-, -, rfl⟩ := writeData_eq_ok.mp hs₂
  -- Neither the marker nor the record is a token account.
  have hdata : ∀ k, (e.pre k).owner = R.splTokenId →
      (Function.update s₁ x.sent.key { s₁ x.sent.key with
        data := List.replicate (s₁ x.sent.key).data.length 0 } k).data = (e.pre k).data := by
    intro k hk
    have hmarker : k ≠ x.refunded.key := by
      rintro rfl
      exact hR.systemId_ne_splTokenId (ht.free.owner.symm.trans hk)
    have hrecord : k ≠ x.sent.key := by
      rintro rfl
      exact hR.programId_ne_splTokenId (F.sent_owner.symm.trans hk)
    rw [Function.update_of_ne hrecord]
    exact (ht.other k hmarker).data
  have hv := hdata _ F.bound.vault_owner
  have hc := hdata _ F.bound.counterpart_owner
  rw [F.source_eq] at hmoved hc
  rw [F.bound.vault_eq] at hmoved hv
  refine ⟨x.asset, asset, x.vaultAuthority.key, F.debridgeId_eq ▸ F.registered, ?_, fun hne => ?_⟩
  · rw [F.log, ← F.source_eq, ← F.bound.vault_eq]
    exact List.mem_cons_self
  · obtain ⟨t, t', ht, ht', -, hlost⟩ := hmoved.lost hne
    obtain ⟨u, u', hu, hu', -, hgained⟩ := hmoved.gained hne
    exact ⟨t, t', u, u', hv ▸ ht, ht', hc ▸ hu, hu', hlost, hgained⟩

/-- What the account of an id's sent record says after a run, once the addresses of the
accounts that the run wrote are told apart from it. -/
theorem recorded_run (hR : R.Lawful) (h₀ : Deployed R s₀) (hrun : Run (exec R) s₀ tr s)
    {id : Bytes32} (hinj : ∀ sd ∈ tr.flatMap (writesOf R),
      R.findProgramAddress sd = R.findProgramAddress (sentSeeds id) → sd = sentSeeds id) :
    Recorded R tr s id := by
  induction hrun with
  | nil =>
    have hfree := h₀.derived _ (hR.isDerived (sentSeeds id))
    refine ⟨hfree.owner ▸ hR.systemId_ne_splTokenId, fun howner => ?_⟩
    exact absurd (howner.symm.trans hfree.owner) hR.programId_ne_systemId
  | snoc _ he ih =>
    rw [List.flatMap_append] at hinj
    refine recorded_step hR (e := ⟨_, _, _, _⟩) he (fun sd hsd => ?_)
      (ih fun sd hsd => hinj sd (List.mem_append_left _ hsd))
    exact hinj sd (List.mem_append_right _ (by rwa [List.flatMap_singleton]))

/-- A refund writes the record of its id. -/
theorem Refunds.mem_writes {e : Step} {clock : Clock} {a : RefundArgs} {x : RefundAccounts}
    {cfg : Config} {asset : AssetConfig} {sent : SentRecord} {id : Bytes32}
    (F : Refunds R e.pre a x cfg asset sent id e.post e.out)
    (hl : e.label = .instruction clock accounts (.refund a)) : sentSeeds id ∈ writesOf R e := by
  rw [writesOf, hl]
  simp [Instruction.writes, F.log, Log.id]

/-- **A refund is of a send**, before it in the run, and pays what that send locked. -/
theorem sent_of_refund (hR : R.Lawful) (h₀ : Deployed R s₀) {tr₁ tr₂ : List Step} {e : Step}
    (hrun : Run (exec R) s₀ (tr₁ ++ e :: tr₂) s) {id : Bytes32} (hid : id ∈ refunds [e])
    (hinj : ∀ sd ∈ tr₁.flatMap (writesOf R),
      R.findProgramAddress sd = R.findProgramAddress (sentSeeds id) → sd = sentSeeds id) :
    ∃ e₀ ∈ tr₁, ∃ a x asset, Sent R e₀ a x asset id ∧
      Pays R e a.debridgeId x.userToken.key a.amount := by
  obtain ⟨hrun₁, he, -⟩ := hrun.split
  obtain ⟨clock, accounts, a, x, cfg, asset, sent, -, F⟩ := refunds_of_mem he hid
  obtain ⟨-, hrec⟩ := recorded_run hR h₀ hrun₁ hinj
  obtain ⟨e₀, he₀, b, y, asset₀, hsent, hdata⟩ := hrec (F.sent_key ▸ F.sent_owner)
  refine ⟨e₀, he₀, b, y, asset₀, hsent, ?_⟩
  rcases hdata with href | ⟨lockedAt, hdata⟩
  · -- It was refunded before: the marker would be there.
    obtain ⟨-, hmarked⟩ := nodup_refunds hR hrun₁
    obtain ⟨s₁, -, hs₁, -⟩ := F.steps
    exact absurd (hmarked _ href) (marked_of_createMarker hR hs₁ F.refunded_key).1
  · have heq := F.sent_eq
    rw [F.sent_key, hdata, decodeSentRecord_put] at heq
    obtain rfl := Except.ok.inj heq
    exact F.pays hR

/-- **One outcome for a submission on Solana**, in every run from the deployment, under any
accounts: an id is claimed or cancelled once at most, and refunded once at most; a refund
is of a send that went through before, and pays what that send recorded, to the account it
debited, out of the vault of the asset; and an instruction that fails changes nothing. -/
theorem one_outcome (hR : R.Lawful) (h₀ : Deployed R s₀) (hrun : Run (exec R) s₀ tr s)
    (hpda : ∀ x ∈ tr.flatMap (writesOf R), ∀ y ∈ tr.flatMap (writesOf R),
      R.findProgramAddress x = R.findProgramAddress y → x = y) :
    (settlements tr).Nodup ∧ (refunds tr).Nodup ∧
      (∀ tr₁ e tr₂ id, tr = tr₁ ++ e :: tr₂ → id ∈ refunds [e] →
        ∃ e₀ ∈ tr₁, ∃ a x asset, Sent R e₀ a x asset id ∧
          Pays R e a.debridgeId x.userToken.key a.amount) ∧
      ∀ clock s accounts ix err, processInstruction R clock s accounts ix = .error err →
        execute R clock s accounts ix = s := by
  refine ⟨nodup_settlements hR hrun, (nodup_refunds hR hrun).1, ?_, ?_⟩
  · rintro tr₁ e tr₂ id rfl hid
    obtain ⟨-, he, -⟩ := hrun.split
    obtain ⟨clock, accounts, a, x, cfg, asset, sent, hl, F⟩ := refunds_of_mem he hid
    have hmem : sentSeeds id ∈ (tr₁ ++ e :: tr₂).flatMap (writesOf R) :=
      List.mem_flatMap.mpr ⟨e, by simp, F.mem_writes hl⟩
    refine sent_of_refund hR h₀ hrun hid fun sd hsd => hpda sd ?_ _ hmem
    rw [List.flatMap_append]
    exact List.mem_append_left _ hsd
  · intro clock s accounts ix err herr
    rw [execute, herr]

/-- The gate is wired, a million units are sent, and refunded. -/
theorem one_outcome_refunded : ∃ tr s, Run (exec Cluster.runtime) Cluster.deployed tr s ∧
    refunds tr = [Cluster.transferId] ∧ (settlements tr).Nodup ∧ (refunds tr).Nodup ∧
    ∃ e ∈ tr, ∃ e₀ ∈ tr, ∃ a x asset, Sent Cluster.runtime e₀ a x asset Cluster.transferId ∧
      Pays Cluster.runtime e a.debridgeId x.userToken.key a.amount := by
  have hrun : Run (exec Cluster.runtime) Cluster.deployed
      (traceOf (exec Cluster.runtime) Cluster.deployed
        (Cluster.wiring ++ [Cluster.sending, Cluster.refunding])).1
      (traceOf (exec Cluster.runtime) Cluster.deployed
        (Cluster.wiring ++ [Cluster.sending, Cluster.refunding])).2 :=
    run_traceOf (by decide +kernel)
  have hrefunds : refunds (traceOf (exec Cluster.runtime) Cluster.deployed
      (Cluster.wiring ++ [Cluster.sending, Cluster.refunding])).1 = [Cluster.transferId] := by
    decide +kernel
  obtain ⟨hset, href, hpays, -⟩ := one_outcome Cluster.lawful Cluster.deployed_deployed hrun
    (by decide +kernel)
  obtain ⟨e, he, hid⟩ := List.mem_flatMap.mp
    (hrefunds.symm ▸ List.mem_singleton_self _ : Cluster.transferId ∈ refunds _)
  obtain ⟨tr₁, tr₂, htr⟩ := List.append_of_mem he
  obtain ⟨e₀, he₀, hsent⟩ := hpays tr₁ e tr₂ Cluster.transferId htr
    (by rwa [refunds, List.flatMap_singleton])
  exact ⟨_, _, hrun, hrefunds, hset, href, e, he, e₀, htr ▸ List.mem_append_left _ he₀, hsent⟩

end Solana

end SelendraBridge
