import SelendraBridge.Db.Poisoning
import SelendraBridge.Digest
import SelendraBridge.Validator.Nonces

/-!
# The signing cursor across pauses and crashes

Two cursors say how far a scanner has come: a block, moved when a window is done, and the
nonces, moved with every log. They are written to one file, by the end of a window – where
they agree – and by the operator's `pause_one` and `resume_one`, whenever these come. A file
written by the operator inside a window holds the block from before the window with nonces
from the middle of it. As long as the process lives this does not matter, for the end of the
window writes the file again; but a process that starts from such a file
(`SelendraBridge.Validator.Torn`) scans the window again, finds nonces it has accepted, and
pauses on an anomaly that never happened (`SelendraBridge.Validator.replay_read_as_duplicate`).

With no restart from such a file the cursor is sound
(`SelendraBridge.Validator.cursor_kept`): no nonce anomaly on a chain's true logs, and
everything up to a saved block is stored or was skipped on purpose. The second half needs no
condition at all (`SelendraBridge.Validator.covered_of_run`).
-/

namespace SelendraBridge

namespace Validator

open Store Transition

/-- The steps a run took. -/
abbrev Trace := List (Entry State Label (List Effect))

variable {cfg : Config} {chain : Chain} {startBlock : ℕ} {s s' : State} {l : Label}
  {o : List Effect} {tr : Trace}

/-! ### Settled events -/

/-- The store holds this validator's signature for an id. -/
def Held (cfg : Config) (store : List (SubmissionRecord × SignerSig)) (id : Bytes32) : Prop :=
  ∃ record, record.submissionId = hexText (wordBytes id) ∧ (record, signerSig cfg id) ∈ store

/-- `handle_log` skipped the event, for a reason it gave. -/
def Skipped (tr : Trace) (ev : SentEvent) : Prop := ∃ e ∈ tr, ∃ why, .skipped ev why ∈ e.out

/-- **The event is stored with this validator's signature, or was skipped on purpose.** -/
def Settled (cfg : Config) (tr : Trace) (s : State) (ev : SentEvent) : Prop :=
  Held cfg s.store ev.submissionId ∨ Skipped tr ev

/-- The record of an event is kept under its id. -/
theorem held_of_fromSentEvent {ev : SentEvent} {record : SubmissionRecord}
    {store : List (SubmissionRecord × SignerSig)}
    (hrec : fromSentEvent ev cfg.bridgeDomain = some record)
    (hmem : (record, signerSig cfg ev.submissionId) ∈ store) : Held cfg store ev.submissionId := by
  simp only [fromSentEvent, Option.bind_eq_bind, Option.bind_eq_some_iff, Option.pure_def,
    Option.some.injEq] at hrec
  obtain ⟨u, hu, rfl⟩ := hrec
  exact ⟨_, rfl, hmem⟩

/-- What is settled stays settled. -/
theorem Settled.step {ev : SentEvent} (hset : Settled cfg tr s ev)
    (h : Step cfg chain startBlock s l s' o) : Settled cfg (tr ++ [⟨s, l, o, s'⟩]) s' ev := by
  rcases hset with ⟨record, hid, hmem⟩ | ⟨e, he, hwhy⟩
  · exact .inl ⟨record, hid, h.mem_store hmem⟩
  · exact .inr ⟨e, List.mem_append_left _ he, hwhy⟩

/-- What a step skips is settled. -/
theorem settled_of_skipped {ev : SentEvent} {why : Skip} (h : .skipped ev why ∈ o) :
    Settled cfg (tr ++ [⟨s, l, o, s'⟩]) s' ev :=
  .inr ⟨_, List.mem_append_right _ List.mem_cons_self, why, h⟩

/-! ### Everything up to the cursor is settled -/

/-- The logs up to a cursor are settled. -/
structure SettledTo (cfg : Config) (chain : Chain) (startBlock : ℕ) (tr : Trace) (s : State)
    (p : Persist) : Prop where
  start_le : startBlock ≤ p.lastBlock + 1
  settled : ∀ ev ∈ chain.sentIn startBlock (p.lastBlock + 1), Settled cfg tr s ev

/-- **What a scanner has behind it**: everything up to its cursor and up to the one in the
file, what its batch has done and judged, and what its batch takes for stored. -/
structure Covered (cfg : Config) (chain : Chain) (startBlock : ℕ) (tr : Trace) (s : State) :
    Prop where
  cursor : SettledTo cfg chain startBlock tr s s.rt.persist
  file : ∀ p, s.rt.file = some p → SettledTo cfg chain startBlock tr s p
  known : ∀ id ∈ s.progress.stored, Held cfg s.store id
  done : ∀ ev, Done chain s ev → Settled cfg tr s ev
  judged : ∀ ev, Judged s ev → Settled cfg tr s ev

theorem SettledTo.step {p : Persist} (hset : SettledTo cfg chain startBlock tr s p)
    (h : Step cfg chain startBlock s l s' o) :
    SettledTo cfg chain startBlock (tr ++ [⟨s, l, o, s'⟩]) s' p :=
  ⟨hset.start_le, fun ev hev => (hset.settled ev hev).step h⟩

/-- A scanner that starts fresh has nothing behind it. -/
theorem settledTo_fresh (hgen : chain.Genuine cfg) :
    SettledTo cfg chain startBlock tr s (.fresh startBlock) := by
  refine ⟨by simp only [Persist.fresh]; omega, fun ev hev => ?_⟩
  obtain ⟨n, hlo, hhi, hn⟩ := Chain.mem_sentIn.mp hev
  have h0 : n = 0 := by
    simp only [Persist.fresh] at hhi
    omega
  rw [h0, hgen.genesis] at hn
  cases hn

/-- **Where a step leaves the cursor, everything before it is settled.** -/
theorem Covered.cursor_step (hcov : Covered cfg chain startBlock tr s)
    (h : Step cfg chain startBlock s l s' o) (hgen : chain.Genuine cfg)
    (hs : Shaped cfg chain s) (hcur : Current s) (hl : ¬l.IsRescan) :
    SettledTo cfg chain startBlock (tr ++ [⟨s, l, o, s'⟩]) s' s'.rt.persist := by
  by_cases hcrash : l = .crash
  · subst hcrash
    cases h with
    | crashed =>
      rcases hf : s.rt.file with _ | p
      · simpa [boot, loadOrInit, hf] using settledTo_fresh hgen
      · simpa [boot, loadOrInit, hf] using (hcov.file p hf).step .crashed
  · have hlast := h.lastBlock_cases hl hcrash
    rcases hlast with heq | ⟨b, disk, rfl, hphase, hlogs, heq⟩
    · have hstep := hcov.cursor.step h
      exact ⟨heq ▸ hstep.start_le, heq ▸ hstep.settled⟩
    · -- The window ends here: what came before it is settled, and so is all of it.
      have hfrom := hcur.batch hphase
      have hle := (hs.batch hphase).le
      have hstart := hcov.cursor.start_le
      refine ⟨by omega, fun ev hev => ?_⟩
      rw [heq, ← @Chain.sentIn_append chain _ b.fromBlock _ (by omega) (by omega),
        List.mem_append] at hev
      rcases hev with hev | hev
      · exact (hcov.cursor.settled ev (hfrom ▸ hev)).step h
      · obtain ⟨done, hdone⟩ := (hs.batch hphase).suffix
        rw [hdone, hlogs, List.append_nil] at hev
        exact (hcov.done ev ((done_of_eq_append hphase hdone).mpr hev)).step h

theorem Covered.step (hcov : Covered cfg chain startBlock tr s)
    (h : Step cfg chain startBlock s l s' o) (hgen : chain.Genuine cfg)
    (hs : Shaped cfg chain s) (hcur : Current s) (hl : ¬l.IsRescan) :
    Covered cfg chain startBlock (tr ++ [⟨s, l, o, s'⟩]) s' where
  cursor := hcov.cursor_step h hgen hs hcur hl
  file := by
    intro p hp
    rcases h.file_cases with ⟨hf, -⟩ | ⟨hf, -⟩
    · exact (hcov.file p (hf ▸ hp)).step h
    · obtain rfl := Option.some.inj (hf.symm.trans hp)
      exact hcov.cursor_step h hgen hs hcur hl
  known := by
    intro id hid
    rcases h.mem_stored_cases hs hid with hid | ⟨ev, record, rfl, hrec, hmem⟩
    · obtain ⟨record, hrec, hmem⟩ := hcov.known id hid
      exact ⟨record, hrec, h.mem_store hmem⟩
    · exact held_of_fromSentEvent hrec hmem
  done := by
    intro ev hdone
    rcases h.done_cases hs hdone with hdone | hjudged | ⟨-, hskip⟩
    · exact (hcov.done ev hdone).step h
    · exact (hcov.judged ev hjudged).step h
    · exact settled_of_skipped hskip
  judged := by
    intro ev hjudged
    rcases h.judged_cases hs hjudged with
      hjudged | ⟨-, ⟨why, hskip⟩ | hknown | ⟨record, hrec, hmem⟩⟩
    · exact (hcov.judged ev hjudged).step h
    · exact settled_of_skipped hskip
    · obtain ⟨record, hrec, hmem⟩ := hcov.known _ hknown
      exact .inl ⟨record, hrec, h.mem_store hmem⟩
    · exact .inl (held_of_fromSentEvent hrec hmem)

/-! ### Torn files -/

/-- A batch has accepted a nonce: the nonces are ahead of the block cursor. -/
def Ahead (s : State) : Prop :=
  ∃ b stage, s.phase = .batch b stage ∧ s.rt.persist.nonces ≠ b.noncesBefore

/-- The labels of the operator's pauses and resumes. -/
def Label.IsOperator (l : Label) : Prop := ∃ disk, l = .pauseOne disk ∨ l = .resumeOne disk

/-- A step saved the state. -/
def Saves (e : Entry State Label (List Effect)) : Prop := ∃ p, .saved p ∈ e.out

/-- **The file was last written by the operator, inside a window some of whose nonces were
accepted.** -/
def Torn (tr : Trace) : Prop :=
  ∃ tr₁ e tr₂, tr = tr₁ ++ e :: tr₂ ∧ e.label.IsOperator ∧ Saves e ∧ Ahead e.pre ∧
    ∀ e' ∈ tr₂, ¬Saves e'

/-- No process of the run started from such a file. -/
def CrashesWhole (tr : Trace) : Prop :=
  ∀ tr₁ e tr₂, tr = tr₁ ++ e :: tr₂ → e.label = .crash → ¬Torn tr₁

/-- A file stays torn until it is written again. -/
theorem Torn.append (h : Torn tr) {e : Entry State Label (List Effect)} (he : ¬Saves e) :
    Torn (tr ++ [e]) := by
  obtain ⟨tr₁, e₁, tr₂, rfl, hop, hsaves, hahead, hrest⟩ := h
  refine ⟨tr₁, e₁, tr₂ ++ [e], by simp, hop, hsaves, hahead, fun e' he' => ?_⟩
  rcases List.mem_append.mp he' with he' | he'
  · exact hrest e' he'
  · rwa [List.mem_singleton.mp he']

theorem CrashesWhole.of_append {tr' : Trace} (h : CrashesWhole (tr ++ tr')) : CrashesWhole tr :=
  fun tr₁ e tr₂ htr hcrash => h tr₁ e (tr₂ ++ tr') (by rw [htr]; simp) hcrash

/-- What holds of both cursors along a run: the loop's and the file's. -/
structure Sound (cfg : Config) (chain : Chain) (tr : Trace) (s : State) : Prop where
  shaped : Shaped cfg chain s
  current : Current s
  sequenced : Sequenced chain s
  file : ¬Torn tr → ∀ p, s.rt.file = some p → Follows chain p.nonces (p.lastBlock + 1)

/-- **What is saved follows the chain**, unless it is torn. -/
theorem Sound.follows_of_saved (hsound : Sound cfg chain tr s)
    (h : Step cfg chain startBlock s l s' o) (hgen : chain.Genuine cfg) (hl : ¬l.IsRescan)
    (hseq : Sequenced chain s') {p : Persist} (hp : .saved p ∈ o)
    (htorn : ¬(l.IsOperator ∧ Ahead s)) : Follows chain p.nonces (p.lastBlock + 1) := by
  -- Where the loop stands before a pause or a resume that does not tear the file.
  have hhere : l.IsOperator → Follows chain s.rt.persist.nonces (s.rt.persist.lastBlock + 1) := by
    intro hop
    have hseq₀ := hsound.sequenced
    rcases hphase : s.phase with _ | _ | n | ⟨b, stage⟩
    · rwa [Sequenced, hphase] at hseq₀
    · rwa [Sequenced, hphase] at hseq₀
    · rw [Sequenced, hphase] at hseq₀
      exact hseq₀.1
    · have heq : s.rt.persist.nonces = b.noncesBefore := by
        by_contra hne
        exact htorn ⟨hop, b, stage, hphase, hne⟩
      rw [heq, ← hsound.current.batch hphase]
      exact (hseq₀.batch hphase).1
  obtain rfl := h.saved_eq hp
  cases h with
  | anomaly hphase hlogs hrec hcheck =>
    exact absurd (checkNonce_of_sequenced hgen hsound.sequenced hphase hlogs hrec) hcheck
  | mismatch hphase hlogs hauto hne =>
    obtain ⟨n, hn⟩ := (hsound.shaped.batch hphase).mem_logsAt (hlogs ▸ List.mem_cons_self)
    exact absurd (hgen.id_eq n _ hn _ hauto) hne
  | rolledBack | finished => exact hseq
  | paused => simpa using hhere ⟨_, .inl rfl⟩
  | resumed => simpa using hhere ⟨_, .inr rfl⟩
  | rescanned => exact absurd ⟨_, _, rfl⟩ hl
  | _ => simp at hp

theorem Sound.step (hsound : Sound cfg chain tr s) (h : Step cfg chain startBlock s l s' o)
    (hgen : chain.Genuine cfg) (hl : ¬l.IsRescan) (hcrash : l = .crash → ¬Torn tr) :
    Sound cfg chain (tr ++ [⟨s, l, o, s'⟩]) s' := by
  have hseq : Sequenced chain s' :=
    h.sequenced hgen hsound.shaped hsound.sequenced (fun _ _ _ _ => hsound.current)
      fun hc => hsound.file (hcrash hc)
  refine ⟨h.shaped hsound.shaped, h.current hl hsound.current, hseq, fun htorn p hp => ?_⟩
  rcases h.file_cases with ⟨hf, hno⟩ | ⟨hf, hiff⟩
  · -- Nothing was written: the file is as torn as it was.
    have hnot : ¬Torn tr := fun ht => htorn (ht.append fun ⟨p, hp⟩ => hno p hp)
    exact hsound.file hnot p (hf ▸ hp)
  · obtain rfl := Option.some.inj (hf.symm.trans hp)
    have hsaved : Effect.saved s'.rt.persist ∈ o := (hiff _).mpr rfl
    refine hsound.follows_of_saved h hgen hl hseq hsaved fun ⟨hop, hahead⟩ => htorn ?_
    exact ⟨tr, ⟨s, l, o, s'⟩, [], rfl, hop, ⟨_, hsaved⟩, hahead, fun _ he => by cases he⟩

/-! ### Runs -/

/-- A process that starts is at the top of its loop. -/
theorem sound_boot (store : List (SubmissionRecord × SignerSig)) :
    Sound cfg chain [] (boot cfg startBlock none store) where
  shaped := shaped_boot none store
  current := current_boot none store
  sequenced := sequenced_boot store
  file := fun _ _ hp => by cases hp

/-- **Both cursors are sound along a run** without rescans and without a restart from a torn
file. -/
theorem sound_of_run (hgen : chain.Genuine cfg) {store : List (SubmissionRecord × SignerSig)}
    (hrun : Run (exec cfg chain startBlock) (boot cfg startBlock none store) tr s)
    (hrescan : ∀ e ∈ tr, ¬e.label.IsRescan) (hcrash : CrashesWhole tr) :
    Sound cfg chain tr s := by
  refine hrun.rec_trace (P := fun tr s => (∀ e ∈ tr, ¬e.label.IsRescan) → CrashesWhole tr →
    Sound cfg chain tr s) (fun _ _ => sound_boot store) ?_ hrescan hcrash
  intro tr s l s' o _ ih hexec hrescan hcrash
  have hsound := ih (fun e he => hrescan e (List.mem_append_left _ he)) hcrash.of_append
  exact hsound.step (step_of_exec hexec) hgen
    (hrescan ⟨s, l, o, s'⟩ (List.mem_append_right _ List.mem_cons_self))
    fun hl => hcrash tr ⟨s, l, o, s'⟩ [] rfl hl

/-- **Everything behind the cursors is settled along a run** without rescans, however it was
interrupted. -/
theorem covered_of_run (hgen : chain.Genuine cfg) {store : List (SubmissionRecord × SignerSig)}
    (hrun : Run (exec cfg chain startBlock) (boot cfg startBlock none store) tr s)
    (hrescan : ∀ e ∈ tr, ¬e.label.IsRescan) :
    Shaped cfg chain s ∧ Current s ∧ Covered cfg chain startBlock tr s := by
  refine hrun.rec_trace (P := fun tr s => (∀ e ∈ tr, ¬e.label.IsRescan) →
    Shaped cfg chain s ∧ Current s ∧ Covered cfg chain startBlock tr s) ?_ ?_ hrescan
  · intro _
    refine ⟨shaped_boot none store, current_boot none store, settledTo_fresh hgen, ?_, ?_, ?_, ?_⟩
    · intro p hp
      cases hp
    · intro id hid
      cases hid
    · rintro ev ⟨b, stage, done, hphase, -, -⟩
      cases hphase
    · rintro ev ⟨b, record, rest, hphase, -⟩
      cases hphase
  · intro tr s l s' o _ ih hexec hrescan
    obtain ⟨hs, hcur, hcov⟩ := ih fun e he => hrescan e (List.mem_append_left _ he)
    have hl := hrescan ⟨s, l, o, s'⟩ (List.mem_append_right _ List.mem_cons_self)
    have hstep := step_of_exec hexec
    exact ⟨hstep.shaped hs, hstep.current hl hcur, hcov.step hstep hgen hs hcur hl⟩

/-- The two anomalies of the nonce check. -/
def PauseReason.isNonceAnomaly : PauseReason → Bool
  | .missedNonce .. | .duplicatedNonce .. => true
  | .operator | .idMismatch _ => false

/-- **A cursor that survives**: no nonce anomaly is raised, and every event up to the block
of a file that was ever saved is settled by then. -/
structure CursorKept (cfg : Config) (chain : Chain) (startBlock : ℕ) (tr : Trace) : Prop where
  noAnomaly : ∀ e ∈ tr, ∀ reason, .raised reason ∈ e.out → reason.isNonceAnomaly = false
  covered : ∀ tr₁ e tr₂ p, tr = tr₁ ++ e :: tr₂ → .saved p ∈ e.out →
    ∀ ev ∈ chain.sentIn startBlock (p.lastBlock + 1), Settled cfg (tr₁ ++ [e]) e.post ev

/-- **The signing cursor survives** pauses, failures and crashes, on a chain's true logs and
without rescans, as long as no process starts from a file that the operator's pause or
resume wrote inside a window already begun. -/
theorem cursor_kept (hgen : chain.Genuine cfg) {store : List (SubmissionRecord × SignerSig)}
    (hrun : Run (exec cfg chain startBlock) (boot cfg startBlock none store) tr s)
    (hrescan : ∀ e ∈ tr, ¬e.label.IsRescan) (hcrash : CrashesWhole tr) :
    CursorKept cfg chain startBlock tr := by
  refine ⟨fun e he reason hraised => ?_, fun tr₁ e tr₂ p htr hp ev hev => ?_⟩
  · obtain ⟨tr₁, tr₂, rfl⟩ := List.append_of_mem he
    obtain ⟨hrun₁, hexec, -⟩ := hrun.split
    have hsound := sound_of_run hgen hrun₁
      (fun e' he' => hrescan e' (List.mem_append_left _ he')) hcrash.of_append
    have hoperator := (step_of_exec hexec).raised_eq hgen hsound.shaped hsound.sequenced hraised
    rw [hoperator]
    rfl
  · subst htr
    obtain ⟨hrun₁, hexec, -⟩ := hrun.split
    have hrescan₁ : ∀ e' ∈ tr₁ ++ [e], ¬e'.label.IsRescan := by
      intro e' he'
      refine hrescan e' ?_
      rcases List.mem_append.mp he' with he' | he'
      · exact List.mem_append_left _ he'
      · exact List.mem_append_right _ (List.mem_singleton.mp he' ▸ List.mem_cons_self)
    obtain ⟨-, -, hcov⟩ := covered_of_run hgen (hrun₁.snoc hexec) hrescan₁
    rw [(step_of_exec hexec).saved_eq hp] at hev
    exact hcov.cursor.settled ev hev

/-! ### Two runs over one transfer -/

/-- A validator of the chain the transfer of `SelendraBridge.Db.emitted` is sent to. -/
def oneValidator : Config where
  keccak256 := digestOf
  parsers := .standard
  signer := hexText (addressBytes 0x7e5f4552091a69125d5dfcb7b8c2659029395bdf)
  sign := fun _ => hexText (signatureBytes
    0x4bbc4a7da0b489b76a923cb98bdac739cfab341d1ae1e64b30a1b543eeae17f6
    0x25d001c1c6ba658846a8b2f4a1455af5030fa187b0a1a39f0b3657a7c8641362 27)
  bridgeDomain := 0xd0
  peers := [2]

/-- The chain it is sent from: the transfer is in block 1, and nothing else ever. -/
def oneTransfer : Chain := .ofBlocks [[], [Db.emitted]]

theorem genuine_oneTransfer : oneTransfer.Genuine oneValidator := by
  refine Chain.genuine_ofBlocks rfl (Sequence.consecutive_singleton (by decide)) ?_
  intro ev hev auto hauto
  obtain rfl : ev = Db.emitted := by simpa using hev
  obtain rfl : none = auto := Option.some.inj hauto
  decide +kernel

/-- One window of block 1, up to the nonce of its transfer. -/
def scanOne : List Label :=
  [.wake, .readCursor, .openBatch 1 none, .checkLog true,
    .judgeLog ⟨some (some 6), true, .stored⟩ true, .acceptLog]

/-- A crash before the end of the window, which is then scanned again. -/
def crashAndReplay : List Label := scanOne ++ .crash :: scanOne ++ [.finish true]

theorem cursor_kept_crashAndReplay :
    CursorKept oneValidator oneTransfer 1
      (traceOf (exec oneValidator oneTransfer 1) (boot oneValidator 1 none [])
        crashAndReplay).1 := by
  have hsome : (runFrom (exec oneValidator oneTransfer 1) (boot oneValidator 1 none [])
      crashAndReplay).isSome = true := by decide +kernel
  have hlabels := label_traceOf hsome
  have hlabel : ∀ e ∈ (traceOf (exec oneValidator oneTransfer 1) (boot oneValidator 1 none [])
      crashAndReplay).1, e.label ∈ crashAndReplay :=
    fun e he => hlabels ▸ List.mem_map_of_mem he
  refine cursor_kept genuine_oneTransfer (run_traceOf hsome) ?_ ?_
  · rintro e he ⟨n, disk, hl⟩
    have hmem := hl ▸ hlabel e he
    simp [crashAndReplay, scanOne] at hmem
  · -- The operator never came: nothing can be torn.
    rintro tr₁ e tr₂ htr hcrash ⟨tr₃, e', tr₄, rfl, ⟨disk, hl⟩, -⟩
    have hmem := hlabel e' (by rw [htr]; simp)
    rcases hl with hl | hl <;> rw [hl] at hmem <;> simp [crashAndReplay, scanOne] at hmem

/-- The operator pauses inside the window, the process crashes, and the operator resumes. -/
def pauseAndCrash : List Label :=
  scanOne ++ [.pauseOne true, .crash, .resumeOne true, .wake, .readCursor, .openBatch 1 none,
    .checkLog true]

/-- **A replay read as a duplicate**: after a pause inside a window and a crash, the scanner
pauses on a nonce it had itself accepted, on a chain's true logs and without a rescan. -/
theorem replay_read_as_duplicate :
    oneTransfer.Genuine oneValidator ∧ ∃ tr s,
      Run (exec oneValidator oneTransfer 1) (boot oneValidator 1 none []) tr s ∧
        (∀ e ∈ tr, ¬e.label.IsRescan) ∧ ¬CursorKept oneValidator oneTransfer 1 tr := by
  have hsome : (runFrom (exec oneValidator oneTransfer 1) (boot oneValidator 1 none [])
      pauseAndCrash).isSome = true := by decide +kernel
  refine ⟨genuine_oneTransfer, _, _, run_traceOf hsome, ?_, fun hkept => ?_⟩
  · rintro e he ⟨n, disk, hl⟩
    have hmem : e.label ∈ pauseAndCrash := label_traceOf hsome ▸ List.mem_map_of_mem he
    rw [hl] at hmem
    simp [pauseAndCrash, scanOne] at hmem
  · have hraised : ((traceOf (exec oneValidator oneTransfer 1) (boot oneValidator 1 none [])
        pauseAndCrash).1.any fun e => e.out.any fun
          | .raised reason => reason.isNonceAnomaly
          | _ => false) = true := by decide +kernel
    obtain ⟨e, he, hany⟩ := List.any_eq_true.mp hraised
    obtain ⟨effect, heffect, hanomaly⟩ := List.any_eq_true.mp hany
    rcases effect with ev | ⟨ev, why⟩ | reason | p
    · cases hanomaly
    · cases hanomaly
    · have hnonce : reason.isNonceAnomaly = true := hanomaly
      rw [hkept.noAnomaly e he reason heffect] at hnonce
      cases hnonce
    · cases hanomaly

end Validator

end SelendraBridge
