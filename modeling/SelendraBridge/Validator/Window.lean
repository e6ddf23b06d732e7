import SelendraBridge.Validator.Scanner

/-!
# How a window is worked off

What holds of a scan loop whatever the operator does. The logs a batch still has to
handle are an end of its window's logs (`SelendraBridge.Validator.Shaped`), so that the rest
of the window is *done*; and a log gets from the front of the line to the done ones by being
checked, judged and accepted, in three steps that each say something of it
(`SelendraBridge.Validator.Step.done_cases` and the two after it). The file changes only when
a save shows, and becomes what is in memory (`SelendraBridge.Validator.Step.file_cases`).

The block cursor moves when a batch is finished, to the end of the window. That this is
*forward*, and that nothing between the cursor and the window is skipped, needs the cursor
to be where the batch found it (`SelendraBridge.Validator.Current`), which every step but a
rescan keeps.
-/

namespace SelendraBridge

namespace Validator

open Store Transition

variable {cfg : Config} {chain : Chain} {startBlock : ℕ} {s s' : State} {l : Label}
  {o : List Effect}

/-! ### The shape of a batch -/

/-- The record a batch has made of its first log. -/
def Stage.record? : Stage → Option SubmissionRecord
  | .checked record | .judged record => some record
  | .next | .stopped => none

/-- **What a batch always is**: a window with an end, some of whose logs – the last ones –
are still to be handled; a record is the record of the first of these. -/
structure Batch.Shaped (cfg : Config) (chain : Chain) (b : Batch) (stage : Stage) : Prop where
  pos : 0 < b.fromBlock
  le : b.fromBlock ≤ b.scannedTo
  suffix : ∃ done, chain.sentIn b.fromBlock (b.scannedTo + 1) = done ++ b.logs
  record : ∀ record, stage.record? = some record →
    ∃ ev rest, b.logs = ev :: rest ∧ fromSentEvent ev cfg.bridgeDomain = some record

/-- The same of a state. -/
def Shaped (cfg : Config) (chain : Chain) (s : State) : Prop :=
  match s.phase with
  | .top | .awake => True
  | .reading n => 0 < n
  | .batch b stage => b.Shaped cfg chain stage

theorem Shaped.batch (h : Shaped cfg chain s) {b : Batch} {stage : Stage}
    (hphase : s.phase = .batch b stage) : b.Shaped cfg chain stage := by
  rw [Shaped, hphase] at h
  exact h

/-- One log less to handle. -/
theorem Batch.Shaped.tail {b : Batch} {stage : Stage} (h : b.Shaped cfg chain stage)
    {ev : SentEvent} {rest : List SentEvent} (hlogs : b.logs = ev :: rest) :
    ({ b with logs := rest } : Batch).Shaped cfg chain .next where
  pos := h.pos
  le := h.le
  suffix := by
    obtain ⟨done, hdone⟩ := h.suffix
    exact ⟨done ++ [ev], by rw [hdone, hlogs]; simp⟩
  record := fun _ hr => by cases hr

/-- A batch at another stage. -/
theorem Batch.Shaped.withStage {b : Batch} {stage stage' : Stage}
    (h : b.Shaped cfg chain stage) (hrec : ∀ record, stage'.record? = some record →
      ∃ ev rest, b.logs = ev :: rest ∧ fromSentEvent ev cfg.bridgeDomain = some record) :
    b.Shaped cfg chain stage' :=
  ⟨h.pos, h.le, h.suffix, hrec⟩

theorem shaped_boot (file : Option Persist) (store : List (SubmissionRecord × SignerSig)) :
    Shaped cfg chain (boot cfg startBlock file store) := trivial

theorem Step.shaped (h : Step cfg chain startBlock s l s' o) (hs : Shaped cfg chain s) :
    Shaped cfg chain s' := by
  cases h with
  | asleep => exact hs
  | wake => trivial
  | readCursor => exact Nat.succ_pos _
  | abandon => trivial
  | openBatch hphase hle =>
    rw [Shaped, hphase] at hs
    exact ⟨hs, hle, ⟨[], rfl⟩, fun _ hr => by cases hr⟩
  | overU64 hphase hlogs => exact (hs.batch hphase).tail hlogs
  | admitted hphase hlogs hrec =>
    refine (hs.batch hphase).withStage fun record hr => ?_
    obtain rfl := Option.some.inj hr
    exact ⟨_, _, hlogs, hrec⟩
  | anomaly hphase => exact (hs.batch hphase).withStage fun _ hr => by cases hr
  | mismatch hphase => exact (hs.batch hphase).withStage fun _ hr => by cases hr
  | failed hphase => exact (hs.batch hphase).withStage fun _ hr => by cases hr
  | withheld hphase => exact (hs.batch hphase).withStage (hs.batch hphase).record
  | known hphase => exact (hs.batch hphase).withStage (hs.batch hphase).record
  | stored hphase => exact (hs.batch hphase).withStage (hs.batch hphase).record
  | @accepted b record hphase =>
    obtain ⟨ev, rest, hlogs, _⟩ := (hs.batch hphase).record _ rfl
    have hrest : b.logs.tail = rest := by rw [hlogs, List.tail_cons]
    have htail := (hs.batch hphase).tail hlogs
    rw [← hrest] at htail
    exact htail
  | rolledBack => trivial
  | finished => trivial
  | paused => exact hs
  | resumed => exact hs
  | rescanned => exact hs
  | crashed => trivial

/-- **Every state of a run is shaped.** -/
theorem shaped_of_run {s₀ : State} {tr : List (Entry State Label (List Effect))}
    (h₀ : Shaped cfg chain s₀) (hrun : Run (exec cfg chain startBlock) s₀ tr s) :
    Shaped cfg chain s :=
  hrun.invariant h₀ fun _ _ _ _ hs he => (step_of_exec he).shaped hs

/-! ### The way of a log -/

/-- The log has been handled by the batch in flight, to the end. -/
def Done (chain : Chain) (s : State) (ev : SentEvent) : Prop :=
  ∃ b stage done, s.phase = .batch b stage ∧
    chain.sentIn b.fromBlock (b.scannedTo + 1) = done ++ b.logs ∧ ev ∈ done

/-- It is the one being handled, and its record is made. -/
def Checked (s : State) (ev : SentEvent) : Prop :=
  ∃ b record rest, s.phase = .batch b (.checked record) ∧ b.logs = ev :: rest

/-- It has been judged, and only its nonce is left. -/
def Judged (s : State) (ev : SentEvent) : Prop :=
  ∃ b record rest, s.phase = .batch b (.judged record) ∧ b.logs = ev :: rest

/-- What is done is determined by what is left. -/
theorem done_of_eq_append {b : Batch} {stage : Stage} {done : List SentEvent}
    (hphase : s.phase = .batch b stage)
    (hdone : chain.sentIn b.fromBlock (b.scannedTo + 1) = done ++ b.logs) {ev : SentEvent} :
    Done chain s ev ↔ ev ∈ done := by
  constructor
  · rintro ⟨b', stage', done', hphase', hdone', hev⟩
    rw [hphase] at hphase'
    obtain ⟨rfl, -⟩ := Phase.batch.inj hphase'
    rw [hdone] at hdone'
    rwa [List.append_cancel_right hdone']
  · intro hev
    exact ⟨b, stage, done, hphase, hdone, hev⟩

/-- After the first log, it too is done. -/
theorem done_tail {b : Batch} {stage stage' : Stage} {ev ev' : SentEvent}
    {rest : List SentEvent} (hs : b.Shaped cfg chain stage) (hphase : s.phase = .batch b stage)
    (hlogs : b.logs = ev :: rest) (hphase' : s'.phase = .batch { b with logs := rest } stage')
    (h : Done chain s' ev') : Done chain s ev' ∨ ev' = ev := by
  obtain ⟨done, hdone⟩ := hs.suffix
  have hdone' : chain.sentIn b.fromBlock (b.scannedTo + 1) = (done ++ [ev]) ++ rest := by
    rw [hdone, hlogs]
    simp
  have hmem := (done_of_eq_append (b := { b with logs := rest }) hphase' hdone').mp h
  rcases List.mem_append.mp hmem with hmem | hmem
  · exact .inl ((done_of_eq_append hphase hdone).mpr hmem)
  · exact .inr (List.mem_singleton.mp hmem)

/-- A step that leaves the batch and its logs alone leaves alone what is done. -/
theorem done_of_phase {b : Batch} {stage stage' : Stage} {ev : SentEvent}
    (hphase : s.phase = .batch b stage) (hphase' : s'.phase = .batch b stage')
    (h : Done chain s' ev) : Done chain s ev := by
  obtain ⟨b', stage'', done, hb, hdone, hev⟩ := h
  rw [hphase'] at hb
  obtain ⟨rfl, -⟩ := Phase.batch.inj hb
  exact ⟨b, stage, done, hphase, hdone, hev⟩

/-- **What is done** was done, or was judged, or is an event with a number over 64 bits. -/
theorem Step.done_cases (h : Step cfg chain startBlock s l s' o) (hs : Shaped cfg chain s)
    {ev : SentEvent} (hdone : Done chain s' ev) :
    Done chain s ev ∨ Judged s ev ∨ .handled ev ∈ o ∧ .skipped ev .overU64 ∈ o := by
  cases h with
  | asleep => exact .inl hdone
  | wake | readCursor | abandon | rolledBack | finished | crashed =>
    obtain ⟨b, stage, done, hphase, -, -⟩ := hdone
    cases hphase
  | openBatch =>
    -- Nothing of a new window is done.
    obtain ⟨b, stage, done, hphase, hdone, hev⟩ := hdone
    obtain ⟨rfl, -⟩ := Phase.batch.inj hphase
    rw [List.self_eq_append_left.mp hdone] at hev
    cases hev
  | overU64 hphase hlogs =>
    rcases done_tail (hs.batch hphase) hphase hlogs rfl hdone with hdone | rfl
    · exact .inl hdone
    · exact .inr (.inr ⟨by simp, by simp⟩)
  | admitted hphase | anomaly hphase | withheld hphase | mismatch hphase | failed hphase
  | known hphase | stored hphase => exact .inl (done_of_phase hphase rfl hdone)
  | @accepted b record hphase =>
    obtain ⟨ev', rest, hlogs, _⟩ := (hs.batch hphase).record _ rfl
    have hrest : b.logs.tail = rest := by rw [hlogs, List.tail_cons]
    rcases done_tail (hs.batch hphase) hphase hlogs (by rw [← hrest]) hdone with h | rfl
    · exact .inl h
    · exact .inr (.inl ⟨_, _, rest, hphase, hlogs⟩)
  | paused | resumed | rescanned => exact .inl hdone

/-- **What is judged** was judged, or was checked – and then it is skipped, or known to
be stored, or stored now. -/
theorem Step.judged_cases (h : Step cfg chain startBlock s l s' o) (hs : Shaped cfg chain s)
    {ev : SentEvent} (hjudged : Judged s' ev) :
    Judged s ev ∨ Checked s ev ∧ ((∃ why, .skipped ev why ∈ o) ∨
      ev.submissionId ∈ s.progress.stored ∨
      ∃ record, fromSentEvent ev cfg.bridgeDomain = some record ∧
        (record, signerSig cfg ev.submissionId) ∈ s'.store) := by
  obtain ⟨b', record', rest', hphase', hlogs'⟩ := hjudged
  cases h with
  | asleep => exact .inl ⟨_, _, _, hphase', hlogs'⟩
  | wake | readCursor | abandon | rolledBack | finished | crashed | openBatch | overU64
  | admitted | anomaly | mismatch | failed | accepted => cases hphase'
  | withheld hphase hlogs =>
    obtain ⟨rfl, -⟩ := Phase.batch.inj hphase'
    obtain ⟨rfl, rfl⟩ := List.cons.inj (hlogs.symm.trans hlogs')
    exact .inr ⟨⟨_, _, _, hphase, hlogs⟩, .inl ⟨_, List.mem_singleton_self _⟩⟩
  | known hphase hlogs hmem =>
    obtain ⟨rfl, -⟩ := Phase.batch.inj hphase'
    obtain ⟨rfl, rfl⟩ := List.cons.inj (hlogs.symm.trans hlogs')
    exact .inr ⟨⟨_, _, _, hphase, hlogs⟩, .inr (.inl hmem)⟩
  | stored hphase hlogs =>
    obtain ⟨rfl, -⟩ := Phase.batch.inj hphase'
    obtain ⟨rfl, rfl⟩ := List.cons.inj (hlogs.symm.trans hlogs')
    obtain ⟨ev', rest, hlogs', hrec⟩ := (hs.batch hphase).record _ rfl
    obtain ⟨rfl, rfl⟩ := List.cons.inj (hlogs.symm.trans hlogs')
    exact .inr ⟨⟨_, _, _, hphase, hlogs⟩, .inr (.inr ⟨_, hrec, List.mem_cons_self⟩)⟩
  | paused | resumed | rescanned => exact .inl ⟨_, _, _, hphase', hlogs'⟩

/-- **What is checked** was checked, or is passed to `handle_log` now. -/
theorem Step.checked_cases (h : Step cfg chain startBlock s l s' o) {ev : SentEvent}
    (hchecked : Checked s' ev) : Checked s ev ∨ .handled ev ∈ o := by
  obtain ⟨b', record', rest', hphase', hlogs'⟩ := hchecked
  cases h with
  | asleep => exact .inl ⟨_, _, _, hphase', hlogs'⟩
  | wake | readCursor | abandon | rolledBack | finished | crashed | openBatch | overU64
  | anomaly | mismatch | failed | accepted | withheld | known | stored => cases hphase'
  | admitted hphase hlogs =>
    obtain ⟨rfl, -⟩ := Phase.batch.inj hphase'
    obtain ⟨rfl, rfl⟩ := List.cons.inj (hlogs.symm.trans hlogs')
    exact .inr (by simp)
  | paused | resumed | rescanned => exact .inl ⟨_, _, _, hphase', hlogs'⟩

/-! ### The cursors -/

/-- The block cursor is where the loop read it. -/
def Current (s : State) : Prop :=
  match s.phase with
  | .top | .awake => True
  | .reading n => n = s.rt.persist.lastBlock + 1
  | .batch b _ => b.fromBlock = s.rt.persist.lastBlock + 1

theorem Current.batch (h : Current s) {b : Batch} {stage : Stage}
    (hphase : s.phase = .batch b stage) : b.fromBlock = s.rt.persist.lastBlock + 1 := by
  rw [Current, hphase] at h
  exact h

theorem current_boot (file : Option Persist) (store : List (SubmissionRecord × SignerSig)) :
    Current (boot cfg startBlock file store) := trivial

/-- A label of the operator's rescans. -/
def Label.IsRescan (l : Label) : Prop := ∃ n disk, l = .rescanOne n disk

/-- **Only a rescan moves the cursor under a loop that has read it.** -/
theorem Step.current (h : Step cfg chain startBlock s l s' o) (hl : ¬l.IsRescan)
    (hs : Current s) : Current s' := by
  cases h with
  | asleep => exact hs
  | wake | abandon | rolledBack | finished | crashed => trivial
  | readCursor => rfl
  | openBatch hphase =>
    rw [Current, hphase] at hs
    exact hs
  | overU64 hphase | admitted hphase | withheld hphase | failed hphase | known hphase
  | stored hphase | accepted hphase =>
    have hb := hs.batch hphase
    exact hb
  | anomaly hphase | mismatch hphase =>
    have hb := hs.batch hphase
    simpa [Current, stopWith] using hb
  | paused | resumed => simpa [Current] using hs
  | rescanned => exact absurd ⟨_, _, rfl⟩ hl

/-- Reading the cursor makes the loop current, whatever came before. -/
theorem Step.current_of_readCursor (h : Step cfg chain startBlock s .readCursor s' o) :
    Current s' := by
  cases h
  rfl

/-- **What moves the block cursor**: the end of a finished window, a rescan, a restart. -/
theorem Step.lastBlock_cases (h : Step cfg chain startBlock s l s' o) (hl : ¬l.IsRescan)
    (hcrash : l ≠ .crash) :
    s'.rt.persist.lastBlock = s.rt.persist.lastBlock ∨
      ∃ b disk, l = .finish disk ∧ s.phase = .batch b .next ∧ b.logs = [] ∧
        s'.rt.persist.lastBlock = b.scannedTo := by
  cases h with
  | finished hphase hlogs => exact .inr ⟨_, _, rfl, hphase, hlogs, by simp⟩
  | rescanned => exact absurd ⟨_, _, rfl⟩ hl
  | crashed => exact absurd rfl hcrash
  | anomaly | mismatch => exact .inl (by simp [stopWith])
  | paused | resumed | rolledBack => exact .inl (by simp)
  | _ => exact .inl rfl

/-- **With the cursor where the loop read it, it never goes back.** -/
theorem Step.lastBlock_le (h : Step cfg chain startBlock s l s' o) (hs : Shaped cfg chain s)
    (hcur : ∀ disk, l = .finish disk → Current s) (hl : ¬l.IsRescan) (hcrash : l ≠ .crash) :
    s.rt.persist.lastBlock ≤ s'.rt.persist.lastBlock := by
  rcases h.lastBlock_cases hl hcrash with heq | ⟨b, disk, rfl, hphase, -, heq⟩
  · exact Nat.le_of_eq heq.symm
  · have hfrom := (hcur disk rfl).batch hphase
    have hle := (hs.batch hphase).le
    omega

/-! ### The file and the store -/

theorem mem_savedBy {disk : Bool} {rt : Runtime} {p : Persist} :
    Effect.saved p ∈ savedBy disk rt ↔ disk = true ∧ p = rt.persist := by
  cases disk <;> simp [savedBy]

/-- A write, with what shows of it. -/
theorem file_save_cases (disk : Bool) (rt : Runtime) :
    ((rt.save disk).file = rt.file ∧ ∀ p, Effect.saved p ∉ savedBy disk rt) ∨
      ((rt.save disk).file = some rt.persist ∧
        ∀ p, Effect.saved p ∈ savedBy disk rt ↔ p = rt.persist) := by
  cases disk with
  | false => exact .inl ⟨rfl, by simp [mem_savedBy]⟩
  | true => exact .inr ⟨rfl, by simp [mem_savedBy]⟩

/-- **The file changes when a save shows**, and then it is what is in memory. -/
theorem Step.file_cases (h : Step cfg chain startBlock s l s' o) :
    (s'.rt.file = s.rt.file ∧ ∀ p, .saved p ∉ o) ∨
      (s'.rt.file = some s'.rt.persist ∧ ∀ p, .saved p ∈ o ↔ p = s'.rt.persist) := by
  cases h with
  | @anomaly b ev rest record reason disk =>
    have hcases := file_save_cases disk (s.rt.pause reason)
    simpa [stopWith] using hcases
  | @mismatch b ev rest record auto reason scale replies disk =>
    have hcases := file_save_cases disk (s.rt.pause reason)
    simpa [stopWith] using hcases
  | @rolledBack b disk =>
    have hcases := file_save_cases disk (s.rt.restoreNonces b.noncesBefore)
    simpa using hcases
  | @finished b disk =>
    have hcases := file_save_cases disk (s.rt.advanceTo b.scannedTo)
    simpa using hcases
  | @paused disk =>
    have hcases := file_save_cases disk (s.rt.pause .operator)
    simpa using hcases
  | @resumed disk =>
    have hcases := file_save_cases disk s.rt.resume
    simpa using hcases
  | @rescanned n disk =>
    have hcases := file_save_cases disk (s.rt.rescanFrom n)
    simpa using hcases
  | _ => exact .inl ⟨rfl, by simp⟩

/-- What is saved is what is in memory. -/
theorem Step.saved_eq (h : Step cfg chain startBlock s l s' o) {p : Persist}
    (hp : .saved p ∈ o) : p = s'.rt.persist := by
  rcases h.file_cases with ⟨-, hno⟩ | ⟨-, hiff⟩
  · exact absurd hp (hno p)
  · exact (hiff p).mp hp

/-- **What a batch knows to be stored** it knew, or has stored now. -/
theorem Step.mem_stored_cases (h : Step cfg chain startBlock s l s' o) (hs : Shaped cfg chain s)
    {id : Bytes32} (hid : id ∈ s'.progress.stored) :
    id ∈ s.progress.stored ∨ ∃ ev record, ev.submissionId = id ∧
      fromSentEvent ev cfg.bridgeDomain = some record ∧ (record, signerSig cfg id) ∈ s'.store := by
  cases h with
  | @openBatch n scannedTo allowlist =>
    -- The memory is kept for one window, and cleared for another.
    have hmem : id ∈ (s.progress.forWindow n).stored := hid
    rw [BatchProgress.forWindow] at hmem
    split at hmem
    · cases hmem
    · exact .inl hmem
  | stored hphase hlogs =>
    rcases List.mem_cons.mp hid with rfl | hid
    · obtain ⟨ev', rest, hlogs', hrec⟩ := (hs.batch hphase).record _ rfl
      obtain ⟨rfl, rfl⟩ := List.cons.inj (hlogs.symm.trans hlogs')
      exact .inr ⟨_, _, rfl, hrec, List.mem_cons_self⟩
    · exact .inl hid
  | crashed => cases hid
  | _ => exact .inl hid

/-- Nothing leaves the store. -/
theorem Step.mem_store (h : Step cfg chain startBlock s l s' o)
    {row : SubmissionRecord × SignerSig} (hrow : row ∈ s.store) : row ∈ s'.store := by
  cases h with
  | failed => exact List.mem_append_right _ hrow
  | stored => exact List.mem_cons_of_mem _ hrow
  | _ => exact hrow

end Validator

end SelendraBridge
