import SelendraBridge.Validator.Rescan

/-!
# An operator's pause

`pause_one` sets a flag under the lock, saves it and answers. The scan loop reads the flag at
the top, before it reads its cursor, and nowhere else: not when the window's logs have come,
and not between two of them. A pause that comes later than that is answered, and does not stop
the window in flight. The loop's own pauses do, for the log that raises one is the last of its
batch (`SelendraBridge.Validator.stopWith`).

| when the pause comes | what is signed after it |
|---|---|
| at the top, or before the first block of the window is known | the window |
| between two logs | the rest of the window |
| inside the last log | that log |

So a pause stops the signing (`SelendraBridge.Validator.PauseKept`) where it leaves the window
in flight nothing to take up, and the window about to be opened as little
(`SelendraBridge.Validator.pause_kept`); in between, a whole window is signed after the answer
(`SelendraBridge.Validator.signed_while_paused`). It survives a crash if it was written, which
`pause_one` does not look at; and the block cursor passes nothing unhandled if no rescan has
moved it under the batch that ends.
-/

namespace SelendraBridge

namespace Validator

open Store Transition

variable {cfg : Config} {chain : Chain} {startBlock : ℕ} {s s' : State} {l : Label}
  {o : List Effect} {tr : Trace}

/-! ### What a loop still has to take up -/

/-- The logs of the window in flight that have not been passed to `handle_log`. -/
def State.remaining (s : State) : List SentEvent :=
  match s.phase with
  | .batch b .next => b.logs
  | .batch b (.checked _) | .batch b (.judged _) => b.logs.tail
  | _ => []

/-- The label of an operator's pause. -/
def Label.IsPause (l : Label) : Prop := ∃ disk, l = .pauseOne disk

theorem State.remaining_next {b : Batch} (h : s.phase = .batch b .next) : s.remaining = b.logs := by
  rw [remaining, h]

/-- A label that ends a pause: a resume, or a rescan. -/
def Label.IsRelease (l : Label) : Prop := (∃ disk, l = .resumeOne disk) ∨ l.IsRescan

/-- With nothing to take up, nothing is taken up. -/
theorem Step.not_handled (h : Step cfg chain startBlock s l s' o) (hs : s.remaining = [])
    (ev : SentEvent) : .handled ev ∉ o := by
  cases h with
  | overU64 hphase hlogs | admitted hphase hlogs | anomaly hphase hlogs =>
    rw [State.remaining_next hphase, hlogs] at hs
    cases hs
  | @mismatch b _ rest record auto reason scale replies disk =>
    cases disk <;> simp [stopWith, savedBy]
  | @rolledBack b disk => cases disk <;> simp [savedBy]
  | @finished b disk => cases disk <;> simp [savedBy]
  | @paused disk => cases disk <;> simp [savedBy]
  | @resumed disk => cases disk <;> simp [savedBy]
  | @rescanned n disk => cases disk <;> simp [savedBy]
  | _ => simp

/-- **What is to be taken up comes with a window**: with nothing left, nothing more is left after
a step, unless it opens a window that has logs. -/
theorem Step.remaining_eq_nil (h : Step cfg chain startBlock s l s' o) (hs : s.remaining = [])
    (hopen : ∀ scannedTo allowlist n, l = .openBatch scannedTo allowlist → s.phase = .reading n →
      chain.sentIn n (scannedTo + 1) = []) : s'.remaining = [] := by
  cases h with
  | asleep => exact hs
  | wake | readCursor | abandon | rolledBack | finished | crashed => rfl
  | openBatch hphase => exact hopen _ _ _ rfl hphase
  | overU64 hphase hlogs | admitted hphase hlogs | anomaly hphase hlogs =>
    rw [State.remaining_next hphase, hlogs] at hs
    cases hs
  | mismatch | failed => rfl
  | withheld hphase | known hphase | stored hphase | accepted hphase =>
    rw [State.remaining, hphase] at hs
    exact hs
  | paused | resumed | rescanned => exact hs

/-- Nor does the loop come to be inside another log. -/
theorem Step.checked_of_remaining (h : Step cfg chain startBlock s l s' o)
    (hs : s.remaining = []) {ev : SentEvent} (hchecked : Checked s' ev) : Checked s ev := by
  rcases h.checked_cases hchecked with hchecked | hhandled
  · exact hchecked
  · exact absurd hhandled (h.not_handled hs ev)

/-- A pause is only ever lifted by the operator, or lost with the process. -/
theorem Step.paused_eq (h : Step cfg chain startBlock s l s' o) (hs : s.rt.paused = true)
    (hl : ¬l.IsRelease) (hcrash : l ≠ .crash) : s'.rt.paused = true := by
  cases h with
  | anomaly | mismatch | paused => simp [stopWith, Runtime.paused, Runtime.pause]
  | rolledBack | finished =>
    simpa [Runtime.paused, Runtime.restoreNonces, Runtime.advanceTo] using hs
  | resumed => exact absurd (.inl ⟨_, rfl⟩) hl
  | rescanned => exact absurd (.inr ⟨_, _, rfl⟩) hl
  | crashed => exact absurd rfl hcrash
  | accepted => exact hs
  | _ => exact hs

/-! ### What is stored -/

/-- The row of the event a loop is inside of. -/
def RowOf (cfg : Config) (s : State) (row : SubmissionRecord × SignerSig) : Prop :=
  ∃ ev record, Checked s ev ∧ fromSentEvent ev cfg.bridgeDomain = some record ∧
    row = (record, signerSig cfg ev.submissionId)

/-- The second half of `handle_log` stores the row of its event, or nothing. -/
theorem store_judgeLog (hs : Shaped cfg chain s) {b : Batch} {ev : SentEvent}
    {rest : List SentEvent} {record : SubmissionRecord} {replies : Replies} {disk : Bool}
    (hphase : s.phase = .batch b (.checked record)) (hlogs : b.logs = ev :: rest) :
    (judgeLog cfg s b ev record replies disk).1.store = s.store ∨
      ∃ row, RowOf cfg s row ∧
        (judgeLog cfg s b ev record replies disk).1.store = row :: s.store := by
  have hrow : RowOf cfg s (record, signerSig cfg ev.submissionId) := by
    obtain ⟨ev', rest', hlogs', hrec⟩ := (hs.batch hphase).record _ rfl
    obtain ⟨rfl, rfl⟩ := List.cons.inj (hlogs.symm.trans hlogs')
    exact ⟨ev, record, ⟨b, record, rest, hphase, hlogs⟩, hrec, rfl⟩
  unfold judgeLog
  rcases examine cfg b.allowlist s.progress.stored s.scale replies ev record with
    ⟨finding, scale⟩
  rcases finding with why | - | held | - | -
  · exact .inl rfl
  · exact .inl rfl
  · cases held with
    | false => exact .inl rfl
    | true => exact .inr ⟨_, hrow, rfl⟩
  · exact .inl rfl
  · exact .inr ⟨_, hrow, rfl⟩

/-- **What a step stores** is the row of the event the loop is inside of; and then it is not
inside of it any more. -/
theorem store_cases (hexec : exec cfg chain startBlock s l = some (s', o))
    (hs : Shaped cfg chain s) :
    s'.store = s.store ∨
      (∃ row, RowOf cfg s row ∧ s'.store = row :: s.store) ∧ ∀ ev, ¬Checked s' ev := by
  have hstep := step_of_exec hexec
  by_cases hl : ∃ replies disk, l = .judgeLog replies disk
  · obtain ⟨replies, disk, rfl⟩ := hl
    rcases hphase : s.phase with _ | _ | n | ⟨b, _ | record | record | _⟩
    case batch.checked =>
      obtain ⟨ev, rest, hlogs, -⟩ := (hs.batch hphase).record _ rfl
      have heq : judgeLog cfg s b ev record replies disk = (s', o) := by
        simpa only [exec, hphase, hlogs, Option.some.injEq] using hexec
      rcases store_judgeLog hs hphase hlogs with h | ⟨row, hrow, h⟩
      · exact .inl (by rw [← h, heq])
      · refine .inr ⟨⟨row, hrow, by rw [← h, heq]⟩, ?_⟩
        rintro ev' ⟨b', record', rest', hphase', -⟩
        cases hstep <;> cases hphase'
    all_goals simp [exec, hphase] at hexec
  · cases hstep with
    | failed => exact absurd ⟨_, _, rfl⟩ hl
    | stored => exact absurd ⟨_, _, rfl⟩ hl
    | _ => exact .inl rfl

/-- **What a batch is inside of, or done with, was passed to `handle_log`**, in any run. -/
theorem handled_of_run {file : Option Persist} {store : List (SubmissionRecord × SignerSig)}
    (hrun : Run (exec cfg chain startBlock) (boot cfg startBlock file store) tr s) :
    ∀ ev, Done chain s ev ∨ Judged s ev ∨ Checked s ev → Handled tr ev := by
  refine hrun.rec_trace
    (P := fun tr s => ∀ ev, Done chain s ev ∨ Judged s ev ∨ Checked s ev → Handled tr ev) ?_ ?_
  · rintro ev (⟨b, stage, done, hphase, -⟩ | ⟨b, record, rest, hphase, -⟩ |
      ⟨b, record, rest, hphase, -⟩) <;> cases hphase
  · intro tr s l s' o hrun ih hexec ev hev
    exact (step_of_exec hexec).handled (shaped_of_run (shaped_boot file store) hrun) ih hev

/-! ### Under a pause -/

/-- **`mid` is what came after the pause `p`**, and nothing has ended it. -/
def Holding (p : Entry State Label (List Effect)) (mid : Trace) : Prop :=
  p.label.IsPause ∧ ∀ e ∈ mid, ¬e.label.IsRelease

/-- **A run whose pauses come in time**: at each the loop has nothing left to take up but the log
it is inside of, and the windows it opens under a pause have no logs; a batch that ends well
under a pause finds the block cursor where it read it; and a process that ends under a pause
has written it. -/
structure PausedInTime (chain : Chain) (tr : Trace) : Prop where
  remaining : ∀ e ∈ tr, e.label.IsPause → e.pre.remaining = []
  opened : ∀ tr₁ p mid e tr₂, tr = tr₁ ++ p :: (mid ++ e :: tr₂) → Holding p mid →
    ∀ scannedTo allowlist n, e.label = .openBatch scannedTo allowlist →
      e.pre.phase = .reading n → chain.sentIn n (scannedTo + 1) = []
  current : ∀ tr₁ p mid e tr₂, tr = tr₁ ++ p :: (mid ++ e :: tr₂) → Holding p mid →
    ∀ b disk, e.label = .finish disk → e.pre.phase = .batch b .next → Current e.pre
  written : ∀ tr₁ p mid e tr₂, tr = tr₁ ++ p :: (mid ++ e :: tr₂) → Holding p mid →
    e.label = .crash → ∃ w ∈ p :: mid, ∃ q, .saved q ∈ w.out

/-- **What a pause keeps of the step `e`**, taken after `past`, the pause `p` and `mid`. -/
structure HeldBy (cfg : Config) (chain : Chain) (past : Trace)
    (p : Entry State Label (List Effect)) (mid : Trace) (e : Entry State Label (List Effect)) :
    Prop where
  /-- The scanner is still paused, also in a process that has just started. -/
  paused : e.post.rt.paused = true
  /-- At most one row has been stored, of the event that was inside `handle_log`. -/
  stored : ∃ rows, e.post.store = rows ++ p.post.store ∧ rows.length ≤ 1 ∧
    ∀ row ∈ rows, RowOf cfg p.pre row
  /-- No other event is passed to `handle_log`. -/
  handled : ∀ ev, .handled ev ∉ e.out
  /-- The block cursor moves past no event that was not. -/
  cursor : ∀ ev ∈ chain.sentIn (e.pre.rt.persist.lastBlock + 1)
    (e.post.rt.persist.lastBlock + 1), Handled (past ++ p :: mid) ev

/-- **Every pause of the run stops the signing**, until a resume or a rescan. -/
def PauseKept (cfg : Config) (chain : Chain) (tr : Trace) : Prop :=
  ∀ tr₁ p mid e tr₂, tr = tr₁ ++ p :: (mid ++ e :: tr₂) → Holding p (mid ++ [e]) →
    HeldBy cfg chain tr₁ p mid e

/-- **A scanner under a pause.** -/
structure UnderPause (cfg : Config) (p : Entry State Label (List Effect)) (mid : Trace)
    (s : State) : Prop where
  paused : s.rt.paused = true
  remaining : s.remaining = []
  checked : ∀ ev, Checked s ev → Checked p.pre ev
  stored : ∃ rows, s.store = rows ++ p.post.store ∧ (∀ row ∈ rows, RowOf cfg p.pre row) ∧
    (rows = [] ∨ rows.length = 1 ∧ ∀ ev, ¬Checked s ev)
  file : (∃ w ∈ p :: mid, ∃ q, .saved q ∈ w.out) →
    ∃ q, s.rt.file = some q ∧ q.paused = true ∧ q.lastBlock ≤ s.rt.persist.lastBlock

section Holds

variable {p : Entry State Label (List Effect)} {mid past : Trace}

/-- Right after the pause. -/
theorem underPause_nil {disk : Bool} (h : Step cfg chain startBlock s (.pauseOne disk) s' o)
    (hremaining : s.remaining = []) :
    UnderPause cfg ⟨s, .pauseOne disk, o, s'⟩ [] s' := by
  have hfile := h.file_cases
  cases h
  refine ⟨by simp [Runtime.paused, Runtime.pause], hremaining, fun ev hev => hev,
    ⟨[], rfl, fun row hrow => absurd hrow List.not_mem_nil, .inl rfl⟩, ?_⟩
  rintro ⟨w, hw, q, hq⟩
  obtain rfl := List.mem_singleton.mp hw
  rcases hfile with ⟨-, hno⟩ | ⟨hfile, -⟩
  · exact absurd hq (hno q)
  · exact ⟨_, hfile, by simp [Runtime.pause], le_refl _⟩

/-- **The block cursor under a pause** is moved by the batch in flight, over what that batch was
passed, or put back by a restart. -/
theorem UnderPause.cursor (h : UnderPause cfg p mid s)
    (hexec : exec cfg chain startBlock s l = some (s', o)) (hs : Shaped cfg chain s)
    (hl : ¬l.IsRelease)
    (hcurrent : ∀ b disk, l = .finish disk → s.phase = .batch b .next → Current s)
    (hwritten : l = .crash → ∃ w ∈ p :: mid, ∃ q, .saved q ∈ w.out)
    (hhandled : ∀ ev, Done chain s ev ∨ Judged s ev ∨ Checked s ev → Handled tr ev) :
    (l = .crash ∨ s.rt.persist.lastBlock ≤ s'.rt.persist.lastBlock) ∧
      ∀ ev ∈ chain.sentIn (s.rt.persist.lastBlock + 1) (s'.rt.persist.lastBlock + 1),
        Handled tr ev := by
  have hstep := step_of_exec hexec
  by_cases hcrash : l = .crash
  · -- A restart reads the file, which was written under the pause and is not ahead.
    obtain ⟨q, hfile, -, hle⟩ := h.file (hwritten hcrash)
    subst hcrash
    cases hstep
    refine ⟨.inl rfl, fun ev hev => ?_⟩
    rw [show (boot cfg startBlock s.rt.file s.store).rt.persist = q by
      rw [hfile]; rfl, Chain.sentIn_of_le _ (by omega)] at hev
    cases hev
  · have hrescan : ¬l.IsRescan := fun hr => hl (.inr hr)
    rcases hstep.lastBlock_cases hrescan hcrash with heq | ⟨b, disk, hfinish, hphase, hlogs, heq⟩
    · rw [heq, Chain.sentIn_of_le _ (le_refl _)]
      exact ⟨.inr (le_refl _), fun ev hev => absurd hev List.not_mem_nil⟩
    · have hfrom := (hcurrent b disk hfinish hphase).batch hphase
      have hshaped := hs.batch hphase
      have hle := hshaped.le
      rw [heq]
      refine ⟨.inr (by omega), fun ev hev => ?_⟩
      obtain ⟨done, hdone⟩ := hshaped.suffix
      rw [← hfrom, hdone, hlogs, List.append_nil] at hev
      exact hhandled ev (.inl ((done_of_eq_append hphase hdone).mpr hev))

/-- **One step under a pause.** -/
theorem UnderPause.step (h : UnderPause cfg p mid s)
    (hexec : exec cfg chain startBlock s l = some (s', o)) (hs : Shaped cfg chain s)
    (hl : ¬l.IsRelease)
    (hopen : ∀ scannedTo allowlist n, l = .openBatch scannedTo allowlist →
      s.phase = .reading n → chain.sentIn n (scannedTo + 1) = [])
    (hwritten : l = .crash → ∃ w ∈ p :: mid, ∃ q, .saved q ∈ w.out)
    (hcursor : l = .crash ∨ s.rt.persist.lastBlock ≤ s'.rt.persist.lastBlock) :
    UnderPause cfg p (mid ++ [⟨s, l, o, s'⟩]) s' := by
  have hstep := step_of_exec hexec
  have hchecked : ∀ ev, Checked s' ev → Checked s ev :=
    fun ev hev => hstep.checked_of_remaining h.remaining hev
  have hpaused : s'.rt.paused = true := by
    by_cases hcrash : l = .crash
    · obtain ⟨q, hfile, hq, -⟩ := h.file (hwritten hcrash)
      subst hcrash
      cases hstep
      rw [show (boot cfg startBlock s.rt.file s.store).rt.paused = q.paused by rw [hfile]; rfl]
      exact hq
    · exact hstep.paused_eq h.paused hl hcrash
  refine ⟨hpaused, hstep.remaining_eq_nil h.remaining hopen,
    fun ev hev => h.checked ev (hchecked ev hev), ?_, ?_⟩
  · obtain ⟨rows, hstore, hrows, hcount⟩ := h.stored
    rcases store_cases hexec hs with heq | ⟨⟨row, ⟨ev, record, hev, hrec, hrow⟩, heq⟩, hno⟩
    · refine ⟨rows, heq ▸ hstore, hrows, ?_⟩
      rcases hcount with hnil | ⟨hone, hno⟩
      · exact .inl hnil
      · exact .inr ⟨hone, fun ev hev => hno ev (hchecked ev hev)⟩
    · -- The loop was inside of an event, so nothing was stored before.
      rcases hcount with rfl | ⟨-, hnone⟩
      · refine ⟨[row], by rw [heq, hstore]; rfl, ?_, .inr ⟨rfl, hno⟩⟩
        intro row' hrow'
        rw [List.mem_singleton.mp hrow']
        exact ⟨ev, record, h.checked ev hev, hrec, hrow⟩
      · exact absurd hev (hnone ev)
  · rintro ⟨w, hw, q, hq⟩
    rcases hstep.file_cases with ⟨hfile, hno⟩ | ⟨hfile, -⟩
    · -- Nothing is written now: the file is the one from before.
      have hold : ∃ w ∈ p :: mid, ∃ q, .saved q ∈ w.out := by
        rcases List.mem_append.mp (List.cons_append .. ▸ hw) with hw | hw
        · exact ⟨w, hw, q, hq⟩
        · rw [List.mem_singleton.mp hw] at hq
          exact absurd hq (hno q)
      obtain ⟨q', hfile', hpaused', hle⟩ := h.file hold
      refine ⟨q', hfile.trans hfile', hpaused', ?_⟩
      rcases hcursor with hcrash | hcursor
      · subst hcrash
        cases hstep
        rw [show (boot cfg startBlock s.rt.file s.store).rt.persist = q' by rw [hfile']; rfl]
      · omega
    · exact ⟨_, hfile, hpaused, le_refl _⟩

end Holds

/-- The parts of a condition on whole runs that speak of a run's beginning. -/
theorem PausedInTime.of_append {tr' : Trace} (h : PausedInTime chain (tr ++ tr')) :
    PausedInTime chain tr where
  remaining e he := h.remaining e (List.mem_append_left _ he)
  opened tr₁ p mid e tr₂ htr := h.opened tr₁ p mid e (tr₂ ++ tr') (by rw [htr]; simp)
  current tr₁ p mid e tr₂ htr := h.current tr₁ p mid e (tr₂ ++ tr') (by rw [htr]; simp)
  written tr₁ p mid e tr₂ htr := h.written tr₁ p mid e (tr₂ ++ tr') (by rw [htr]; simp)

/-- **A run under a pause that came in time**, up to a resume or a rescan. -/
theorem underPause_of_run {file : Option Persist} {store : List (SubmissionRecord × SignerSig)}
    {past mid : Trace} {p : Entry State Label (List Effect)}
    (hrun : Run (exec cfg chain startBlock) (boot cfg startBlock file store) (past ++ p :: mid) s)
    (htime : PausedInTime chain (past ++ p :: mid)) (hhold : Holding p mid) :
    UnderPause cfg p mid s := by
  obtain ⟨hrun₁, hexec, hrun₂⟩ := hrun.split
  have hbase := shaped_of_run (shaped_boot file store) hrun₁
  have hpost := (step_of_exec hexec).shaped hbase
  refine hrun₂.rec_trace (P := fun mid s => PausedInTime chain (past ++ p :: mid) →
    Holding p mid → UnderPause cfg p mid s) ?_ ?_ htime hhold
  · intro htime hhold
    have hremaining := htime.remaining p (List.mem_append_right _ List.mem_cons_self) hhold.1
    obtain ⟨pre, label, out, post⟩ := p
    obtain ⟨disk, rfl⟩ := hhold.1
    exact underPause_nil (step_of_exec hexec) hremaining
  · intro mid s l s' o hrun' ih hexec' htime hhold
    have hsplit : past ++ p :: (mid ++ [⟨s, l, o, s'⟩]) =
        (past ++ p :: mid) ++ [⟨s, l, o, s'⟩] := by simp
    have hmid : Holding p mid := ⟨hhold.1, fun e he => hhold.2 e (List.mem_append_left _ he)⟩
    have hunder := ih (hsplit ▸ htime).of_append hmid
    have hl := hhold.2 ⟨s, l, o, s'⟩ (List.mem_append_right _ List.mem_cons_self)
    have hs := shaped_of_run hpost hrun'
    have hwritten := htime.written past p mid ⟨s, l, o, s'⟩ [] rfl hmid
    have hcursor := hunder.cursor hexec' hs hl
      (htime.current past p mid ⟨s, l, o, s'⟩ [] rfl hmid) hwritten
      (handled_of_run ((hrun₁.snoc hexec).append hrun'))
    exact hunder.step hexec' hs hl (htime.opened past p mid ⟨s, l, o, s'⟩ [] rfl hmid) hwritten
      hcursor.1

/-- **An operator's pause stops the signing**, until a resume or a rescan and over restarts, in
every run whose pauses come in time. -/
theorem pause_kept {file : Option Persist} {store : List (SubmissionRecord × SignerSig)}
    (hrun : Run (exec cfg chain startBlock) (boot cfg startBlock file store) tr s)
    (htime : PausedInTime chain tr) : PauseKept cfg chain tr := by
  rintro tr₁ p mid e tr₂ rfl hhold
  have hsplit : tr₁ ++ p :: (mid ++ e :: tr₂) = (tr₁ ++ p :: mid) ++ e :: tr₂ := by simp
  rw [hsplit] at hrun
  obtain ⟨hrun₁, hexec, -⟩ := hrun.split
  have hmid : Holding p mid := ⟨hhold.1, fun e he => hhold.2 e (List.mem_append_left _ he)⟩
  have hunder := underPause_of_run hrun₁ (hsplit ▸ htime).of_append hmid
  have hs := shaped_of_run (shaped_boot file store) hrun₁
  have hl := hhold.2 e (List.mem_append_right _ List.mem_cons_self)
  have hwritten := htime.written tr₁ p mid e tr₂ rfl hmid
  have hcursor := hunder.cursor hexec hs hl (htime.current tr₁ p mid e tr₂ rfl hmid) hwritten
    (handled_of_run hrun₁)
  have hafter := hunder.step hexec hs hl (htime.opened tr₁ p mid e tr₂ rfl hmid) hwritten hcursor.1
  obtain ⟨rows, hstore, hrows, hcount⟩ := hafter.stored
  refine ⟨hafter.paused, ⟨rows, hstore, ?_, hrows⟩,
    (step_of_exec hexec).not_handled hunder.remaining, hcursor.2⟩
  rcases hcount with rfl | ⟨hone, -⟩
  · exact Nat.zero_le _
  · exact Nat.le_of_eq hone

/-! ### Two pauses of one window -/

/-- Without a rescan no batch is overtaken. -/
theorem overtaken_of_no_rescan {ls : List Label} (h : ∀ l ∈ ls, ¬l.IsRescan) :
    overtaken ls = false := by
  induction ls using List.reverseRecOn with
  | nil => rfl
  | append_singleton ls l ih =>
    rw [overtaken_append_singleton, ih fun l' hl' => h l' (List.mem_append_left _ hl')]
    cases l with
    | rescanOne n disk =>
      exact absurd ⟨n, disk, rfl⟩ (h _ (List.mem_append_right _ List.mem_cons_self))
    | _ => rfl

/-- A window of one transfer, paused while the loop is inside of it; then a restart. -/
def pauseInside : List Label :=
  [.wake, .readCursor, .openBatch 1 none, .checkLog true, .pauseOne true,
    .judgeLog ⟨some (some 6), true, .stored⟩ true, .acceptLog, .finish true, .wake, .crash, .wake]

theorem pause_kept_inside :
    PauseKept oneValidator oneTransfer
      (traceOf (exec oneValidator oneTransfer 1) (boot oneValidator 1 none []) pauseInside).1 := by
  have hsome : (runFrom (exec oneValidator oneTransfer 1) (boot oneValidator 1 none [])
      pauseInside).isSome = true := by decide +kernel
  have hrun := run_traceOf hsome
  have hlabels : labels (traceOf (exec oneValidator oneTransfer 1) (boot oneValidator 1 none [])
      pauseInside).1 = pauseInside := label_traceOf hsome
  have hnone : ((traceOf (exec oneValidator oneTransfer 1) (boot oneValidator 1 none [])
      pauseInside).1.all fun e => e.label != .pauseOne true || e.pre.remaining.isEmpty) = true := by
    decide +kernel
  have hmem : ∀ e ∈ (traceOf (exec oneValidator oneTransfer 1) (boot oneValidator 1 none [])
      pauseInside).1, e.label ∈ pauseInside := fun e he => hlabels ▸ List.mem_map_of_mem he
  have hpause : ∀ e ∈ (traceOf (exec oneValidator oneTransfer 1) (boot oneValidator 1 none [])
      pauseInside).1, e.label.IsPause → e.label = .pauseOne true := by
    rintro e he ⟨disk, hl⟩
    have hpm := hmem e he
    rw [hl] at hpm ⊢
    simpa [pauseInside] using hpm
  refine pause_kept hrun ⟨fun e he hp => ?_, ?_, ?_, ?_⟩
  · have hall := List.all_eq_true.mp hnone e he
    simpa [hpause e he hp] using hall
  · -- No window is opened after the pause.
    intro tr₁ p mid e tr₂ htr hhold scannedTo allowlist n hopen
    have hp := hpause p (by rw [htr]; simp) hhold.1
    have hi : (labels tr₁).length < pauseInside.length := by rw [← hlabels, htr]; simp [labels]
    have hafter : ((List.range pauseInside.length).all fun i =>
        pauseInside[i]? != some (.pauseOne true) ||
          (pauseInside.drop i).all fun l => l != .openBatch 1 none) = true := by decide
    have hat := List.all_eq_true.mp hafter _ (List.mem_range.mpr hi)
    rw [← hlabels, htr, labels_append, labels_cons, hp, labels_append, labels_cons, hopen] at hat
    have hopened : scannedTo = 1 ∧ allowlist = none := by
      have hem := hmem e (by rw [htr]; simp)
      rw [hopen] at hem
      simpa [pauseInside] using hem
    simp [hopened] at hat
  · intro tr₁ p mid e tr₂ htr _ b disk _ _
    have hsplit : tr₁ ++ p :: (mid ++ e :: tr₂) = (tr₁ ++ p :: mid) ++ e :: tr₂ := by simp
    rw [htr, hsplit] at hrun
    refine current_of_run hrun.split.1 (current_boot none []) (overtaken_of_no_rescan ?_)
    rintro l hl ⟨m, disk', rfl⟩
    obtain ⟨e', he', hle⟩ := List.mem_map.mp hl
    have hem := hmem e' (by rw [htr, hsplit]; exact List.mem_append_left _ he')
    rw [hle] at hem
    simp [pauseInside] at hem
  · intro tr₁ p mid e tr₂ htr hhold _
    have hpm : p ∈ (traceOf (exec oneValidator oneTransfer 1) (boot oneValidator 1 none [])
        pauseInside).1 := by rw [htr]; simp
    have hexec := hrun.exec_of_mem hpm
    rw [hpause p hpm hhold.1] at hexec
    obtain ⟨-, hout⟩ := Prod.mk.inj (Option.some.inj hexec)
    exact ⟨p, List.mem_cons_self, (p.pre.rt.pause .operator).persist, by
      rw [← hout]; simp [savedBy]⟩

/-- The loop has opened the window of block 1, and is before its transfer. -/
def openedOne : List Label := [.wake, .readCursor, .openBatch 1 none]

/-- A loop that is inside no log. -/
def State.between (s : State) : Bool :=
  match s.phase with
  | .batch _ .next => true
  | _ => false

/-- What is left of the window after the pause. -/
def restOfWindow (s : State) : Option (State × List Effect) :=
  (exec oneValidator oneTransfer 1 s (.checkLog true)).bind fun r =>
    exec oneValidator oneTransfer 1 r.1 (.judgeLog ⟨some (some 6), true, .stored⟩ true)

/-- **Signed while paused**: the operator pauses between the opening of a window and its first
log, the pause is saved and answered, and the transfer is signed and stored after it. -/
theorem signed_while_paused :
    oneTransfer.Genuine oneValidator ∧ ∃ tr s,
      Run (exec oneValidator oneTransfer 1) (boot oneValidator 1 none []) tr s ∧
        ¬PauseKept oneValidator oneTransfer tr := by
  have hsome : (runFrom (exec oneValidator oneTransfer 1) (boot oneValidator 1 none [])
      openedOne).isSome = true := by decide +kernel
  have hrun := run_traceOf hsome
  have hbetween : (traceOf (exec oneValidator oneTransfer 1) (boot oneValidator 1 none [])
      openedOne).2.between = true := by decide +kernel
  have hempty : (traceOf (exec oneValidator oneTransfer 1) (boot oneValidator 1 none [])
      openedOne).2.store = [] := by decide +kernel
  have hstored : ((restOfWindow { (traceOf (exec oneValidator oneTransfer 1)
      (boot oneValidator 1 none []) openedOne).2 with
        rt := ((traceOf (exec oneValidator oneTransfer 1) (boot oneValidator 1 none [])
          openedOne).2.rt.pause .operator).save true }).any
            fun r => !r.1.store.isEmpty) = true := by decide +kernel
  generalize traceOf (exec oneValidator oneTransfer 1) (boot oneValidator 1 none []) openedOne =
    r at hrun hbetween hempty hstored
  obtain ⟨⟨s', o⟩, hrest, hany⟩ := Option.any_eq_true _ _ |>.mp hstored
  obtain ⟨⟨s₂, o₂⟩, hcheck, hjudge⟩ := Option.bind_eq_some_iff.mp hrest
  refine ⟨genuine_oneTransfer, _, _,
    ((hrun.snoc (a := .pauseOne true) rfl).snoc hcheck).snoc hjudge, fun hkept => ?_⟩
  have hheld := hkept r.1 _ [⟨_, .checkLog true, o₂, s₂⟩] _ []
    ((List.append_assoc _ _ _).trans (List.append_assoc _ _ _))
    ⟨⟨true, rfl⟩, by simp [Label.IsRelease, Label.IsRescan]⟩
  obtain ⟨rows, hstore, -, hrows⟩ := hheld.stored
  have hrow : rows ≠ [] := by
    rintro rfl
    have hnil : s'.store = [] := hstore.trans hempty
    simp [hnil] at hany
  -- The row is of no event the loop was inside of: it was inside of none.
  obtain ⟨row, hmem⟩ := List.exists_mem_of_ne_nil rows hrow
  obtain ⟨ev, record, ⟨b, record', rest, hphase, -⟩, -⟩ := hrows row hmem
  rw [State.between, hphase] at hbetween
  cases hbetween

end Validator

end SelendraBridge
