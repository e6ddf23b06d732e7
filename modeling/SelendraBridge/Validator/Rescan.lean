import SelendraBridge.Validator.Cursor

/-!
# Rescans

`rescan_one` moves the block cursor and forgets the nonces, under the lock. A scan loop
reads the block cursor when it picks a window and writes it when it is done with it, with
many waits in between, and the write does not look at what it overwrites. A rescan that
comes in between is therefore gone when the batch ends well – the cursor is put at the end of
the window – and half gone when it ends badly, for then the nonces it forgot come back while
the block stays where it put it (`SelendraBridge.Validator.rescan_lost` is the first case).

Where no batch ends under a cursor it has not read
(`SelendraBridge.Validator.FinishesAlone`), a rescan is kept
(`SelendraBridge.Validator.rescan_kept`): every log from the block asked for is passed to
`handle_log` again before a saved cursor is past it, without an anomaly, and only a rescan
ever moves the cursor back.
-/

namespace SelendraBridge

namespace Validator

open Store Transition

variable {cfg : Config} {chain : Chain} {startBlock : ℕ} {s s' : State} {l : Label}
  {o : List Effect} {tr : Trace}

/-! ### Batches a rescan has overtaken -/

/-- Whether a rescan has come since the cursor was read, after one more step. -/
def overtake (b : Bool) : Label → Bool
  | .rescanOne _ _ => true
  | .readCursor => false
  | _ => b

/-- **A rescan has come since the loop last read the cursor.** -/
def overtaken (ls : List Label) : Bool := ls.foldl overtake false

/-- The labels of a run. -/
def labels (tr : Trace) : List Label := tr.map Entry.label

/-- **No batch ends that a rescan has overtaken.** -/
def FinishesAlone (tr : Trace) : Prop :=
  ∀ ls₁ disk ls₂, labels tr = ls₁ ++ .finish disk :: ls₂ → overtaken ls₁ = false

/-- Every process of the run starts from a file whose nonces are those of the logs up to its
block. -/
def StartsWhole (chain : Chain) (tr : Trace) : Prop :=
  ∀ e ∈ tr, e.label = .crash → ∀ p, e.pre.rt.file = some p →
    Follows chain p.nonces (p.lastBlock + 1)

@[simp]
theorem labels_cons (e : Entry State Label (List Effect)) (tr : Trace) :
    labels (e :: tr) = e.label :: labels tr := rfl

theorem labels_append (tr₁ tr₂ : Trace) : labels (tr₁ ++ tr₂) = labels tr₁ ++ labels tr₂ :=
  List.map_append

theorem overtaken_append_singleton (ls : List Label) (l : Label) :
    overtaken (ls ++ [l]) = overtake (overtaken ls) l := by
  rw [overtaken, List.foldl_append]
  rfl

/-- A step that is neither a rescan nor a read of the cursor overtakes nothing. -/
theorem overtake_of_ne {b : Bool} (hl : ¬l.IsRescan) (hread : l ≠ .readCursor) :
    overtake b l = b := by
  cases l with
  | rescanOne n disk => exact absurd ⟨n, disk, rfl⟩ hl
  | readCursor => exact absurd rfl hread
  | _ => rfl

theorem overtake_of_isRescan {b : Bool} (hl : l.IsRescan) : overtake b l = true := by
  obtain ⟨n, disk, rfl⟩ := hl
  rfl

/-- Once overtaken, a batch stays so until the cursor is read. -/
theorem overtaken_of_no_readCursor {ls₁ ls₂ : List Label} (hl : l.IsRescan)
    (hread : .readCursor ∉ ls₂) : overtaken (ls₁ ++ l :: ls₂) = true := by
  induction ls₂ using List.reverseRecOn with
  | nil => rw [overtaken_append_singleton, overtake_of_isRescan hl]
  | append_singleton ls₂ l' ih =>
    have hprev := ih fun h => hread (List.mem_append_left _ h)
    have happend : ls₁ ++ l :: (ls₂ ++ [l']) = (ls₁ ++ l :: ls₂) ++ [l'] := by simp
    rw [happend, overtaken_append_singleton, hprev]
    cases l' with
    | readCursor => exact absurd (List.mem_append_right _ List.mem_cons_self) hread
    | _ => rfl

theorem FinishesAlone.of_append {tr' : Trace} (h : FinishesAlone (tr ++ tr')) :
    FinishesAlone tr := by
  intro ls₁ disk ls₂ htr
  refine h ls₁ disk (ls₂ ++ labels tr') ?_
  rw [labels_append, htr]
  simp

/-- **The cursor is where the loop read it**, unless a rescan has come since. -/
theorem current_of_run (hrun : Run (exec cfg chain startBlock) s tr s') (h₀ : Current s) :
    overtaken (labels tr) = false → Current s' := by
  refine hrun.rec_trace (P := fun tr s => overtaken (labels tr) = false → Current s)
    (fun _ => h₀) ?_
  intro tr s l s' o _ ih hexec hover
  rw [labels_append] at hover
  have hlast : overtake (overtaken (labels tr)) l = false := by
    rw [← overtaken_append_singleton]
    exact hover
  by_cases hl : l.IsRescan
  · rw [overtake_of_isRescan hl] at hlast
    cases hlast
  · by_cases hread : l = .readCursor
    · subst hread
      exact (step_of_exec hexec).current_of_readCursor
    · rw [overtake_of_ne hl hread] at hlast
      exact (step_of_exec hexec).current hl (ih hlast)

/-- **The loop stays in step with its chain**, as long as no overtaken batch ends and no process
starts from a file that is not. -/
theorem sequenced_of_run (hgen : chain.Genuine cfg)
    {store : List (SubmissionRecord × SignerSig)}
    (hrun : Run (exec cfg chain startBlock) (boot cfg startBlock none store) tr s)
    (hfinish : FinishesAlone tr) (hcrash : StartsWhole chain tr) :
    Shaped cfg chain s ∧ Sequenced chain s := by
  refine hrun.rec_trace (P := fun tr s => FinishesAlone tr → StartsWhole chain tr →
    Shaped cfg chain s ∧ Sequenced chain s)
    (fun _ _ => ⟨shaped_boot none store, sequenced_boot store⟩) ?_ hfinish hcrash
  intro tr s l s' o hrun ih hexec hfinish hcrash
  obtain ⟨hs, hseq⟩ := ih hfinish.of_append fun e he => hcrash e (List.mem_append_left _ he)
  have hstep := step_of_exec hexec
  refine ⟨hstep.shaped hs, hstep.sequenced hgen hs hseq ?_ ?_⟩
  · rintro b disk rfl -
    have hover := hfinish (labels tr) disk [] (by rw [labels_append]; rfl)
    exact current_of_run hrun (current_boot none store) hover
  · intro hl
    exact hcrash ⟨s, l, o, s'⟩ (List.mem_append_right _ List.mem_cons_self) hl

/-! ### The replay -/

/-- The event was passed to `handle_log`. -/
def Handled (tr : Trace) (ev : SentEvent) : Prop := ∃ e ∈ tr, .handled ev ∈ e.out

theorem Handled.append {ev : SentEvent} (h : Handled tr ev) (tr' : Trace) :
    Handled (tr ++ tr') ev := by
  obtain ⟨e, he, hev⟩ := h
  exact ⟨e, List.mem_append_left _ he, hev⟩

/-- **A batch is inside, or done with, only what it was passed.** -/
theorem Step.handled (h : Step cfg chain startBlock s l s' o) (hs : Shaped cfg chain s)
    (hold : ∀ ev, Done chain s ev ∨ Judged s ev ∨ Checked s ev → Handled tr ev) {ev : SentEvent}
    (hev : Done chain s' ev ∨ Judged s' ev ∨ Checked s' ev) :
    Handled (tr ++ [⟨s, l, o, s'⟩]) ev := by
  have hnow : ∀ ev, .handled ev ∈ o → Handled (tr ++ [⟨s, l, o, s'⟩]) ev :=
    fun ev hev => ⟨⟨s, l, o, s'⟩, List.mem_append_right _ List.mem_cons_self, hev⟩
  rcases hev with hdone | hjudged | hchecked
  · rcases h.done_cases hs hdone with hdone | hjudged | ⟨hev, -⟩
    · exact (hold ev (.inl hdone)).append _
    · exact (hold ev (.inr (.inl hjudged))).append _
    · exact hnow ev hev
  · rcases h.judged_cases hs hjudged with hjudged | ⟨hchecked, -⟩
    · exact (hold ev (.inr (.inl hjudged))).append _
    · exact (hold ev (.inr (.inr hchecked))).append _
  · rcases h.checked_cases hchecked with hchecked | hev
    · exact (hold ev (.inr (.inr hchecked))).append _
    · exact hnow ev hev

/-- **What a rescan from block `n` has behind it**: every log from there to the cursor was
handled since; and so were the ones a batch has done, if it has read the cursor since. -/
structure Replayed (chain : Chain) (n : ℕ) (tr : Trace) (s : State) : Prop where
  le : n ≤ s.rt.persist.lastBlock + 1
  cursor : ∀ ev ∈ chain.sentIn n (s.rt.persist.lastBlock + 1), Handled tr ev
  batch : .readCursor ∈ labels tr → Current s ∧
    ∀ ev, Done chain s ev ∨ Judged s ev ∨ Checked s ev → Handled tr ev

/-- Right after the rescan there is nothing between the block asked for and the cursor. -/
theorem replayed_rescan (hgen : chain.Genuine cfg) {n : ℕ} {disk : Bool} :
    Replayed chain n [] { s with rt := (s.rt.rescanFrom n).save disk } := by
  have hlast : ((s.rt.rescanFrom n).save disk).persist.lastBlock = n - 1 := by simp
  refine ⟨by rw [hlast]; omega, fun ev hev => ?_, fun h => by cases h⟩
  rw [hlast] at hev
  obtain ⟨m, hlo, hhi, hm⟩ := Chain.mem_sentIn.mp hev
  -- Only from the genesis block on would there be one, and that one is empty.
  obtain rfl : m = 0 := by omega
  rw [hgen.genesis] at hm
  cases hm

/-- **Where a step leaves the cursor, everything before it was handled.** -/
theorem Replayed.cursor_step {n : ℕ} (h : Replayed chain n tr s)
    (hstep : Step cfg chain startBlock s l s' o) (hs : Shaped cfg chain s) (hl : ¬l.IsRescan)
    (hcrash : l ≠ .crash) (hfinish : ∀ disk, l = .finish disk → .readCursor ∈ labels tr) :
    n ≤ s'.rt.persist.lastBlock + 1 ∧
      ∀ ev ∈ chain.sentIn n (s'.rt.persist.lastBlock + 1), Handled tr ev := by
  rcases hstep.lastBlock_cases hl hcrash with heq | ⟨b, disk, hl', hphase, hlogs, heq⟩
  · rw [heq]
    exact ⟨h.le, h.cursor⟩
  · -- The window that ends here began at the cursor, so it leaves nothing out.
    obtain ⟨hcur, hdone⟩ := h.batch (hfinish disk hl')
    have hfrom := hcur.batch hphase
    have hle := (hs.batch hphase).le
    have hn := h.le
    refine ⟨by omega, fun ev hev => ?_⟩
    rw [heq, ← @Chain.sentIn_append chain _ b.fromBlock _ (by omega) (by omega),
      List.mem_append] at hev
    rcases hev with hev | hev
    · exact h.cursor ev (hfrom ▸ hev)
    · obtain ⟨done, hsplit⟩ := (hs.batch hphase).suffix
      rw [hsplit, hlogs, List.append_nil] at hev
      exact hdone ev (.inl ((done_of_eq_append hphase hsplit).mpr hev))

theorem Replayed.step {n : ℕ} (h : Replayed chain n tr s)
    (hstep : Step cfg chain startBlock s l s' o) (hs : Shaped cfg chain s) (hl : ¬l.IsRescan)
    (hcrash : l ≠ .crash) (hfinish : ∀ disk, l = .finish disk → .readCursor ∈ labels tr) :
    Replayed chain n (tr ++ [⟨s, l, o, s'⟩]) s' := by
  obtain ⟨hle, hcursor⟩ := h.cursor_step hstep hs hl hcrash hfinish
  refine ⟨hle, fun ev hev => (hcursor ev hev).append _, fun hread => ?_⟩
  by_cases hlread : l = .readCursor
  · -- The loop has just read the cursor: nothing is done yet.
    subst hlread
    refine ⟨hstep.current_of_readCursor, fun ev hev => ?_⟩
    cases hstep
    rcases hev with ⟨b, stage, done, hphase, -⟩ | ⟨b, record, rest, hphase, -⟩ |
      ⟨b, record, rest, hphase, -⟩ <;> cases hphase
  · have hread' : .readCursor ∈ labels tr := by
      rw [labels_append, List.mem_append] at hread
      rcases hread with hread | hread
      · exact hread
      · exact absurd (List.mem_singleton.mp hread).symm hlread
    obtain ⟨hcur, hold⟩ := h.batch hread'
    exact ⟨hstep.current hl hcur, fun ev hev => hstep.handled hs hold hev⟩

/-- **A run after a rescan handles everything again**, as long as a batch ends only when it
has read the cursor since. -/
theorem replayed_of_run {n : ℕ} (hs : Shaped cfg chain s) (h : Replayed chain n [] s)
    (hrun : Run (exec cfg chain startBlock) s tr s')
    (hl : ∀ e ∈ tr, ¬e.label.IsRescan ∧ e.label ≠ .crash)
    (hfinish : ∀ ls₁ disk ls₂, labels tr = ls₁ ++ .finish disk :: ls₂ → .readCursor ∈ ls₁) :
    Replayed chain n tr s' := by
  refine hrun.rec_trace (P := fun tr s => (∀ e ∈ tr, ¬e.label.IsRescan ∧ e.label ≠ .crash) →
    (∀ ls₁ disk ls₂, labels tr = ls₁ ++ .finish disk :: ls₂ → .readCursor ∈ ls₁) →
    Replayed chain n tr s) (fun _ _ => h) ?_ hl hfinish
  intro tr s l s' o hrun ih hexec hl hfinish
  obtain ⟨hlr, hlc⟩ := hl ⟨s, l, o, s'⟩ (List.mem_append_right _ List.mem_cons_self)
  have hprev := ih (fun e he => hl e (List.mem_append_left _ he)) fun ls₁ disk ls₂ htr =>
    hfinish ls₁ disk (ls₂ ++ [l]) (by rw [labels_append, htr]; simp [labels])
  refine hprev.step (step_of_exec hexec) (shaped_of_run hs hrun) hlr hlc ?_
  rintro disk rfl
  exact hfinish (labels tr) disk [] (by rw [labels_append]; rfl)

/-! ### Rescans that are kept -/

/-- **A rescan that is kept**: until the next one, and while the process lives, every log from
the block asked for is handled again before a saved cursor is past it; no nonce anomaly is
raised; and with no rescan under way the cursor never goes back. -/
structure RescanKept (chain : Chain) (tr : Trace) : Prop where
  replayed : ∀ tr₁ r tr₂ w tr₃ n disk p, tr = tr₁ ++ r :: (tr₂ ++ w :: tr₃) →
    r.label = .rescanOne n disk →
    (∀ e ∈ tr₂ ++ [w], ¬e.label.IsRescan ∧ e.label ≠ .crash) → .saved p ∈ w.out →
    ∀ ev ∈ chain.sentIn n (p.lastBlock + 1), Handled tr₂ ev
  noAnomaly : ∀ e ∈ tr, ∀ reason, .raised reason ∈ e.out → reason.isNonceAnomaly = false
  monotone : ∀ tr₁ e tr₂, tr = tr₁ ++ e :: tr₂ → overtaken (labels tr₁) = false →
    ¬e.label.IsRescan → e.label ≠ .crash →
    e.pre.rt.persist.lastBlock ≤ e.post.rt.persist.lastBlock

/-- **A rescan is never lost**, on a chain's true logs, as long as none comes between a batch's
read of the cursor and its end. -/
theorem rescan_kept (hgen : chain.Genuine cfg) {store : List (SubmissionRecord × SignerSig)}
    (hrun : Run (exec cfg chain startBlock) (boot cfg startBlock none store) tr s)
    (hfinish : FinishesAlone tr) (hcrash : StartsWhole chain tr) : RescanKept chain tr := by
  refine ⟨?_, fun e he reason hraised => ?_, ?_⟩
  · rintro tr₁ r tr₂ w tr₃ n disk p rfl hr hl hp ev hev
    have hrescan : r.label.IsRescan := ⟨n, disk, hr⟩
    obtain ⟨hrun₁, hexec, hrun₂⟩ := hrun.split
    obtain ⟨hrun₂, hexec', -⟩ := hrun₂.split
    -- A batch that ends after the rescan has read the cursor since.
    have hread : ∀ ls₁ disk' ls₂, labels (tr₂ ++ w :: tr₃) = ls₁ ++ .finish disk' :: ls₂ →
        .readCursor ∈ ls₁ := by
      intro ls₁ disk' ls₂ htr
      by_contra hno
      have halone := hfinish (labels tr₁ ++ r.label :: ls₁) disk' ls₂ (by
        rw [labels_append, labels_cons, htr]
        simp)
      rw [overtaken_of_no_readCursor hrescan hno] at halone
      cases halone
    have hs := shaped_of_run (shaped_boot none store) hrun₁
    have hspost := (step_of_exec hexec).shaped hs
    have hstart : Replayed chain n [] r.post := by
      have hstep := step_of_exec hexec
      rw [hr] at hstep
      generalize r.post = post at hstep ⊢
      generalize r.out = out at hstep
      cases hstep with
      | rescanned => exact replayed_rescan hgen
    have hall : Replayed chain n tr₂ w.pre := by
      refine replayed_of_run hspost hstart hrun₂
        (fun e he => hl e (List.mem_append_left _ he)) fun ls₁ disk' ls₂ htr => ?_
      exact hread ls₁ disk' (ls₂ ++ labels (w :: tr₃)) (by rw [labels_append, htr]; simp)
    obtain ⟨hlw, hcw⟩ := hl w (List.mem_append_right _ List.mem_cons_self)
    have hcursor := hall.cursor_step (step_of_exec hexec') (shaped_of_run hspost hrun₂) hlw hcw
      fun disk' hw => hread (labels tr₂) disk' (labels tr₃) (by
        rw [labels_append, labels_cons, hw])
    rw [(step_of_exec hexec').saved_eq hp] at hev
    exact hcursor.2 ev hev
  · obtain ⟨tr₁, tr₂, rfl⟩ := List.append_of_mem he
    obtain ⟨hrun₁, hexec, -⟩ := hrun.split
    obtain ⟨hs, hseq⟩ := sequenced_of_run hgen hrun₁ hfinish.of_append
      fun e' he' => hcrash e' (List.mem_append_left _ he')
    have hoperator := (step_of_exec hexec).raised_eq hgen hs hseq hraised
    rw [hoperator]
    rfl
  · rintro tr₁ e tr₂ rfl hover hl hc
    obtain ⟨hrun₁, hexec, -⟩ := hrun.split
    have hs := shaped_of_run (shaped_boot none store) hrun₁
    exact (step_of_exec hexec).lastBlock_le hs
      (fun _ _ => current_of_run hrun₁ (current_boot none store) hover) hl hc

/-- A window, a rescan of it when it is done, and the window again. -/
def rescanBetween : List Label :=
  scanOne ++ .finish true :: .rescanOne 1 true :: scanOne ++ [.finish true]

theorem rescan_kept_between :
    RescanKept oneTransfer
      (traceOf (exec oneValidator oneTransfer 1) (boot oneValidator 1 none [])
        rescanBetween).1 := by
  have hsome : (runFrom (exec oneValidator oneTransfer 1) (boot oneValidator 1 none [])
      rescanBetween).isSome = true := by decide +kernel
  have hlabels : labels (traceOf (exec oneValidator oneTransfer 1) (boot oneValidator 1 none [])
      rescanBetween).1 = rescanBetween := label_traceOf hsome
  refine rescan_kept genuine_oneTransfer (run_traceOf hsome) ?_ ?_
  · intro ls₁ disk ls₂ htr
    rw [hlabels] at htr
    have hall : ((List.range rescanBetween.length).all fun i =>
        !(rescanBetween[i]? == some (.finish true) || rescanBetween[i]? == some (.finish false)) ||
          !overtaken (rescanBetween.take i)) = true := by decide
    have hi := List.all_eq_true.mp hall ls₁.length (by rw [htr]; simp)
    rw [htr] at hi
    cases disk <;> simpa using hi
  · intro e he hc
    have hmem : e.label ∈ rescanBetween := hlabels ▸ List.mem_map_of_mem he
    rw [hc] at hmem
    simp [rescanBetween, scanOne] at hmem

/-- The scanner is past block 1, and has opened the window of block 2. -/
def nextWindow : List Label :=
  scanOne ++ [.finish true, .wake, .readCursor, .openBatch 2 none]

/-- The effect saves a cursor at a block. -/
def savesAt (block : ℕ) : Effect → Bool
  | .saved p => p.lastBlock == block
  | _ => false

/-- **A lost rescan**: it asks for block 1 while the scanner works on block 2, and the end of
that window saves a cursor past block 2, with the transfer of block 1 not handled again. -/
theorem rescan_lost :
    oneTransfer.Genuine oneValidator ∧ ∃ tr s,
      Run (exec oneValidator oneTransfer 1) (boot oneValidator 1 none []) tr s ∧
        (∀ e ∈ tr, e.label ≠ .crash) ∧ ¬RescanKept oneTransfer tr := by
  have hsome : (runFrom (exec oneValidator oneTransfer 1) (boot oneValidator 1 none [])
      nextWindow).isSome = true := by decide +kernel
  have hrun := run_traceOf hsome
  have hlabels : labels (traceOf (exec oneValidator oneTransfer 1) (boot oneValidator 1 none [])
      nextWindow).1 = nextWindow := label_traceOf hsome
  have hsaved : ((exec oneValidator oneTransfer 1
      { (traceOf (exec oneValidator oneTransfer 1) (boot oneValidator 1 none []) nextWindow).2 with
        rt := ((traceOf (exec oneValidator oneTransfer 1) (boot oneValidator 1 none [])
          nextWindow).2.rt.rescanFrom 1).save true } (.finish true)).any fun r => r.2.any
            (savesAt 2)) = true := by decide +kernel
  generalize (traceOf (exec oneValidator oneTransfer 1) (boot oneValidator 1 none [])
    nextWindow) = r at hrun hlabels hsaved
  obtain ⟨⟨s', o⟩, hexec, hany⟩ := Option.any_eq_true _ _ |>.mp hsaved
  obtain ⟨effect, heffect, hblock⟩ := List.any_eq_true.mp hany
  refine ⟨genuine_oneTransfer, _, _, (hrun.snoc (a := .rescanOne 1 true) rfl).snoc hexec, ?_, ?_⟩
  · intro e he hc
    rcases List.mem_append.mp he with he | he
    · rcases List.mem_append.mp he with he | he
      · have hmem : e.label ∈ nextWindow := hlabels ▸ List.mem_map_of_mem he
        rw [hc] at hmem
        simp [nextWindow, scanOne] at hmem
      · rw [List.mem_singleton.mp he] at hc
        cases hc
    · rw [List.mem_singleton.mp he] at hc
      cases hc
  · intro hkept
    rcases effect with ev | ⟨ev, why⟩ | reason | p
    · cases hblock
    · cases hblock
    · cases hblock
    · have hlast : p.lastBlock = 2 := by simpa [savesAt] using hblock
      have hev : Db.emitted ∈ oneTransfer.sentIn 1 (p.lastBlock + 1) := by
        rw [hlast]
        exact Chain.mem_sentIn.mpr ⟨1, by decide, by decide, List.mem_cons_self⟩
      obtain ⟨e, he, -⟩ := hkept.replayed r.1 _ [] _ [] 1 true p (List.append_assoc _ _ _)
        rfl (by
          intro e he
          rw [List.mem_singleton.mp he]
          exact ⟨by simp [Label.IsRescan], by simp⟩) heffect _ hev
      cases he

end Validator

end SelendraBridge
