import SelendraBridge.Keeper.Finalize

/-!
# Which deliveries the keeper gets to

A delivery that somebody else claimed gets into the queue by a seed, if at all. The seed goes
through a page of the history, newest first, and loads a record for every row that is claimed on
this chain into a configured router, is not known to be finalized, and is not in the queue yet.

A seed loads at most so many records (`SelendraBridge.Keeper.SEED_LOADS`), and a row spends one
of them whether or not its record is worth the queue. A row of dust does so at every seed, and so
does a row that left the queue and that the history does not know to be finalized. So a delivery
is certain to be found, in a history that stays as it is, exactly if fewer rows than that are
eligible ahead of it (`SelendraBridge.Keeper.reaches_iff`). What is in the queue is not starved:
it stays there until it is settled, it is never put off for longer than the ceiling, and what is
due sooner comes first.
-/

namespace SelendraBridge

namespace Keeper

open Store Transition

namespace Setup

open FinalizeQueue (Keyed)

variable {c : Setup} {q : FinalizeQueue} {id : Text} {now : ℕ} {entry : QueueEntry}
  {rows ahead behind : List HistoryRow} {row r : HistoryRow} {loads : ℕ}

/-! ### A page of the history -/

/-- **What the seed is about**: a page of the history, every read of which goes through. A row `r`
of it is claimed on this chain into a configured router, and its record is not dust. -/
structure Page (c : Setup) (ahead : List HistoryRow) (r : HistoryRow) (behind : List HistoryRow) :
    Prop where
  indexed : c.store.isDir = false
  history : c.store.history = some (ahead ++ r :: behind)
  distinct : ((ahead ++ r :: behind).map HistoryRow.submissionId).Nodup
  ids : ∀ row ∈ ahead ++ r :: behind, (c.parsers.b256 row.submissionId).isSome = true
  loads : ∀ row ∈ ahead ++ r :: behind, ∃ o, c.store.load row.submissionId = some o ∧
    ∀ record, o = some record → record.submissionId = row.submissionId
  wanted : c.eligible r = true
  worth : ∃ record, c.store.load r.submissionId = some (some record) ∧
    (belowMinClaim c.parsers c.cfg record).isNone = true

theorem Page.id_of_load (hpage : Page c ahead r behind) (hrow : row ∈ ahead ++ r :: behind)
    {record : SubmissionRecord} (hload : c.store.load row.submissionId = some (some record)) :
    record.submissionId = row.submissionId := by
  obtain ⟨o, ho, hid⟩ := hpage.loads row hrow
  exact hid record (Option.some.inj (ho.symm.trans hload))

theorem Page.mem (_ : Page c ahead r behind) : r ∈ ahead ++ r :: behind :=
  List.mem_append_right _ List.mem_cons_self

/-- Looking up a row of the page brings in no id but its own. -/
theorem Page.contains_visit (hpage : Page c ahead r behind) (hrow : row ∈ ahead ++ r :: behind)
    (h : (c.visit now row q).contains id = true) :
    q.contains id = true ∨ id = row.submissionId := by
  rcases visit_cases c now row q with heq | ⟨record, router, hload, heq⟩
  · exact .inl (heq ▸ h)
  · rw [heq, FinalizeQueue.contains_enqueue, hpage.id_of_load hrow hload] at h
    exact h

/-- Looking `r` up brings it in. -/
theorem Page.visit_self (hpage : Page c ahead r behind) :
    (c.visit now r q).contains r.submissionId = true := by
  obtain ⟨record, hload, hworth⟩ := hpage.worth
  have hwanted := hpage.wanted
  rcases hrouter : routerOf c.parsers r.receiver c.cfg.routers with _ | router
  · simp [eligible, hrouter] at hwanted
  · rw [visit, hrouter, hload]
    dsimp only
    rw [if_pos hworth, FinalizeQueue.contains_enqueue]
    exact .inr (hpage.id_of_load hpage.mem hload).symm

/-- A seed with a load to spare for every eligible row ahead gets to `r`. -/
theorem Page.contains_seedRows (hpage : Page c ahead r behind) {front : List HistoryRow}
    (hloads : loads + front.countP c.eligible < SEED_LOADS) :
    (c.seedRows now (front ++ r :: behind) loads q).contains r.submissionId = true := by
  have hkeep : ∀ {q : FinalizeQueue} {loads : ℕ}, q.contains r.submissionId = true →
      (c.seedRows now behind loads q).contains r.submissionId = true := by
    intro q loads h
    obtain ⟨entry, hget⟩ := Option.isSome_iff_exists.mp h
    exact Option.isSome_iff_exists.mpr ⟨entry, get_seedRows hget⟩
  induction front generalizing loads q with
  | nil =>
    rw [List.countP_nil] at hloads
    rw [List.nil_append, seedRows_cons, if_neg (by omega)]
    split
    · exact hkeep hpage.visit_self
    · next hskip =>
      rw [hpage.wanted] at hskip
      exact hkeep (not_not.mp fun h => hskip ⟨rfl, h⟩)
  | cons row front ih =>
    rw [List.countP_cons] at hloads
    rw [List.cons_append, seedRows_cons, if_neg (by omega)]
    split
    · next hlook =>
      rw [if_pos hlook.1] at hloads
      exact ih (by omega)
    · exact ih (by omega)

/-- **A seed that runs out of loads does not get to `r`**: while none of the rows ahead is in the
queue, each of them that is eligible costs a load. -/
theorem Page.not_contains_seedRows (hpage : Page c ahead r behind) {front : List HistoryRow}
    (hsub : ∀ row ∈ front, row ∈ ahead ++ r :: behind)
    (hnodup : ((front ++ r :: behind).map HistoryRow.submissionId).Nodup)
    (hnew : ∀ row ∈ front ++ [r], ¬q.contains row.submissionId = true)
    (hloads : SEED_LOADS ≤ loads + front.countP c.eligible) :
    ¬(c.seedRows now (front ++ r :: behind) loads q).contains r.submissionId = true := by
  induction front generalizing loads q with
  | nil =>
    rw [List.countP_nil] at hloads
    rw [List.nil_append, seedRows_cons, if_pos (by omega)]
    exact hnew r (List.mem_append_right _ List.mem_cons_self)
  | cons row front ih =>
    obtain ⟨hrow, hnodup⟩ := List.nodup_cons.mp hnodup
    have hsub' : ∀ row ∈ front, row ∈ ahead ++ r :: behind :=
      fun row' hmem => hsub row' (List.mem_cons_of_mem _ hmem)
    have hnew' : ∀ row ∈ front ++ [r], ¬q.contains row.submissionId = true :=
      fun row' hmem => hnew row' (List.mem_cons_of_mem _ hmem)
    rw [List.countP_cons] at hloads
    rw [List.cons_append, seedRows_cons]
    split
    · exact hnew r (List.mem_append_right _ List.mem_cons_self)
    split
    · next hlook =>
      rw [if_pos hlook.1] at hloads
      refine ih hsub' hnodup ?_ (by omega)
      intro row' hmem h
      rcases hpage.contains_visit (hsub row List.mem_cons_self) h with h | h
      · exact hnew' row' hmem h
      · -- an id on the page is one row's only
        apply hrow
        rw [← h]
        refine List.mem_map_of_mem ?_
        rcases List.mem_append.mp hmem with hmem | hmem
        · exact List.mem_append_left _ hmem
        · obtain rfl := List.mem_singleton.mp hmem
          exact List.mem_append_right _ List.mem_cons_self
    · next hskip =>
      have hnot : ¬c.eligible row = true := fun h => hskip ⟨h, hnew row List.mem_cons_self⟩
      rw [if_neg hnot] at hloads
      exact ih hsub' hnodup hnew' (by omega)

/-- On a page, a seed goes through its rows. -/
theorem Page.seed_eq (hpage : Page c ahead r behind) :
    c.seed q now = c.seedRows now (ahead ++ r :: behind) 0 { q with seededAt := some now } := by
  have hwanted := hpage.wanted
  have hrouters : c.cfg.routers.isEmpty = false := by
    rw [List.isEmpty_eq_false_iff]
    intro h
    simp [eligible, routerOf, h] at hwanted
  rw [seed, hrouters, hpage.indexed, hpage.history]
  rfl

end Setup

/-! ### Runs -/

/-- **The queue reaches the delivery `id`**, in a run, of a page of `n` rows: after a seed for
every `SEED_LOADS` rows it was found; it leaves only by an attempt that reports it finalized,
cancelled or the keeper's own; it stays as it is otherwise, and is due again at most
`BACKOFF_MAX` after its last attempt, or after it was found; and while it is due, what is attempted
before it is due no later. -/
structure Reaches (c : Setup) (n : ℕ) (id : Text) (tr : List FinalizeStep) (s : FinalizeState) :
    Prop where
  found : (n + SEED_LOADS - 1) / SEED_LOADS ≤ seeds tr →
    ∃ e ∈ tr, e.post.queue.contains id = true
  kept : ∀ e ∈ tr, ∀ entry, e.pre.queue.get id = some entry →
    ¬e.post.queue.contains id = true → ∃ now replies, e.label = .run now replies ∧
      id ∈ e.pre.queue.due now PER_TICK ∧
      (finalizeOne c.parsers entry.record (replies id) = some .done ∨
        ∃ reason, finalizeOne c.parsers entry.record (replies id) = some (.drop reason))
  stays : ∀ e ∈ tr, ¬Attempts id e → ∀ entry, e.pre.queue.get id = some entry →
    e.post.queue.get id = some entry
  bounded : ∀ entry, s.queue.get id = some entry → ∃ earlier e since, tr = earlier ++ e :: since ∧
    (Attempts id e ∨ Enters id e) ∧ (∀ e' ∈ since, ¬Attempts id e') ∧
      entry.nextAt ≤ e.label.now + BACKOFF_MAX
  ordered : ∀ e ∈ tr, ∀ now replies, e.label = .run now replies →
    ∀ entry, e.pre.queue.get id = some entry → entry.nextAt ≤ now →
      ∀ before x after, e.pre.queue.due now PER_TICK = before ++ x :: after → id ∉ before →
        ∃ entry', e.pre.queue.get x = some entry' ∧ entry'.nextAt ≤ entry.nextAt

namespace Setup

open FinalizeQueue (Keyed later)

variable {c : Setup} {id : Text} {entry : QueueEntry} {tr : List FinalizeStep}
  {s : FinalizeState} {ahead behind : List HistoryRow} {r : HistoryRow}

theorem keyed_start : start.queue.Keyed := List.nodup_nil

theorem keyed_of_run (hrun : Run c.exec start tr s) : s.queue.Keyed :=
  hrun.invariant (P := fun s => s.queue.Keyed) keyed_start fun _ _ _ _ hq h => keyed_exec hq h

theorem keyed_of_mem (hrun : Run c.exec start tr s) {e : FinalizeStep} (he : e ∈ tr) :
    e.pre.queue.Keyed :=
  hrun.invariant_pre (P := fun s => s.queue.Keyed) keyed_start
    (fun _ _ _ _ hq h => keyed_exec hq h) he

theorem kept_of_run (hrun : Run c.exec start tr s) {e : FinalizeStep} (he : e ∈ tr)
    (hget : e.pre.queue.get id = some entry) (hgone : ¬e.post.queue.contains id = true) :
    ∃ now replies, e.label = .run now replies ∧ id ∈ e.pre.queue.due now PER_TICK ∧
      (finalizeOne c.parsers entry.record (replies id) = some .done ∨
        ∃ reason, finalizeOne c.parsers entry.record (replies id) = some (.drop reason)) := by
  have hexec := hrun.exec_of_mem he
  have hq := keyed_of_mem hrun he
  by_cases hatt : Attempts id e
  · obtain ⟨now, replies, ha, hmem⟩ := hatt
    have hpost := attempts_of_exec hq hexec ha hmem
    rw [hget, Option.bind_some] at hpost
    rw [FinalizeQueue.contains, Bool.not_eq_true, Option.isSome_eq_false_iff,
      Option.isNone_iff_eq_none, hpost] at hgone
    exact ⟨now, replies, ha, hmem, outcome_of_settle hgone⟩
  · have hpost := stays_of_exec hq hexec hatt hget
    exact absurd (Option.isSome_iff_exists.mpr ⟨entry, hpost⟩) hgone

/-- **The wait is bounded**: what is in the queue was last attempted, or found, no longer ago than
that. The run is followed step by step. -/
theorem bounded_of_run (hrun : Run c.exec start tr s) (hget : s.queue.get id = some entry) :
    ∃ earlier e since, tr = earlier ++ e :: since ∧ (Attempts id e ∨ Enters id e) ∧
      (∀ e' ∈ since, ¬Attempts id e') ∧ entry.nextAt ≤ e.label.now + BACKOFF_MAX := by
  induction hrun generalizing entry with
  | nil => cases hget
  | @snoc tr s s' a o hrun hexec ih =>
    have hq := keyed_of_run hrun
    have hlast : c.exec (⟨s, a, o, s'⟩ : FinalizeStep).pre (⟨s, a, o, s'⟩ : FinalizeStep).label =
      some (s', o) := hexec
    rcases hold : s.queue.get id with _ | old
    · -- it comes in
      have hat := enters_of_exec (e := ⟨s, a, o, s'⟩) hq hlast hold hget
      refine ⟨tr, ⟨s, a, o, s'⟩, [], rfl, .inr ⟨?_, ?_⟩, by simp, ?_⟩
      · simp [FinalizeQueue.contains, hold]
      · simp [FinalizeQueue.contains, hget]
      · exact hat.le.trans (Nat.le_add_right _ _)
    · by_cases hatt : Attempts id ⟨s, a, o, s'⟩
      · have hatt' := hatt
        obtain ⟨now, replies, ha, hmem⟩ := hatt'
        have hpost := attempts_of_exec (e := ⟨s, a, o, s'⟩) hq hlast ha hmem
        dsimp only at hpost ha
        rw [hget, hold, Option.bind_some] at hpost
        refine ⟨tr, ⟨s, a, o, s'⟩, [], rfl, .inl hatt, by simp, ?_⟩
        rw [settle_eq_later hpost.symm, ha]
        exact FinalizeQueue.later_le
      · have hpost := stays_of_exec (e := ⟨s, a, o, s'⟩) hq hlast hatt hold
        obtain rfl : old = entry := Option.some.inj (hpost.symm.trans hget)
        obtain ⟨earlier, e, since, rfl, he, hsince, hle⟩ := ih hold
        refine ⟨earlier, e, since ++ [⟨s, a, o, s'⟩], by simp, he, ?_, hle⟩
        intro e' he'
        rcases List.mem_append.mp he' with he' | he'
        · exact hsince e' he'
        · rwa [List.mem_singleton.mp he']

/-- A seed that has the loads finds the delivery. -/
theorem Page.found_of_run (hpage : Page c ahead r behind)
    (hloads : ahead.countP c.eligible < SEED_LOADS) (hrun : Run c.exec start tr s)
    (hseed : 0 < seeds tr) : ∃ e ∈ tr, e.post.queue.contains r.submissionId = true := by
  obtain ⟨e, he, hlabel⟩ := List.countP_pos_iff.mp hseed
  refine ⟨e, he, ?_⟩
  obtain ⟨-, hnext, -⟩ := exec_cases (hrun.exec_of_mem he)
  cases ha : e.label with
  | enqueue now record router => simp [ha, FinalizeEvent.isSeed] at hlabel
  | run now replies => simp [ha, FinalizeEvent.isSeed] at hlabel
  | seed now =>
    rw [ha] at hnext
    rw [(next_seed hnext).2, hpage.seed_eq]
    exact hpage.contains_seedRows (by omega)

/-- Every run of a queue whose seeds have the loads reaches the delivery. -/
theorem Page.reaches_of_lt (hpage : Page c ahead r behind)
    (hloads : ahead.countP c.eligible < SEED_LOADS) (hrun : Run c.exec start tr s) :
    Reaches c (ahead ++ r :: behind).length r.submissionId tr s where
  found := by
    intro hseeds
    refine hpage.found_of_run hloads hrun (lt_of_lt_of_le ?_ hseeds)
    rw [List.length_append, List.length_cons]
    refine Nat.div_pos ?_ (by decide)
    omega
  kept _ he _ hget hgone := kept_of_run hrun he hget hgone
  stays _ he hnot _ hget := stays_of_exec (keyed_of_mem hrun he) (hrun.exec_of_mem he) hnot hget
  bounded _ hget := bounded_of_run hrun hget
  ordered _ he _ _ _ _ hget hdue _ _ _ heq hid :=
    FinalizeQueue.due_ordered (keyed_of_mem hrun he) hget hdue heq hid

/-! ### Running out of loads -/

/-- The chain says that it is finalized. -/
def Replies.settled : Replies :=
  ⟨some true, some false, some true, some false, some false, true, some true⟩

/-- An attempt at what is finalized is done. -/
theorem settle_settled (now : ℕ) (id : Text)
    (hid : (c.parsers.b256 entry.record.submissionId).isSome = true) :
    c.settle now (fun _ => Replies.settled) id entry = none := by
  obtain ⟨w, hw⟩ := Option.isSome_iff_exists.mp hid
  have hdone : finalizeOne c.parsers entry.record Replies.settled = some .done := by
    rw [finalizeOne, hw]
    rfl
  rw [settle, hdone]

/-- A tick at which the chain says of every delivery that it is finalized. -/
def sweep (c : Setup) (now : ℕ) (q : FinalizeQueue) : FinalizeQueue :=
  c.run q now fun _ => Replies.settled

/-- Everything in the queue is due, under an id. -/
def Fresh (c : Setup) (now : ℕ) (q : FinalizeQueue) : Prop :=
  ∀ id entry, q.get id = some entry →
    entry.nextAt ≤ now ∧ (c.parsers.b256 entry.record.submissionId).isSome = true

/-- Something is due in a queue where everything is. -/
theorem exists_mem_due {q : FinalizeQueue} {now : ℕ} (hq : q.Keyed) (hfresh : Fresh c now q)
    (hne : q.entries ≠ []) : ∃ id, id ∈ q.due now PER_TICK := by
  obtain ⟨⟨id, entry⟩, es, heq⟩ := List.exists_cons_of_ne_nil hne
  have hget : q.get id = some entry :=
    FinalizeQueue.get_of_mem_entries hq (heq ▸ List.mem_cons_self)
  have hmem := (FinalizeQueue.mem_dueAt hq).mpr ⟨entry, hget, rfl, (hfresh id entry hget).1⟩
  rcases hdue : q.dueAt now with _ | ⟨y, ys⟩
  · rw [hdue] at hmem
    cases hmem
  · exact ⟨y.2, by rw [FinalizeQueue.due_eq, hdue]; exact List.mem_cons_self⟩

theorem get_sweep {q : FinalizeQueue} {now : ℕ} (hq : q.Keyed) (hfresh : Fresh c now q) :
    (c.sweep now q).get id = if id ∈ q.due now PER_TICK then none else q.get id := by
  rw [sweep, get_run hq]
  split
  · rcases hold : q.get id with _ | old
    · rfl
    · exact settle_settled now id (hfresh id old hold).2
  · rfl

theorem get_of_sweep {q : FinalizeQueue} {now : ℕ} (hq : q.Keyed) (hfresh : Fresh c now q)
    (h : (c.sweep now q).get id = some entry) : q.get id = some entry := by
  rw [get_sweep hq hfresh] at h
  split at h
  · cases h
  · exact h

theorem contains_of_sweep {q : FinalizeQueue} {now : ℕ} (hq : q.Keyed) (hfresh : Fresh c now q)
    (h : (c.sweep now q).contains id = true) : q.contains id = true := by
  obtain ⟨entry, h⟩ := Option.isSome_iff_exists.mp h
  exact Option.isSome_iff_exists.mpr ⟨entry, get_of_sweep hq hfresh h⟩

/-- Such a tick takes something out, unless the queue is empty. -/
theorem length_sweep_lt {q : FinalizeQueue} {now : ℕ} (hq : q.Keyed) (hfresh : Fresh c now q)
    (hne : q.entries ≠ []) : (c.sweep now q).entries.length < q.entries.length := by
  obtain ⟨x, hx⟩ := exists_mem_due hq hfresh hne
  have hxold : x ∈ q.entries.map Prod.fst := by
    obtain ⟨entry, h, -⟩ := FinalizeQueue.contains_of_mem_due hq hx
    exact FinalizeQueue.contains_iff.mp (Option.isSome_iff_exists.mpr ⟨entry, h⟩)
  have hxnew : x ∉ (c.sweep now q).entries.map Prod.fst := by
    rw [← FinalizeQueue.contains_iff, FinalizeQueue.contains, get_sweep hq hfresh, if_pos hx]
    simp
  have hsubset : x :: (c.sweep now q).entries.map Prod.fst ⊆ q.entries.map Prod.fst := by
    refine List.cons_subset.mpr ⟨hxold, ?_⟩
    intro id h
    rw [← FinalizeQueue.contains_iff] at h ⊢
    exact contains_of_sweep hq hfresh h
  have hq' : (c.sweep now q).Keyed := keyed_attempts hq
  have hle := (List.subperm_of_subset (List.nodup_cons.mpr ⟨hxnew, hq'⟩) hsubset).length_le
  simp only [List.length_cons, List.length_map] at hle
  exact hle

theorem seededAt_attempts {q : FinalizeQueue} {now : ℕ} {replies : Text → Replies}
    (xs : List Text) : (xs.foldl (c.attempt now replies) q).seededAt = q.seededAt := by
  induction xs generalizing q with
  | nil => rfl
  | cons x xs ih =>
    rw [List.foldl_cons, ih]
    rcases hx : q.get x with _ | entry
    · rw [attempt_of_none hx]
    · rw [attempt_of_get hx]
      split <;> rfl

/-- **The queue can run empty**: everything in it is due, and ticks at which the chain says that it
is finalized take it out. By induction on how much there is. -/
theorem exists_drain {now : ℕ} (hq : s.queue.Keyed) (hfresh : Fresh c now s.queue)
    (hclock : s.clock ≤ now) : ∃ tr s', Run c.exec s tr s' ∧ s'.queue.entries = [] ∧
      s'.queue.seededAt = s.queue.seededAt ∧ s'.clock ≤ now ∧ seeds tr = 0 ∧
      ∀ e ∈ tr, ∀ id, e.post.queue.contains id = true → s.queue.contains id = true := by
  generalize hn : s.queue.entries.length = n
  induction n using Nat.strong_induction_on generalizing s with
  | _ n ih =>
    by_cases hne : s.queue.entries = []
    · exact ⟨[], s, .nil, hne, rfl, hclock, rfl, by simp⟩
    have hlt := length_sweep_lt hq hfresh hne
    rw [hn] at hlt
    obtain ⟨tr, s', hrun, hempty, hseeded, hle, hzero, hpost⟩ :=
      ih _ hlt (s := ⟨c.sweep now s.queue, now⟩) (keyed_attempts hq)
        (fun id entry h => hfresh id entry (get_of_sweep hq hfresh h)) le_rfl rfl
    have hexec : c.exec s (.run now fun _ => Replies.settled) =
        some (⟨c.sweep now s.queue, now⟩, ()) := if_pos hclock
    refine ⟨_, s', (Run.nil.snoc hexec).append hrun, hempty, ?_, hle, ?_, ?_⟩
    · exact hseeded.trans (seededAt_attempts _)
    · rw [seeds_append, hzero]
      rfl
    · intro e he id h
      rcases List.mem_append.mp he with he | he
      · obtain rfl := List.mem_singleton.mp he
        exact contains_of_sweep hq hfresh h
      · exact contains_of_sweep hq hfresh (hpost e he id h)

/-- What a seed of an empty queue brings in is due, and under an id of the page. -/
theorem Page.fresh_seedRows (hpage : Page c ahead r behind) {now loads : ℕ} {q : FinalizeQueue}
    (hq : Fresh c now q) : Fresh c now (c.seedRows now (ahead ++ r :: behind) loads q) := by
  refine seedRows_induction hq ?_
  intro row hrow q hq id entry hget
  rcases get_visit_cases hget with hold | ⟨hload, -, hat⟩
  · exact hq id entry hold
  · rw [hpage.id_of_load hrow hload]
    exact ⟨hat.le, hpage.ids row hrow⟩

theorem seededAt_seedRows {now loads : ℕ} {rows : List HistoryRow} {q : FinalizeQueue} :
    (c.seedRows now rows loads q).seededAt = q.seededAt := by
  refine seedRows_induction (P := fun q' => q'.seededAt = q.seededAt) rfl ?_
  intro row _ q' hq'
  rcases visit_cases c now row q' with heq | ⟨_, _, -, heq⟩
  · rwa [heq]
  · rw [heq, FinalizeQueue.enqueue]
    split
    · exact hq'
    · exact hq'

/-- **The seeds can miss the delivery for ever**, however many there are, if the rows ahead cost
them their loads: what one of them brings in has left before the next. -/
theorem Page.exists_missing (hpage : Page c ahead r behind)
    (hloads : SEED_LOADS ≤ ahead.countP c.eligible) (n : ℕ) :
    ∃ tr s, Run c.exec start tr s ∧ seeds tr = n ∧ s.queue.entries = [] ∧
      s.clock ≤ n * SEED_INTERVAL ∧
      (s.queue.seededAt.all fun t => decide (t + SEED_INTERVAL ≤ n * SEED_INTERVAL)) = true ∧
      ∀ e ∈ tr, ¬e.post.queue.contains r.submissionId = true := by
  induction n with
  | zero => exact ⟨[], start, .nil, rfl, rfl, Nat.zero_le _, rfl, by simp⟩
  | succ n ih =>
    obtain ⟨tr, s, hrun, hseeds, hempty, hclock, hdue, hmiss⟩ := ih
    let now := n * SEED_INTERVAL
    have hnone : ∀ id, s.queue.get id = none := fun id => by
      rw [FinalizeQueue.get, hempty, List.lookup_nil]
    have hseedDue : s.queue.seedDue now = true := by
      rw [FinalizeQueue.seedDue]
      rcases hat : s.queue.seededAt with _ | t
      · rfl
      · rw [hat, Option.all_some, decide_eq_true_iff] at hdue
        rw [Option.all_some, decide_eq_true_iff]
        omega
    have hexec : c.exec s (.seed now) = some (⟨c.seed s.queue now, now⟩, ()) := by
      refine (if_pos hclock).trans ?_
      rw [next, if_pos hseedDue]
      rfl
    have hnot : ¬(c.seed s.queue now).contains r.submissionId = true := by
      rw [hpage.seed_eq]
      refine hpage.not_contains_seedRows (fun row h => List.mem_append_left _ h) hpage.distinct ?_
        (by omega)
      intro row _ h
      obtain ⟨entry, h⟩ := Option.isSome_iff_exists.mp h
      have h' : s.queue.get row.submissionId = some entry := h
      rw [hnone] at h'
      cases h'
    have hfresh : Fresh c now (c.seed s.queue now) := by
      rw [hpage.seed_eq]
      refine hpage.fresh_seedRows ?_
      intro id entry h
      have h' : s.queue.get id = some entry := h
      rw [hnone] at h'
      cases h'
    have hkeyed : (c.seed s.queue now).Keyed := keyed_seed (keyed_of_run hrun)
    have hat : (c.seed s.queue now).seededAt = some now := by
      rw [hpage.seed_eq, seededAt_seedRows]
    obtain ⟨tr', s', hrun', hempty', hseeded, hle, hzero, hpost⟩ :=
      exists_drain (s := ⟨c.seed s.queue now, now⟩) hkeyed hfresh le_rfl
    refine ⟨_, s', (hrun.snoc hexec).append hrun', ?_, hempty', ?_, ?_, ?_⟩
    · rw [seeds_append, seeds_append, hzero, hseeds]
      rfl
    · rw [Nat.succ_mul]
      exact hle.trans (Nat.le_add_right _ _)
    · rw [hseeded, hat, Option.all_some, decide_eq_true_iff, Nat.succ_mul]
    · intro e he
      rcases List.mem_append.mp he with he | he
      · rcases List.mem_append.mp he with he | he
        · exact hmiss e he
        · rwa [List.mem_singleton.mp he]
      · exact fun h => hnot (hpost e he _ h)

/-- So some run does not reach the delivery. -/
theorem Page.exists_not_reaches (hpage : Page c ahead r behind)
    (hloads : SEED_LOADS ≤ ahead.countP c.eligible) : ∃ tr s, Run c.exec start tr s ∧
      ¬Reaches c (ahead ++ r :: behind).length r.submissionId tr s := by
  obtain ⟨tr, s, hrun, hseeds, -, -, -, hmiss⟩ := hpage.exists_missing hloads
    (((ahead ++ r :: behind).length + SEED_LOADS - 1) / SEED_LOADS)
  refine ⟨tr, s, hrun, fun hreaches => ?_⟩
  obtain ⟨e, he, hin⟩ := hreaches.found hseeds.ge
  exact hmiss e he hin

end Setup

/-! ### A page of dust -/

/-- An address of a router, as text. -/
def routerText : Text := '0' :: 'x' :: List.replicate 40 '1'

/-- A row claimed into the router. -/
def claimedRow (n : ℕ) : HistoryRow where
  submissionId := hexText (wordBytes (BitVec.ofNat 256 n))
  chainIdTo := 2
  status := claimed
  receiver := routerText
  swapIntent := none

/-- The record of an id: one token for the id zero, and a millionth of one for the others. -/
def recordOf (w : Bytes32) : SubmissionRecord where
  submissionId := hexText (wordBytes w)
  bridgeDomain := []
  debridgeId := '0' :: 'x' :: List.replicate 64 'a'
  amount := if w = 0 then ['1', '0', '0', '0', '0', '0', '0'] else ['1']
  bridgeDecimals := some 6
  chainIdFrom := 1
  chainIdTo := 2
  nonce := 7
  receiver := routerText
  autoParams := []
  nativeSender := []
  token := []

/-- Rows of dust. -/
def dustRows (k : ℕ) : List HistoryRow := (List.range k).map fun n => claimedRow (n + 1)

/-- A keeper with one router and a floor of one token, and a page with `k` rows of dust ahead of a
delivery that is at the floor. -/
def dustSetup (k : ℕ) : Setup where
  parsers := Parsers.radix
  cfg := ⟨2, [BitVec.ofNat 160 0x1111111111111111111111111111111111111111],
    [('0' :: 'x' :: List.replicate 64 'a', ['1'])]⟩
  store := ⟨false, some (dustRows k ++ [claimedRow 0]), fun id =>
    some ((Parsers.radix.b256 id).map recordOf)⟩

theorem b256_claimedRow (n : ℕ) :
    Parsers.radix.b256 (claimedRow n).submissionId = some (BitVec.ofNat 256 n) := by
  refine Parsers.radix_lawful.b256_iff.mpr ?_
  rw [claimedRow, stripHexPrefix_hexText, lower_hexEncode]

theorem dustRows_distinct {k : ℕ} (hk : k < 2 ^ 256) :
    ((dustRows k ++ [claimedRow 0]).map HistoryRow.submissionId).Nodup := by
  have hperm : ((dustRows k ++ [claimedRow 0]).map HistoryRow.submissionId).Perm
      ((List.range (k + 1)).map fun n => (claimedRow n).submissionId) := by
    rw [List.range_succ_eq_map, List.map_append, dustRows, List.map_map, List.map_cons,
      List.map_cons, List.map_map]
    exact List.perm_append_comm
  rw [hperm.nodup_iff]
  refine List.Nodup.map_on ?_ List.nodup_range
  intro a ha b hb heq
  rw [List.mem_range] at ha hb
  have hword := (b256_claimedRow a).symm.trans ((congrArg _ heq).trans (b256_claimedRow b))
  have hnat := congrArg BitVec.toNat (Option.some.inj hword)
  rwa [BitVec.toNat_ofNat, BitVec.toNat_ofNat, Nat.mod_eq_of_lt (by omega),
    Nat.mod_eq_of_lt (by omega)] at hnat

theorem exists_of_mem_dustRows {k : ℕ} {row : HistoryRow}
    (h : row ∈ dustRows k ++ [claimedRow 0]) : ∃ n, row = claimedRow n := by
  rcases List.mem_append.mp h with h | h
  · obtain ⟨n, -, rfl⟩ := List.mem_map.mp h
    exact ⟨n + 1, rfl⟩
  · exact ⟨0, List.mem_singleton.mp h⟩

theorem load_claimedRow (k n : ℕ) : (dustSetup k).store.load (claimedRow n).submissionId =
    some (some (recordOf (BitVec.ofNat 256 n))) := by
  rw [dustSetup]
  dsimp only
  rw [b256_claimedRow]
  rfl

theorem eligible_claimedRow (k n : ℕ) : (dustSetup k).eligible (claimedRow n) = true := by
  have h : (dustSetup 0).eligible (claimedRow 0) = true := by decide +kernel
  exact h

theorem page_dust {k : ℕ} (hk : k < 2 ^ 256) :
    (dustSetup k).Page (dustRows k) (claimedRow 0) [] where
  indexed := rfl
  history := rfl
  distinct := dustRows_distinct hk
  ids := by
    intro row hrow
    obtain ⟨n, rfl⟩ := exists_of_mem_dustRows hrow
    exact Option.isSome_iff_exists.mpr ⟨_, b256_claimedRow n⟩
  loads := by
    intro row hrow
    obtain ⟨n, rfl⟩ := exists_of_mem_dustRows hrow
    refine ⟨_, load_claimedRow k n, ?_⟩
    rintro record ⟨⟩
    rfl
  wanted := eligible_claimedRow k 0
  worth := by
    have h : (belowMinClaim Parsers.radix (dustSetup 0).cfg (recordOf 0)).isNone = true := by
      decide +kernel
    exact ⟨recordOf 0, load_claimedRow k 0, h⟩

/-- Every row of dust is eligible. -/
theorem countP_dustRows (k : ℕ) : (dustRows k).countP (dustSetup k).eligible = k := by
  have hall : ∀ row ∈ dustRows k, (dustSetup k).eligible row = true := by
    intro row hrow
    obtain ⟨n, rfl⟩ := exists_of_mem_dustRows (List.mem_append_left _ hrow)
    exact eligible_claimedRow k n
  rw [List.countP_eq_length.mpr hall, dustRows, List.length_map, List.length_range]

/-! ### Which deliveries are reached -/

/-- **Exactly when every run reaches a delivery**: if and only if fewer rows ahead of it on the
page are eligible than a seed has loads. A row need not be worth the queue to be eligible, nor
does one that went through the queue stop being so while the page is the same. -/
theorem reaches_iff {c : Setup} {ahead behind : List HistoryRow} {r : HistoryRow}
    (hpage : c.Page ahead r behind) :
    (∀ tr s, Run c.exec start tr s →
      Reaches c (ahead ++ r :: behind).length r.submissionId tr s) ↔
    ahead.countP c.eligible < SEED_LOADS := by
  constructor
  · intro h
    by_contra hloads
    obtain ⟨tr, s, hrun, hnot⟩ := hpage.exists_not_reaches (Nat.le_of_not_lt hloads)
    exact hnot (h tr s hrun)
  · intro hloads tr s hrun
    exact hpage.reaches_of_lt hloads hrun

/-- A little dust does no harm. -/
theorem reaches_threeRows : (dustSetup 3).Page (dustRows 3) (claimedRow 0) [] ∧
    (∀ tr s, Run (dustSetup 3).exec start tr s →
      Reaches (dustSetup 3) 4 (claimedRow 0).submissionId tr s) := by
  have hpage := page_dust (k := 3) (by norm_num)
  refine ⟨hpage, (reaches_iff hpage).mpr ?_⟩
  rw [countP_dustRows]
  decide

/-- Two hundred rows of dust, which nobody will ever finalize, keep a delivery out of the queue
for as many seeds as one likes; two should do. -/
theorem not_reaches_dust : (dustSetup 200).Page (dustRows 200) (claimedRow 0) [] ∧
    ¬(∀ tr s, Run (dustSetup 200).exec start tr s →
      Reaches (dustSetup 200) (dustRows 200 ++ [claimedRow 0]).length (claimedRow 0).submissionId
        tr s) := by
  have hpage := page_dust (k := 200) (by norm_num)
  refine ⟨hpage, fun h => ?_⟩
  obtain ⟨tr, s, hrun, hnot⟩ := hpage.exists_not_reaches (countP_dustRows 200).ge
  exact hnot (h tr s hrun)

end Keeper

end SelendraBridge
