import SelendraBridge.Db.Lifecycle

/-!
# A report against the writer that creates its row

No statement of either side is in a transaction with another, so a report and the
writer that creates its row can interleave in any way. Each kind of report meets the
laws of `Parking.Lawful` – a row either does not have the report or has it, a marker
either says nothing about it or bears it – and `Parking.Lawful.carries_iff` then
settles every interleaving at once: the report is in the row at the end, and no
marker is left, except in one order of four statements.

That order is real: the writer applies the (empty) park table, the reporter parks,
the writer clears what it never applied, and the reporter's own apply finds nothing
(`SelendraBridge.Db.claimed_lost`).
-/

namespace SelendraBridge

namespace Db

open Parking Transition

/-- **The row has the report**: its status and its transaction reference. -/
def Report.Carried : Report → LifecycleRow → Prop
  | .claimed tx => fun row => row.status = .claimed ∧ row.claimTx = some tx
  | .cancelled tx => fun row => row.refundStatus = .cancelled ∧ row.cancelTx = some tx
  | .refunded tx => fun row => row.refundStatus = .refunded ∧ row.refundTx = some tx

/-- The row is as it was inserted, as far as the report goes. -/
def Report.Plain : Report → LifecycleRow → Prop
  | .claimed _ => fun row => row.status = .signed
  | .cancelled _ | .refunded _ => fun row => row.refundStatus = .none

/-- The marker says nothing about what the report sets. -/
def Report.Silent : Report → Marker → Prop
  | .claimed _ => fun m => m.status = none ∧ m.claimTx = none
  | .cancelled _ => fun m => m.refundStatus = none ∧ m.cancelTx = none
  | .refunded _ => fun m => m.refundStatus = none ∧ m.refundTx = none

/-- The marker bears the report. -/
def Report.Borne : Report → Marker → Prop
  | .claimed tx => fun m => m.status = some .claimed ∧ m.claimTx = some tx
  | .cancelled tx => fun m => m.refundStatus = some .cancelled ∧ m.cancelTx = some tx
  | .refunded tx => fun m => m.refundStatus = some .refunded ∧ m.refundTx = some tx

/-- **Each report, against each writer, is a lawful scheme.** -/
theorem lifecycleScheme_lawful (rep : Report) (creator : Creator) :
    Lawful (lifecycleScheme rep creator) rep.Plain rep.Carried rep.Silent rep.Borne where
  plain_fresh := by cases rep <;> rfl
  not_carries := by
    intro row hp hc
    cases rep <;> exact absurd (hp.symm.trans hc.1) (by decide)
  update := by
    intro row hp
    cases rep with
    | claimed tx => exact ⟨_, rfl, rfl, rfl⟩
    | cancelled tx =>
      have hne : row.refundStatus ≠ .refunded := fun h => absurd (hp.symm.trans h) (by decide)
      exact ⟨_, if_neg hne, rfl, rfl⟩
    | refunded tx => exact ⟨_, rfl, rfl, rfl⟩
  plain_touch := by
    intro row f hf hp
    cases creator with
    | observeSubmission now =>
      obtain rfl := Option.some.inj hf
      cases rep <;> exact hp
    | upsertSignature => exact absurd hf (by simp [lifecycleScheme, Creator.touch])
  carries_touch := by
    intro row f hf hc
    cases creator with
    | observeSubmission now =>
      obtain rfl := Option.some.inj hf
      cases rep <;> exact hc
    | upsertSignature => exact absurd hf (by simp [lifecycleScheme, Creator.touch])
  plain_apply := by
    intro m row hm hp
    cases rep <;> simpa [Report.Plain, lifecycleScheme, Marker.fold, hm.1] using hp
  carries_apply_silent := by
    intro m row hm hc
    cases rep <;> simpa [Report.Carried, lifecycleScheme, Marker.fold, hm.1, hm.2] using hc
  carries_apply := by
    intro m row hm _
    cases rep <;> simp [Report.Carried, lifecycleScheme, Marker.fold, hm.1, hm.2]
  park := by
    intro m _
    cases rep <;> cases m <;>
      simp [Report.Borne, lifecycleScheme, Report.marker, Marker.over, Marker.NONE]

/-- The row has the outcome. -/
def Outcome.Carried (o : Outcome) (row : SwapBridgeRow) : Prop :=
  row = ⟨some o.finalizeTx, some o.finalizeAmountOut, some o.finalizeFallback⟩

/-- **The destination leg of a swap is a lawful scheme too**, with nothing parked
before: an outcome parked earlier would stay. -/
theorem finalizeScheme_lawful (o : Outcome) :
    Lawful (finalizeScheme o) (fun row => row.finalizeTx = none) o.Carried (fun _ => False)
      (fun m => m = o) where
  plain_fresh := rfl
  not_carries := by
    rintro row hp rfl
    exact absurd hp (by simp)
  update := fun _ => ⟨_, rfl, rfl⟩
  plain_touch := fun hf => absurd hf (by simp [finalizeScheme])
  carries_touch := fun hf => absurd hf (by simp [finalizeScheme])
  plain_apply := fun hm => hm.elim
  carries_apply_silent := fun hm => hm.elim
  carries_apply := by
    rintro m row rfl (hp | rfl)
    · exact if_pos hp
    · simp [Outcome.Carried, finalizeScheme, Outcome.fold]
  park := by
    intro m hm
    cases m with
    | none => rfl
    | some x => exact (hm x rfl).elim

/-- **When a report survives its race with the row.** From an id with no row and
nothing parked about what is reported, in every interleaving of a mark with a writer
that creates the row, taken to the end of both: the row carries the report and no
marker is left exactly when the statements did not come in the losing order; and the
same for a finalization against its intent, with nothing parked at all. -/
theorem report_kept_iff (rep : Report) (creator : Creator) (o : Outcome) :
    (∀ (parked : Option Marker) (tr : List (Entry (State LifecycleRow Marker) Side Stmt))
        (s : State LifecycleRow Marker),
      (∀ m ∈ parked, rep.Silent m) →
      Run (exec (lifecycleScheme rep creator)) (start parked) tr s →
      s.reporter = .done → s.creator = .done →
      (((∃ row, s.row = some row ∧ rep.Carried row) ∧ s.marker = none) ↔
        ¬lostOrder.Sublist (stmts tr))) ∧
    (∀ (tr : List (Entry (State SwapBridgeRow Outcome) Side Stmt))
        (s : State SwapBridgeRow Outcome),
      Run (exec (finalizeScheme o)) (start none) tr s →
      s.reporter = .done → s.creator = .done →
      (((∃ row, s.row = some row ∧ o.Carried row) ∧ s.marker = none) ↔
        ¬lostOrder.Sublist (stmts tr))) := by
  constructor
  · intro parked tr s hm hrun hr hc
    exact (lifecycleScheme_lawful rep creator).carries_iff hm hrun hr hc
  · intro tr s hrun hr hc
    exact (finalizeScheme_lawful o).carries_iff quiet_none hrun hr hc

/-! ### The losing order, run -/

/-- The transaction of a claim. -/
def someTx : TxRef := ⟨hexText [0xaa], by decide⟩

/-- The reporter finds no row, the observer inserts it and applies nothing, the
reporter parks, the observer clears, and the reporter applies nothing. -/
def losingSchedule : List Side :=
  [.reporter, .reporter, .creator, .creator, .creator, .reporter, .creator, .reporter, .reporter,
    .reporter]

/-- **A claim is lost**: both sides finish, the row is still `signed` without a claim
transaction, and no marker is left. -/
theorem claimed_lost :
    ((runFrom (exec (lifecycleScheme (.claimed someTx) (.observeSubmission 1)))
        (start none) losingSchedule).map fun r =>
      (r.2.row.map fun row => (row.status, row.claimTx), r.2.marker, r.2.reporter, r.2.creator)) =
      some (some (.signed, none), none, .done, .done) := by
  decide +kernel

/-- The schedule of `SelendraBridge.Db.claimed_lost` with the observer's clear moved
to the end. -/
def keepingSchedule : List Side :=
  [.reporter, .reporter, .creator, .creator, .creator, .reporter, .reporter, .reporter, .reporter,
    .creator]

theorem report_kept_iff_claimed :
    ∃ tr s, Run (exec (lifecycleScheme (.claimed someTx) (.observeSubmission 1)))
        (start none) tr s ∧
      (((∃ row, s.row = some row ∧ (Report.claimed someTx).Carried row) ∧ s.marker = none) ↔
        ¬lostOrder.Sublist (stmts tr)) := by
  have hrun : (runFrom (exec (lifecycleScheme (.claimed someTx) (.observeSubmission 1)))
      (start none) keepingSchedule).isSome = true := by decide +kernel
  obtain ⟨r, hr⟩ := Option.isSome_iff_exists.mp hrun
  have hdone : ((runFrom (exec (lifecycleScheme (.claimed someTx) (.observeSubmission 1)))
      (start none) keepingSchedule).map fun r => (r.2.reporter, r.2.creator)) =
      some (.done, .done) := by decide +kernel
  rw [hr, Option.map_some, Option.some.injEq, Prod.mk.injEq] at hdone
  exact ⟨r.1, r.2, run_of_runFrom hr,
    (report_kept_iff _ _ ⟨someTx, ⟨['1'], by decide⟩, false⟩).1 none _ _ (by simp)
    (run_of_runFrom hr) hdone.1 hdone.2⟩

end Db

end SelendraBridge
