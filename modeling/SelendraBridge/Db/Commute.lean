import SelendraBridge.Db.Lifecycle
import Mathlib.Data.List.Induction

/-!
# Whether parking a report changes its outcome

Reports run one after another, none of them interleaved with anything, and one
observation somewhere among them. The reports before the observation are parked and
merged, and applied in one go; the ones after it update the row directly. Had the
observation come first, all of them would have updated the row directly.

The two differ in one thing only. The direct update of a cancellation leaves a
refunded row alone, and the merge of markers knows no such rule: the last of the
parked reports wins, whichever it is. So everything except `refund_status` and
`cancel_tx` always agrees (`SelendraBridge.Db.agree_foldl`), all of it agrees when no
refund is parked (`SelendraBridge.Db.folded_eq_of_not_hasRefund`), and otherwise it
comes down to which cancellation each path writes last
(`SelendraBridge.Db.ParkingHarmless`).
-/

namespace SelendraBridge

namespace Db

/-! ### Sequences of calls -/

/-- The reports of a list, each run to its end. -/
def runReports (id : Text) (reports : List Report) (t : Rows) : Except DbError Rows :=
  reports.foldlM (fun t rep => mark id rep .park t) t

/-- The columns that reports set. -/
structure Reported where
  status : Status
  refundStatus : RefundStatus
  claimTx : Option TxRef
  cancelTx : Option TxRef
  refundTx : Option TxRef
  deriving DecidableEq

/-- Those columns of the row. -/
def outcome (t : Rows) : Option Reported :=
  t.submission.map fun row =>
    ⟨row.status, row.refundStatus, row.claimTx, row.cancelTx, row.refundTx⟩

/-- Reports, an observation, and reports. -/
def runParked (id : Text) (before : List Report) (now : ℕ) (after : List Report) :
    Except DbError Rows := do
  let t ← runReports id before .empty
  runReports id after (observeSubmission now t)

/-- The observation first, and all the reports on the row. -/
def runDirect (id : Text) (before : List Report) (now : ℕ) (after : List Report) :
    Except DbError Rows :=
  runReports id (before ++ after) (observeSubmission now .empty)

/-- Is a report a refund? -/
def Report.isRefund : Report → Bool
  | .refunded _ => true
  | _ => false

/-- Does a list of reports have a refund? -/
def hasRefund (reports : List Report) : Bool := reports.any Report.isRefund

/-- Is the last of a list's cancellations and refunds a refund? -/
def endsRefunded (reports : List Report) : Bool :=
  reports.foldl (fun b rep => match rep with
    | .refunded _ => true
    | .cancelled _ => false
    | .claimed _ => b) false

/-- The transaction of the last cancellation of a list, or `tx` when it has none. -/
def lastCancelFrom (tx : Option TxRef) (reports : List Report) : Option TxRef :=
  reports.foldl (fun tx rep => match rep with
    | .cancelled tx' => some tx'
    | _ => tx) tx

/-- The transaction of the last cancellation of a list. -/
def lastCancel (reports : List Report) : Option TxRef := lastCancelFrom none reports

/-- The reports before the first refund. -/
def beforeRefund (reports : List Report) : List Report :=
  reports.takeWhile fun rep => !rep.isRefund

/-- **When parking is harmless**: no refund is parked; or the refund status still ends
refunded – the last of the parked cancellations and refunds is a refund, or a refund
follows the observation – and the last cancellation to be written on the parked path
is of the same transaction as the last one before the first refund. -/
def ParkingHarmless (before after : List Report) : Prop :=
  hasRefund before = true →
    (endsRefunded before = true ∨ hasRefund after = true) ∧
      lastCancel (before ++ if endsRefunded before = true then [] else beforeRefund after) =
        lastCancel (beforeRefund before)

instance (before after : List Report) : Decidable (ParkingHarmless before after) :=
  inferInstanceAs (Decidable (_ → _))

/-! ### The two paths as folds -/

/-- A report on a row: its update, or nothing where its guard declines. -/
def Report.onRow (row : LifecycleRow) (rep : Report) : LifecycleRow := (rep.sql row).getD row

/-- A report on the park table. -/
def Report.onMarker (parked : Option Marker) (rep : Report) : Option Marker :=
  some (rep.marker.over parked)

/-- A row with what was parked for it. -/
def withParked (parked : Option Marker) (row : LifecycleRow) : LifecycleRow :=
  parked.elim row fun m => m.fold row

theorem mark_row (id : Text) (rep : Report) (row : LifecycleRow) (parked : Option Marker) :
    mark id rep .park ⟨some row, parked⟩ = .ok ⟨some (rep.onRow row), parked⟩ :=
  mark_eq_report id rep .upsertSignature ⟨some row, parked⟩

theorem mark_no_row (id : Text) (rep : Report) (parked : Option Marker) :
    mark id rep .park ⟨none, parked⟩ = .ok ⟨none, rep.onMarker parked⟩ :=
  mark_eq_report id rep .upsertSignature ⟨none, parked⟩

/-- On a row, reports are a fold of their updates. -/
theorem runReports_row (id : Text) (reports : List Report) (row : LifecycleRow)
    (parked : Option Marker) :
    runReports id reports ⟨some row, parked⟩ =
      .ok ⟨some (reports.foldl (fun row rep => rep.onRow row) row), parked⟩ := by
  induction reports generalizing row with
  | nil => rfl
  | cons rep reports ih =>
    rw [runReports, List.foldlM_cons, mark_row]
    exact ih _

/-- Without a row, reports are a fold of their markers. -/
theorem runReports_no_row (id : Text) (reports : List Report) (parked : Option Marker) :
    runReports id reports ⟨none, parked⟩ =
      .ok ⟨none, reports.foldl (fun parked rep => rep.onMarker parked) parked⟩ := by
  induction reports generalizing parked with
  | nil => rfl
  | cons rep reports ih =>
    rw [runReports, List.foldlM_cons, mark_no_row]
    exact ih _

/-- The row as it is when it is first observed. -/
def observedRow (now : ℕ) : LifecycleRow := LifecycleRow.fresh.observe now

/-- The row that the parked reports of a list leave. -/
def foldedRow (reports : List Report) (now : ℕ) : LifecycleRow :=
  withParked (reports.foldl (fun parked rep => rep.onMarker parked) none) (observedRow now)

/-- The row that the same reports leave directly. -/
def directRow (reports : List Report) (now : ℕ) : LifecycleRow :=
  reports.foldl (fun row rep => rep.onRow row) (observedRow now)

theorem runParked_eq (id : Text) (before : List Report) (now : ℕ) (after : List Report) :
    runParked id before now after =
      .ok ⟨some (after.foldl (fun row rep => rep.onRow row) (foldedRow before now)), none⟩ := by
  rw [runParked, Rows.empty, runReports_no_row]
  exact runReports_row id after _ none

theorem runDirect_eq (id : Text) (before : List Report) (now : ℕ) (after : List Report) :
    runDirect id before now after =
      .ok ⟨some (after.foldl (fun row rep => rep.onRow row) (directRow before now)), none⟩ := by
  rw [runDirect, directRow, ← List.foldl_append]
  exact runReports_row id (before ++ after) _ none

/-- A marker folded into a row, one report more. -/
theorem withParked_onMarker (parked : Option Marker) (rep : Report) (row : LifecycleRow) :
    withParked (rep.onMarker parked) row = rep.marker.fold (withParked parked row) := by
  cases parked with
  | none => rfl
  | some m =>
    obtain ⟨s, c, k, r, f⟩ := m
    cases rep <;>
      simp [withParked, Report.onMarker, Marker.over, Marker.fold, Report.marker, Marker.NONE]

/-- **One parked report more is its marker over the row**, whatever was parked before. -/
theorem foldedRow_append (reports : List Report) (rep : Report) (now : ℕ) :
    foldedRow (reports ++ [rep]) now = rep.marker.fold (foldedRow reports now) := by
  rw [foldedRow, List.foldl_append]
  exact withParked_onMarker _ rep _

theorem directRow_append (reports : List Report) (rep : Report) (now : ℕ) :
    directRow (reports ++ [rep]) now = rep.onRow (directRow reports now) := by
  rw [directRow, List.foldl_append]
  rfl

/-! ### What the refund columns become -/

/-- A refunded row stays refunded, with the cancellation it has. -/
theorem foldl_of_refunded {row : LifecycleRow} (h : row.refundStatus = .refunded)
    (reports : List Report) :
    (reports.foldl (fun row rep => rep.onRow row) row).refundStatus = .refunded ∧
      (reports.foldl (fun row rep => rep.onRow row) row).cancelTx = row.cancelTx := by
  induction reports generalizing row with
  | nil => exact ⟨h, rfl⟩
  | cons rep reports ih =>
    have hstep : (rep.onRow row).refundStatus = .refunded ∧
        (rep.onRow row).cancelTx = row.cancelTx := by
      cases rep <;> simp [Report.onRow, Report.sql, h]
    obtain ⟨hr, hc⟩ := ih hstep.1
    exact ⟨hr, hc.trans hstep.2⟩

/-- A row that is not refunded becomes so with the first refund, and takes every
cancellation before it. -/
theorem foldl_of_not_refunded {row : LifecycleRow} (h : row.refundStatus ≠ .refunded)
    (reports : List Report) :
    ((reports.foldl (fun row rep => rep.onRow row) row).refundStatus = .refunded ↔
        hasRefund reports = true) ∧
      (reports.foldl (fun row rep => rep.onRow row) row).cancelTx =
        lastCancelFrom row.cancelTx (beforeRefund reports) := by
  induction reports generalizing row with
  | nil => exact ⟨iff_of_false h (by decide), rfl⟩
  | cons rep reports ih =>
    cases rep with
    | claimed tx =>
      have hne : (Report.onRow row (.claimed tx)).refundStatus ≠ .refunded := by
        simp only [Report.onRow, Report.sql, Option.getD_some]
        split
        · decide
        · exact h
      exact ih hne
    | cancelled tx =>
      have hrow : Report.onRow row (.cancelled tx) =
          { row with refundStatus := .cancelled, cancelTx := some tx } := by
        simp [Report.onRow, Report.sql, h]
      have hne : (Report.onRow row (.cancelled tx)).refundStatus ≠ .refunded := by
        rw [hrow]
        exact nofun
      obtain ⟨hr, hc⟩ := ih hne
      rw [List.foldl_cons]
      refine ⟨hr, hc.trans ?_⟩
      rw [hrow]
      rfl
    | refunded tx =>
      have hrow : (Report.onRow row (.refunded tx)).refundStatus = .refunded := rfl
      obtain ⟨hr, hc⟩ := foldl_of_refunded hrow reports
      exact ⟨iff_of_true hr rfl, hc⟩

/-- On the direct path the first refund settles the refund columns. -/
theorem directRow_refund (reports : List Report) (now : ℕ) :
    ((directRow reports now).refundStatus = .refunded ↔ hasRefund reports = true) ∧
      (directRow reports now).cancelTx = lastCancel (beforeRefund reports) :=
  have hrow : (observedRow now).refundStatus ≠ .refunded := nofun
  foldl_of_not_refunded hrow reports

theorem directRow_ne_eligible (reports : List Report) (now : ℕ) :
    (directRow reports now).refundStatus ≠ .eligible := by
  induction reports using List.reverseRecOn with
  | nil => exact nofun
  | append_singleton reports rep ih =>
    rw [directRow_append]
    cases rep with
    | claimed tx => simp [Report.onRow, Report.sql, ih]
    | cancelled tx =>
      simp only [Report.onRow, Report.sql]
      split
      · exact ih
      · exact nofun
    | refunded tx => exact nofun

/-- On the parked path the last report settles them. -/
theorem foldedRow_refund (reports : List Report) (now : ℕ) :
    ((foldedRow reports now).refundStatus = .refunded ↔ endsRefunded reports = true) ∧
      (foldedRow reports now).cancelTx = lastCancel reports := by
  induction reports using List.reverseRecOn with
  | nil => exact ⟨iff_of_false nofun (by decide), rfl⟩
  | append_singleton reports rep ih =>
    rw [foldedRow_append, endsRefunded, lastCancel, lastCancelFrom, List.foldl_append,
      List.foldl_append]
    cases rep with
    | claimed tx => exact ih
    | cancelled tx => exact ⟨iff_of_false nofun Bool.false_ne_true, rfl⟩
    | refunded tx => exact ⟨iff_of_true rfl rfl, ih.2⟩

/-! ### What always agrees -/

/-- Two rows that differ at most in the refund status and the cancellation. -/
structure Agree (r r' : LifecycleRow) : Prop where
  status : r.status = r'.status
  claimTx : r.claimTx = r'.claimTx
  refundTx : r.refundTx = r'.refundTx

theorem Agree.onRow {r r' : LifecycleRow} (h : Agree r r') (rep : Report) :
    Agree (rep.onRow r) (rep.onRow r') := by
  cases rep with
  | claimed tx => exact ⟨rfl, rfl, h.refundTx⟩
  | cancelled tx =>
    simp only [Report.onRow, Report.sql]
    split <;> split <;> exact ⟨h.status, h.claimTx, h.refundTx⟩
  | refunded tx => exact ⟨h.status, h.claimTx, rfl⟩

/-- A parked report does to these columns what a direct one does. -/
theorem Agree.fold {r r' : LifecycleRow} (h : Agree r r') (rep : Report) :
    Agree (rep.marker.fold r) (rep.onRow r') := by
  cases rep with
  | claimed tx => exact ⟨rfl, rfl, h.refundTx⟩
  | cancelled tx =>
    simp only [Report.onRow, Report.sql]
    split <;> exact ⟨h.status, h.claimTx, h.refundTx⟩
  | refunded tx => exact ⟨h.status, h.claimTx, rfl⟩

theorem agree_foldl {r r' : LifecycleRow} (h : Agree r r') (reports : List Report) :
    Agree (reports.foldl (fun row rep => rep.onRow row) r)
      (reports.foldl (fun row rep => rep.onRow row) r') := by
  induction reports generalizing r r' with
  | nil => exact h
  | cons rep reports ih => exact ih (h.onRow rep)

theorem agree_foldedRow (reports : List Report) (now : ℕ) :
    Agree (foldedRow reports now) (directRow reports now) := by
  induction reports using List.reverseRecOn with
  | nil => exact ⟨rfl, rfl, rfl⟩
  | append_singleton reports rep ih =>
    rw [foldedRow_append, directRow_append]
    exact ih.fold rep

/-- **Without a parked refund the two paths are one**: the guard never declines. -/
theorem folded_eq_of_not_hasRefund {reports : List Report} (now : ℕ)
    (h : hasRefund reports = false) : foldedRow reports now = directRow reports now := by
  induction reports using List.reverseRecOn with
  | nil => rfl
  | append_singleton reports rep ih =>
    rw [hasRefund, List.any_append, Bool.or_eq_false_iff] at h
    obtain ⟨hpre, hrep⟩ := h
    rw [foldedRow_append, directRow_append, ih hpre]
    have hne : (directRow reports now).refundStatus ≠ .refunded := fun hr =>
      absurd ((directRow_refund reports now).1.mp hr) (by rw [hasRefund, hpre]; decide)
    cases rep with
    | claimed tx =>
      simp [Report.onRow, Report.sql, Report.marker, Marker.NONE, Marker.fold,
        directRow_ne_eligible]
    | cancelled tx =>
      simp [Report.onRow, Report.sql, Report.marker, Marker.NONE, Marker.fold, hne]
    | refunded tx => exact absurd hrep (by simp [Report.isRefund])

/-- The refund columns of the two paths agree exactly when parking is harmless. -/
theorem refund_columns_iff (before after : List Report) (now : ℕ) :
    (after.foldl (fun row rep => rep.onRow row) (foldedRow before now)).refundStatus =
          (after.foldl (fun row rep => rep.onRow row) (directRow before now)).refundStatus ∧
        (after.foldl (fun row rep => rep.onRow row) (foldedRow before now)).cancelTx =
          (after.foldl (fun row rep => rep.onRow row) (directRow before now)).cancelTx ↔
      ParkingHarmless before after := by
  by_cases hb : hasRefund before = true
  · obtain ⟨hdr, hdc⟩ := directRow_refund before now
    obtain ⟨hdr', hdc'⟩ := foldl_of_refunded (hdr.mpr hb) after
    obtain ⟨hfr, hfc⟩ := foldedRow_refund before now
    rw [hdr', hdc', hdc, ParkingHarmless]
    by_cases he : endsRefunded before = true
    · obtain ⟨hpr, hpc⟩ := foldl_of_refunded (hfr.mpr he) after
      simp [hpr, hpc, hfc, he, hb]
    · obtain ⟨hpr, hpc⟩ := foldl_of_not_refunded (fun h => he (hfr.mp h)) after
      rw [hpr, hpc, hfc]
      simp [hb, he, lastCancel, lastCancelFrom, List.foldl_append]
  · rw [folded_eq_of_not_hasRefund now (by simpa using hb)]
    exact iff_of_true ⟨rfl, rfl⟩ fun h => absurd h hb

/-- **When parking changes nothing.** For every list of reports before the
observation and every list after it: the two orders end alike, and a refund anywhere
in them ends `refunded`, exactly when parking is harmless for the two lists. -/
theorem parked_eq_direct_iff (id : Text) (before after : List Report) (now : ℕ) :
    ∃ t t', runParked id before now after = .ok t ∧ runDirect id before now after = .ok t' ∧
      ((hasRefund (before ++ after) = true →
          (outcome t).map Reported.refundStatus = some .refunded) ∧ outcome t = outcome t' ↔
        ParkingHarmless before after) := by
  refine ⟨_, _, runParked_eq id before now after, runDirect_eq id before now after, ?_⟩
  have hagree := agree_foldl (agree_foldedRow before now) after
  rw [← refund_columns_iff before after now]
  simp only [outcome, Option.map_some, Option.some.injEq, Reported.mk.injEq, hagree.status,
    hagree.claimTx, hagree.refundTx, true_and, and_true]
  constructor
  · rintro ⟨-, hr, hc⟩
    exact ⟨hr, hc⟩
  · rintro ⟨hr, hc⟩
    refine ⟨fun h => ?_, hr, hc⟩
    rw [hr, directRow, ← List.foldl_append]
    exact (directRow_refund (before ++ after) now).1.mpr h

/-! ### A refund that parking undoes -/

/-- The transactions of a refund and of a cancellation. -/
def refundTx : TxRef := ⟨hexText [0x0a], by decide⟩

def cancelTx : TxRef := ⟨hexText [0x0b], by decide⟩

/-- **A parked refund is undone by a parked cancellation**, and the observation ends
with a transfer that is back among the cancelled ones; on the row itself the refund
stays. -/
theorem parked_refund_undone :
    ((runParked [] [.refunded refundTx, .cancelled cancelTx] 1 []).map outcome) =
        .ok (some ⟨.signed, .cancelled, none, some cancelTx, some refundTx⟩) ∧
      ((runDirect [] [.refunded refundTx, .cancelled cancelTx] 1 []).map outcome) =
        .ok (some ⟨.signed, .refunded, none, none, some refundTx⟩) ∧
      hasRefund [.refunded refundTx, .cancelled cancelTx] = true := by
  decide +kernel

example : ParkingHarmless [.cancelled cancelTx, .refunded refundTx] [] := by decide

end Db

end SelendraBridge
