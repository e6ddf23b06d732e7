import SelendraBridge.Db.Submissions
import SelendraBridge.Lib.Parking

/-!
# Lifecycle reports, and the rows they are about

The indexer reads each chain in a loop of its own, so a `Claimed`, `Cancelled` or
`Refunded` of one chain can be reported before the other chain's `Sent` has created
the row. Such a report is parked under its id and applied when the row arrives. This
file has the statements both sides execute, as functions on what the two tables hold
under one id (`SelendraBridge.Db.Rows`), and the calls they make up:

| call | statements |
|---|---|
| `mark_claimed`, `mark_cancelled`, `mark_refunded` | update; check; retry, or park, check, apply, clear |
| `observe_submission` | insert, touch, apply, clear |
| `upsert_signature` | insert (in a transaction), apply, clear |
| `record_finalized` | the same as a mark, on `swap_bridges` |
| `record_swap_bridge_intent` | insert, apply, clear |

The three marks differ in their `UPDATE` and in the marker they park, and are one
definition applied to these (`SelendraBridge.Db.Report`). Each family of calls is an
instance of the scheme of `Parking`: the calls run to their end are what that scheme
computes for either side alone (`SelendraBridge.Db.mark_eq_report`,
`SelendraBridge.Db.observeSubmission_eq_create`).
-/

namespace SelendraBridge

namespace Db

open Revert

/-! ### Text that may be stored -/

/-- The longest transaction reference. -/
def MAX_TX_REF_LEN : ℕ := 128

/-- Alphanumeric after an optional `0x`, and not too long. -/
def isTxRef (s : Text) : Bool :=
  decide (s.length ≤ MAX_TX_REF_LEN) && (stripHexPrefix s).all isAlphanumeric

/-- **A transaction reference**: text that has passed its check. -/
structure TxRef where
  text : Text
  wellFormed : isTxRef text = true
  deriving DecidableEq

/-- The check, naming the column it is for. -/
def checkedTxRef (field : String) (s : Text) : Except DbError TxRef :=
  if h : isTxRef s = true then .ok ⟨s, h⟩ else .error (.badField field)

/-- Decimal digits, at least one and not too many. -/
def isAmount (s : Text) : Bool :=
  !s.isEmpty && decide (s.length ≤ Store.MAX_UINT256_DECIMAL_LEN) && s.all isDigit

/-- **An amount as text** that has passed its check. -/
structure AmountText where
  text : Text
  wellFormed : isAmount text = true
  deriving DecidableEq

/-- The check, naming the column it is for. -/
def checkedAmount (field : String) (s : Text) : Except DbError AmountText :=
  if h : isAmount s = true then .ok ⟨s, h⟩ else .error (.badField field)

/-- **A refused text names its column, and an accepted one is unchanged.** -/
theorem checkedTxRef_eq_ok {field : String} {s : Text} {t : TxRef} :
    checkedTxRef field s = .ok t ↔ s = t.text := by
  unfold checkedTxRef
  split
  · next h =>
    rw [Except.ok.injEq]
    exact ⟨fun ht => ht ▸ rfl, fun ht => by obtain ⟨u, hu⟩ := t; subst ht; rfl⟩
  · next h =>
    refine iff_of_false (by simp) ?_
    rintro rfl
    exact h t.wellFormed

/-! ### The two tables under one id -/

/-- `status`. -/
inductive Status
  | signed
  | claimed
  deriving DecidableEq, Repr

/-- `refund_status`. -/
inductive RefundStatus
  | none
  | eligible
  | cancelled
  | refunded
  deriving DecidableEq, Repr

/-- The lifecycle columns of a `submissions` row. -/
structure LifecycleRow where
  status : Status
  refundStatus : RefundStatus
  claimTx : Option TxRef
  cancelTx : Option TxRef
  refundTx : Option TxRef
  sentObservedAt : Option ℕ
  deriving DecidableEq

/-- A `pending_lifecycle` row; a column that is `none` says nothing. -/
structure Marker where
  status : Option Status
  claimTx : Option TxRef
  cancelTx : Option TxRef
  refundTx : Option TxRef
  refundStatus : Option RefundStatus
  deriving DecidableEq

/-- The marker that says nothing. -/
def Marker.NONE : Marker := ⟨none, none, none, none, none⟩

/-- What the tables hold under one id. -/
structure Rows where
  /-- The row of `submissions`. -/
  submission : Option LifecycleRow
  /-- The row of `pending_lifecycle`. -/
  pending : Option Marker
  deriving DecidableEq

/-- Nothing under this id. -/
def Rows.empty : Rows := ⟨none, none⟩

/-- A row as `submissions` defaults it. -/
def LifecycleRow.fresh : LifecycleRow := ⟨.signed, .none, none, none, none, none⟩

/-! ### The statements -/

/-- `UPDATE submissions … WHERE submission_id = $1 AND …`, with the number of rows
it touched; `sql` gives `none` where its own guard declines. -/
def lifecycleUpdate (sql : LifecycleRow → Option LifecycleRow) (t : Rows) : Rows × ℕ :=
  match t.submission.bind sql with
  | some row => ({ t with submission := some row }, 1)
  | none => (t, 0)

/-- `SELECT 1 FROM submissions`. -/
def submissionExists (t : Rows) : Bool := t.submission.isSome

/-- A marker over the one already parked, column by column. -/
def Marker.over (m : Marker) (parked : Option Marker) : Marker :=
  match parked with
  | none => m
  | some p =>
    { status := m.status <|> p.status
      claimTx := m.claimTx <|> p.claimTx
      cancelTx := m.cancelTx <|> p.cancelTx
      refundTx := m.refundTx <|> p.refundTx
      refundStatus := m.refundStatus <|> p.refundStatus }

/-- `INSERT INTO pending_lifecycle … ON CONFLICT DO UPDATE`. -/
def parkMarker (m : Marker) (t : Rows) : Rows := { t with pending := some (m.over t.pending) }

/-- A marker folded into a row, column by column. -/
def Marker.fold (m : Marker) (row : LifecycleRow) : LifecycleRow :=
  { row with
    status := m.status.getD row.status
    claimTx := m.claimTx <|> row.claimTx
    cancelTx := m.cancelTx <|> row.cancelTx
    refundTx := m.refundTx <|> row.refundTx
    refundStatus := m.refundStatus.getD row.refundStatus }

/-- `UPDATE submissions … FROM pending_lifecycle`. -/
def applyUpdate (t : Rows) : Rows :=
  { t with submission := t.submission.map fun row => t.pending.elim row fun m => m.fold row }

/-- `DELETE FROM pending_lifecycle`. -/
def applyDelete (t : Rows) : Rows := { t with pending := none }

/-- Apply and clear the parked marker: two statements. -/
def applyPendingLifecycle (t : Rows) : Rows := applyDelete (applyUpdate t)

/-- What to do with a report on an id that has no row. -/
inductive Missing
  /-- Park it. -/
  | park
  /-- Refuse it. -/
  | reject
  deriving DecidableEq, Repr

/-- What follows an update that may have touched no row. -/
def parkIfMissing (id : Text) (rowsAffected : ℕ) (retry : LifecycleRow → Option LifecycleRow)
    (marker : Marker) (missing : Missing) (t : Rows) : Except DbError Rows :=
  if rowsAffected > 0 then .ok t
  else if submissionExists t = true then .ok (lifecycleUpdate retry t).1
  else if missing = .reject then .error (.unknownSubmission id)
  else
    let t := parkMarker marker t
    if submissionExists t = true then .ok (applyPendingLifecycle t) else .ok t

/-! ### Reports -/

/-- A lifecycle report, with the reference of the transaction it was read from. -/
inductive Report
  | claimed (claimTx : TxRef)
  | cancelled (cancelTx : TxRef)
  | refunded (refundTx : TxRef)
  deriving DecidableEq

/-- The `UPDATE` of each report: a cancellation does not touch a refunded row, and a
claim clears an `eligible` flag. -/
def Report.sql : Report → LifecycleRow → Option LifecycleRow
  | .claimed tx => fun row =>
    some { row with
      status := .claimed
      claimTx := some tx
      refundStatus := if row.refundStatus = .eligible then .none else row.refundStatus }
  | .cancelled tx => fun row =>
    if row.refundStatus = .refunded then none
    else some { row with refundStatus := .cancelled, cancelTx := some tx }
  | .refunded tx => fun row => some { row with refundStatus := .refunded, refundTx := some tx }

/-- The marker of each report. -/
def Report.marker : Report → Marker
  | .claimed tx => { Marker.NONE with status := some .claimed, claimTx := some tx }
  | .cancelled tx => { Marker.NONE with cancelTx := some tx, refundStatus := some .cancelled }
  | .refunded tx => { Marker.NONE with refundTx := some tx, refundStatus := some .refunded }

/-- A report, run to its end with nobody in between. -/
def mark (id : Text) (rep : Report) (missing : Missing) (t : Rows) : Except DbError Rows :=
  let r := lifecycleUpdate rep.sql t
  parkIfMissing id r.2 rep.sql rep.marker missing r.1

/-- `mark_claimed_with`. -/
def markClaimedWith (submissionId claimTx : Text) (missing : Missing) (t : Rows) :
    Except DbError Rows := do
  let id ← checkedId submissionId
  let tx ← checkedTxRef "claim_tx" claimTx
  mark id (.claimed tx) missing t

/-- `mark_cancelled_with`. -/
def markCancelledWith (submissionId cancelTx : Text) (missing : Missing) (t : Rows) :
    Except DbError Rows := do
  let id ← checkedId submissionId
  let tx ← checkedTxRef "cancel_tx" cancelTx
  mark id (.cancelled tx) missing t

/-- `mark_refunded_with`. -/
def markRefundedWith (submissionId refundTx : Text) (missing : Missing) (t : Rows) :
    Except DbError Rows := do
  let id ← checkedId submissionId
  let tx ← checkedTxRef "refund_tx" refundTx
  mark id (.refunded tx) missing t

/-! ### The writers that create a row -/

/-- The insert of `insert_submission_row`, on the lifecycle columns. -/
def insertRow (t : Rows) : Rows := { t with submission := some (t.submission.getD .fresh) }

/-- `UPDATE submissions SET sent_observed_at = now() … WHERE sent_observed_at IS NULL`. -/
def LifecycleRow.observe (now : ℕ) (row : LifecycleRow) : LifecycleRow :=
  { row with sentObservedAt := row.sentObservedAt <|> some now }

/-- `observe_submission`, after its binding check. -/
def observeSubmission (now : ℕ) (t : Rows) : Rows :=
  let t := insertRow t
  let t := { t with submission := t.submission.map (LifecycleRow.observe now) }
  applyPendingLifecycle t

/-- The writers that create a row. -/
inductive Creator
  /-- `observe_submission`, at a time. -/
  | observeSubmission (now : ℕ)
  /-- `upsert_signature`, from its commit on. -/
  | upsertSignature
  deriving DecidableEq, Repr

/-- What the writer does to the row before it applies the parked marker. -/
def Creator.touch : Creator → Option (LifecycleRow → LifecycleRow)
  | .observeSubmission now => some (LifecycleRow.observe now)
  | .upsertSignature => none

/-- A report against a writer, as a parking scheme. -/
def lifecycleScheme (rep : Report) (creator : Creator) : Parking.Scheme LifecycleRow Marker where
  fresh := .fresh
  update := rep.sql
  park := rep.marker.over
  apply := Marker.fold
  touch := creator.touch

/-! ### Calls to their end -/

/-- **A report to its end is the scheme's reporter alone**, and never fails when it
may park. -/
theorem mark_eq_report (id : Text) (rep : Report) (creator : Creator) (t : Rows) :
    mark id rep .park t =
      .ok ⟨(Parking.report (lifecycleScheme rep creator) t.submission t.pending).1,
        (Parking.report (lifecycleScheme rep creator) t.submission t.pending).2⟩ := by
  obtain ⟨row, pending⟩ := t
  cases row with
  | none =>
    simp [mark, lifecycleUpdate, parkIfMissing, submissionExists, parkMarker, Parking.report,
      lifecycleScheme]
  | some row =>
    cases hu : rep.sql row with
    | none =>
      simp [mark, lifecycleUpdate, parkIfMissing, submissionExists, Parking.report,
        lifecycleScheme, hu]
    | some row' =>
      simp [mark, lifecycleUpdate, parkIfMissing, Parking.report, lifecycleScheme, hu]

/-- **An observation to its end is the scheme's creator alone.** -/
theorem observeSubmission_eq_create (now : ℕ) (rep : Report) (t : Rows) :
    observeSubmission now t =
      ⟨(Parking.create (lifecycleScheme rep (.observeSubmission now)) t.submission t.pending).1,
        (Parking.create (lifecycleScheme rep (.observeSubmission now)) t.submission t.pending).2⟩ :=
  rfl

/-- **A refused report changes nothing**: the only failure past the checks is an
unknown id, and it is reported as such. -/
theorem mark_eq_error {id : Text} {rep : Report} {missing : Missing} {t : Rows} {e : DbError}
    (h : mark id rep missing t = .error e) :
    e = .unknownSubmission id ∧ missing = .reject ∧ t.submission = none := by
  obtain ⟨row, pending⟩ := t
  cases row with
  | none =>
    cases missing with
    | park => simp [mark, lifecycleUpdate, parkIfMissing, submissionExists, parkMarker] at h
    | reject =>
      have he : DbError.unknownSubmission id = e := by
        simpa [mark, lifecycleUpdate, parkIfMissing, submissionExists] using h
      exact ⟨he.symm, rfl, rfl⟩
  | some row =>
    cases hu : rep.sql row <;>
      simp [mark, lifecycleUpdate, parkIfMissing, submissionExists, hu] at h

/-! ### The destination leg of a swap -/

/-- The outcome columns of a `swap_bridges` row. -/
structure SwapBridgeRow where
  finalizeTx : Option TxRef
  finalizeAmountOut : Option AmountText
  finalizeFallback : Option Bool
  deriving DecidableEq

/-- A `pending_finalize` row: an outcome in full. -/
structure Outcome where
  finalizeTx : TxRef
  finalizeAmountOut : AmountText
  finalizeFallback : Bool
  deriving DecidableEq

/-- The `UPDATE` of `record_finalized`, which has no guard of its own. -/
def Outcome.sql (o : Outcome) (_row : SwapBridgeRow) : Option SwapBridgeRow :=
  some ⟨some o.finalizeTx, some o.finalizeAmountOut, some o.finalizeFallback⟩

/-- The `UPDATE` of `apply_pending_finalize`, which leaves a finalized row alone. -/
def Outcome.fold (o : Outcome) (row : SwapBridgeRow) : SwapBridgeRow :=
  if row.finalizeTx = none then
    ⟨some o.finalizeTx, some o.finalizeAmountOut, some o.finalizeFallback⟩
  else row

/-- `record_finalized` against `record_swap_bridge_intent`, as a parking scheme: a
parked outcome stays when another one is parked over it. -/
def finalizeScheme (o : Outcome) : Parking.Scheme SwapBridgeRow Outcome where
  fresh := ⟨none, none, none⟩
  update := o.sql
  park := fun parked => parked.getD o
  apply := Outcome.fold
  touch := none

/-- What the tables hold for a swap under one id. -/
structure SwapRows where
  /-- The row of `swap_bridges`. -/
  swapBridge : Option SwapBridgeRow
  /-- The row of `pending_finalize`. -/
  pending : Option Outcome
  deriving DecidableEq

/-- Apply and clear a parked outcome: two statements. -/
def applyPendingFinalize (t : SwapRows) : SwapRows :=
  let t := { t with
    swapBridge := t.swapBridge.map fun row => t.pending.elim row fun o => o.fold row }
  { t with pending := none }

/-- `record_finalized`, after its checks. -/
def recordFinalized (o : Outcome) (t : SwapRows) : SwapRows :=
  match t.swapBridge.bind o.sql with
  | some row => { t with swapBridge := some row }
  | none =>
    if t.swapBridge.isSome then { t with swapBridge := t.swapBridge.bind o.sql }
    else
      let t := { t with pending := some (t.pending.getD o) }
      if t.swapBridge.isSome then applyPendingFinalize t else t

/-- `record_swap_bridge_intent`, on the outcome columns. -/
def recordSwapBridgeIntent (t : SwapRows) : SwapRows :=
  let t := { t with swapBridge := some (t.swapBridge.getD ⟨none, none, none⟩) }
  applyPendingFinalize t

theorem recordFinalized_eq_report (o : Outcome) (t : SwapRows) :
    recordFinalized o t =
      ⟨(Parking.report (finalizeScheme o) t.swapBridge t.pending).1,
        (Parking.report (finalizeScheme o) t.swapBridge t.pending).2⟩ := by
  obtain ⟨row, pending⟩ := t
  cases row <;> simp [recordFinalized, Outcome.sql, Parking.report, finalizeScheme]

theorem recordSwapBridgeIntent_eq_create (o : Outcome) (t : SwapRows) :
    recordSwapBridgeIntent t =
      ⟨(Parking.create (finalizeScheme o) t.swapBridge t.pending).1,
        (Parking.create (finalizeScheme o) t.swapBridge t.pending).2⟩ := rfl

end Db

end SelendraBridge
