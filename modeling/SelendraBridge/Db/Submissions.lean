import SelendraBridge.Store.Binding

/-!
# The `submissions` table and its two writers

A row of `submissions` is created by whichever component sees a transfer first – a
validator that posts a signature, or the indexer that read the event – and both go
through `SelendraBridge.Db.verifyBinding`. After that the parameters are immutable:
a later post is compared with the row (`SelendraBridge.Store.sameParams`) and refused
when they differ. The row keeps the text of the first writer, lowercased.
-/

namespace SelendraBridge

namespace Db

open Revert Store

/-- Why a call to the database is refused. -/
inductive DbError
  | store (e : StoreError)
  | badField (field : String)
  | unknownSubmission (submissionId : Text)
  deriving DecidableEq, Repr

/-- The parameter columns of `submissions`. -/
structure SubmissionRow where
  submissionId : Text
  bridgeDomain : Option Text
  debridgeId : Text
  amount : Text
  bridgeDecimals : Option UInt8
  chainIdFrom : U64
  chainIdTo : U64
  nonce : U64
  receiver : Text
  autoParams : Text
  nativeSender : Text
  token : Option Text
  deriving DecidableEq, Repr

/-- An id as the tables key it: `0x` and lowercase digits. -/
def normId (s : Text) : Text := '0' :: 'x' :: lower (stripHexPrefix s)

/-- An id that is about to become a key. -/
def checkedId (submissionId : Text) : Except DbError Text := do
  revertIf (isValidSubmissionId submissionId = false) (.badField "submission_id")
  return normId submissionId

/-- The size bounds, under the database's own errors. -/
def boundedRecord (r : SubmissionRecord) : Except DbError Unit :=
  match checkStorable r with
  | .ok u => .ok u
  | .error (.badField field) => .error (.badField field)
  | .error other => .error (.store other)

/-- A row back as a record. -/
def SubmissionRow.intoRecord (row : SubmissionRow) : SubmissionRecord where
  submissionId := row.submissionId
  bridgeDomain := row.bridgeDomain.getD []
  debridgeId := row.debridgeId
  amount := row.amount
  bridgeDecimals := row.bridgeDecimals
  chainIdFrom := row.chainIdFrom
  chainIdTo := row.chainIdTo
  nonce := row.nonce
  receiver := row.receiver
  autoParams := row.autoParams
  nativeSender := row.nativeSender
  token := row.token.getD []

/-- A token column: absent when the record has none. -/
def tokenColumn (record : SubmissionRecord) : Option Text :=
  if lower record.token = [] then none else some (lower record.token)

/-- The insert both writers share. On a conflict the row keeps everything it has,
and only a missing token is filled in. -/
def insertSubmissionRow (existing : Option SubmissionRow) (id : Text)
    (record : SubmissionRecord) : SubmissionRow :=
  match existing with
  | some row => { row with token := row.token <|> tokenColumn record }
  | none =>
    { submissionId := id
      bridgeDomain := some (lower record.bridgeDomain)
      debridgeId := lower record.debridgeId
      amount := record.amount
      bridgeDecimals := record.bridgeDecimals
      chainIdFrom := record.chainIdFrom
      chainIdTo := record.chainIdTo
      nonce := record.nonce
      receiver := lower record.receiver
      autoParams := lower record.autoParams
      nativeSender := lower record.nativeSender
      token := tokenColumn record }

/-- A posted record as it is compared: under the id its row is keyed by. -/
def incoming (record : SubmissionRecord) : SubmissionRecord :=
  { record with submissionId := normId record.submissionId }

section Writers

variable (keccak256 : Bytes → Bytes32) (P : Parsers)

/-- **The write checks**: a well-formed id, sizes, the id equal to the hash of the
record's own parameters, and the token equal to the one behind the asset id. -/
def verifyBinding (record : SubmissionRecord) : Except DbError Bytes32 := do
  revertIf (isValidSubmissionId record.submissionId = false) (.store (.badField "submission_id"))
  boundedRecord record
  let computed ← withReason DbError.store (canonicalSubmissionId keccak256 P record)
  let claimed ← orRevert (.store (.badField "submission_id")) (P.b256 record.submissionId)
  revertIf (computed ≠ claimed)
    (.store (.idMismatch (hexText (wordBytes claimed)) (hexText (wordBytes computed))))
  withReason DbError.store (verifyTokenBinding keccak256 P record)
  return computed

/-- What a posted record does to its row: compared with an existing one, inserted
otherwise. The signature that came with it is not part of this. -/
def upsertParams (existing : Option SubmissionRow) (record : SubmissionRecord) :
    Except DbError SubmissionRow := do
  let _ ← verifyBinding keccak256 P record
  match existing with
  | some row =>
    revertIf (sameParams row.intoRecord (incoming record) = false)
      (.store (.paramsConflict record.submissionId))
    return { row with token := row.token <|> tokenColumn record }
  | none => return insertSubmissionRow none (normId record.submissionId) record

end Writers

/-! ### What the checks leave -/

variable {keccak256 : Bytes → Bytes32} {P : Parsers}

theorem boundedRecord_eq_ok {r : SubmissionRecord} {u : Unit} :
    boundedRecord r = .ok u ↔ checkStorable r = .ok u := by
  unfold boundedRecord
  split <;> simp_all

/-- **An accepted record**, check by check. -/
theorem verifyBinding_eq_ok {record : SubmissionRecord} {id : Bytes32} :
    verifyBinding keccak256 P record = .ok id ↔
      isValidSubmissionId record.submissionId = true ∧ checkStorable record = .ok () ∧
      canonicalSubmissionId keccak256 P record = .ok id ∧ P.b256 record.submissionId = some id ∧
      verifyTokenBinding keccak256 P record = .ok () := by
  simp only [verifyBinding, revertIf_bind_eq_ok, bind_eq_ok (x := boundedRecord record),
    boundedRecord_eq_ok, bind_eq_ok (x := withReason _ _), withReason_eq_ok,
    orRevert_bind_eq_ok, pure_eq_ok, not_not, Bool.not_eq_false]
  constructor
  · rintro ⟨hid, _, hs, computed, hc, claimed, hcl, rfl, _, htok, rfl⟩
    exact ⟨hid, hs, hc, hcl, htok⟩
  · rintro ⟨hid, hs, hc, hcl, htok⟩
    exact ⟨hid, (), hs, id, hc, id, hcl, rfl, (), htok, rfl⟩

/-- A post is refused as a conflict exactly when its row does not compare equal. -/
theorem upsertParams_ne_paramsConflict_iff {row : SubmissionRow} {record : SubmissionRecord}
    {id : Bytes32} (h : verifyBinding keccak256 P record = .ok id) :
    upsertParams keccak256 P (some row) record ≠
        .error (.store (.paramsConflict record.submissionId)) ↔
      sameParams row.intoRecord (incoming record) = true := by
  simp only [upsertParams, h, ok_bind, revertIf_bind]
  by_cases hs : sameParams row.intoRecord (incoming record) = true
  · simp [hs, pure, Except.pure]
  · simp [hs]

end Db

end SelendraBridge
