import SelendraBridge.Db.Submissions
import SelendraBridge.Store.Signatures

/-!
# The signature tables of the database

The database keeps the parameters of a record in `submissions`, its transfer signatures in
`signatures` and its attestations in `attestations`, all under the normalised id. The
contract is meant to be that of the file store. What differs is in the keys – an id is
brought into one spelling before it is one – and in what a call can put in: one signature,
never a list, and no transfer signature by way of an attestation.

No set of validators is configured, so that the cap on signers holds for all of them. The
transactions of the calls are taken as they are meant, one after the other; what a parked
lifecycle marker does to a new row is in `SelendraBridge.Db.Lifecycle` and changes nothing a
record shows.
-/

namespace SelendraBridge

namespace Db

open Revert Store

/-- The three tables. -/
structure Tables where
  submissions : Text → Option SubmissionRow
  signatures : Text → List SignerSig
  attestations : Text → SigKind → List SignerSig

/-- No rows. -/
def Tables.empty : Tables := ⟨fun _ => none, fun _ => [], fun _ _ => []⟩

/-- The transfer signatures and the attestations of an id, as one family of lists. -/
def Tables.bucket (t : Tables) (id : Text) : SigKind → List SignerSig
  | .transfer => t.signatures id
  | .cancel => t.attestations id .cancel
  | .refund => t.attestations id .refund

/-- The cap, for a signer that is no configured validator. -/
def enforceSignatureCap (rows : List SignerSig) (signerLc : Text) (kind : SigKind) :
    Except DbError Unit :=
  if rows.length < MAX_SIGNATURES_PER_SUBMISSION then .ok ()
  else if rows.any fun row => row.signer == signerLc then .ok ()
  else .error (.store (.tooManySignatures kind.asStr))

/-- `INSERT … ON CONFLICT DO NOTHING`, on the signer's key. -/
def insertSig (rows : List SignerSig) (row : SignerSig) : List SignerSig :=
  if rows.any fun r => r.signer == row.signer then rows else rows ++ [row]

/-- What becomes of a row whose parameters are posted, past the write checks. -/
def putRow (existing : Option SubmissionRow) (record : SubmissionRecord) :
    Except DbError SubmissionRow :=
  match existing with
  | some row => do
    revertIf (sameParams row.intoRecord (incoming record) = false)
      (.store (.paramsConflict record.submissionId))
    return { row with token := row.token <|> tokenColumn record }
  | none => return insertSubmissionRow none (normId record.submissionId) record

/-- A record as it is loaded: the row with the signatures of its id. -/
def loadRow (t : Tables) (id : Text) : Option SignedRecord :=
  (t.submissions id).map fun row =>
    { params := row.intoRecord
      signatures := t.signatures id
      cancelSignatures := t.attestations id .cancel
      refundSignatures := t.attestations id .refund }

/-- `Db::load`. -/
def load (submissionId : Text) (t : Tables) : Option SignedRecord :=
  if isValidSubmissionId submissionId = false then none else loadRow t (normId submissionId)

section Calls

variable (keccak256 : Bytes → Bytes32) (P : Parsers) (R : Recovery)

/-- The checks of a post are the write checks, and then the row's. -/
theorem upsertParams_eq (existing : Option SubmissionRow) (record : SubmissionRecord) :
    upsertParams keccak256 P existing record =
      (verifyBinding keccak256 P record >>= fun _ => putRow existing record) := by
  cases existing <;> rfl

/-- **`Db::upsert_signature`.** -/
def upsertSignature (record : SignedRecord) (sig : SignerSig) (t : Tables) :
    Except DbError (SignedRecord × Tables) := do
  let computed ← verifyBinding keccak256 P record.params
  let _ ← withReason DbError.store (verifySignature P R computed sig)
  let sig ← withReason DbError.store (canonicalSignature P R sig)
  let id := normId record.params.submissionId
  let row ← putRow (t.submissions id) record.params
  let signerLc := lower sig.signer
  enforceSignatureCap (t.signatures id) signerLc .transfer
  let t : Tables := { t with
    submissions := Function.update t.submissions id (some row)
    signatures := Function.update t.signatures id
      (insertSig (t.signatures id) ⟨signerLc, sig.signature⟩) }
  let record ← orRevert (.badField "submission_id") (loadRow t id)
  return (record, t)

/-- **`Db::upsert_attestation`.** -/
def upsertAttestation (submissionId : Text) (kind : SigKind) (sig : SignerSig) (t : Tables) :
    Except DbError (SignedRecord × Tables) := do
  revertIf (isValidSubmissionId submissionId = false) (.store (.badField "submission_id"))
  revertIf (kind = .transfer) (.badField "kind")
  let id := normId submissionId
  let existing ← orRevert (.badField "submission_id") (load id t)
  let parsed ← orRevert (.store (.badField "submission_id")) (P.b256 existing.params.submissionId)
  let _ ← withReason DbError.store (verifyAttestation keccak256 P R parsed kind sig)
  let sig ← withReason DbError.store (canonicalSignature P R sig)
  let signerLc := lower sig.signer
  enforceSignatureCap (t.attestations id kind) signerLc kind
  let t : Tables := { t with
    attestations := Function.update t.attestations id (Function.update (t.attestations id) kind
      (insertSig (t.attestations id kind) ⟨signerLc, sig.signature⟩)) }
  let record ← orRevert (.badField "submission_id") (load id t)
  return (record, t)

end Calls

end Db

end SelendraBridge
