import SelendraBridge.Store.Signatures

/-!
# The file store

One file for each record, named by the digits of its id as the caller spelled them. An
upsert runs the write checks and the signature checks, compares the record with what the
file has, and writes the file anew with the lists of signatures of the old one; what no file
has yet is written with the lists that came with the record. An attestation adds to one of
the lists of an existing file, in any of the three domains.

A directory is a function from names to records: what is written is read back.
-/

namespace SelendraBridge

namespace Store

open Revert

/-- A store directory, by the names of its files. -/
abbrev Files := Text → Option SignedRecord

/-- The name of an id's file. -/
def filePath (submissionId : Text) : Text := stripHexPrefix submissionId

/-- Adds a signature to a list, one for each signer's text up to case, within the cap. -/
def pushCapped (bucket : List SignerSig) (sig : SignerSig) (kind : SigKind) :
    Except StoreError (List SignerSig) :=
  if bucket.any fun s => eqIgnoreCase s.signer sig.signer then .ok bucket
  else if bucket.length ≥ MAX_SIGNATURES_PER_SUBMISSION then .error (.tooManySignatures kind.asStr)
  else .ok (bucket ++ [sig])

/-- The record that is written over a file: the new parameters, with the signatures there
are, and with the token there is. -/
def mergeExisting (existing : Option SignedRecord) (record : SignedRecord) :
    Except StoreError SignedRecord :=
  match existing with
  | none => .ok record
  | some existing => do
    revertIf (sameParams existing.params record.params = false)
      (.paramsConflict record.params.submissionId)
    return {
      params := { record.params with
        token := if existing.params.token = [] then record.params.token
          else existing.params.token }
      signatures := existing.signatures
      cancelSignatures := existing.cancelSignatures
      refundSignatures := existing.refundSignatures }

section Calls

variable (keccak256 : Bytes → Bytes32) (P : Parsers) (R : Recovery)

/-- **`upsert_signature`** of the file store. -/
def upsertSignature (record : SignedRecord) (sig : SignerSig) (dir : Files) :
    Except StoreError (SignedRecord × Files) := do
  revertIf (isValidSubmissionId record.params.submissionId = false) (.badField "submission_id")
  checkStorable record.params
  let computed ← canonicalSubmissionId keccak256 P record.params
  let claimed ← orRevert (.badField "submission_id") (P.b256 record.params.submissionId)
  revertIf (computed ≠ claimed)
    (.idMismatch (hexText (wordBytes claimed)) (hexText (wordBytes computed)))
  let _ ← verifySignature P R computed sig
  let sig ← canonicalSignature P R sig
  verifyTokenBinding keccak256 P record.params
  let path := filePath record.params.submissionId
  let record ← mergeExisting (dir path) record
  let signatures ← pushCapped record.signatures sig .transfer
  let record : SignedRecord := { record with signatures }
  return (record, Function.update dir path (some record))

/-- The list of a domain. -/
def SignedRecord.bucket (record : SignedRecord) : SigKind → List SignerSig
  | .transfer => record.signatures
  | .cancel => record.cancelSignatures
  | .refund => record.refundSignatures

/-- The record with another list in a domain. -/
def SignedRecord.setBucket (record : SignedRecord) (kind : SigKind) (bucket : List SignerSig) :
    SignedRecord :=
  match kind with
  | .transfer => { record with signatures := bucket }
  | .cancel => { record with cancelSignatures := bucket }
  | .refund => { record with refundSignatures := bucket }

/-- **`upsert_attestation`** of the file store. -/
def upsertAttestation (submissionId : Text) (kind : SigKind) (sig : SignerSig) (dir : Files) :
    Except StoreError (SignedRecord × Files) := do
  revertIf (isValidSubmissionId submissionId = false) (.badField "submission_id")
  let path := filePath submissionId
  let record ← orRevert (.badField "submission_id") (dir path)
  let id ← orRevert (.badField "submission_id") (P.b256 record.params.submissionId)
  let _ ← verifyAttestation keccak256 P R id kind sig
  let sig ← canonicalSignature P R sig
  let bucket ← pushCapped (record.bucket kind) sig kind
  let record := record.setBucket kind bucket
  return (record, Function.update dir path (some record))

/-- **`load`** of the file store. -/
def load (submissionId : Text) (dir : Files) : Option SignedRecord :=
  if isValidSubmissionId submissionId = false then none else dir (filePath submissionId)

end Calls

end Store

end SelendraBridge
