import SelendraBridge.Db.OneEntry
import SelendraBridge.SigStore.Policy

/-!
# Requests of the validators

The two routes a `Sign` token reaches, on the database with a validator set: a post of a
submission with its signatures, and a post of an attestation. Each signer is held against the
policy before anything is stored, and a signer of the set is exempt from the cap.

The two checks meet in one text. A request is let through for a signer whose *lowercase* is
bound to its credential; the row it adds has that lowercase for its signer; and the exemption
asks whether that lowercase is in the set. So every row that is added is of a member, of the
label's own if the token has one (`SelendraBridge.SigStore.adds_handle`), and the cap is never
asked: what becomes of a request does not depend on the signature rows there are
(`SelendraBridge.SigStore.sameVerdict_handle`). Together that is
`SelendraBridge.SigStore.not_crowded_out`.
-/

namespace SelendraBridge

namespace Db

open Revert Store

/-! ### The database with a validator set -/

/-- The cap, for a signer that may be a configured validator. -/
def enforceSignatureCapFor (member : Bool) (rows : List SignerSig) (signerLc : Text)
    (kind : SigKind) : Except DbError Unit :=
  if member then .ok () else enforceSignatureCap rows signerLc kind

section Members

variable (keccak256 : Bytes → Bytes32) (P : Parsers) (R : Recovery) (validatorSet : List Text)

/-- **`Db::upsert_signature`**, with a validator set. -/
def upsertSignatureFor (record : SignedRecord) (sig : SignerSig) (t : Tables) :
    Except DbError (SignedRecord × Tables) := do
  let computed ← verifyBinding keccak256 P record.params
  let _ ← withReason DbError.store (verifySignature P R computed sig)
  let sig ← withReason DbError.store (canonicalSignature P R sig)
  let id := normId record.params.submissionId
  let row ← putRow (t.submissions id) record.params
  let signerLc := lower sig.signer
  enforceSignatureCapFor (validatorSet.contains signerLc) (t.signatures id) signerLc .transfer
  let t : Tables := { t with
    submissions := Function.update t.submissions id (some row)
    signatures := Function.update t.signatures id
      (insertSig (t.signatures id) ⟨signerLc, sig.signature⟩) }
  let record ← orRevert (.badField "submission_id") (loadRow t id)
  return (record, t)

/-- **`Db::upsert_attestation`**, with a validator set. -/
def upsertAttestationFor (submissionId : Text) (kind : SigKind) (sig : SignerSig) (t : Tables) :
    Except DbError (SignedRecord × Tables) := do
  revertIf (isValidSubmissionId submissionId = false) (.store (.badField "submission_id"))
  revertIf (kind = .transfer) (.badField "kind")
  let id := normId submissionId
  let existing ← orRevert (.badField "submission_id") (load id t)
  let parsed ← orRevert (.store (.badField "submission_id")) (P.b256 existing.params.submissionId)
  let _ ← withReason DbError.store (verifyAttestation keccak256 P R parsed kind sig)
  let sig ← withReason DbError.store (canonicalSignature P R sig)
  let signerLc := lower sig.signer
  enforceSignatureCapFor (validatorSet.contains signerLc) (t.attestations id kind) signerLc kind
  let t : Tables := { t with
    attestations := Function.update t.attestations id (Function.update (t.attestations id) kind
      (insertSig (t.attestations id kind) ⟨signerLc, sig.signature⟩)) }
  let record ← orRevert (.badField "submission_id") (load id t)
  return (record, t)

end Members

variable {keccak256 : Bytes → Bytes32} {P : Parsers} {R : Recovery} {validatorSet : List Text}
  {t t' : Tables}

/-- With no validator set the calls are the ones before. -/
theorem upsertSignatureFor_nil :
    upsertSignatureFor keccak256 P R [] = upsertSignature keccak256 P R := rfl

theorem upsertAttestationFor_nil :
    upsertAttestationFor keccak256 P R [] = upsertAttestation keccak256 P R := rfl

/-- What a row shows, with the lists of its id. -/
def shown (t : Tables) (id : Text) (row : SubmissionRow) : SignedRecord where
  params := row.intoRecord
  signatures := t.signatures id
  cancelSignatures := t.attestations id .cancel
  refundSignatures := t.attestations id .refund

theorem loadRow_eq_shown {id : Text} {row : SubmissionRow} (h : t.submissions id = some row) :
    loadRow t id = some (shown t id row) := by
  rw [loadRow, h]
  rfl

section Checks

variable (keccak256 : Bytes → Bytes32) (P : Parsers) (R : Recovery)

/-- What a post is checked for, the cap apart. -/
def signatureChecks (record : SignedRecord) (sig : SignerSig) (existing : Option SubmissionRow) :
    Except DbError (SignerSig × SubmissionRow) := do
  let computed ← verifyBinding keccak256 P record.params
  let _ ← withReason DbError.store (verifySignature P R computed sig)
  let sig ← withReason DbError.store (canonicalSignature P R sig)
  let row ← putRow existing record.params
  return (sig, row)

/-- What an attestation is checked for, the cap apart. -/
def attestationChecks (submissionId : Text) (kind : SigKind) (sig : SignerSig)
    (existing : Option SubmissionRow) : Except DbError (SignerSig × SubmissionRow) := do
  revertIf (isValidSubmissionId submissionId = false) (.store (.badField "submission_id"))
  revertIf (kind = .transfer) (.badField "kind")
  let row ← orRevert (.badField "submission_id") existing
  let parsed ← orRevert (.store (.badField "submission_id")) (P.b256 row.submissionId)
  let _ ← withReason DbError.store (verifyAttestation keccak256 P R parsed kind sig)
  let sig ← withReason DbError.store (canonicalSignature P R sig)
  return (sig, row)

end Checks

variable {record : SignedRecord} {sig : SignerSig} {submissionId : Text} {kind : SigKind}

/-- The canonical encoding names the same signer. -/
theorem contains_of_canonicalSignature {sig' : SignerSig}
    (hmem : lower sig.signer ∈ validatorSet) (h : canonicalSignature P R sig = .ok sig') :
    validatorSet.contains (lower sig'.signer) = true := by
  rw [signer_of_canonicalSignature h]
  exact List.contains_iff_mem.mpr hmem

/-- **A post for a signer of the set** is checked for everything but the cap, and then goes in. -/
theorem upsertSignatureFor_of_mem (hmem : lower sig.signer ∈ validatorSet) :
    upsertSignatureFor keccak256 P R validatorSet record sig t =
      (signatureChecks keccak256 P R record sig
        (t.submissions (normId record.params.submissionId))).map fun c =>
          let t' := postedTables t (normId record.params.submissionId) c.2 c.1
          (shown t' (normId record.params.submissionId) c.2, t') := by
  set id := normId record.params.submissionId
  rw [upsertSignatureFor, signatureChecks]
  rcases verifyBinding keccak256 P record.params with e | w
  · rfl
  rw [ok_bind, ok_bind]
  rcases withReason DbError.store (verifySignature P R w sig) with e | b
  · rfl
  rw [ok_bind, ok_bind]
  rcases hcanon : withReason DbError.store (canonicalSignature P R sig) with e | sig'
  · rfl
  have hin := contains_of_canonicalSignature hmem (withReason_eq_ok.mp hcanon)
  rw [ok_bind, ok_bind]
  dsimp only
  rcases putRow (t.submissions id) record.params with e | row
  · rfl
  have hload : loadRow (postedTables t id row sig') id =
      some (shown (postedTables t id row sig') id row) :=
    loadRow_eq_shown (Function.update_self ..)
  rw [ok_bind, ok_bind, hin, enforceSignatureCapFor, if_pos rfl, ok_bind]
  show (orRevert _ (loadRow (postedTables t id row sig') id) >>= _) = _
  rw [hload]
  rfl

/-- **An attestation for a signer of the set.** -/
theorem upsertAttestationFor_of_mem (hmem : lower sig.signer ∈ validatorSet) :
    upsertAttestationFor keccak256 P R validatorSet submissionId kind sig t =
      (attestationChecks keccak256 P R submissionId kind sig
        (t.submissions (normId submissionId))).map fun c =>
          let t' := attestedTables t (normId submissionId) kind c.1
          (shown t' (normId submissionId) c.2, t') := by
  set id := normId submissionId with hid
  rw [upsertAttestationFor, attestationChecks]
  by_cases hvalid : isValidSubmissionId submissionId = true
  swap
  · rw [revertIf, if_pos (by simpa using hvalid)]
    rfl
  rw [revertIf, if_neg (by simp [hvalid]), ok_bind, ok_bind]
  by_cases hkind : kind = .transfer
  · rw [revertIf, if_pos hkind]
    rfl
  rw [revertIf, if_neg hkind, ok_bind, ok_bind]
  dsimp only
  rw [load_normId hvalid, ← hid]
  rcases hrow : t.submissions id with _ | row
  · rw [loadRow, hrow]
    rfl
  rw [loadRow_eq_shown hrow, orRevert, ok_bind, orRevert, ok_bind]
  rcases hparsed : P.b256 row.submissionId with _ | w
  · rw [show (shown t id row).params.submissionId = row.submissionId from rfl, hparsed]
    rfl
  rw [show (shown t id row).params.submissionId = row.submissionId from rfl, hparsed, orRevert,
    ok_bind, ok_bind]
  rcases withReason DbError.store (verifyAttestation keccak256 P R w kind sig) with e | b
  · rfl
  rw [ok_bind, ok_bind]
  rcases hcanon : withReason DbError.store (canonicalSignature P R sig) with e | sig'
  · rfl
  have hin := contains_of_canonicalSignature hmem (withReason_eq_ok.mp hcanon)
  have hload : load id (attestedTables t id kind sig') =
      some (shown (attestedTables t id kind sig') id row) := by
    rw [hid, load_normId hvalid, ← hid]
    exact loadRow_eq_shown hrow
  rw [ok_bind, ok_bind, hin, enforceSignatureCapFor, if_pos rfl, ok_bind]
  show (orRevert _ (load id (attestedTables t id kind sig')) >>= _) = _
  rw [hload]
  rfl

end Db

end SelendraBridge

namespace SelendraBridge

namespace SigStore

open Revert Store Db

/-! ### The routes -/

/-- How many signatures one post may carry. -/
def MAX_SIGS_PER_POST : ℕ := 4

/-- `SigKind::parse`. -/
def parseKind (s : Text) : Option SigKind :=
  if s = ['t', 'r', 'a', 'n', 's', 'f', 'e', 'r'] then some .transfer
  else if s = ['c', 'a', 'n', 'c', 'e', 'l'] then some .cancel
  else if s = ['r', 'e', 'f', 'u', 'n', 'd'] then some .refund
  else none

/-- The body of a request, by its route. -/
inductive Request
  | postSubmission (record : SignedRecord)
  | postAttestation (submissionId kind signer signature : Text)

/-- Why a request is refused. -/
inductive Refusal
  | unauthorized
  | tooManySignatures (n : ℕ)
  | notPermitted (identity : Option Text) (signer : Text)
  | unknownKind (kind : Text)
  | db (e : DbError)
  deriving DecidableEq, Repr

/-- The running store: what it was started with, and the code it is built on. -/
structure App where
  keccak256 : Bytes → Bytes32
  parsers : Parsers
  recovery : Recovery
  auth : Auth
  policy : SignerPolicy

/-- An answer, and the tables after it. -/
abbrev Answer := Except Refusal SignedRecord × Tables

/-- A call to the database, answered over HTTP. -/
def answer (t : Tables) : Except DbError (SignedRecord × Tables) → Answer
  | .ok (record, t') => (.ok record, t')
  | .error e => (.error (.db e), t)

section Routes

variable (app : App)

/-- `with_validator_set`, as `with_signers` calls it. -/
def App.validatorSet : List Text := app.policy.members.map lower

/-- The signatures of a post, one after the other; the first that is refused ends it. -/
def App.storeAll : SignedRecord → List SignerSig → Tables → Answer
  | merged, [], t => (.ok merged, t)
  | merged, sig :: sigs, t =>
    match upsertSignatureFor app.keccak256 app.parsers app.recovery app.validatorSet merged sig
        t with
    | .ok (merged, t) => App.storeAll merged sigs t
    | .error e => (.error (.db e), t)

/-- **`post_submission`.** -/
def App.postSubmission (identity : Option Text) (record : SignedRecord) (t : Tables) : Answer :=
  if record.signatures.length > MAX_SIGS_PER_POST then
    (.error (.tooManySignatures record.signatures.length), t)
  else
    -- Every signer is checked before any is stored.
    match record.signatures.find? fun sig => !app.policy.permits identity sig.signer with
    | some sig => (.error (.notPermitted identity (lower sig.signer)), t)
    | none =>
      let base := { record with signatures := [] }
      match record.signatures with
      | [] => (.ok ((load base.params.submissionId t).getD base), t)
      | sigs => app.storeAll base sigs t

/-- **`post_attestation`.** -/
def App.postAttestation (identity : Option Text) (submissionId kind signer signature : Text)
    (t : Tables) : Answer :=
  match (parseKind kind).filter fun k => k ≠ .transfer with
  | none => (.error (.unknownKind kind), t)
  | some k =>
    if app.policy.permits identity signer = false then
      (.error (.notPermitted identity (lower signer)), t)
    else
      answer t (upsertAttestationFor app.keccak256 app.parsers app.recovery app.validatorSet
        submissionId k ⟨signer, signature⟩ t)

/-- **A request**, with the token it presents. -/
def App.handle (t : Tables) (r : Text × Request) : Answer :=
  if app.auth.grants r.1 .sign = false then (.error .unauthorized, t)
  else
    match r.2 with
    | .postSubmission record => app.postSubmission (app.auth.identity r.1) record t
    | .postAttestation submissionId kind signer signature =>
      app.postAttestation (app.auth.identity r.1) submissionId kind signer signature t

/-- The tables after a sequence of requests. -/
def App.after (t : Tables) (requests : List (Text × Request)) : Tables :=
  requests.foldl (fun t r => (app.handle t r).2) t

/-! ### What is said of them -/

/-- **A row a credential may add**: its signer is an address of the validator set, and of the
credential's own label if it has one. -/
structure Permitted (identity : Option Text) (s : SignerSig) : Prop where
  address : ∃ a, app.parsers.address s.signer = some a
  member : s.signer ∈ app.policy.members
  own : ∀ l, identity = some l → (l, s.signer) ∈ app.policy.byLabel

/-- A validator's own token: its label is bound to the validator's address. -/
structure OwnToken (token : Text) (v : Address) : Prop where
  grants : app.auth.grants token .sign = true
  bound : ∃ l addr, app.auth.identity token = some l ∧ (l, addr) ∈ app.policy.byLabel ∧
    app.parsers.address addr = some v

/-- **A genuine signature of a validator for a record that is equal to the stored one**, with its
signer named with `0x`. -/
structure Genuine (t : Tables) (v : Address) (record : SignedRecord) (sig : SignerSig) :
    Prop where
  only : record.signatures = [sig]
  named : hasHexPrefix sig.signer = true
  verifies : ∃ w, verifyBinding app.keccak256 app.parsers record.params = .ok w ∧
    verifySignature app.parsers app.recovery w sig = .ok v
  encodes : ∃ sig', canonicalSignature app.parsers app.recovery sig = .ok sig'
  stored : ∃ row, t.submissions (normId record.params.submissionId) = some row ∧
    sameParams row.intoRecord (incoming record.params) = true

/-- A genuine attestation, of a record there is. -/
structure GenuineAttestation (t : Tables) (v : Address) (submissionId kind : Text)
    (sig : SignerSig) : Prop where
  valid : isValidSubmissionId submissionId = true
  named : hasHexPrefix sig.signer = true
  stored : ∃ row w k, t.submissions (normId submissionId) = some row ∧
    app.parsers.b256 row.submissionId = some w ∧ parseKind kind = some k ∧ k ≠ .transfer ∧
    verifyAttestation app.keccak256 app.parsers app.recovery w k sig = .ok v
  encodes : ∃ sig', canonicalSignature app.parsers app.recovery sig = .ok sig'

end Routes

/-- **Two answers with one verdict**: the same refusal, or the same record but for its lists. -/
def SameVerdict : Except Refusal SignedRecord → Except Refusal SignedRecord → Prop
  | .error e, .error e' => e = e'
  | .ok r, .ok r' => r.params = r'.params
  | _, _ => False

/-! ### Rows that are added -/

section Adds

variable {bucket : List SignerSig} {sig s : SignerSig} {S S' : SignerSig → Prop}
  {t t' t'' : Tables}

theorem mem_insertSig (h : s ∈ insertSig bucket sig) : s ∈ bucket ∨ s = sig := by
  rw [insertSig] at h
  split at h
  · exact .inl h
  · exact (List.mem_append.mp h).imp_right List.mem_singleton.mp

/-- Whoever is put in has an entry then. -/
theorem exists_mem_insertSig (bucket : List SignerSig) (sig : SignerSig) :
    ∃ s ∈ insertSig bucket sig, s.signer = sig.signer := by
  rw [insertSig]
  split
  · next hany =>
    obtain ⟨s, hs, heq⟩ := List.any_eq_true.mp hany
    exact ⟨s, hs, beq_iff_eq.mp heq⟩
  · exact ⟨sig, List.mem_append_right _ List.mem_cons_self, rfl⟩

/-- **The rows that are added are of a kind**, in each list of each id. -/
def Adds (S : SignerSig → Prop) (t t' : Tables) : Prop :=
  ∀ id kind, ∀ s ∈ t'.bucket id kind, s ∈ t.bucket id kind ∨ S s

theorem Adds.refl (t : Tables) : Adds S t t := fun _ _ _ hs => .inl hs

theorem Adds.trans (h : Adds S t t') (h' : Adds S t' t'') : Adds S t t'' := by
  intro id kind s hs
  rcases h' id kind s hs with hs | hs
  · exact h id kind s hs
  · exact .inr hs

theorem adds_postedTables {id : Text} {row : SubmissionRow} (h : S (lowered sig)) :
    Adds S t (postedTables t id row sig) := by
  intro key kind s hs
  rw [bucket_postedTables] at hs
  split at hs
  · rcases mem_insertSig hs with hs | rfl
    · exact .inl hs
    · exact .inr h
  · exact .inl hs

theorem adds_attestedTables {id : Text} {kind : SigKind} (hkind : kind ≠ .transfer)
    (h : S (lowered sig)) : Adds S t (attestedTables t id kind sig) := by
  intro key k s hs
  rw [bucket_attestedTables t id hkind] at hs
  split at hs
  · rcases mem_insertSig hs with hs | rfl
    · exact .inl hs
    · exact .inr h
  · exact .inl hs

end Adds

/-! ### One request -/

section Handle

variable {app : App} {labels : List Text} {identity : Option Text} {t t' : Tables}
  {sig sig' : SignerSig} {record record' : SignedRecord} {row : SubmissionRow}

/-- A signer of the policy is exempt. -/
theorem lower_mem_validatorSet {addr : Text} (h : lower addr ∈ app.policy.members) :
    lower addr ∈ app.validatorSet :=
  List.mem_map.mpr ⟨lower addr, h, lower_lower _⟩

/-- **What becomes of a signature that is let through**: its row is one the credential may
add. -/
theorem permitted_lowered (hP : app.parsers.Lawful)
    (hsound : SignerPolicy.Sound labels app.policy) (henforced : app.policy.isEnforced = true)
    (hpermits : app.policy.permits identity sig.signer = true) {message : Bytes32} {a : Address}
    (hverify : verifySignature app.parsers app.recovery message sig = .ok a)
    (hsigner : sig'.signer = sig.signer) : Permitted app identity (lowered sig') := by
  obtain ⟨haddr, -⟩ := verifySignature_eq_ok.mp hverify
  have hlowered : (lowered sig').signer = lower sig.signer := congrArg lower hsigner
  constructor
  · exact ⟨a, by rw [hlowered, address_lower hP haddr]⟩
  · rw [hlowered]
    exact hsound.mem_of_permits henforced hpermits
  · rintro l rfl
    rw [hlowered]
    unfold SignerPolicy.permits at hpermits
    rw [if_neg (by simp [henforced])] at hpermits
    exact List.contains_iff_mem.mp hpermits

theorem signatureChecks_eq_ok {existing : Option SubmissionRow} :
    signatureChecks app.keccak256 app.parsers app.recovery record sig existing = .ok (sig', row) ↔
      (∃ w, verifyBinding app.keccak256 app.parsers record.params = .ok w ∧
        ∃ a, verifySignature app.parsers app.recovery w sig = .ok a) ∧
      canonicalSignature app.parsers app.recovery sig = .ok sig' ∧
      putRow existing record.params = .ok row := by
  simp only [signatureChecks, bind_eq_ok, withReason_eq_ok, pure_eq_ok, Prod.mk.injEq]
  constructor
  · rintro ⟨w, hbind, a, hverify, _, hcanon, _, hrow, rfl, rfl⟩
    exact ⟨⟨w, hbind, a, hverify⟩, hcanon, hrow⟩
  · rintro ⟨⟨w, hbind, a, hverify⟩, hcanon, hrow⟩
    exact ⟨w, hbind, a, hverify, sig', hcanon, row, hrow, rfl, rfl⟩

theorem attestationChecks_eq_ok {submissionId : Text} {kind : SigKind}
    {existing : Option SubmissionRow} :
    attestationChecks app.keccak256 app.parsers app.recovery submissionId kind sig existing =
        .ok (sig', row) ↔
      isValidSubmissionId submissionId = true ∧ kind ≠ .transfer ∧ existing = some row ∧
      (∃ w, app.parsers.b256 row.submissionId = some w ∧
        ∃ a, verifyAttestation app.keccak256 app.parsers app.recovery w kind sig = .ok a) ∧
      canonicalSignature app.parsers app.recovery sig = .ok sig' := by
  simp only [attestationChecks, bind_eq_ok, exists_unit, revertIf_eq_ok, orRevert_eq_ok,
    withReason_eq_ok, pure_eq_ok, Prod.mk.injEq, Bool.not_eq_false]
  constructor
  · rintro ⟨hvalid, hkind, _, hrow, w, hw, a, hverify, _, hcanon, rfl, rfl⟩
    exact ⟨hvalid, hkind, hrow, ⟨w, hw, a, hverify⟩, hcanon⟩
  · rintro ⟨hvalid, hkind, hrow, ⟨w, hw, a, hverify⟩, hcanon⟩
    exact ⟨hvalid, hkind, row, hrow, w, hw, a, hverify, sig', hcanon, rfl, rfl⟩

/-- **The signatures of a post, one after the other**, each of a signer that is let through. -/
theorem adds_storeAll (hP : app.parsers.Lawful) (hsound : SignerPolicy.Sound labels app.policy)
    (henforced : app.policy.isEnforced = true) {sigs : List SignerSig}
    (hpermits : ∀ sig ∈ sigs, app.policy.permits identity sig.signer = true) :
    Adds (Permitted app identity) t (app.storeAll record sigs t).2 := by
  induction sigs generalizing record t with
  | nil => exact Adds.refl t
  | cons sig sigs ih =>
    have hsig := hpermits sig List.mem_cons_self
    have hmem := lower_mem_validatorSet (hsound.mem_of_permits henforced hsig)
    rw [App.storeAll, upsertSignatureFor_of_mem hmem]
    rcases hchecks : signatureChecks app.keccak256 app.parsers app.recovery record sig
      (t.submissions (normId record.params.submissionId)) with e | ⟨sig', row⟩
    · exact Adds.refl t
    · obtain ⟨⟨w, -, a, hverify⟩, hcanon, -⟩ := signatureChecks_eq_ok.mp hchecks
      have hadded := permitted_lowered hP hsound henforced hsig hverify
        (signer_of_canonicalSignature hcanon)
      exact (adds_postedTables hadded).trans (ih fun s hs => hpermits s (List.mem_cons_of_mem _ hs))

/-- **What becomes of them does not depend on the lists there are.** -/
theorem sameVerdict_storeAll (hsound : SignerPolicy.Sound labels app.policy)
    (henforced : app.policy.isEnforced = true) {sigs : List SignerSig}
    (hpermits : ∀ sig ∈ sigs, app.policy.permits identity sig.signer = true)
    (hparams : record.params = record'.params) (hrows : t.submissions = t'.submissions) :
    SameVerdict (app.storeAll record sigs t).1 (app.storeAll record' sigs t').1 := by
  induction sigs generalizing record record' t t' with
  | nil => exact hparams
  | cons sig sigs ih =>
    have hmem := lower_mem_validatorSet
      (hsound.mem_of_permits henforced (hpermits sig List.mem_cons_self))
    have hchecks : signatureChecks app.keccak256 app.parsers app.recovery record' sig =
        signatureChecks app.keccak256 app.parsers app.recovery record sig := by
      funext existing
      rw [signatureChecks, signatureChecks, hparams]
    rw [App.storeAll, App.storeAll, upsertSignatureFor_of_mem hmem, upsertSignatureFor_of_mem hmem,
      ← hparams, ← hrows, hchecks]
    rcases signatureChecks app.keccak256 app.parsers app.recovery record sig
      (t.submissions (normId record.params.submissionId)) with e | ⟨sig', row⟩
    · rfl
    · refine ih (fun s hs => hpermits s (List.mem_cons_of_mem _ hs)) rfl ?_
      simp only [postedTables, hrows]

/-- What is loaded under an id is the row, whatever its lists. -/
theorem map_params_load (hrows : t.submissions = t'.submissions) (id : Text) :
    (Db.load id t).map SignedRecord.params = (Db.load id t').map SignedRecord.params := by
  rw [Db.load, Db.load]
  split
  · rfl
  · simp only [loadRow, hrows, Option.map_map, Function.comp_def]

/-- The signers of a post that is not refused at the door are let through. -/
theorem permits_of_find {sigs : List SignerSig}
    (h : (sigs.find? fun sig => !app.policy.permits identity sig.signer) = none) :
    ∀ sig ∈ sigs, app.policy.permits identity sig.signer = true := by
  intro sig hsig
  simpa using List.find?_eq_none.mp h sig hsig

/-- **`Request`s add rows of their credential only.** -/
theorem adds_handle (hP : app.parsers.Lawful) (hsound : SignerPolicy.Sound labels app.policy)
    (henforced : app.policy.isEnforced = true) (r : Text × Request) :
    Adds (Permitted app (app.auth.identity r.1)) t (app.handle t r).2 := by
  obtain ⟨token, request⟩ := r
  rw [App.handle]
  split
  · exact Adds.refl t
  cases request with
  | postSubmission record =>
    dsimp only
    rw [App.postSubmission]
    split
    · exact Adds.refl t
    split
    · exact Adds.refl t
    · next hfind =>
      have hpermits := permits_of_find hfind
      rcases hsigs : record.signatures with _ | ⟨sig, sigs⟩
      · exact Adds.refl t
      · rw [hsigs] at hpermits
        exact adds_storeAll hP hsound henforced hpermits
  | postAttestation submissionId kind signer signature =>
    dsimp only
    rw [App.postAttestation]
    split
    · exact Adds.refl t
    · next k hk =>
      have hkind : k ≠ .transfer := by
        obtain ⟨-, hne⟩ := Option.filter_eq_some_iff.mp hk
        exact of_decide_eq_true hne
      split
      · exact Adds.refl t
      · next hrefused =>
        have hpermits : app.policy.permits (app.auth.identity token) signer = true :=
          Bool.not_eq_false _ ▸ hrefused
        have hmem : lower (SignerSig.mk signer signature).signer ∈ app.validatorSet :=
          lower_mem_validatorSet (hsound.mem_of_permits henforced hpermits)
        rw [upsertAttestationFor_of_mem hmem]
        rcases hchecks : attestationChecks app.keccak256 app.parsers app.recovery submissionId k
          ⟨signer, signature⟩ (t.submissions (normId submissionId)) with e | ⟨sig', row⟩
        · exact Adds.refl t
        · obtain ⟨-, -, -, ⟨w, -, a, hverify⟩, hcanon⟩ := attestationChecks_eq_ok.mp hchecks
          exact adds_attestedTables hkind (permitted_lowered hP hsound henforced hpermits hverify
            (signer_of_canonicalSignature hcanon))

/-- **The verdict on a request is the same whatever the lists there are.** -/
theorem sameVerdict_handle (hsound : SignerPolicy.Sound labels app.policy)
    (henforced : app.policy.isEnforced = true) (hrows : t.submissions = t'.submissions)
    (r : Text × Request) : SameVerdict (app.handle t r).1 (app.handle t' r).1 := by
  obtain ⟨token, request⟩ := r
  rw [App.handle, App.handle]
  split
  · rfl
  cases request with
  | postSubmission record =>
    dsimp only
    rw [App.postSubmission, App.postSubmission]
    split
    · rfl
    split
    · rfl
    · next hfind =>
      have hpermits := permits_of_find hfind
      rcases hsigs : record.signatures with _ | ⟨sig, sigs⟩
      · have hload := map_params_load hrows record.params.submissionId
        show SignedRecord.params _ = SignedRecord.params _
        rw [← Option.getD_map SignedRecord.params, ← Option.getD_map SignedRecord.params, hload]
      · rw [hsigs] at hpermits
        exact sameVerdict_storeAll hsound henforced hpermits rfl hrows
  | postAttestation submissionId kind signer signature =>
    dsimp only
    rw [App.postAttestation, App.postAttestation]
    split
    · rfl
    split
    · rfl
    · next k _ hrefused =>
      have hpermits : app.policy.permits (app.auth.identity token) signer = true :=
        Bool.not_eq_false _ ▸ hrefused
      have hmem : lower (SignerSig.mk signer signature).signer ∈ app.validatorSet :=
        lower_mem_validatorSet (hsound.mem_of_permits henforced hpermits)
      rw [upsertAttestationFor_of_mem hmem, upsertAttestationFor_of_mem hmem, ← hrows]
      rcases attestationChecks app.keccak256 app.parsers app.recovery submissionId k
        ⟨signer, signature⟩ (t.submissions (normId submissionId)) with e | ⟨sig', row⟩
      · rfl
      · rfl

/-! ### A validator's own token -/

/-- **A validator's own token may post for it**, under any text with `0x`. -/
theorem OwnToken.permits (hP : app.parsers.Lawful)
    (hsound : SignerPolicy.Sound labels app.policy) {token : Text} {v : Address}
    (h : OwnToken app token v) {signer : Text} (haddr : app.parsers.address signer = some v)
    (hnamed : hasHexPrefix signer = true) :
    app.policy.permits (app.auth.identity token) signer = true := by
  obtain ⟨-, l, addr, hl, hbound, hv⟩ := h
  obtain ⟨hform, hlower : lower addr = addr⟩ := hsound.address _ hbound
  have hfront : hasHexPrefix addr = true := by
    simp only [isBoundAddress, Bool.and_eq_true] at hform
    exact hform.1.2
  have htext : lower signer = addr := by
    rw [← hlower]
    exact (lower_eq_of_address hP haddr hv).mpr (hnamed.trans hfront.symm)
  rw [hl, SignerPolicy.permits]
  split
  · rfl
  · exact List.contains_iff_mem.mpr (htext ▸ hbound)

/-- **A genuine signature for the stored record is taken.** -/
theorem accepted_submission (hP : app.parsers.Lawful)
    (hsound : SignerPolicy.Sound labels app.policy) (henforced : app.policy.isEnforced = true)
    {token : Text} {v : Address} (htoken : OwnToken app token v)
    (h : Genuine app t v record sig) : ∃ stored,
      (app.handle t (token, .postSubmission record)).1 = .ok stored ∧
      ∃ s ∈ stored.signatures, s.signer = lower sig.signer := by
  obtain ⟨w, hbind, hverify⟩ := h.verifies
  obtain ⟨sig', hcanon⟩ := h.encodes
  obtain ⟨row, hrow, hsame⟩ := h.stored
  obtain ⟨haddr, -⟩ := verifySignature_eq_ok.mp hverify
  have hpermits := htoken.permits hP hsound haddr h.named
  have hmem := lower_mem_validatorSet (hsound.mem_of_permits henforced hpermits)
  have hfind : (record.signatures.find? fun s =>
      !app.policy.permits (app.auth.identity token) s.signer) = none := by
    rw [h.only, List.find?_eq_none]
    intro s hs
    rw [List.mem_singleton.mp hs, hpermits]
    decide
  have hput : putRow (t.submissions (normId record.params.submissionId)) record.params =
      .ok { row with token := row.token <|> tokenColumn record.params } := by
    rw [hrow, putRow, revertIf, if_neg (by simp [hsame])]
    rfl
  have hchecks := signatureChecks_eq_ok.mpr ⟨⟨w, hbind, v, hverify⟩, hcanon, hput⟩
  rw [App.handle, if_neg (by simp [htoken.grants])]
  dsimp only
  rw [App.postSubmission, if_neg (by simp [h.only, MAX_SIGS_PER_POST]), hfind, h.only]
  dsimp only
  rw [App.storeAll, upsertSignatureFor_of_mem hmem]
  have hsame : signatureChecks app.keccak256 app.parsers app.recovery
      { record with signatures := [] } sig = signatureChecks app.keccak256 app.parsers
        app.recovery record sig := rfl
  rw [hsame]
  dsimp only
  rw [hchecks]
  set id := normId record.params.submissionId
  refine ⟨_, rfl, ?_⟩
  obtain ⟨s, hs, hsigner⟩ := exists_mem_insertSig (t.signatures id) (lowered sig')
  refine ⟨s, ?_, ?_⟩
  · simpa [shown, postedTables] using hs
  · rw [hsigner, ← signer_of_canonicalSignature hcanon]
    rfl

/-- **A genuine attestation is taken.** -/
theorem accepted_attestation (hP : app.parsers.Lawful)
    (hsound : SignerPolicy.Sound labels app.policy) (henforced : app.policy.isEnforced = true)
    {token : Text} {v : Address} (htoken : OwnToken app token v) {submissionId kind : Text}
    (h : GenuineAttestation app t v submissionId kind sig) : ∃ stored k,
      parseKind kind = some k ∧
      (app.handle t (token, .postAttestation submissionId kind sig.signer sig.signature)).1 =
        .ok stored ∧
      ∃ s ∈ stored.bucket k, s.signer = lower sig.signer := by
  obtain ⟨row, w, k, hrow, hw, hk, hkind, hverify⟩ := h.stored
  obtain ⟨sig', hcanon⟩ := h.encodes
  obtain ⟨haddr, -⟩ := verifySignature_eq_ok.mp hverify
  have hpermits := htoken.permits hP hsound haddr h.named
  have hmem := lower_mem_validatorSet (hsound.mem_of_permits henforced hpermits)
  have hchecks := attestationChecks_eq_ok.mpr
    ⟨h.valid, hkind, hrow, ⟨w, hw, v, hverify⟩, hcanon⟩
  have hparsed : (parseKind kind).filter (fun k => k ≠ .transfer) = some k := by
    rw [hk, Option.filter_some, if_pos (by simpa using hkind)]
  rw [App.handle, if_neg (by simp [htoken.grants])]
  dsimp only
  rw [App.postAttestation, hparsed]
  dsimp only
  rw [if_neg (by simp [hpermits]), upsertAttestationFor_of_mem hmem, hchecks]
  set id := normId submissionId
  refine ⟨_, k, hk, rfl, ?_⟩
  obtain ⟨s, hs, hsigner⟩ := exists_mem_insertSig (t.attestations id k) (lowered sig')
  refine ⟨s, ?_, ?_⟩
  · cases k with
    | transfer => exact absurd rfl hkind
    | cancel => simpa [shown, attestedTables, SignedRecord.bucket] using hs
    | refund => simpa [shown, attestedTables, SignedRecord.bucket] using hs
  · rw [hsigner, ← signer_of_canonicalSignature hcanon]
    rfl

/-- **A token of the operator's list is its validator's own**, if its label is bound to it. -/
theorem ownToken_of_args {args : Args} (hauth : args.auth = .ok app.auth)
    {pairs : List (Text × Text)} (hparse : parseValidatorTokens args.validatorTokens = .ok pairs)
    {l token addr : Text} {v : Address} (hlisted : (l, token) ∈ pairs)
    (hbound : (l, addr) ∈ app.policy.byLabel) (haddr : app.parsers.address addr = some v) :
    OwnToken app token v := by
  obtain ⟨hid, hgrants⟩ := Args.auth_of_mem hauth hparse hlisted
  exact ⟨hgrants, l, addr, hid, hbound, haddr⟩

end Handle

/-! ### Every sequence of requests -/

/-- **Nobody is crowded out** by a request, or before it. -/
structure NotCrowdedOut (app : App) (t : Tables) (r : Text × Request) : Prop where
  added : ∀ id kind, ∀ s ∈ (app.handle t r).2.bucket id kind,
    s ∈ t.bucket id kind ∨ Permitted app (app.auth.identity r.1) s
  verdict : ∀ t', t.submissions = t'.submissions →
    SameVerdict (app.handle t r).1 (app.handle t' r).1
  submission : ∀ v record sig, r.2 = .postSubmission record → OwnToken app r.1 v →
    Genuine app t v record sig → ∃ stored, (app.handle t r).1 = .ok stored ∧
      ∃ s ∈ stored.signatures, s.signer = lower sig.signer
  attestation : ∀ v submissionId kind sig,
    r.2 = .postAttestation submissionId kind sig.signer sig.signature → OwnToken app r.1 v →
    GenuineAttestation app t v submissionId kind sig → ∃ stored k, parseKind kind = some k ∧
      (app.handle t r).1 = .ok stored ∧ ∃ s ∈ stored.bucket k, s.signer = lower sig.signer

variable {app : App} {raw : Text} {labels : List Text}

/-- **Other credentials cannot crowd out a validator.** With any policy that the parser accepts
and that has a member, over any tables and after any requests: the rows that a request adds name
addresses of the set, bound to the label of its token if it has one; what becomes of a request
is the same whatever signature rows there are; and a validator's genuine signature, posted with
its own token for a record that is the stored one, is taken. -/
theorem not_crowded_out (hP : app.parsers.Lawful)
    (hparse : SignerPolicy.parse raw labels = .ok app.policy) (hmembers : app.policy.members ≠ [])
    (t₀ : Tables) (requests : List (Text × Request)) :
    ∀ pre r rest, requests = pre ++ r :: rest → NotCrowdedOut app (app.after t₀ pre) r := by
  have hsound := SignerPolicy.sound_of_parse hparse
  have henforced : app.policy.isEnforced = true := by
    rw [SignerPolicy.isEnforced, Bool.not_eq_true', List.isEmpty_eq_false_iff]
    exact hmembers
  rintro pre ⟨token, request⟩ rest -
  constructor
  · exact adds_handle hP hsound henforced _
  · exact fun t' hrows => sameVerdict_handle hsound henforced hrows _
  · rintro v record sig rfl htoken hgenuine
    exact accepted_submission hP hsound henforced htoken hgenuine
  · rintro v submissionId kind sig rfl htoken hgenuine
    exact accepted_attestation hP hsound henforced htoken hgenuine

/-! ### A store with one validator -/

/-- One validator, labelled `a`, with the token `x`. -/
def settings : Args where
  validatorTokens := ['a', ':', 'x']
  validatorSigners := 'a' :: ':' :: firstSignature.signer
  authToken := none
  validatorToken := none
  keeperToken := none
  readerToken := none
  adminToken := none
  indexerToken := none

/-- The store that is started with it. -/
def started : App where
  keccak256 := digestOf
  parsers := Parsers.standard
  recovery := knownSignatures
  auth := (Auth.new [(['x'], [.read, .sign])]).withIdentities [(['x'], ['a'])]
  policy := ⟨[(['a'], firstSignature.signer)], [firstSignature.signer]⟩

/-- The validator's post. -/
def posted : SignedRecord := { unsigned honest with signatures := [firstSignature] }

/-- The validator posts twice, and its second post is taken as its first. -/
theorem not_crowded_out_posted :
    ∃ stored, (started.handle (started.after Tables.empty [(['x'], .postSubmission posted)])
      (['x'], .postSubmission posted)).1 = .ok stored ∧
      ∃ s ∈ stored.signatures, s.signer = lower firstSignature.signer := by
  have hsafe := @not_crowded_out started settings.validatorSigners [['a']]
    Parsers.standard_lawful (by decide +kernel) (by decide +kernel) Tables.empty
    [(['x'], .postSubmission posted), (['x'], .postSubmission posted)]
    [(['x'], .postSubmission posted)] (['x'], .postSubmission posted) [] rfl
  have hlisted : parseValidatorTokens settings.validatorTokens = .ok [(['a'], ['x'])] := by
    decide +kernel
  have hbound : (['a'], firstSignature.signer) ∈ started.policy.byLabel := List.mem_cons_self
  have htoken : OwnToken started ['x'] 0x7e5f4552091a69125d5dfcb7b8c2659029395bdf :=
    @ownToken_of_args started settings rfl _ hlisted _ _ _ _ List.mem_cons_self hbound
      (by decide +kernel)
  refine hsafe.submission _ posted firstSignature rfl htoken ⟨rfl, rfl, ?_, ?_, ?_⟩
  · exact ⟨emitted.submissionId, by decide +kernel, by decide +kernel⟩
  · exact ⟨firstSignature, by decide +kernel⟩
  · have hrow : ((started.after Tables.empty [(['x'], .postSubmission posted)]).submissions
        (normId posted.params.submissionId)).any (fun row =>
          sameParams row.intoRecord (incoming posted.params)) = true := by decide +kernel
    exact (Option.any_eq_true _ _).mp hrow

end SigStore

end SelendraBridge
