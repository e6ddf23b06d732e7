import SelendraBridge.Db.Alike

/-!
# Calls to the two stores

The calls both stores take (`SelendraBridge.Db.Call`), what each store does with a sequence
of them, and what it means that the two implement one contract on it
(`SelendraBridge.Db.SameContract`). The second half inverts the four writes: a post is taken
by either store when it passes the checks both make (`SelendraBridge.Db.Passes`), goes with
what is there, and finds room in its list.
-/

namespace SelendraBridge

namespace Db

open Revert Store

/-! ### Calls -/

/-- The calls both stores take. -/
inductive Call
  | upsertSignature (record : SignedRecord) (sig : SignerSig)
  | upsertAttestation (submissionId : Text) (kind : SigKind) (sig : SignerSig)
  | load (submissionId : Text)

/-- A call that changes nothing when it is refused. -/
def settle {ε σ : Type} (s : σ) : Except ε (SignedRecord × σ) → Except ε (Option SignedRecord) × σ
  | .ok (record, s') => (.ok (some record), s')
  | .error e => (.error e, s)

section Stores

variable (keccak256 : Bytes → Bytes32) (P : Parsers) (R : Recovery)

/-- A call to the file store: its answer, and the directory after it. -/
def fileCall (dir : Files) : Call → Except StoreError (Option SignedRecord) × Files
  | .upsertSignature record sig =>
    settle dir (Store.upsertSignature keccak256 P R record sig dir)
  | .upsertAttestation submissionId kind sig =>
    settle dir (Store.upsertAttestation keccak256 P R submissionId kind sig dir)
  | .load submissionId => (.ok (Store.load submissionId dir), dir)

/-- A call to the database. -/
def dbCall (t : Tables) : Call → Except DbError (Option SignedRecord) × Tables
  | .upsertSignature record sig => settle t (upsertSignature keccak256 P R record sig t)
  | .upsertAttestation submissionId kind sig =>
    settle t (upsertAttestation keccak256 P R submissionId kind sig t)
  | .load submissionId => (.ok (load submissionId t), t)

/-- The directory after a sequence of calls, begun empty. -/
def filesAfter (calls : List Call) : Files :=
  calls.foldl (fun dir c => (fileCall keccak256 P R dir c).2) fun _ => none

/-- The tables after it. -/
def tablesAfter (calls : List Call) : Tables :=
  calls.foldl (fun t c => (dbCall keccak256 P R t c).2) .empty

/-- Two answers are the same: both refuse, or both find the same. -/
def SameAnswer : Except StoreError (Option SignedRecord) → Except DbError (Option SignedRecord) →
    Prop
  | .error _, .error _ => True
  | .ok none, .ok none => True
  | .ok (some r), .ok (some r') => SameRecord r r'
  | _, _ => False

/-- **The two stores implement one contract** on a sequence of calls: each call is answered
alike, and after it both hold the same. -/
def SameContract (calls : List Call) : Prop :=
  ∀ pre c rest, calls = pre ++ c :: rest →
    SameAnswer (fileCall keccak256 P R (filesAfter keccak256 P R pre) c).1
        (dbCall keccak256 P R (tablesAfter keccak256 P R pre) c).1 ∧
      HoldSame (filesAfter keccak256 P R (pre ++ [c])) (tablesAfter keccak256 P R (pre ++ [c]))

/-- A post that passes the checks both stores make. -/
def Passes (record : SubmissionRecord) (sig : SignerSig) (w : Bytes32) (sig' : SignerSig) : Prop :=
  verifyBinding keccak256 P record = .ok w ∧ (∃ a, verifySignature P R w sig = .ok a) ∧
    canonicalSignature P R sig = .ok sig'

/-- **A call that the two stores take alike.** A call that names a stored id spells its digits
as they are stored. A post that would be compared equal but for the id has the `0x` as the
stored id has it. A post that makes a file comes without lists. An attestation that verifies
spells the id as it is stored, unless it is of the transfer domain, and then it does not. -/
def Fits (dir : Files) : Call → Prop
  | .upsertSignature record sig => ∀ w sig', Passes keccak256 P R record.params sig w sig' →
      (∀ name r, dir name = some r → SameText name record.params.submissionId →
        name = filePath record.params.submissionId ∧
        (sameParams r.params { record.params with submissionId := r.params.submissionId } = true →
          hasHexPrefix r.params.submissionId = hasHexPrefix record.params.submissionId)) ∧
      ((∀ name r, dir name = some r → ¬SameText name record.params.submissionId) →
        ∀ kind, record.bucket kind = [])
  | .upsertAttestation submissionId kind sig => ∀ name r, dir name = some r →
      SameText name submissionId →
      (∃ w a, Names submissionId w ∧ verifyAttestation keccak256 P R w kind sig = .ok a) →
      (name = filePath submissionId ↔ kind ≠ .transfer)
  | .load submissionId => ∀ name r, dir name = some r → SameText name submissionId →
      name = filePath submissionId

/-- The strings the posted ids are the hashes of. -/
def postedStrings (calls : List Call) : List Bytes :=
  calls.filterMap fun
    | .upsertSignature record _ => (recordPreimage keccak256 P record.params).toOption
    | _ => none

end Stores

/-! ### The calls, inverted -/

variable {keccak256 : Bytes → Bytes32} {P : Parsers} {R : Recovery} {dir : Files} {t : Tables}

/-- What is not accepted is refused. -/
theorem exists_error {ε α : Type} {x : Except ε α} (h : ∀ a, x ≠ .ok a) : ∃ e, x = .error e := by
  rcases x with e | a
  · exact ⟨e, rfl⟩
  · exact absurd rfl (h a)

/-- **A post the files take**: it passes the checks, goes with the file there is, and finds
room in its list. -/
theorem storeUpsertSignature_eq_ok {record : SignedRecord} {sig : SignerSig}
    {out : SignedRecord × Files} :
    Store.upsertSignature keccak256 P R record sig dir = .ok out ↔
      ∃ w sig' merged signatures, Passes keccak256 P R record.params sig w sig' ∧
        mergeExisting (dir (filePath record.params.submissionId)) record = .ok merged ∧
        pushCapped merged.signatures sig' .transfer = .ok signatures ∧
        out = ({ merged with signatures }, Function.update dir
          (filePath record.params.submissionId) (some { merged with signatures })) := by
  simp only [Store.upsertSignature, Passes, verifyBinding_eq_ok, bind_eq_ok, exists_unit,
    revertIf_eq_ok, orRevert_eq_ok, pure_eq_ok, not_not, Bool.not_eq_false]
  constructor
  · rintro ⟨hid, hstore, w, hw, claimed, hclaimed, heq, a, ha, sig', hsig', htoken, merged, hmerged,
      signatures, hpush, rfl⟩
    subst heq
    exact ⟨w, sig', merged, signatures, ⟨⟨hid, hstore, hw, hclaimed, htoken⟩, ⟨a, ha⟩, hsig'⟩,
      hmerged, hpush, rfl⟩
  · rintro ⟨w, sig', merged, signatures, ⟨⟨hid, hstore, hw, hclaimed, htoken⟩, ⟨a, ha⟩, hsig'⟩,
      hmerged, hpush, rfl⟩
    exact ⟨hid, hstore, w, hw, w, hclaimed, rfl, a, ha, sig', hsig', htoken, merged, hmerged,
      signatures, hpush, rfl⟩

/-- The tables after a post. -/
def postedTables (t : Tables) (id : Text) (row : SubmissionRow) (sig : SignerSig) : Tables :=
  { t with
    submissions := Function.update t.submissions id (some row)
    signatures := Function.update t.signatures id (insertSig (t.signatures id) (lowered sig)) }

/-- **A post the database takes.** -/
theorem upsertSignature_eq_ok {record : SignedRecord} {sig : SignerSig}
    {out : SignedRecord × Tables} :
    upsertSignature keccak256 P R record sig t = .ok out ↔
      ∃ w sig' row, Passes keccak256 P R record.params sig w sig' ∧
        putRow (t.submissions (normId record.params.submissionId)) record.params = .ok row ∧
        enforceSignatureCap (t.signatures (normId record.params.submissionId))
          (lower sig'.signer) .transfer = .ok () ∧
        out.2 = postedTables t (normId record.params.submissionId) row sig' ∧
        loadRow out.2 (normId record.params.submissionId) = some out.1 := by
  obtain ⟨r', t'⟩ := out
  simp only [upsertSignature, Passes, bind_eq_ok, exists_unit, withReason_eq_ok, orRevert_eq_ok,
    pure_eq_ok, Prod.mk.injEq]
  constructor
  · rintro ⟨w, hw, a, ha, sig', hsig', row, hrow, hcap, r, hload, rfl, rfl⟩
    exact ⟨w, sig', row, ⟨hw, ⟨a, ha⟩, hsig'⟩, hrow, hcap, rfl, hload⟩
  · rintro ⟨w, sig', row, ⟨hw, ⟨a, ha⟩, hsig'⟩, hrow, hcap, rfl, hload⟩
    exact ⟨w, hw, a, ha, sig', hsig', row, hrow, hcap, r', hload, rfl, rfl⟩

/-- **An attestation the files take.** -/
theorem storeUpsertAttestation_eq_ok {submissionId : Text} {kind : SigKind} {sig : SignerSig}
    {out : SignedRecord × Files} :
    Store.upsertAttestation keccak256 P R submissionId kind sig dir = .ok out ↔
      isValidSubmissionId submissionId = true ∧
      ∃ r w a sig' bucket, dir (filePath submissionId) = some r ∧
        P.b256 r.params.submissionId = some w ∧
        verifyAttestation keccak256 P R w kind sig = .ok a ∧ canonicalSignature P R sig = .ok sig' ∧
        pushCapped (r.bucket kind) sig' kind = .ok bucket ∧
        out = (r.setBucket kind bucket,
          Function.update dir (filePath submissionId) (some (r.setBucket kind bucket))) := by
  simp only [Store.upsertAttestation, bind_eq_ok, exists_unit, revertIf_eq_ok, orRevert_eq_ok,
    pure_eq_ok, Bool.not_eq_false]
  constructor
  · rintro ⟨hid, r, hr, w, hw, a, ha, sig', hsig', bucket, hpush, rfl⟩
    exact ⟨hid, r, w, a, sig', bucket, hr, hw, ha, hsig', hpush, rfl⟩
  · rintro ⟨hid, r, w, a, sig', bucket, hr, hw, ha, hsig', hpush, rfl⟩
    exact ⟨hid, r, hr, w, hw, a, ha, sig', hsig', bucket, hpush, rfl⟩

/-- The tables after an attestation. -/
def attestedTables (t : Tables) (id : Text) (kind : SigKind) (sig : SignerSig) : Tables :=
  { t with
    attestations := Function.update t.attestations id (Function.update (t.attestations id) kind
      (insertSig (t.attestations id kind) (lowered sig))) }

/-- **An attestation the database takes.** -/
theorem upsertAttestation_eq_ok {submissionId : Text} {kind : SigKind} {sig : SignerSig}
    {out : SignedRecord × Tables} :
    upsertAttestation keccak256 P R submissionId kind sig t = .ok out ↔
      isValidSubmissionId submissionId = true ∧ kind ≠ .transfer ∧
      ∃ r w a sig', load (normId submissionId) t = some r ∧
        P.b256 r.params.submissionId = some w ∧
        verifyAttestation keccak256 P R w kind sig = .ok a ∧ canonicalSignature P R sig = .ok sig' ∧
        enforceSignatureCap (t.attestations (normId submissionId) kind) (lower sig'.signer) kind =
          .ok () ∧
        out.2 = attestedTables t (normId submissionId) kind sig' ∧
        load (normId submissionId) out.2 = some out.1 := by
  obtain ⟨r', t'⟩ := out
  simp only [upsertAttestation, bind_eq_ok, exists_unit, revertIf_eq_ok, withReason_eq_ok,
    orRevert_eq_ok, pure_eq_ok, Prod.mk.injEq, Bool.not_eq_false]
  constructor
  · rintro ⟨hid, hkind, r, hr, w, hw, a, ha, sig', hsig', hcap, r₁, hload, rfl, rfl⟩
    exact ⟨hid, hkind, r, w, a, sig', hr, hw, ha, hsig', hcap, rfl, hload⟩
  · rintro ⟨hid, hkind, r, w, a, sig', hr, hw, ha, hsig', hcap, rfl, hload⟩
    exact ⟨hid, hkind, r, hr, w, hw, a, ha, sig', hsig', hcap, r', hload, rfl, rfl⟩

end Db

end SelendraBridge
