import SelendraBridge.Db.Poisoning
import SelendraBridge.Db.Simulation

/-!
# Two stores, one contract

The file store and the database run the same checks and keep the same lists. They part in
what they key by, and in what they let in:

* a file is named by the digits of an id as they are written, a row by their lowercase, so
  that one id in two spellings is two files and one row;
* a record is compared with the file's under the id as it is written, and with the row's
  under the normalised one, so that an id once with and once without its `0x` is a conflict
  for the files and none for the database;
* an attestation of the transfer domain goes into the file's list and is refused by the
  database;
* a record that no file has is written with the lists it came with, which nobody has
  checked, and goes into the database without them.

`SelendraBridge.Db.Fits` says of a call that none of the four happens, and
`SelendraBridge.Db.same_contract` that the two then agree along every sequence of calls. The
simulation behind it is `SelendraBridge.Db.Simulates`: a row for each file, under the
normalised name, with the same lists up to the case of the signers.
-/

namespace SelendraBridge

namespace Db

open Revert Store

variable {keccak256 : Bytes → Bytes32} {P : Parsers} {R : Recovery} {calls : List Call}

/-! ### A sequence of calls -/

/-- **The simulation along a sequence.** -/
theorem simulates_after (hP : P.Lawful)
    (hcoll : CollisionFree keccak256 (postedStrings keccak256 P calls))
    (hfits : ∀ pre c rest, calls = pre ++ c :: rest →
      Fits keccak256 P R (filesAfter keccak256 P R pre) c) (pre rest : List Call)
    (h : calls = pre ++ rest) :
    Simulates keccak256 P calls (filesAfter keccak256 P R pre) (tablesAfter keccak256 P R pre) := by
  induction pre using List.reverseRecOn generalizing rest with
  | nil => exact simulates_empty
  | append_singleton pre c ih =>
    have hcalls : calls = pre ++ c :: rest := by rw [h, List.append_assoc, List.singleton_append]
    have hmem : c ∈ calls := by simp [hcalls]
    have hstep := ((ih (c :: rest) hcalls).step hP hcoll hmem (hfits pre c rest hcalls)).2
    rwa [filesAfter, tablesAfter, List.foldl_concat, List.foldl_concat]

/-- **The two stores agree on every sequence of calls that each fit**, whatever else the
calls carry: hostile text, garbage for signatures, ids of other transfers. -/
theorem same_contract (hP : P.Lawful)
    (hcoll : CollisionFree keccak256 (postedStrings keccak256 P calls))
    (hfits : ∀ pre c rest, calls = pre ++ c :: rest →
      Fits keccak256 P R (filesAfter keccak256 P R pre) c) :
    SameContract keccak256 P R calls := by
  intro pre c rest hcalls
  have hsim := simulates_after hP hcoll hfits pre (c :: rest) hcalls
  have hmem : c ∈ calls := by simp [hcalls]
  refine ⟨(hsim.step hP hcoll hmem (hfits pre c rest hcalls)).1, ?_⟩
  refine (simulates_after hP hcoll hfits (pre ++ [c]) rest ?_).holdSame hP
  rw [hcalls, List.append_assoc, List.singleton_append]

/-! ### One id, two files -/

/-- A signature library that knows the signatures on record. -/
def knownSignatures : Recovery where
  recover := fun message raw => recoverOf (toEthSignedMessageHash digestOf message) raw
  canonical := fun raw => if raw.length = 65 then some raw else none

/-- A record that nobody has signed yet. -/
def unsigned (params : SubmissionRecord) : SignedRecord := ⟨params, [], [], []⟩

/-- The first validator's signature on the transfer of `SelendraBridge.Db.emitted`. -/
def firstSignature : SignerSig where
  signer := hexText (addressBytes 0x7e5f4552091a69125d5dfcb7b8c2659029395bdf)
  signature := hexText (signatureBytes
    0x4bbc4a7da0b489b76a923cb98bdac739cfab341d1ae1e64b30a1b543eeae17f6
    0x25d001c1c6ba658846a8b2f4a1455af5030fa187b0a1a39f0b3657a7c8641362 27)

/-- The id's digits in uppercase. -/
def shouted : SubmissionRecord :=
  { honest with
    submissionId := '0' :: 'x' :: (Hex.encode (wordBytes emitted.submissionId)).map Char.toUpper }

/-- **Two files for one id**: the post of a transfer is repeated with the digits of its id in
uppercase, with the same signature, and the file store takes both. -/
theorem one_id_two_files :
    ¬SameContract digestOf Parsers.standard knownSignatures
      [.upsertSignature (unsigned honest) firstSignature,
        .upsertSignature (unsigned shouted) firstSignature] := by
  intro h
  have hold := (h [.upsertSignature (unsigned honest) firstSignature] _ [] rfl).2
  have hfirst : (filesAfter digestOf Parsers.standard knownSignatures
      [.upsertSignature (unsigned honest) firstSignature,
        .upsertSignature (unsigned shouted) firstSignature]
      (filePath honest.submissionId)).isSome = true := by decide +kernel
  have hsecond : (filesAfter digestOf Parsers.standard knownSignatures
      [.upsertSignature (unsigned honest) firstSignature,
        .upsertSignature (unsigned shouted) firstSignature]
      (filePath shouted.submissionId)).isSome = true := by decide +kernel
  obtain ⟨r, hr⟩ := Option.isSome_iff_exists.mp hfirst
  obtain ⟨r', hr'⟩ := Option.isSome_iff_exists.mp hsecond
  have hname : lower (stripHexPrefix (filePath honest.submissionId)) =
      Hex.encode (wordBytes emitted.submissionId) := by decide +kernel
  have hname' : lower (stripHexPrefix (filePath shouted.submissionId)) =
      Hex.encode (wordBytes emitted.submissionId) := by decide +kernel
  have hne : filePath honest.submissionId ≠ filePath shouted.submissionId := by decide +kernel
  exact hne (hold.oneFile _ _ _ r r' hr hr' hname hname')

/-- After one post there is at most its file. -/
theorem eq_filePath_of_filesAfter {record : SignedRecord} {sig : SignerSig} {name : Text}
    {r : SignedRecord}
    (h : filesAfter keccak256 P R [.upsertSignature record sig] name = some r) :
    name = filePath record.params.submissionId := by
  have hdir : filesAfter keccak256 P R [.upsertSignature record sig] =
      (settle (fun _ => none) (Store.upsertSignature keccak256 P R record sig fun _ => none)).2 :=
    rfl
  rw [hdir] at h
  rcases hout : Store.upsertSignature keccak256 P R record sig fun _ => none with e | out
  · rw [hout] at h
    cases h
  · obtain ⟨-, -, merged, signatures, -, -, -, rfl⟩ := storeUpsertSignature_eq_ok.mp hout
    rw [hout] at h
    by_contra hne
    simp [settle, Function.update_of_ne hne] at h

/-- The post of a transfer and a look at it. -/
theorem same_contract_honest :
    (filesAfter digestOf Parsers.standard knownSignatures
        [.upsertSignature (unsigned honest) firstSignature]
        (filePath honest.submissionId)).isSome = true ∧
      SameContract digestOf Parsers.standard knownSignatures
        [.upsertSignature (unsigned honest) firstSignature, .load honest.submissionId] := by
  refine ⟨by decide +kernel, same_contract Parsers.standard_lawful (by decide +kernel) ?_⟩
  intro pre c rest hcalls
  rcases pre with _ | ⟨c₁, _ | ⟨c₂, pre⟩⟩
  · obtain ⟨rfl, -⟩ := List.cons_eq_cons.mp hcalls
    intro w sig' _
    refine ⟨fun name r hr => ?_, fun _ kind => ?_⟩
    · cases hr
    · cases kind <;> rfl
  · obtain ⟨rfl, hrest⟩ := List.cons_eq_cons.mp hcalls
    obtain ⟨rfl, -⟩ := List.cons_eq_cons.mp hrest
    intro name r hr _
    exact eq_filePath_of_filesAfter hr
  · simp at hcalls

end Db

end SelendraBridge
