import SelendraBridge.Db.Contract
import SelendraBridge.Lib.Labels
import SelendraBridge.Lib.Transition

/-!
# One entry for each signer

Both stores keep one entry for each signer in a list, and tell signers apart by the *text* they
are named with: by its lowercase. An address is read from text with or without `0x`
(`SelendraBridge.Store.Parsers.Lawful`), so that it has two texts, and a signer that is named
once with and once without has two entries (`SelendraBridge.Db.two_entries`), which count twice
against the cap. The file store has a second way in: the record that makes a file is written
with the lists it carries, and nobody looks at those.

| | what decides |
|---|---|
| a list | the signer is named with `0x` or without, as the entries of its address are |
| a new file | the lists that come with the record are of one genuine entry for each signer |

That is all there is to it (`SelendraBridge.Db.one_entry_iff`): the lists of a store hold one
entry for each signer, under a text that names it and for good, exactly when every write that
gets as far as a list keeps to the table. The rest is `Labels`: a list with one entry for each
label has one for each owner as long as the owners stick to theirs.
-/

namespace SelendraBridge

namespace Db

open Revert Store

/-! ### Entries and their owners -/

section Entries

variable (P : Parsers) (R : Recovery)

/-- The address that an entry's signature recovers to. -/
def recovers (message : Bytes32) (s : SignerSig) : Option Address :=
  (hexBytes P "signature" s.signature).toOption.bind (R.recover message)

/-- **One entry for each signer**: every entry names the address its signature recovers to, and
no two recover to one. -/
structure OneEach (message : Bytes32) (bucket : List SignerSig) : Prop where
  named : ∀ s ∈ bucket, ∃ a, recovers P R message s = some a ∧ P.address s.signer = some a
  once : (bucket.map (recovers P R message)).Nodup

/-- **The signer is named as the entries of its address are**, as to the `0x`. -/
def NamedAlike (bucket : List SignerSig) (sig : SignerSig) : Prop :=
  ∀ s ∈ bucket, P.address s.signer = P.address sig.signer →
    hasHexPrefix s.signer = hasHexPrefix sig.signer

end Entries

/-- There is room for a signer: its text is there, or the list is not full. -/
def FindsRoom (bucket : List SignerSig) (sig : SignerSig) : Prop :=
  Labels.HasRoom (fun s => lower s.signer) MAX_SIGNATURES_PER_SUBMISSION bucket sig

variable {keccak256 : Bytes → Bytes32} {P : Parsers} {R : Recovery} {message : Bytes32}
  {bucket bucket' : List SignerSig} {sig sig' : SignerSig} {a : Address} {kind : SigKind}

theorem verifySignature_eq_ok : verifySignature P R message sig = .ok a ↔
    P.address sig.signer = some a ∧ recovers P R message sig = some a := by
  simp only [verifySignature, recovers, bind_eq_ok, exists_unit, revertIf_eq_ok, orRevert_eq_ok,
    pure_eq_ok, not_not, Option.bind_eq_some_iff, toOption_eq_some]
  constructor
  · rintro ⟨claimed, hclaimed, raw, hraw, recovered, hrecovered, rfl, rfl⟩
    exact ⟨hclaimed, raw, hraw, hrecovered⟩
  · rintro ⟨hclaimed, raw, hraw, hrecovered⟩
    exact ⟨a, hclaimed, raw, hraw, a, hrecovered, rfl, rfl⟩

/-- The entry that is kept recovers to the signer of the one that came. -/
theorem recovers_canonicalSignature (hP : P.Lawful) (hR : R.KeepsSigner)
    (hverify : verifySignature P R message sig = .ok a)
    (hcanon : canonicalSignature P R sig = .ok sig') : recovers P R message sig' = some a := by
  obtain ⟨-, hrecovers⟩ := verifySignature_eq_ok.mp hverify
  simp only [canonicalSignature, bind_eq_ok, orRevert_eq_ok, pure_eq_ok] at hcanon
  obtain ⟨raw, hraw, c, hc, rfl⟩ := hcanon
  simp only [recovers, hraw, Except.toOption, Option.bind_some] at hrecovers
  have hback : hexBytes P "signature" (hexText c) = .ok c := by
    rw [hexBytes, stripHexPrefix_hexText]
    split
    · next hnil => rw [Hex.encode_inj (hnil.trans Hex.encode_nil.symm)]
    · rw [hP.hexDecode_iff.mpr (lower_hexEncode c)]
      rfl
  simp only [recovers, hback, Except.toOption, Option.bind_some]
  exact hR.recover_canonical hc hrecovers

/-- Addresses are read from the lowercase of their texts too. -/
theorem address_lower (hP : P.Lawful) {s : Text} (h : P.address s = some a) :
    P.address (lower s) = some a := by
  have hs := hP.address_iff.mp h
  have hsame : lower (stripHexPrefix s) = lower (stripHexPrefix (lower s)) := sameText_lower hs
  rw [hsame] at hs
  exact hP.address_iff.mpr hs

/-- **Two texts of one address are one text**, up to case, if they agree on the `0x`. -/
theorem lower_eq_of_address (hP : P.Lawful) {s t : Text} (hs : P.address s = some a)
    (ht : P.address t = some a) : lower s = lower t ↔ hasHexPrefix s = hasHexPrefix t := by
  rw [lower_eq_iff (hP.address_iff.mp hs) (hP.address_iff.mp ht)]
  exact and_iff_left rfl

/-- One text is of one address. -/
theorem address_of_lower_eq (hP : P.Lawful) {s t : Text} {b : Address} (hs : P.address s = some a)
    (ht : P.address t = some b) (h : lower s = lower t) : a = b := by
  exact addressBytes_inj.mp
    ((lower_eq_iff (hP.address_iff.mp hs) (hP.address_iff.mp ht)).mp h).2

/-! ### The two lists -/

/-- **What a file's list takes**, and what becomes of it. -/
theorem pushCapped_eq_ok : pushCapped bucket sig kind = .ok bucket' ↔
    FindsRoom bucket sig ∧ bucket' = Labels.insert (fun s => lower s.signer) bucket sig := by
  have hany : (bucket.any fun s => eqIgnoreCase s.signer sig.signer) = true ↔
      ∃ s ∈ bucket, lower s.signer = lower sig.signer := by
    simp only [List.any_eq_true, eqIgnoreCase_iff]
  have hpush : pushCapped bucket sig kind = orRevert (.tooManySignatures kind.asStr)
      (Labels.insertCapped (fun s => lower s.signer) MAX_SIGNATURES_PER_SUBMISSION bucket sig) := by
    rw [pushCapped, Labels.insertCapped]
    by_cases hmem : ∃ s ∈ bucket, lower s.signer = lower sig.signer
    · rw [if_pos (hany.mpr hmem), if_pos (Labels.any_label_iff.mpr hmem)]
      rfl
    · rw [if_neg (mt hany.mp hmem), if_neg (mt Labels.any_label_iff.mp hmem)]
      by_cases hfull : bucket.length ≥ MAX_SIGNATURES_PER_SUBMISSION
      · rw [if_pos hfull, if_pos hfull]
        rfl
      · rw [if_neg hfull, if_neg hfull]
        rfl
  rw [hpush, orRevert_eq_ok, Labels.insertCapped_eq_some]
  rfl

/-- **What a row list takes**, with its signers in lowercase. -/
theorem enforceSignatureCap_eq_ok (hlower : ∀ s ∈ bucket, lower s.signer = s.signer) :
    enforceSignatureCap bucket (lower sig.signer) kind = .ok () ↔ FindsRoom bucket sig := by
  have hany : (bucket.any fun row => row.signer == lower sig.signer) = true ↔
      ∃ s ∈ bucket, lower s.signer = lower sig.signer := by
    rw [List.any_eq_true]
    refine exists_congr fun s => and_congr_right fun hs => ?_
    rw [beq_iff_eq, hlower s hs]
  rw [FindsRoom, Labels.HasRoom, ← hany, enforceSignatureCap]
  by_cases hlt : bucket.length < MAX_SIGNATURES_PER_SUBMISSION
  · rw [if_pos hlt]
    exact iff_of_true rfl (.inr hlt)
  · rw [if_neg hlt]
    cases bucket.any fun row => row.signer == lower sig.signer with
    | true => exact iff_of_true rfl (.inl rfl)
    | false => exact iff_of_false (by simp) (by simp [hlt])

/-- Where the signers are in lowercase, the row list is put into as the file's is. -/
theorem insertSig_eq (hlower : ∀ s ∈ bucket, lower s.signer = s.signer) :
    insertSig bucket (lowered sig) =
      Labels.insert (fun s => lower s.signer) bucket (lowered sig) := by
  have hany : (bucket.any fun s => s.signer == (lowered sig).signer) = true ↔
      ∃ s ∈ bucket, lower s.signer = lower (lowered sig).signer := by
    rw [List.any_eq_true]
    refine exists_congr fun s => and_congr_right fun hs => ?_
    rw [beq_iff_eq, hlower s hs, show (lowered sig).signer = lower sig.signer from rfl, lower_lower]
  rw [insertSig]
  by_cases hmem : ∃ s ∈ bucket, lower s.signer = lower (lowered sig).signer
  · rw [if_pos (hany.mpr hmem), Labels.insert_of_mem hmem]
  · rw [if_neg (mt hany.mp hmem), Labels.insert_of_not_mem hmem]

/-! ### One write to a list -/

/-- A list of one entry for each signer was one before something was put in. -/
theorem OneEach.of_isPrefix (h : OneEach P R message bucket') (hpre : bucket <+: bucket') :
    OneEach P R message bucket where
  named := fun s hs => h.named s (hpre.subset hs)
  once := h.once.sublist (hpre.sublist.map _)

/-- What is put in when a signature verified. -/
structure Verified (P : Parsers) (R : Recovery) (message : Bytes32) (sig sig' : SignerSig)
    (a : Address) : Prop where
  address : P.address sig.signer = some a
  recovers : recovers P R message sig' = some a
  read : P.address sig'.signer = some a
  alike : lower sig'.signer = lower sig.signer

/-- **A write that verified keeps one entry for each signer** exactly if its signer is named as
the entries of its address are. -/
theorem Verified.oneEach_insert_iff (hP : P.Lawful) (h : Verified P R message sig sig' a) :
    OneEach P R message (Labels.insert (fun s => lower s.signer) bucket sig') ↔
      OneEach P R message bucket ∧ NamedAlike P bucket sig := by
  have hpre : bucket <+: Labels.insert (fun s => lower s.signer) bucket sig' :=
    Labels.isPrefix_insert bucket sig'
  rw [← and_iff_right_of_imp fun hafter => OneEach.of_isPrefix hafter hpre]
  refine and_congr_right fun hbefore => ?_
  -- The entries of its address are the ones that recover to the same.
  have howner : ∀ s ∈ bucket, Db.recovers P R message s = Db.recovers P R message sig' ↔
      P.address s.signer = P.address sig.signer := by
    intro s hs
    obtain ⟨b, hb, hread⟩ := hbefore.named s hs
    rw [hb, hread, h.recovers, h.address]
  have hlabel : ∀ s ∈ bucket, lower s.signer = lower sig'.signer →
      Db.recovers P R message s = Db.recovers P R message sig' := by
    intro s hs heq
    obtain ⟨b, -, hread⟩ := hbefore.named s hs
    rw [howner s hs, hread, h.address, address_of_lower_eq hP hread h.address (heq.trans h.alike)]
  have hsticks : Labels.Sticks (fun s => lower s.signer) (Db.recovers P R message) bucket sig' ↔
      NamedAlike P bucket sig := by
    refine forall₂_congr fun s hs => ?_
    obtain ⟨b, -, hread⟩ := hbefore.named s hs
    rw [howner s hs]
    refine imp_congr_right fun heq => ?_
    rw [hread, h.address] at heq
    obtain rfl := Option.some.inj heq
    simp only [h.alike]
    exact lower_eq_of_address hP hread h.address
  rw [← hsticks, ← Labels.nodup_insert_iff hbefore.once hlabel]
  constructor
  · exact OneEach.once
  · intro honce
    refine ⟨fun s hs => ?_, honce⟩
    rcases Labels.mem_insert hs with hs | rfl
    · exact hbefore.named s hs
    · exact ⟨a, h.recovers, h.read⟩

/-- What a file's list takes in. -/
theorem verified_of_canonical (hP : P.Lawful) (hR : R.KeepsSigner)
    (hverify : verifySignature P R message sig = .ok a)
    (hcanon : canonicalSignature P R sig = .ok sig') : Verified P R message sig sig' a := by
  have hsigner := signer_of_canonicalSignature hcanon
  obtain ⟨haddr, -⟩ := verifySignature_eq_ok.mp hverify
  exact ⟨haddr, recovers_canonicalSignature hP hR hverify hcanon, by rw [hsigner, haddr],
    by rw [hsigner]⟩

/-- What a row list takes in. -/
theorem Verified.lowered (hP : P.Lawful) (h : Verified P R message sig sig' a) :
    Verified P R message sig (lowered sig') a :=
  ⟨h.address, h.recovers, address_lower hP h.read, (lower_lower _).trans h.alike⟩

/-- **The lists of a record after a write to one of them.** -/
theorem Verified.each_insert_iff (hP : P.Lawful) {w : Bytes32}
    (h : Verified P R (kind.digest keccak256 w) sig sig' a)
    {lists lists' : SigKind → List SignerSig}
    (hlists : ∀ k, lists' k =
      if k = kind then Labels.insert (fun s => lower s.signer) (lists kind) sig' else lists k) :
    (∀ k, OneEach P R (k.digest keccak256 w) (lists' k)) ↔
      (∀ k, OneEach P R (k.digest keccak256 w) (lists k)) ∧ NamedAlike P (lists kind) sig := by
  constructor
  · intro hafter
    have hat := hafter kind
    rw [hlists, if_pos rfl, h.oneEach_insert_iff hP] at hat
    refine ⟨fun k => ?_, hat.2⟩
    by_cases hk : k = kind
    · exact hk ▸ hat.1
    · have hk' := hafter k
      rwa [hlists, if_neg hk] at hk'
  · rintro ⟨hbefore, halike⟩ k
    rw [hlists]
    split
    · next hk =>
      subst hk
      exact (h.oneEach_insert_iff hP).mpr ⟨hbefore k, halike⟩
    · exact hbefore k

/-! ### What the stores hold -/

section Stores

variable (keccak256 : Bytes → Bytes32) (P : Parsers) (R : Recovery)

/-- **Each list of a record has one entry for each signer.** -/
def EachDomain (submissionId : Text) (lists : SigKind → List SignerSig) : Prop :=
  ∃ w, P.b256 submissionId = some w ∧ ∀ kind, OneEach P R (kind.digest keccak256 w) (lists kind)

/-- Each record of a directory has one entry for each signer in its lists. -/
def FilesOneEach (dir : Files) : Prop :=
  ∀ name r, dir name = some r → EachDomain keccak256 P R r.params.submissionId r.bucket

/-- Each row of the tables has. -/
def TablesOneEach (t : Tables) : Prop :=
  ∀ id row, t.submissions id = some row →
    EachDomain keccak256 P R row.submissionId (t.bucket id)

/-- **The file store keeps one entry for each signer** along a sequence of calls: after each
call there is one, and what was in a list before the call is there after it. -/
def FilesKeepOne (calls : List Call) : Prop :=
  ∀ pre c rest, calls = pre ++ c :: rest →
    FilesOneEach keccak256 P R (filesAfter keccak256 P R (pre ++ [c])) ∧
    ∀ name r, filesAfter keccak256 P R pre name = some r →
      ∃ r', filesAfter keccak256 P R (pre ++ [c]) name = some r' ∧
        ∀ kind, r.bucket kind <+: r'.bucket kind

/-- **The database keeps one entry for each signer** along a sequence of calls. -/
def TablesKeepOne (calls : List Call) : Prop :=
  ∀ pre c rest, calls = pre ++ c :: rest →
    TablesOneEach keccak256 P R (tablesAfter keccak256 P R (pre ++ [c])) ∧
    ∀ id kind, (tablesAfter keccak256 P R pre).bucket id kind <+:
      (tablesAfter keccak256 P R (pre ++ [c])).bucket id kind

/-- A signature that gets as far as a list: it verifies, and finds room. -/
def Lands (message : Bytes32) (bucket : List SignerSig) (sig : SignerSig) : Prop :=
  (∃ a, verifySignature P R message sig = .ok a) ∧
    ∃ sig', canonicalSignature P R sig = .ok sig' ∧ FindsRoom bucket sig'

/-- **What the file store is to be called with**, to keep one entry for each signer. -/
def FileNamesAlike (dir : Files) : Call → Prop
  | .upsertSignature record sig => ∀ w merged, verifyBinding keccak256 P record.params = .ok w →
      mergeExisting (dir (filePath record.params.submissionId)) record = .ok merged →
      Lands P R w merged.signatures sig →
      NamedAlike P merged.signatures sig ∧
        (dir (filePath record.params.submissionId) = none →
          ∀ kind, OneEach P R (kind.digest keccak256 w) (record.bucket kind))
  | .upsertAttestation submissionId kind sig => ∀ r w,
      isValidSubmissionId submissionId = true → dir (filePath submissionId) = some r →
      P.b256 r.params.submissionId = some w →
      Lands P R (kind.digest keccak256 w) (r.bucket kind) sig →
      NamedAlike P (r.bucket kind) sig
  | .load _ => True

/-- **What the database is to be called with.** -/
def RowNamesAlike (t : Tables) : Call → Prop
  | .upsertSignature record sig => ∀ w row, verifyBinding keccak256 P record.params = .ok w →
      putRow (t.submissions (normId record.params.submissionId)) record.params = .ok row →
      Lands P R w (t.signatures (normId record.params.submissionId)) sig →
      NamedAlike P (t.signatures (normId record.params.submissionId)) sig
  | .upsertAttestation submissionId kind sig => ∀ r w,
      isValidSubmissionId submissionId = true → kind ≠ .transfer →
      load (normId submissionId) t = some r → P.b256 r.params.submissionId = some w →
      Lands P R (kind.digest keccak256 w) (r.bucket kind) sig →
      NamedAlike P (r.bucket kind) sig
  | .load _ => True

end Stores

variable {dir : Files} {t : Tables} {c : Call} {calls : List Call}

theorem eachDomain_iff {s : Text} {w : Bytes32} (hw : P.b256 s = some w)
    {lists : SigKind → List SignerSig} : EachDomain keccak256 P R s lists ↔
      ∀ kind, OneEach P R (kind.digest keccak256 w) (lists kind) := by
  constructor
  · rintro ⟨v, hv, h⟩
    obtain rfl := Option.some.inj (hw.symm.trans hv)
    exact h
  · exact fun h => ⟨w, hw, h⟩

/-! ### The file store, call by call -/

/-- A file that is written changes nothing about the others. -/
theorem filesOneEach_update_iff (h : FilesOneEach keccak256 P R dir) {path : Text}
    {r : SignedRecord} : FilesOneEach keccak256 P R (Function.update dir path (some r)) ↔
      EachDomain keccak256 P R r.params.submissionId r.bucket := by
  constructor
  · exact fun hall => hall path r (Function.update_self ..)
  · intro hr name r' hname
    by_cases hpath : name = path
    · rw [hpath, Function.update_self] at hname
      exact Option.some.inj hname ▸ hr
    · rw [Function.update_of_ne hpath] at hname
      exact h name r' hname

/-- **The lists a post goes on with**: the file's, or the record's own. -/
theorem each_of_mergeExisting (hP : P.Lawful) (h : FilesOneEach keccak256 P R dir) {path : Text}
    {record merged : SignedRecord} {w : Bytes32} (hw : P.b256 record.params.submissionId = some w)
    (hmerged : mergeExisting (dir path) record = .ok merged) :
    P.b256 merged.params.submissionId = some w ∧
      ((∀ k, OneEach P R (k.digest keccak256 w) (merged.bucket k)) ↔
        (dir path = none → ∀ k, OneEach P R (k.digest keccak256 w) (record.bucket k))) := by
  rcases hdir : dir path with _ | r
  · rw [hdir] at hmerged
    obtain rfl := Except.ok.inj hmerged
    exact ⟨hw, by simp⟩
  · rw [hdir] at hmerged
    simp only [mergeExisting, revertIf_bind_eq_ok, pure_eq_ok, Bool.not_eq_false] at hmerged
    obtain ⟨hsame, rfl⟩ := hmerged
    refine ⟨hw, iff_of_true ?_ (by simp)⟩
    obtain ⟨v, hv, heach⟩ := h path r hdir
    -- The two ids compare equal as text.
    simp only [Store.sameParams, Bool.and_eq_true, eqIgnoreCase_iff] at hsame
    have hid : lower r.params.submissionId = lower record.params.submissionId := by tauto
    have heq := ((lower_eq_iff (hP.b256_iff.mp hv) (hP.b256_iff.mp hw)).mp hid).2
    obtain rfl : v = w := wordBytes_inj.mp heq
    intro kind
    cases kind with
    | transfer => exact heach .transfer
    | cancel => exact heach .cancel
    | refund => exact heach .refund

/-- **One call to the file store.** -/
theorem filesOneEach_fileCall_iff (hP : P.Lawful) (hR : R.KeepsSigner)
    (h : FilesOneEach keccak256 P R dir) :
    FilesOneEach keccak256 P R (fileCall keccak256 P R dir c).2 ↔
      FileNamesAlike keccak256 P R dir c := by
  cases c with
  | load submissionId => exact iff_of_true h trivial
  | upsertSignature record sig =>
    rw [fileCall]
    rcases hout : Store.upsertSignature keccak256 P R record sig dir with e | out
    · refine iff_of_true h ?_
      rintro w merged hbind hmerged ⟨hverify, sig', hcanon, hroom⟩
      rw [storeUpsertSignature_eq_ok.mpr ⟨w, sig', merged, _, ⟨hbind, hverify, hcanon⟩, hmerged,
        pushCapped_eq_ok.mpr ⟨hroom, rfl⟩, rfl⟩] at hout
      cases hout
    · obtain ⟨w, sig', merged, signatures, ⟨hbind, ⟨a, hverify⟩, hcanon⟩, hmerged, hpush, rfl⟩ :=
        storeUpsertSignature_eq_ok.mp hout
      obtain ⟨hroom, rfl⟩ := pushCapped_eq_ok.mp hpush
      have hw : P.b256 record.params.submissionId = some w := (verifyBinding_eq_ok.mp hbind).2.2.2.1
      obtain ⟨hid, heach⟩ := each_of_mergeExisting hP h hw hmerged
      have hverified : Verified P R (SigKind.transfer.digest keccak256 w) sig sig' a :=
        verified_of_canonical hP hR hverify hcanon
      have hlists := fun k => bucket_setBucket merged .transfer k
        (Labels.insert (fun s => lower s.signer) (merged.bucket .transfer) sig')
      rw [settle, filesOneEach_update_iff h, eachDomain_iff hid]
      refine (hverified.each_insert_iff hP hlists).trans ?_
      rw [heach]
      constructor
      · rintro ⟨hnew, halike⟩ v merged' hbind' hmerged' -
        obtain rfl := Except.ok.inj (hbind.symm.trans hbind')
        obtain rfl := Except.ok.inj (hmerged.symm.trans hmerged')
        exact ⟨halike, hnew⟩
      · intro hcond
        exact (hcond w merged hbind hmerged ⟨⟨a, hverify⟩, sig', hcanon, hroom⟩).symm
  | upsertAttestation submissionId kind sig =>
    rw [fileCall]
    rcases hout : Store.upsertAttestation keccak256 P R submissionId kind sig dir with e | out
    · refine iff_of_true h ?_
      rintro r w hvalid hr hw ⟨⟨a, hverify⟩, sig', hcanon, hroom⟩
      rw [storeUpsertAttestation_eq_ok.mpr ⟨hvalid, r, w, a, sig', _, hr, hw, hverify, hcanon,
        pushCapped_eq_ok.mpr ⟨hroom, rfl⟩, rfl⟩] at hout
      cases hout
    · obtain ⟨hvalid, r, w, a, sig', bucket, hr, hw, hverify, hcanon, hpush, rfl⟩ :=
        storeUpsertAttestation_eq_ok.mp hout
      obtain ⟨hroom, rfl⟩ := pushCapped_eq_ok.mp hpush
      have hverified := verified_of_canonical hP hR hverify hcanon
      have hbefore := (eachDomain_iff hw).mp (h _ r hr)
      rw [settle, filesOneEach_update_iff h, params_setBucket, eachDomain_iff hw,
        hverified.each_insert_iff hP fun k => bucket_setBucket r kind k _, and_iff_right hbefore]
      constructor
      · rintro halike r' v - hr' - -
        obtain rfl := Option.some.inj (hr.symm.trans hr')
        exact halike
      · intro hcond
        exact hcond r w hvalid hr hw ⟨⟨a, hverify⟩, sig', hcanon, hroom⟩

/-- **Nothing leaves a file.** -/
theorem isPrefix_fileCall {name : Text} {r : SignedRecord} (hr : dir name = some r) :
    ∃ r', (fileCall keccak256 P R dir c).2 name = some r' ∧
      ∀ kind, r.bucket kind <+: r'.bucket kind := by
  have hself : ∃ r', dir name = some r' ∧ ∀ kind, r.bucket kind <+: r'.bucket kind :=
    ⟨r, hr, fun _ => List.prefix_rfl⟩
  have hupdate : ∀ path merged, (path = name → ∀ kind, r.bucket kind <+: merged.bucket kind) →
      ∃ r', Function.update dir path (some merged) name = some r' ∧
        ∀ kind, r.bucket kind <+: r'.bucket kind := by
    intro path merged hmerged
    by_cases hpath : path = name
    · exact ⟨merged, by rw [hpath, Function.update_self], hmerged hpath⟩
    · exact ⟨r, by rw [Function.update_of_ne (Ne.symm hpath), hr], fun _ => List.prefix_rfl⟩
  cases c with
  | load submissionId => exact hself
  | upsertSignature record sig =>
    rw [fileCall]
    rcases hout : Store.upsertSignature keccak256 P R record sig dir with e | out
    · exact hself
    · obtain ⟨w, sig', merged, signatures, -, hmerged, hpush, rfl⟩ :=
        storeUpsertSignature_eq_ok.mp hout
      obtain ⟨-, rfl⟩ := pushCapped_eq_ok.mp hpush
      refine hupdate _ _ fun hpath => ?_
      rw [hpath, hr] at hmerged
      simp only [mergeExisting, revertIf_bind_eq_ok, pure_eq_ok] at hmerged
      obtain ⟨-, rfl⟩ := hmerged
      intro kind
      cases kind with
      | transfer => exact Labels.isPrefix_insert _ _
      | cancel => exact List.prefix_rfl
      | refund => exact List.prefix_rfl
  | upsertAttestation submissionId kind sig =>
    rw [fileCall]
    rcases hout : Store.upsertAttestation keccak256 P R submissionId kind sig dir with e | out
    · exact hself
    · obtain ⟨-, r₀, w, a, sig', bucket, hr₀, -, -, -, hpush, rfl⟩ :=
        storeUpsertAttestation_eq_ok.mp hout
      obtain ⟨-, rfl⟩ := pushCapped_eq_ok.mp hpush
      refine hupdate _ _ fun hpath k => ?_
      rw [hpath, hr] at hr₀
      obtain rfl := Option.some.inj hr₀
      rw [bucket_setBucket]
      split
      · next hk => exact hk ▸ Labels.isPrefix_insert _ _
      · exact List.prefix_rfl

/-! ### The database, call by call -/

/-- **What the tables keep whatever they are called with**: rows under their own ids, lists for
rows only, and signers in lowercase. -/
structure Keyed (t : Tables) : Prop where
  key : ∀ id row, t.submissions id = some row → row.submissionId = id
  listed : ∀ id, t.submissions id = none → ∀ kind, t.bucket id kind = []
  lower : ∀ id kind, ∀ s ∈ t.bucket id kind, lower s.signer = s.signer

/-- A write to the tables: a row under its id, and a signer into one of its lists. -/
structure Wrote (t t' : Tables) (id : Text) (row : SubmissionRow) (kind : SigKind)
    (sig : SignerSig) : Prop where
  submissions : t'.submissions = Function.update t.submissions id (some row)
  key : row.submissionId = id
  bucket : ∀ key k, t'.bucket key k =
    if key = id ∧ k = kind then insertSig (t.bucket key k) (lowered sig) else t.bucket key k

section Wrote

variable {t' : Tables} {id : Text} {row : SubmissionRow}

theorem Wrote.keyed (hwrote : Wrote t t' id row kind sig) (h : Keyed t) : Keyed t' where
  key := by
    intro key row' hrow
    rw [hwrote.submissions] at hrow
    by_cases hkey : key = id
    · rw [hkey, Function.update_self] at hrow
      rw [hkey, ← Option.some.inj hrow, hwrote.key]
    · rw [Function.update_of_ne hkey] at hrow
      exact h.key key row' hrow
  listed := by
    intro key hnone k
    rw [hwrote.submissions] at hnone
    by_cases hkey : key = id
    · rw [hkey, Function.update_self] at hnone
      cases hnone
    · rw [Function.update_of_ne hkey] at hnone
      rw [hwrote.bucket, if_neg fun h' => hkey h'.1, h.listed key hnone]
  lower := by
    intro key k s hs
    rw [hwrote.bucket] at hs
    split at hs
    · rw [insertSig_eq (h.lower key k)] at hs
      rcases Labels.mem_insert hs with hs | rfl
      · exact h.lower key k s hs
      · exact lower_lower _
    · exact h.lower key k s hs

/-- **A write keeps one entry for each signer** exactly if its signer is named alike. -/
theorem Wrote.tablesOneEach_iff (hP : P.Lawful) (hwrote : Wrote t t' id row kind sig')
    (hkeyed : Keyed t) (h : TablesOneEach keccak256 P R t) {w : Bytes32} (hw : P.b256 id = some w)
    (hverified : Verified P R (kind.digest keccak256 w) sig sig' a) :
    TablesOneEach keccak256 P R t' ↔ NamedAlike P (t.bucket id kind) sig := by
  have hlists : ∀ k, t'.bucket id k = if k = kind then
      Labels.insert (fun s => lower s.signer) (t.bucket id kind) (lowered sig')
      else t.bucket id k := by
    intro k
    rw [hwrote.bucket]
    by_cases hk : k = kind
    · rw [if_pos ⟨rfl, hk⟩, if_pos hk, hk, insertSig_eq (hkeyed.lower id kind)]
    · rw [if_neg fun h' => hk h'.2, if_neg hk]
  have hbefore : ∀ k, OneEach P R (k.digest keccak256 w) (t.bucket id k) := by
    intro k
    rcases hrow : t.submissions id with _ | row₀
    · rw [hkeyed.listed id hrow k]
      exact ⟨by simp, by simp⟩
    · have heach := h id row₀ hrow
      rw [hkeyed.key id row₀ hrow, eachDomain_iff hw] at heach
      exact heach k
  rw [← and_iff_right (b := NamedAlike P (t.bucket id kind) sig) hbefore,
    ← (hverified.lowered hP).each_insert_iff hP hlists]
  constructor
  · intro hall
    have hat := hall id row (by rw [hwrote.submissions, Function.update_self])
    rwa [hwrote.key, eachDomain_iff hw] at hat
  · intro hnow key row' hrow
    rw [hwrote.submissions] at hrow
    by_cases hkey : key = id
    · rw [hkey, Function.update_self] at hrow
      rw [hkey, ← Option.some.inj hrow, hwrote.key, eachDomain_iff hw]
      exact hnow
    · rw [Function.update_of_ne hkey] at hrow
      have hsame : t'.bucket key = t.bucket key := by
        funext k
        rw [hwrote.bucket, if_neg fun h' => hkey h'.1]
      rw [hsame]
      exact h key row' hrow

end Wrote

/-- The row that is put under an id names it. -/
theorem submissionId_of_putRow (hkeyed : Keyed t) {record : SubmissionRecord} {row : SubmissionRow}
    (h : putRow (t.submissions (normId record.submissionId)) record = .ok row) :
    row.submissionId = normId record.submissionId := by
  rcases hrow : t.submissions (normId record.submissionId) with _ | row₀
  · rw [hrow] at h
    obtain rfl := Except.ok.inj h
    rfl
  · rw [hrow] at h
    simp only [putRow, revertIf_bind_eq_ok, pure_eq_ok] at h
    obtain ⟨-, rfl⟩ := h
    exact hkeyed.key _ row₀ hrow

/-- Every row can be loaded. -/
theorem exists_loadRow {id : Text} {row : SubmissionRow} (h : t.submissions id = some row) :
    ∃ r, loadRow t id = some r ∧ r.params.submissionId = row.submissionId := by
  rw [loadRow, h]
  exact ⟨_, rfl, rfl⟩

/-- **What a call does to the tables**: nothing, or one write, of a signature that verified over
the message of its list. -/
theorem dbCall_cases (hP : P.Lawful) (hR : R.KeepsSigner) (hkeyed : Keyed t) :
    ((dbCall keccak256 P R t c).2 = t ∧ RowNamesAlike keccak256 P R t c) ∨
      ∃ id row kind sig sig' w a, Wrote t (dbCall keccak256 P R t c).2 id row kind sig' ∧
        P.b256 id = some w ∧ Verified P R (kind.digest keccak256 w) sig sig' a ∧
        (RowNamesAlike keccak256 P R t c ↔ NamedAlike P (t.bucket id kind) sig) := by
  cases c with
  | load submissionId => exact .inl ⟨rfl, trivial⟩
  | upsertSignature record sig =>
    set id := normId record.params.submissionId with hid
    have hlower := hkeyed.lower id .transfer
    rw [dbCall]
    rcases hout : upsertSignature keccak256 P R record sig t with e | out
    · refine .inl ⟨rfl, ?_⟩
      rintro w row hbind hrow ⟨hverify, sig', hcanon, hroom⟩
      obtain ⟨r', hr', -⟩ := exists_loadRow (t := postedTables t id row sig')
        (Function.update_self ..)
      have hok : upsertSignature keccak256 P R record sig t =
          .ok (r', postedTables t id row sig') :=
        upsertSignature_eq_ok.mpr ⟨w, sig', row, ⟨hbind, hverify, hcanon⟩, hrow,
          (enforceSignatureCap_eq_ok hlower).mpr hroom, rfl, hr'⟩
      rw [hok] at hout
      cases hout
    · obtain ⟨w, sig', row, ⟨hbind, ⟨a, hverify⟩, hcanon⟩, hrow, hcap, hafter, -⟩ :=
        upsertSignature_eq_ok.mp hout
      have hw : P.b256 record.params.submissionId = some w := (verifyBinding_eq_ok.mp hbind).2.2.2.1
      refine .inr ⟨id, row, .transfer, sig, sig', w, a, ?_, ?_, ?_, ?_⟩
      · rw [settle, hafter]
        exact ⟨rfl, submissionId_of_putRow hkeyed hrow, bucket_postedTables t id row sig'⟩
      · exact hP.b256_iff.mpr (names_normId (hP.b256_iff.mp hw))
      · exact verified_of_canonical hP hR hverify hcanon
      · constructor
        · intro hcond
          exact hcond w row hbind hrow ⟨⟨a, hverify⟩, sig', hcanon,
            (enforceSignatureCap_eq_ok hlower).mp hcap⟩
        · exact fun halike _ _ _ _ _ => halike
  | upsertAttestation submissionId kind sig =>
    set id := normId submissionId with hid
    have hlower := hkeyed.lower id kind
    rw [dbCall]
    rcases hout : upsertAttestation keccak256 P R submissionId kind sig t with e | out
    · refine .inl ⟨rfl, ?_⟩
      rintro r w hvalid hkind hr hw ⟨⟨a, hverify⟩, sig', hcanon, hroom⟩
      have hr' := hr
      rw [load_normId hvalid] at hr'
      obtain ⟨row, hrow, -⟩ := Option.map_eq_some_iff.mp hr'
      obtain ⟨r₁, hr₁, -⟩ := exists_loadRow (t := attestedTables t id kind sig') hrow
      rw [bucket_of_loadRow hr' kind] at hroom
      have hcap : enforceSignatureCap (t.attestations id kind) (lower sig'.signer) kind =
          .ok () := by
        rw [← bucket_eq_attestations t id hkind]
        exact (enforceSignatureCap_eq_ok hlower).mpr hroom
      have hok : upsertAttestation keccak256 P R submissionId kind sig t =
          .ok (r₁, attestedTables t id kind sig') :=
        upsertAttestation_eq_ok.mpr ⟨hvalid, hkind, r, w, a, sig', hr, hw, hverify, hcanon, hcap,
          rfl, (load_normId hvalid _).trans hr₁⟩
      rw [hok] at hout
      cases hout
    · obtain ⟨hvalid, hkind, r, w, a, sig', hr, hw, hverify, hcanon, hcap, hafter, -⟩ :=
        upsertAttestation_eq_ok.mp hout
      have hr' := hr
      rw [load_normId hvalid] at hr'
      obtain ⟨row, hrow, hparams⟩ := Option.map_eq_some_iff.mp hr'
      have hkey : r.params.submissionId = id := by
        rw [← hparams]
        exact hkeyed.key id row hrow
      refine .inr ⟨id, row, kind, sig, sig', w, a, ?_, ?_, ?_, ?_⟩
      · rw [settle, hafter]
        refine ⟨?_, hkeyed.key id row hrow, bucket_attestedTables t id hkind sig'⟩
        exact (Function.update_eq_self_iff.mpr hrow.symm).symm
      · rw [← hkey]
        exact hw
      · exact verified_of_canonical hP hR hverify hcanon
      · rw [← bucket_eq_attestations t id hkind] at hcap
        rw [← bucket_of_loadRow hr' kind]
        constructor
        · intro hcond
          refine hcond r w hvalid hkind hr hw ⟨⟨a, hverify⟩, sig', hcanon, ?_⟩
          rw [bucket_of_loadRow hr' kind]
          exact (enforceSignatureCap_eq_ok hlower).mp hcap
        · rintro halike r₁ v - - hr₁ - -
          obtain rfl := Option.some.inj (hr.symm.trans hr₁)
          exact halike

/-- **One call to the database**, and the rows stay under their ids. -/
theorem tablesOneEach_dbCall_iff (hP : P.Lawful) (hR : R.KeepsSigner)
    (h : Keyed t ∧ TablesOneEach keccak256 P R t) :
    (Keyed (dbCall keccak256 P R t c).2 ∧
        TablesOneEach keccak256 P R (dbCall keccak256 P R t c).2) ↔
      RowNamesAlike keccak256 P R t c := by
  obtain ⟨hkeyed, heach⟩ := h
  rcases dbCall_cases hP hR hkeyed with ⟨hsame, hcond⟩ |
    ⟨id, row, kind, sig, sig', w, a, hwrote, hw, hverified, hcond⟩
  · rw [hsame]
    exact iff_of_true ⟨hkeyed, heach⟩ hcond
  · rw [hcond, ← hwrote.tablesOneEach_iff hP hkeyed heach hw hverified]
    exact and_iff_right (hwrote.keyed hkeyed)

/-- **Nothing leaves a row's lists.** -/
theorem isPrefix_dbCall (hP : P.Lawful) (hR : R.KeepsSigner) (hkeyed : Keyed t) (id : Text)
    (kind : SigKind) : t.bucket id kind <+: (dbCall keccak256 P R t c).2.bucket id kind := by
  rcases dbCall_cases hP hR hkeyed with ⟨hsame, -⟩ | ⟨id', row, kind', -, sig', -, -, hwrote, -⟩
  · rw [hsame]
  · rw [hwrote.bucket]
    split
    · rw [insertSig_eq (hkeyed.lower id kind)]
      exact Labels.isPrefix_insert _ _
    · exact List.prefix_rfl

/-! ### Every sequence of calls -/

/-- The tables are keyed after every sequence of calls. -/
theorem keyed_tablesAfter (hP : P.Lawful) (hR : R.KeepsSigner) (calls : List Call) :
    Keyed (tablesAfter keccak256 P R calls) := by
  induction calls using List.reverseRecOn with
  | nil =>
    refine ⟨fun _ _ h => ?_, fun _ _ kind => ?_, fun _ kind s hs => ?_⟩
    · cases h
    · cases kind <;> rfl
    · cases kind <;> cases hs
  | append_singleton calls c ih =>
    rw [tablesAfter, List.foldl_concat]
    rcases dbCall_cases (c := c) hP hR ih with ⟨hsame, -⟩ | ⟨_, _, _, -, _, -, -, hwrote, -⟩
    · exact hsame.symm ▸ ih
    · exact hwrote.keyed ih

/-- **The stores keep one entry for each signer exactly when they are called with names alike.**
For every sequence of calls from the empty store – any spelling, any text for signatures, any
ids – after each call each list has one entry for each address its signatures recover to, named
by that address, and nothing that was in a list is gone, if and only if each call keeps to the
condition: the file store's, and the database's. -/
theorem one_entry_iff (hP : P.Lawful) (hR : R.KeepsSigner) (calls : List Call) :
    (FilesKeepOne keccak256 P R calls ↔ ∀ pre c rest, calls = pre ++ c :: rest →
        FileNamesAlike keccak256 P R (filesAfter keccak256 P R pre) c) ∧
      (TablesKeepOne keccak256 P R calls ↔ ∀ pre c rest, calls = pre ++ c :: rest →
        RowNamesAlike keccak256 P R (tablesAfter keccak256 P R pre) c) := by
  constructor
  · refine Iff.trans ?_ (Transition.foldl_forall_iff (P := FilesOneEach keccak256 P R)
      (fun _ _ h => by cases h) (fun dir c h => filesOneEach_fileCall_iff hP hR h) calls)
    refine forall₄_congr fun pre c rest hcalls => and_iff_left fun name r hr => ?_
    rw [filesAfter, List.foldl_concat]
    exact isPrefix_fileCall hr
  · have hafter : Keyed (tablesAfter keccak256 P R []) := keyed_tablesAfter hP hR []
    have hempty : Keyed Tables.empty := hafter
    refine Iff.trans ?_ (Transition.foldl_forall_iff
      (P := fun t => Keyed t ∧ TablesOneEach keccak256 P R t) ⟨hempty, fun _ _ h => by cases h⟩
      (fun t c h => tablesOneEach_dbCall_iff hP hR h) calls)
    refine forall₄_congr fun pre c rest hcalls => ?_
    rw [show List.foldl _ Tables.empty (pre ++ [c]) = tablesAfter keccak256 P R (pre ++ [c])
      from rfl, and_iff_right (keyed_tablesAfter hP hR _)]
    refine and_iff_left fun id kind => ?_
    rw [tablesAfter, tablesAfter, List.foldl_concat]
    exact isPrefix_dbCall hP hR (keyed_tablesAfter hP hR pre) id kind

/-! ### A signer with two entries -/

/-- The signature of `SelendraBridge.Db.firstSignature`, with its signer named without `0x`. -/
def bareSignature : SignerSig :=
  { firstSignature with signer := stripHexPrefix firstSignature.signer }

/-- The first validator's signature, posted twice, the second time without the `0x`. -/
def postedTwice : List Call :=
  [.upsertSignature (unsigned honest) firstSignature,
    .upsertSignature (unsigned honest) bareSignature]

/-- **One signer, two entries**: one signature is posted under both texts of its signer, and
either store keeps it twice. -/
theorem two_entries :
    ¬FilesKeepOne digestOf Parsers.standard knownSignatures postedTwice ∧
      ¬TablesKeepOne digestOf Parsers.standard knownSignatures postedTwice := by
  have htwice : ¬([firstSignature, bareSignature].map
      (recovers Parsers.standard knownSignatures emitted.submissionId)).Nodup := by decide +kernel
  constructor
  · intro h
    have hafter := (h [.upsertSignature (unsigned honest) firstSignature] _ [] rfl).1
    have hfile : (filesAfter digestOf Parsers.standard knownSignatures postedTwice
        (filePath honest.submissionId)).map (fun r =>
          (Parsers.standard.b256 r.params.submissionId, r.signatures)) =
        some (some emitted.submissionId, [firstSignature, bareSignature]) := by decide +kernel
    obtain ⟨r, hr, heq⟩ := Option.map_eq_some_iff.mp hfile
    obtain ⟨hid, hlist⟩ := Prod.mk.inj heq
    have heach := (eachDomain_iff hid).mp (hafter _ r hr) .transfer
    rw [show r.bucket .transfer = r.signatures from rfl, hlist] at heach
    exact htwice heach.once
  · intro h
    have hafter := (h [.upsertSignature (unsigned honest) firstSignature] _ [] rfl).1
    have hrow : ((tablesAfter digestOf Parsers.standard knownSignatures postedTwice).submissions
        (normId honest.submissionId)).map (fun row => Parsers.standard.b256 row.submissionId) =
        some (some emitted.submissionId) := by decide +kernel
    have hlist : (tablesAfter digestOf Parsers.standard knownSignatures postedTwice).signatures
        (normId honest.submissionId) = [firstSignature, bareSignature] := by decide +kernel
    obtain ⟨row, hr, hid⟩ := Option.map_eq_some_iff.mp hrow
    rw [show [Call.upsertSignature (unsigned honest) firstSignature] ++
      [.upsertSignature (unsigned honest) bareSignature] = postedTwice from rfl] at hafter
    have heach := (eachDomain_iff hid).mp (hafter _ row hr) .transfer
    rw [Tables.bucket, hlist] at heach
    exact htwice heach.once

/-- It has one encoding for each signature it knows. -/
theorem knownSignatures_keepsSigner : knownSignatures.KeepsSigner where
  recover_canonical := by
    rintro message raw c a hcanonical hrecover
    obtain ⟨-, hc⟩ := Option.ite_none_right_eq_some.mp hcanonical
    exact Option.some.inj hc ▸ hrecover

/-- The post of a transfer, in both stores. -/
theorem one_entry_posted :
    (filesAfter digestOf Parsers.standard knownSignatures
        [.upsertSignature (unsigned honest) firstSignature]
        (filePath honest.submissionId)).isSome = true ∧
      FilesKeepOne digestOf Parsers.standard knownSignatures
        [.upsertSignature (unsigned honest) firstSignature] ∧
      TablesKeepOne digestOf Parsers.standard knownSignatures
        [.upsertSignature (unsigned honest) firstSignature] := by
  have hiff := @one_entry_iff digestOf _ _ Parsers.standard_lawful knownSignatures_keepsSigner
    [.upsertSignature (unsigned honest) firstSignature]
  have hnone : ∀ w, ∀ kind, OneEach Parsers.standard knownSignatures w
      ((unsigned honest).bucket kind) := by
    intro w kind
    have hempty : (unsigned honest).bucket kind = [] := by cases kind <;> rfl
    rw [hempty]
    exact ⟨by simp, by simp⟩
  refine ⟨by decide +kernel, hiff.1.mpr ?_, hiff.2.mpr ?_⟩
  · intro pre c rest hcalls
    rcases pre with _ | ⟨c', pre⟩
    · obtain ⟨rfl, -⟩ := List.cons_eq_cons.mp hcalls
      rintro w merged - hmerged -
      obtain rfl := Except.ok.inj hmerged
      exact ⟨fun s hs => absurd hs List.not_mem_nil, fun _ kind => hnone _ kind⟩
    · simp at hcalls
  · intro pre c rest hcalls
    rcases pre with _ | ⟨c', pre⟩
    · obtain ⟨rfl, -⟩ := List.cons_eq_cons.mp hcalls
      rintro w row - - -
      exact fun s hs => absurd hs List.not_mem_nil
    · simp at hcalls

end Db

end SelendraBridge
