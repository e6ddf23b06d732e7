import SelendraBridge.Db.Calls
import SelendraBridge.Preimage

/-!
# A row for each file

The relation that the two stores keep while their calls fit
(`SelendraBridge.Db.Simulates`): each file has a row under its normalised name, with the same
parameters and the same lists up to the case of the signers, and each row has a file. It says
that the two hold the same (`SelendraBridge.Db.Simulates.holdSame`), it is kept when one file
and its rows are written (`SelendraBridge.Db.Simulates.update`), and each of the three calls,
if it fits, is answered alike and keeps it (`SelendraBridge.Db.Simulates.step`).

A post that meets a file is compared with it, but not on the domain of the bridge nor on the
decimals. That these agree all the same is because the id binds them, and is where the hash
has to be free of collisions.
-/

namespace SelendraBridge

namespace Db

open Revert Store

variable {keccak256 : Bytes → Bytes32} {P : Parsers} {R : Recovery}

/-! ### The simulation -/

/-- **A row for each file**, under the normalised name: the same parameters, and the same
lists up to the case of the signers. -/
structure Simulates (keccak256 : Bytes → Bytes32) (P : Parsers) (calls : List Call) (dir : Files)
    (t : Tables) : Prop where
  /-- A file has the name of the id in it, which is an accepted post's. -/
  posted : ∀ name r, dir name = some r → name = filePath r.params.submissionId ∧
    HexFields r.params ∧ ∃ record sig w, .upsertSignature record sig ∈ calls ∧
      verifyBinding keccak256 P record.params = .ok w ∧
      r.params = { record.params with token := r.params.token }
  one : ∀ name name' r r', dir name = some r → dir name' = some r' → SameText name name' →
    name = name'
  row : ∀ name r, dir name = some r → ∃ row, t.submissions (normId name) = some row ∧
    RowOf r.params row ∧ ∀ kind, t.bucket (normId name) kind = (r.bucket kind).map lowered
  signer : ∀ name r, dir name = some r → ∀ kind, ∀ s ∈ r.bucket kind,
    ∃ a, P.address s.signer = some a
  back : ∀ key row, t.submissions key = some row → ∃ name r, dir name = some r ∧ key = normId name
  none_bucket : ∀ key, t.submissions key = none → ∀ kind, t.bucket key kind = []

variable {calls : List Call} {dir : Files} {t : Tables}

theorem simulates_empty : Simulates keccak256 P calls (fun _ => none) .empty where
  posted := fun _ _ h => by cases h
  one := fun _ _ _ _ h => by cases h
  row := fun _ _ h => by cases h
  signer := fun _ _ h => by cases h
  back := fun _ _ h => by cases h
  none_bucket := by
    intro key _ kind
    cases kind <;> rfl

/-- The id in a file is well formed. -/
theorem Simulates.valid (h : Simulates keccak256 P calls dir t) {name : Text} {r : SignedRecord}
    (hr : dir name = some r) : isValidSubmissionId r.params.submissionId = true := by
  obtain ⟨-, -, record, sig, w, -, hok, heq⟩ := h.posted name r hr
  rw [heq]
  exact (verifyBinding_eq_ok.mp hok).1

/-- The name of a file is its id, as text. -/
theorem Simulates.sameText_name (h : Simulates keccak256 P calls dir t) {name : Text}
    {r : SignedRecord} (hr : dir name = some r) : SameText name r.params.submissionId := by
  rw [(h.posted name r hr).1, SameText, filePath, stripHexPrefix_of_valid (h.valid hr)]

/-- It names a 32-byte id. -/
theorem Simulates.names (hP : P.Lawful) (h : Simulates keccak256 P calls dir t) {name : Text}
    {r : SignedRecord} (hr : dir name = some r) :
    ∃ w, P.b256 r.params.submissionId = some w ∧ Names name w := by
  obtain ⟨-, -, record, sig, w, -, hok, heq⟩ := h.posted name r hr
  have hid : P.b256 r.params.submissionId = some w := by
    rw [heq]
    exact (verifyBinding_eq_ok.mp hok).2.2.2.1
  exact ⟨w, hid, Names.of_sameText (hP.b256_iff.mp hid) (h.sameText_name hr).symm⟩

/-- A key names what its name does. -/
theorem names_of_normId {s : Text} {w : Bytes32} (h : Names (normId s) w) : Names s w := by
  have hlow : lower (lower (stripHexPrefix s)) = Hex.encode (wordBytes w) := h
  rwa [lower_lower] at hlow

/-- The lists of a loaded record are the lists of the tables. -/
theorem bucket_of_loadRow {key : Text} {r : SignedRecord} (h : loadRow t key = some r)
    (kind : SigKind) : r.bucket kind = t.bucket key kind := by
  obtain ⟨row, -, rfl⟩ := Option.map_eq_some_iff.mp h
  cases kind <;> rfl

/-- **A file and what is loaded under its key are the same record.** -/
theorem Simulates.sameRecord (hP : P.Lawful) (h : Simulates keccak256 P calls dir t)
    {name : Text} {r r' : SignedRecord} (hr : dir name = some r)
    (hr' : loadRow t (normId name) = some r') : SameRecord r r' := by
  obtain ⟨row, hrow, hof, hbucket⟩ := h.row name r hr
  have hload : r'.params = row.intoRecord := by
    obtain ⟨row', hrow', rfl⟩ := Option.map_eq_some_iff.mp hr'
    rw [hrow] at hrow'
    rw [Option.some.inj hrow']
  refine hof.sameRecord (h.posted name r hr).2.1 rfl hload fun kind => ?_
  rw [bucket_of_loadRow hr', hbucket]
  exact signerSet_lowered hP (h.signer name r hr kind)

/-- **What simulates holds the same.** -/
theorem Simulates.holdSame (hP : P.Lawful) (h : Simulates keccak256 P calls dir t) :
    HoldSame dir t where
  oneFile := fun w name name' r r' hr hr' hw hw' => h.one name name' r r' hr hr' (hw.sameText hw')
  oneRow := by
    intro w key key' row row' hrow hrow' hw hw'
    obtain ⟨name, r, -, rfl⟩ := h.back key row hrow
    obtain ⟨name', r', -, rfl⟩ := h.back key' row' hrow'
    exact normId_inj.mpr ((names_of_normId hw).sameText (names_of_normId hw'))
  sameIds := by
    intro w
    constructor
    · rintro ⟨name, r, hr, hw⟩
      obtain ⟨row, hrow, -⟩ := h.row name r hr
      exact ⟨normId name, row, hrow, names_normId hw⟩
    · rintro ⟨key, row, hrow, hw⟩
      obtain ⟨name, r, hr, rfl⟩ := h.back key row hrow
      exact ⟨name, r, hr, names_of_normId hw⟩
  sameRecord := by
    intro w name r key r' hr hw hr' hw'
    obtain ⟨row, hrow, -⟩ := Option.map_eq_some_iff.mp hr'
    obtain ⟨name', r'', hr'', rfl⟩ := h.back key row hrow
    obtain rfl := h.one name name' r r'' hr hr'' (hw.sameText (names_of_normId hw'))
    exact h.sameRecord hP hr hr'

/-- **Writing one file and its rows keeps the simulation.** -/
theorem Simulates.update (h : Simulates keccak256 P calls dir t) {path : Text} {r : SignedRecord}
    {t' : Tables}
    (hposted : path = filePath r.params.submissionId ∧ HexFields r.params ∧
      ∃ record sig w, .upsertSignature record sig ∈ calls ∧
        verifyBinding keccak256 P record.params = .ok w ∧
        r.params = { record.params with token := r.params.token })
    (hsigner : ∀ kind, ∀ s ∈ r.bucket kind, ∃ a, P.address s.signer = some a)
    (hone : ∀ name r', dir name = some r' → SameText name path → name = path)
    (hrow : ∃ row, t'.submissions (normId path) = some row ∧ RowOf r.params row ∧
      ∀ kind, t'.bucket (normId path) kind = (r.bucket kind).map lowered)
    (hother : ∀ key, key ≠ normId path → t'.submissions key = t.submissions key ∧
      ∀ kind, t'.bucket key kind = t.bucket key kind) :
    Simulates keccak256 P calls (Function.update dir path (some r)) t' := by
  -- A file of the new directory is the one written, or one of before under another key.
  have hcases : ∀ name r', Function.update dir path (some r) name = some r' →
      (name = path ∧ r' = r) ∨ (name ≠ path ∧ dir name = some r' ∧ normId name ≠ normId path) := by
    intro name r' hr'
    by_cases hname : name = path
    · subst hname
      rw [Function.update_self] at hr'
      exact .inl ⟨rfl, (Option.some.inj hr').symm⟩
    · rw [Function.update_of_ne hname] at hr'
      exact .inr ⟨hname, hr', fun hkey => hname (hone name r' hr' (normId_inj.mp hkey))⟩
  constructor
  · intro name r' hr'
    rcases hcases name r' hr' with ⟨rfl, rfl⟩ | ⟨-, hr', -⟩
    · exact hposted
    · exact h.posted name r' hr'
  · intro name name' r₁ r₂ h₁ h₂ hsame
    rcases hcases name r₁ h₁ with ⟨hpath, -⟩ | ⟨hne, hold, -⟩
    · rcases hcases name' r₂ h₂ with ⟨hpath', -⟩ | ⟨hne', hold', -⟩
      · exact hpath.trans hpath'.symm
      · exact absurd (hone name' r₂ hold' (hpath ▸ hsame.symm)) hne'
    · rcases hcases name' r₂ h₂ with ⟨hpath', -⟩ | ⟨hne', hold', -⟩
      · exact absurd (hone name r₁ hold (hpath' ▸ hsame)) hne
      · exact h.one name name' r₁ r₂ hold hold' hsame
  · intro name r' hr'
    rcases hcases name r' hr' with ⟨rfl, rfl⟩ | ⟨-, hr', hkey⟩
    · exact hrow
    · obtain ⟨row, hrow', hof, hbucket⟩ := h.row name r' hr'
      obtain ⟨hsub, hlists⟩ := hother (normId name) hkey
      exact ⟨row, hsub.trans hrow', hof, fun kind => (hlists kind).trans (hbucket kind)⟩
  · intro name r' hr'
    rcases hcases name r' hr' with ⟨rfl, rfl⟩ | ⟨-, hr', -⟩
    · exact hsigner
    · exact h.signer name r' hr'
  · intro key row hkey
    by_cases heq : key = normId path
    · exact ⟨path, r, Function.update_self .., heq⟩
    · rw [(hother key heq).1] at hkey
      obtain ⟨name, r', hr', rfl⟩ := h.back key row hkey
      have hne : name ≠ path := fun hname => heq (by rw [hname])
      exact ⟨name, r', by rw [Function.update_of_ne hne, hr'], rfl⟩
  · intro key hkey kind
    have hne : key ≠ normId path := by
      rintro rfl
      obtain ⟨row, hrow', -⟩ := hrow
      rw [hrow'] at hkey
      cases hkey
    obtain ⟨hsub, hlists⟩ := hother key hne
    rw [hlists kind]
    exact h.none_bucket key (hsub ▸ hkey) kind

/-! ### One call -/

section OneCall

variable {record : SignedRecord} {sig sig' : SignerSig} {w : Bytes32} {submissionId : Text}

/-- The name of a valid id is the id, as text. -/
theorem sameText_filePath (h : isValidSubmissionId submissionId = true) :
    SameText (filePath submissionId) submissionId := by
  rw [SameText, filePath, stripHexPrefix_of_valid h]

/-- The key of a file that is named by the call is the call's key. -/
theorem normId_filePath (h : isValidSubmissionId submissionId = true) :
    normId (filePath submissionId) = normId submissionId :=
  normId_stripHexPrefix h

/-- Where no file is named, there is none and there is no row. -/
theorem Simulates.absent (h : Simulates keccak256 P calls dir t)
    (hid : isValidSubmissionId submissionId = true)
    (hnone : ∀ name r, dir name = some r → ¬SameText name submissionId) :
    dir (filePath submissionId) = none ∧ t.submissions (normId submissionId) = none := by
  constructor
  · rw [Option.eq_none_iff_forall_ne_some]
    intro r hr
    exact hnone _ r hr (sameText_filePath hid)
  · rw [Option.eq_none_iff_forall_ne_some]
    intro row hrow
    obtain ⟨name, r, hr, hkey⟩ := h.back _ row hrow
    exact hnone name r hr (normId_inj.mp hkey.symm)

/-- Two accepted posts of one id agree on the domain and the decimals. -/
theorem agree_of_verifyBinding (hP : P.Lawful) {strings : List Bytes}
    (hcoll : CollisionFree keccak256 strings) {a b : SubmissionRecord}
    (ha : verifyBinding keccak256 P a = .ok w) (hb : verifyBinding keccak256 P b = .ok w)
    (hma : ∀ bs, recordPreimage keccak256 P a = .ok bs → bs ∈ strings)
    (hmb : ∀ bs, recordPreimage keccak256 P b = .ok bs → bs ∈ strings) :
    SameText a.bridgeDomain b.bridgeDomain ∧ a.bridgeDecimals = b.bridgeDecimals := by
  obtain ⟨-, hsa, hca, -, -⟩ := verifyBinding_eq_ok.mp ha
  obtain ⟨-, hsb, hcb, -, -⟩ := verifyBinding_eq_ok.mp hb
  obtain ⟨p, hp, hpw⟩ := canonicalSubmissionId_eq_ok.mp hca
  obtain ⟨q, hq, hqw⟩ := canonicalSubmissionId_eq_ok.mp hcb
  have hpack : packRecord keccak256 a p = packRecord keccak256 b q :=
    hcoll _ (hma _ (recordPreimage_eq_ok.mpr ⟨p, hp, rfl⟩)) _
      (hmb _ (recordPreimage_eq_ok.mpr ⟨q, hq, rfl⟩)) (hpw.trans hqw.symm)
  have hsame := sameTransfer_of_packRecord hP hsa hsb hp hq hpack
  obtain ⟨hdom, -, -, hdec, -⟩ := parseRecord_eq_ok.mp hp
  obtain ⟨hdom', -, -, hdec', -⟩ := parseRecord_eq_ok.mp hq
  constructor
  · rw [SameText, hP.b256_iff.mp hdom, hP.b256_iff.mp hdom', hsame.bridgeDomain]
  · rw [hdec, hdec', hsame.bridgeDecimals]

/-- The string of a post is among the posted ones. -/
theorem mem_postedStrings (hmem : .upsertSignature record sig ∈ calls) {bs : Bytes}
    (h : recordPreimage keccak256 P record.params = .ok bs) :
    bs ∈ postedStrings keccak256 P calls := by
  refine List.mem_filterMap.mpr ⟨_, hmem, ?_⟩
  exact toOption_eq_some.mpr h

/-- A token is missing from its column when it is missing. -/
theorem tokenColumn_orElse (a b : SubmissionRecord) :
    (tokenColumn a <|> tokenColumn b) =
      tokenColumn { b with token := if a.token = [] then b.token else a.token } := by
  by_cases h : a.token = []
  · have hnone : tokenColumn a = none := if_pos (by rw [h]; rfl)
    rw [hnone, if_pos h]
    rfl
  · have hlow : lower a.token ≠ [] := by simpa [lower] using h
    have hsome : tokenColumn a = some (lower a.token) := if_neg hlow
    rw [hsome, if_neg h]
    exact (if_neg hlow).symm

/-- **The row of a merged record**: a post that compares equal leaves the row it found,
token apart, and that is the row of the post. -/
theorem RowOf.merged {a b : SubmissionRecord} {row : SubmissionRow} (h : RowOf a row)
    (hid : SameText a.submissionId b.submissionId)
    (hsame : Store.sameParams a { b with submissionId := a.submissionId } = true)
    (hdom : SameText b.bridgeDomain a.bridgeDomain) (hdec : a.bridgeDecimals = b.bridgeDecimals) :
    RowOf { b with token := if a.token = [] then b.token else a.token }
      { row with token := row.token <|> tokenColumn b } := by
  simp only [Store.sameParams, Bool.and_eq_true, eqIgnoreCase_iff, beq_iff_eq] at hsame
  obtain ⟨⟨⟨⟨⟨⟨⟨⟨-, hdeb⟩, hamt⟩, hfrom⟩, hto⟩, hnonce⟩, hrcv⟩, hap⟩, hns⟩ := hsame
  obtain ⟨dom, hrow, hrowDom⟩ := h.bridgeDomain
  constructor
  · exact h.submissionId.trans (normId_inj.mpr hid)
  · exact ⟨dom, hrow, hdom.trans hrowDom⟩
  · exact h.debridgeId.trans hdeb
  · exact h.amount.trans hamt
  · exact h.bridgeDecimals.trans hdec
  · exact h.chainIdFrom.trans hfrom
  · exact h.chainIdTo.trans hto
  · exact h.nonce.trans hnonce
  · exact h.receiver.trans hrcv
  · exact h.autoParams.trans hap
  · exact h.nativeSender.trans hns
  · change (row.token <|> tokenColumn b) = _
    rw [h.token]
    exact tokenColumn_orElse a b

/-- What the file and the row become together. -/
structure Merges (keccak256 : Bytes → Bytes32) (P : Parsers) (calls : List Call) (dir : Files)
    (t : Tables) (record merged : SignedRecord) (row : SubmissionRow) : Prop where
  merge : mergeExisting (dir (filePath record.params.submissionId)) record = .ok merged
  put : putRow (t.submissions (normId record.params.submissionId)) record.params = .ok row
  rowOf : RowOf merged.params row
  hexFields : HexFields merged.params
  params : merged.params = { record.params with token := merged.params.token }
  lists : ∀ kind, t.bucket (normId record.params.submissionId) kind =
    (merged.bucket kind).map lowered
  signer : ∀ kind, ∀ s ∈ merged.bucket kind, ∃ a, P.address s.signer = some a
  one : ∀ name r, dir name = some r → SameText name (filePath record.params.submissionId) →
    name = filePath record.params.submissionId

/-- A record over the file there is. -/
def mergedOver (r record : SignedRecord) : SignedRecord where
  params := { record.params with
    token := if r.params.token = [] then record.params.token else r.params.token }
  signatures := r.signatures
  cancelSignatures := r.cancelSignatures
  refundSignatures := r.refundSignatures

@[simp] theorem bucket_mergedOver (r record : SignedRecord) (kind : SigKind) :
    (mergedOver r record).bucket kind = r.bucket kind := by
  cases kind <;> rfl

/-- A merged record is hexadecimal where the two it is made from are. -/
theorem HexFields.merged {a b : SubmissionRecord} (ha : HexFields a) (hb : HexFields b) :
    HexFields { b with token := if a.token = [] then b.token else a.token } := by
  refine ⟨hb.submissionId, hb.bridgeDomain, hb.debridgeId, hb.receiver, hb.autoParams,
    hb.nativeSender, ?_⟩
  by_cases h : a.token = []
  · simpa [h] using hb.token
  · simpa [h] using ha.token

/-- **A post meets its file and its row alike**: both refuse it as a conflict, or both merge
it. -/
theorem Simulates.merges (hP : P.Lawful)
    (hcoll : CollisionFree keccak256 (postedStrings keccak256 P calls))
    (h : Simulates keccak256 P calls dir t) (hmem : .upsertSignature record sig ∈ calls)
    (hfits : Fits keccak256 P R dir (.upsertSignature record sig))
    (hpass : Passes keccak256 P R record.params sig w sig') :
    (∃ merged row, Merges keccak256 P calls dir t record merged row) ∨
      (∀ merged, mergeExisting (dir (filePath record.params.submissionId)) record ≠ .ok merged) ∧
        ∀ row, putRow (t.submissions (normId record.params.submissionId)) record.params ≠
          .ok row := by
  obtain ⟨hspelled, hbare⟩ := hfits w sig' hpass
  have hbind := hpass.1
  obtain ⟨hvalid, -, -, hid, -⟩ := verifyBinding_eq_ok.mp hbind
  have hex := hexFields_of_verifyBinding hP hbind
  by_cases hfile : ∃ name r, dir name = some r ∧ SameText name record.params.submissionId
  · obtain ⟨name, r, hr, hname⟩ := hfile
    obtain ⟨hpath, hfront⟩ := hspelled name r hr hname
    obtain ⟨row, hrow, hof, hlists⟩ := h.row name r hr
    obtain ⟨-, hexr, record₀, sig₀, w₀, hmem₀, hbind₀, hparams⟩ := h.posted name r hr
    have htext : SameText r.params.submissionId record.params.submissionId :=
      (h.sameText_name hr).symm.trans hname
    rw [normId_inj.mpr hname] at hrow hlists
    rw [hpath] at hr
    have hfileSame := sameParams_file htext hexr.submissionId
    have hrowSame := sameParams_row hof htext
    cases hsame : Store.sameParams r.params
        { record.params with submissionId := r.params.submissionId } with
    | false =>
      rw [hsame, Bool.false_and] at hfileSame
      rw [hsame] at hrowSame
      refine .inr ⟨fun merged hmerged => ?_, fun row' hput => ?_⟩
      · rw [hr] at hmerged
        simp only [mergeExisting, revertIf_bind_eq_ok, hfileSame, not_true, false_and] at hmerged
      · rw [hrow] at hput
        simp only [putRow, revertIf_bind_eq_ok, hrowSame, not_true, false_and] at hput
    | true =>
      rw [hsame, hfront hsame, beq_self_eq_true, Bool.and_true] at hfileSame
      rw [hsame] at hrowSame
      -- The domain and the decimals are not compared, but the id binds them.
      have hw : w₀ = w := by
        have hid₀ := (verifyBinding_eq_ok.mp hbind₀).2.2.2.1
        have hsid : r.params.submissionId = record₀.params.submissionId := by rw [hparams]
        rw [← hsid, hP.b256_iff, htext, ← hP.b256_iff] at hid₀
        exact Option.some.inj (hid₀.symm.trans hid)
      subst hw
      obtain ⟨hdom, hdec⟩ := agree_of_verifyBinding hP hcoll hbind hbind₀
        (fun _ => mem_postedStrings hmem) (fun _ => mem_postedStrings hmem₀)
      have hdomr : r.params.bridgeDomain = record₀.params.bridgeDomain := by rw [hparams]
      have hdecr : r.params.bridgeDecimals = record₀.params.bridgeDecimals := by rw [hparams]
      refine .inl ⟨mergedOver r record,
        { row with token := row.token <|> tokenColumn record.params }, ?_, ?_,
        hof.merged htext hsame (hdomr ▸ hdom) (hdecr.trans hdec.symm), hexr.merged hex, rfl,
        ?_, ?_, ?_⟩
      · rw [hr]
        simp only [mergeExisting, revertIf_bind_eq_ok, hfileSame, pure_eq_ok]
        exact ⟨by simp, rfl⟩
      · rw [hrow]
        simp only [putRow, revertIf_bind_eq_ok, hrowSame, pure_eq_ok]
        exact ⟨by simp, trivial⟩
      · intro kind
        rw [bucket_mergedOver]
        exact hlists kind
      · intro kind
        rw [bucket_mergedOver]
        exact h.signer _ r hr kind
      · intro name' r' hr' hname'
        exact h.one name' _ r' r hr' hr hname'
  · have hnone : ∀ name r, dir name = some r → ¬SameText name record.params.submissionId :=
      fun name r hr hname => hfile ⟨name, r, hr, hname⟩
    obtain ⟨hdir, hsub⟩ := h.absent hvalid hnone
    have hlists := hbare hnone
    refine .inl ⟨record, insertSubmissionRow none (normId record.params.submissionId) record.params,
      ?_, ?_, rowOf_insert hex, hex, rfl, fun kind => ?_, fun kind s hs => ?_,
      fun name r hr hname => ?_⟩
    · rw [hdir]
      rfl
    · rw [hsub]
      rfl
    · rw [hlists kind]
      exact h.none_bucket _ hsub kind
    · rw [hlists kind] at hs
      cases hs
    · exact absurd (hname.trans (sameText_filePath hvalid)) (hnone name r hr)

/-- A list of a record is the new one, or one of before. -/
theorem bucket_setBucket (r : SignedRecord) (kind k : SigKind) (bucket : List SignerSig) :
    (r.setBucket kind bucket).bucket k = if k = kind then bucket else r.bucket k := by
  cases kind <;> cases k <;> rfl

theorem params_setBucket (r : SignedRecord) (kind : SigKind) (bucket : List SignerSig) :
    (r.setBucket kind bucket).params = r.params := by
  cases kind <;> rfl

/-- The lists of the tables after a post. -/
theorem bucket_postedTables (t : Tables) (id : Text) (row : SubmissionRow) (sig : SignerSig)
    (key : Text) (k : SigKind) :
    (postedTables t id row sig).bucket key k =
      if key = id ∧ k = .transfer then insertSig (t.bucket key k) (lowered sig)
      else t.bucket key k := by
  cases k with
  | cancel => simp [Tables.bucket, postedTables]
  | refund => simp [Tables.bucket, postedTables]
  | transfer =>
    by_cases hkey : key = id
    · subst hkey
      simp [Tables.bucket, postedTables]
    · simp [Tables.bucket, postedTables, hkey]

/-- Their lists after an attestation. -/
theorem bucket_attestedTables (t : Tables) (id : Text) {kind : SigKind} (hkind : kind ≠ .transfer)
    (sig : SignerSig) (key : Text) (k : SigKind) :
    (attestedTables t id kind sig).bucket key k =
      if key = id ∧ k = kind then insertSig (t.bucket key k) (lowered sig)
      else t.bucket key k := by
  by_cases hkey : key = id
  · subst hkey
    cases k <;> cases kind <;> simp_all [Tables.bucket, attestedTables]
  · cases k <;> simp [Tables.bucket, attestedTables, hkey]

/-- Away from the transfer domain, a list of an id is one of `attestations`. -/
theorem bucket_eq_attestations (t : Tables) (id : Text) {kind : SigKind} (h : kind ≠ .transfer) :
    t.bucket id kind = t.attestations id kind := by
  cases kind with
  | transfer => exact absurd rfl h
  | cancel => rfl
  | refund => rfl

/-- **A signature goes into a file and into the tables.** -/
theorem Simulates.write (h : Simulates keccak256 P calls dir t) {path : Text} {r : SignedRecord}
    (row : SubmissionRow) {t' : Tables} {kind : SigKind} {bucket : List SignerSig}
    (hposted : path = filePath r.params.submissionId ∧ HexFields r.params ∧
      ∃ record sig w, .upsertSignature record sig ∈ calls ∧
        verifyBinding keccak256 P record.params = .ok w ∧
        r.params = { record.params with token := r.params.token })
    (hone : ∀ name r', dir name = some r' → SameText name path → name = path)
    (hof : RowOf r.params row)
    (hlists : ∀ k, t.bucket (normId path) k = (r.bucket k).map lowered)
    (hsigner : ∀ k, ∀ s ∈ r.bucket k, ∃ a, P.address s.signer = some a)
    (hsig : ∃ a, P.address sig'.signer = some a)
    (hinsert : insertSig ((r.bucket kind).map lowered) (lowered sig') = bucket.map lowered)
    (hold : ∀ s ∈ bucket, s ∈ r.bucket kind ∨ s = sig')
    (hrow : t'.submissions (normId path) = some row)
    (hother : ∀ key, key ≠ normId path → t'.submissions key = t.submissions key)
    (hbucket : ∀ key k, t'.bucket key k =
      if key = normId path ∧ k = kind then insertSig (t.bucket key k) (lowered sig')
      else t.bucket key k) :
    Simulates keccak256 P calls (Function.update dir path (some (r.setBucket kind bucket))) t' := by
  refine h.update ?_ ?_ hone ⟨row, hrow, ?_, ?_⟩ ?_
  · rw [params_setBucket]
    exact hposted
  · intro k s hs
    rw [bucket_setBucket] at hs
    split at hs
    · rcases hold s hs with hs | rfl
      · exact hsigner kind s hs
      · exact hsig
    · exact hsigner k s hs
  · rw [params_setBucket]
    exact hof
  · intro k
    rw [hbucket, bucket_setBucket, hlists k]
    by_cases hk : k = kind
    · subst hk
      rw [if_pos ⟨rfl, rfl⟩, if_pos rfl]
      exact hinsert
    · rw [if_neg fun hkey => hk hkey.2, if_neg hk]
  · intro key hkey
    refine ⟨hother key hkey, fun k => ?_⟩
    rw [hbucket, if_neg fun h' => hkey h'.1]

/-- A signature that is kept names an address. -/
theorem address_of_verifySignature (h : ∃ a, verifySignature P R w sig = .ok a)
    (h' : canonicalSignature P R sig = .ok sig') : ∃ a, P.address sig'.signer = some a := by
  obtain ⟨a, ha⟩ := h
  rw [signer_of_canonicalSignature h']
  simp only [verifySignature, orRevert_bind_eq_ok] at ha
  obtain ⟨claimed, hclaimed, -⟩ := ha
  exact ⟨claimed, hclaimed⟩

/-- **The two answers and what is left of the two stores.** -/
def Alike (keccak256 : Bytes → Bytes32) (P : Parsers) (calls : List Call) (dir : Files) (t : Tables)
    (x : Except StoreError (SignedRecord × Files)) (y : Except DbError (SignedRecord × Tables)) :
    Prop :=
  SameAnswer (settle dir x).1 (settle t y).1 ∧
    Simulates keccak256 P calls (settle dir x).2 (settle t y).2

/-- Both refuse. -/
theorem Simulates.alike_error (h : Simulates keccak256 P calls dir t)
    {x : Except StoreError (SignedRecord × Files)} {y : Except DbError (SignedRecord × Tables)}
    (hx : ∀ out, x ≠ .ok out) (hy : ∀ out, y ≠ .ok out) : Alike keccak256 P calls dir t x y := by
  obtain ⟨e, rfl⟩ := exists_error hx
  obtain ⟨e', rfl⟩ := exists_error hy
  exact ⟨trivial, h⟩

/-- Both accept. -/
theorem Simulates.alike_ok (hP : P.Lawful) {path : Text} {r r' : SignedRecord} {dir' : Files}
    {t' : Tables} (h : Simulates keccak256 P calls dir' t') (hr : dir' path = some r)
    (hr' : loadRow t' (normId path) = some r') :
    Alike keccak256 P calls dir t (.ok (r, dir')) (.ok (r', t')) :=
  ⟨h.sameRecord hP hr hr', h⟩

/-- **A post, in both stores.** -/
theorem Simulates.alike_signature (hP : P.Lawful)
    (hcoll : CollisionFree keccak256 (postedStrings keccak256 P calls))
    (h : Simulates keccak256 P calls dir t) (hmem : .upsertSignature record sig ∈ calls)
    (hfits : Fits keccak256 P R dir (.upsertSignature record sig)) :
    Alike keccak256 P calls dir t (Store.upsertSignature keccak256 P R record sig dir)
      (upsertSignature keccak256 P R record sig t) := by
  by_cases hpass : ∃ w sig', Passes keccak256 P R record.params sig w sig'
  swap
  · refine h.alike_error (fun out hout => ?_) fun out hout => ?_
    · obtain ⟨w, sig', -, -, hp, -⟩ := storeUpsertSignature_eq_ok.mp hout
      exact hpass ⟨w, sig', hp⟩
    · obtain ⟨w, sig', -, hp, -⟩ := upsertSignature_eq_ok.mp hout
      exact hpass ⟨w, sig', hp⟩
  obtain ⟨w, sig', hpass⟩ := hpass
  -- What passes passes once: the id and the encoding are computed.
  have hunique : ∀ {w₁ sig₁}, Passes keccak256 P R record.params sig w₁ sig₁ → sig₁ = sig' := by
    intro w₁ sig₁ h₁
    exact Except.ok.inj (h₁.2.2.symm.trans hpass.2.2)
  rcases h.merges hP hcoll hmem hfits hpass with ⟨merged, row, hm⟩ | ⟨hfile, hrow⟩
  swap
  · refine h.alike_error (fun out hout => ?_) fun out hout => ?_
    · obtain ⟨-, -, merged, -, -, hmerge, -⟩ := storeUpsertSignature_eq_ok.mp hout
      exact hfile merged hmerge
    · obtain ⟨-, -, row, -, hput, -⟩ := upsertSignature_eq_ok.mp hout
      exact hrow row hput
  have hvalid := (verifyBinding_eq_ok.mp hpass.1).1
  have hkey := normId_filePath hvalid
  have hlist : t.signatures (normId record.params.submissionId) = merged.signatures.map lowered :=
    hm.lists .transfer
  have hpush := pushCapped_cases merged.signatures sig' .transfer
  rw [← hlist] at hpush
  rcases hpush with ⟨bucket, hpush, hcap, hinsert, hold⟩ | ⟨⟨e, hpush⟩, e', hcap⟩
  swap
  · refine h.alike_error (fun out hout => ?_) fun out hout => ?_
    · obtain ⟨_, _, _, _, hp, hmerge, hpush', -⟩ := storeUpsertSignature_eq_ok.mp hout
      rw [hunique hp, Except.ok.inj (hmerge.symm.trans hm.merge), hpush] at hpush'
      cases hpush'
    · obtain ⟨_, _, _, hp, -, hcap', -⟩ := upsertSignature_eq_ok.mp hout
      rw [hunique hp, hcap] at hcap'
      cases hcap'
  have hload : ∃ r', loadRow (postedTables t (normId record.params.submissionId) row sig')
      (normId record.params.submissionId) = some r' := by
    refine ⟨_, Option.map_eq_some_iff.mpr ⟨row, ?_, rfl⟩⟩
    exact Function.update_self ..
  obtain ⟨r', hload⟩ := hload
  have hdb : upsertSignature keccak256 P R record sig t =
      .ok (r', postedTables t (normId record.params.submissionId) row sig') :=
    upsertSignature_eq_ok.mpr ⟨w, sig', row, hpass, hm.put, hcap, rfl, hload⟩
  rw [storeUpsertSignature_eq_ok.mpr ⟨w, sig', merged, bucket, hpass, hm.merge, hpush, rfl⟩, hdb]
  have hid : merged.params.submissionId = record.params.submissionId := by rw [hm.params]
  have haddress := address_of_verifySignature hpass.2.1 hpass.2.2
  have hsim : Simulates keccak256 P calls
      (Function.update dir (filePath record.params.submissionId)
        (some (merged.setBucket .transfer bucket)))
      (postedTables t (normId record.params.submissionId) row sig') := by
    have hposted : filePath record.params.submissionId = filePath merged.params.submissionId := by
      rw [hid]
    refine h.write row
      ⟨hposted, hm.hexFields, record, sig, w, hmem, hpass.1, hm.params⟩ hm.one hm.rowOf ?_
      hm.signer haddress ?_ hold ?_ ?_ ?_
    · rw [hkey]
      exact hm.lists
    · exact hlist ▸ hinsert
    · rw [hkey]
      exact Function.update_self ..
    · intro key hne
      exact Function.update_of_ne (hkey ▸ hne) ..
    · rw [hkey]
      exact bucket_postedTables t _ row sig'
  exact hsim.alike_ok hP (Function.update_self ..) (hkey.symm ▸ hload)

/-- A key is its own key. -/
theorem normId_normId (s : Text) : normId (normId s) = normId s := by
  rw [normId, show stripHexPrefix (normId s) = lower (stripHexPrefix s) from rfl, lower_lower]
  rfl

/-- A key is well formed, as the id is. -/
theorem isValidSubmissionId_normId (h : isValidSubmissionId submissionId = true) :
    isValidSubmissionId (normId submissionId) = true := by
  rw [isValidSubmissionId, Bool.and_eq_true, beq_iff_eq, List.all_eq_true] at h ⊢
  rw [show stripHexPrefix (normId submissionId) = lower (stripHexPrefix submissionId) from rfl,
    lower, List.length_map]
  refine ⟨h.1, fun c hc => ?_⟩
  obtain ⟨d, hd, rfl⟩ := List.mem_map.mp hc
  have hdigit := h.2 d hd
  rw [isHexDigit] at hdigit ⊢
  rwa [toLower_toLower]

/-- A key loads its row. -/
theorem load_normId (h : isValidSubmissionId submissionId = true) (t : Tables) :
    load (normId submissionId) t = loadRow t (normId submissionId) := by
  have hvalid := isValidSubmissionId_normId h
  rw [load, if_neg (by simp [hvalid]), normId_normId]

/-- **An attestation, in both stores.** -/
theorem Simulates.alike_attestation (hP : P.Lawful) (h : Simulates keccak256 P calls dir t)
    {kind : SigKind} (hfits : Fits keccak256 P R dir (.upsertAttestation submissionId kind sig)) :
    Alike keccak256 P calls dir t (Store.upsertAttestation keccak256 P R submissionId kind sig dir)
      (upsertAttestation keccak256 P R submissionId kind sig t) := by
  by_cases hvalid : isValidSubmissionId submissionId = true
  swap
  · refine h.alike_error (fun out hout => ?_) fun out hout => ?_
    · exact hvalid (storeUpsertAttestation_eq_ok.mp hout).1
    · exact hvalid (upsertAttestation_eq_ok.mp hout).1
  have hkey := normId_filePath hvalid
  by_cases hfile : ∃ name r, dir name = some r ∧ SameText name submissionId
  swap
  · obtain ⟨hdir, hsub⟩ := h.absent hvalid fun name r hr hname => hfile ⟨name, r, hr, hname⟩
    refine h.alike_error (fun out hout => ?_) fun out hout => ?_
    · obtain ⟨-, r, _, _, _, _, hr, -⟩ := storeUpsertAttestation_eq_ok.mp hout
      rw [hdir] at hr
      cases hr
    · obtain ⟨-, -, r, _, _, _, hr, -⟩ := upsertAttestation_eq_ok.mp hout
      rw [load_normId hvalid, loadRow, hsub] at hr
      cases hr
  obtain ⟨name, r, hr, hname⟩ := hfile
  obtain ⟨row, hrow, hof, hlists⟩ := h.row name r hr
  obtain ⟨w, hw, hnames⟩ := h.names hP hr
  rw [normId_inj.mpr hname] at hrow hlists
  -- The file and the row give the attestation one id to be checked against.
  have hfileId : ∀ {r₁ w₁}, dir (filePath submissionId) = some r₁ →
      P.b256 r₁.params.submissionId = some w₁ → name = filePath submissionId ∧ r₁ = r ∧ w₁ = w := by
    intro r₁ w₁ hr₁ hw₁
    have hpath := h.one name _ r r₁ hr hr₁ (hname.trans (sameText_filePath hvalid).symm)
    subst hpath
    have hsame : r₁ = r := Option.some.inj (hr₁.symm.trans hr)
    subst hsame
    exact ⟨rfl, rfl, Option.some.inj (hw₁.symm.trans hw)⟩
  have hrowId : ∀ {r₁ w₁}, load (normId submissionId) t = some r₁ →
      P.b256 r₁.params.submissionId = some w₁ → w₁ = w := by
    intro r₁ w₁ hr₁ hw₁
    rw [load_normId hvalid, loadRow, hrow, Option.map_some, Option.some.injEq] at hr₁
    have hid : r₁.params.submissionId = normId r.params.submissionId := by
      rw [← hr₁]
      exact hof.submissionId
    have hnorm : P.b256 (normId r.params.submissionId) = some w :=
      hP.b256_iff.mpr (names_normId (hP.b256_iff.mp hw))
    rw [hid, hnorm] at hw₁
    exact (Option.some.inj hw₁).symm
  by_cases hverify : ∃ a, verifyAttestation keccak256 P R w kind sig = .ok a
  swap
  · refine h.alike_error (fun out hout => ?_) fun out hout => ?_
    · obtain ⟨-, r₁, w₁, a, _, _, hr₁, hw₁, ha, -⟩ := storeUpsertAttestation_eq_ok.mp hout
      obtain ⟨-, -, rfl⟩ := hfileId hr₁ hw₁
      exact hverify ⟨a, ha⟩
    · obtain ⟨-, -, r₁, w₁, a, _, hr₁, hw₁, ha, -⟩ := upsertAttestation_eq_ok.mp hout
      obtain rfl := hrowId hr₁ hw₁
      exact hverify ⟨a, ha⟩
  obtain ⟨a, ha⟩ := hverify
  have hiff := hfits name r hr hname ⟨w, a, Names.of_sameText hnames hname, ha⟩
  by_cases hkind : kind = .transfer
  · refine h.alike_error (fun out hout => ?_) fun out hout => ?_
    · obtain ⟨-, r₁, w₁, _, _, _, hr₁, hw₁, -⟩ := storeUpsertAttestation_eq_ok.mp hout
      exact hiff.mp (hfileId hr₁ hw₁).1 hkind
    · exact (upsertAttestation_eq_ok.mp hout).2.1 hkind
  have hpath := hiff.mpr hkind
  subst hpath
  by_cases hcanon : ∃ sig', canonicalSignature P R sig = .ok sig'
  swap
  · refine h.alike_error (fun out hout => ?_) fun out hout => ?_
    · obtain ⟨-, _, _, _, sig', _, -, -, -, hsig', -⟩ := storeUpsertAttestation_eq_ok.mp hout
      exact hcanon ⟨sig', hsig'⟩
    · obtain ⟨-, -, _, _, _, sig', -, -, -, hsig', -⟩ := upsertAttestation_eq_ok.mp hout
      exact hcanon ⟨sig', hsig'⟩
  obtain ⟨sig', hsig'⟩ := hcanon
  have hlist : t.attestations (normId submissionId) kind = (r.bucket kind).map lowered := by
    rw [← bucket_eq_attestations t _ hkind]
    exact hlists kind
  have hpush := pushCapped_cases (r.bucket kind) sig' kind
  rw [← hlist] at hpush
  rcases hpush with ⟨bucket, hpush, hcap, hinsert, hold⟩ | ⟨⟨e, hpush⟩, e', hcap⟩
  swap
  · refine h.alike_error (fun out hout => ?_) fun out hout => ?_
    · obtain ⟨-, r₁, w₁, _, _, _, hr₁, hw₁, -, hs₁, hpush', -⟩ :=
        storeUpsertAttestation_eq_ok.mp hout
      obtain ⟨-, rfl, -⟩ := hfileId hr₁ hw₁
      rw [Except.ok.inj (hs₁.symm.trans hsig'), hpush] at hpush'
      cases hpush'
    · obtain ⟨-, -, _, _, _, _, -, -, -, hs₁, hcap', -⟩ := upsertAttestation_eq_ok.mp hout
      rw [Except.ok.inj (hs₁.symm.trans hsig'), hcap] at hcap'
      cases hcap'
  have hstored : loadRow t (normId submissionId) = some ⟨row.intoRecord,
      t.signatures (normId submissionId), t.attestations (normId submissionId) .cancel,
      t.attestations (normId submissionId) .refund⟩ := Option.map_eq_some_iff.mpr ⟨row, hrow, rfl⟩
  have hload : ∃ r', loadRow (attestedTables t (normId submissionId) kind sig')
      (normId submissionId) = some r' := ⟨_, Option.map_eq_some_iff.mpr ⟨row, hrow, rfl⟩⟩
  obtain ⟨r', hload⟩ := hload
  have hnorm : P.b256 row.intoRecord.submissionId = some w := by
    rw [show row.intoRecord.submissionId = normId r.params.submissionId from hof.submissionId]
    exact hP.b256_iff.mpr (names_normId (hP.b256_iff.mp hw))
  have hdb : upsertAttestation keccak256 P R submissionId kind sig t =
      .ok (r', attestedTables t (normId submissionId) kind sig') :=
    upsertAttestation_eq_ok.mpr ⟨hvalid, hkind, _, w, a, sig', (load_normId hvalid t).trans hstored,
      hnorm, ha, hsig', hcap, rfl, (load_normId hvalid _).trans hload⟩
  rw [storeUpsertAttestation_eq_ok.mpr ⟨hvalid, r, w, a, sig', bucket, hr, hw, ha, hsig', hpush,
    rfl⟩, hdb]
  have hsim : Simulates keccak256 P calls
      (Function.update dir (filePath submissionId) (some (r.setBucket kind bucket)))
      (attestedTables t (normId submissionId) kind sig') := by
    refine h.write row (h.posted _ r hr) (fun name' r₁ hr₁ hname' =>
        h.one name' _ r₁ r hr₁ hr hname') hof ?_ (h.signer _ r hr)
      (address_of_verifySignature ⟨a, ha⟩ hsig') (hlist ▸ hinsert) hold ?_ ?_ ?_
    · rw [hkey]
      exact hlists
    · rw [hkey]
      exact hrow
    · intro key hne
      rfl
    · rw [hkey]
      exact bucket_attestedTables t _ hkind sig'
  exact hsim.alike_ok hP (Function.update_self ..) (hkey.symm ▸ hload)

/-- **A load, in both stores.** -/
theorem Simulates.sameAnswer_load (hP : P.Lawful) (h : Simulates keccak256 P calls dir t)
    (hfits : Fits keccak256 P R dir (.load submissionId)) :
    SameAnswer (.ok (Store.load submissionId dir)) (.ok (load submissionId t)) := by
  by_cases hvalid : isValidSubmissionId submissionId = true
  swap
  · rw [Store.load, load, if_pos (by simpa using hvalid), if_pos (by simpa using hvalid)]
    trivial
  rw [Store.load, load, if_neg (by simp [hvalid]), if_neg (by simp [hvalid])]
  by_cases hfile : ∃ name r, dir name = some r ∧ SameText name submissionId
  · obtain ⟨name, r, hr, hname⟩ := hfile
    have hpath : name = filePath submissionId := hfits name r hr hname
    subst hpath
    obtain ⟨row, hrow, -⟩ := h.row _ r hr
    have hload : ∃ r', loadRow t (normId (filePath submissionId)) = some r' :=
      ⟨_, Option.map_eq_some_iff.mpr ⟨row, hrow, rfl⟩⟩
    obtain ⟨r', hload⟩ := hload
    rw [hr, ← normId_filePath hvalid, hload]
    exact h.sameRecord hP hr hload
  · obtain ⟨hdir, hsub⟩ := h.absent hvalid fun name r hr hname => hfile ⟨name, r, hr, hname⟩
    rw [hdir, loadRow, hsub]
    trivial

/-- **One call**: answered alike, and the simulation is kept. -/
theorem Simulates.step (hP : P.Lawful)
    (hcoll : CollisionFree keccak256 (postedStrings keccak256 P calls))
    (h : Simulates keccak256 P calls dir t) {c : Call} (hmem : c ∈ calls)
    (hfits : Fits keccak256 P R dir c) :
    SameAnswer (fileCall keccak256 P R dir c).1 (dbCall keccak256 P R t c).1 ∧
      Simulates keccak256 P calls (fileCall keccak256 P R dir c).2
        (dbCall keccak256 P R t c).2 := by
  cases c with
  | upsertSignature record sig => exact h.alike_signature hP hcoll hmem hfits
  | upsertAttestation submissionId kind sig => exact h.alike_attestation hP hfits
  | load submissionId => exact ⟨h.sameAnswer_load hP hfits, h⟩

end OneCall

end Db

end SelendraBridge
