import SelendraBridge.Db.Records
import SelendraBridge.Store.Binding
import SelendraBridge.Store.Files

/-!
# What a file and a row have in common

A file keeps a record as the caller spelled it; a row keeps it lowercased, under the
normalised id. Up to that they can be compared: as text without its `0x` and without case
(`SelendraBridge.Db.SameText`), field by field (`SelendraBridge.Db.SameRecord`), and list by
list, where what counts is who signed. `SelendraBridge.Db.RowOf` says of a row that it is a
record's, and then the comparison that guards a second post is the same in both stores, the
spelling of the id apart (`SelendraBridge.Db.sameParams_row`,
`SelendraBridge.Db.sameParams_file`), and the two caps refuse alike
(`SelendraBridge.Db.pushCapped_cases`).
-/

namespace SelendraBridge

namespace Db

open Revert Store

/-! ### What the two hold -/

/-- Text up to the case of the digits and `0x`. -/
def SameText (s t : Text) : Prop := lower (stripHexPrefix s) = lower (stripHexPrefix t)

/-- The text is an id's. -/
def Names (s : Text) (w : Bytes32) : Prop := lower (stripHexPrefix s) = Hex.encode (wordBytes w)

/-- The signers of a list. -/
def signerSet (rows : List SignerSig) : Set Text :=
  { x | ∃ s ∈ rows, x = lower (stripHexPrefix s.signer) }

/-- **Two records are the same**, up to how their text is spelled and which signature of a
signer was kept. -/
structure SameRecord (r r' : SignedRecord) : Prop where
  submissionId : SameText r.params.submissionId r'.params.submissionId
  bridgeDomain : SameText r.params.bridgeDomain r'.params.bridgeDomain
  debridgeId : SameText r.params.debridgeId r'.params.debridgeId
  amount : r.params.amount = r'.params.amount
  bridgeDecimals : r.params.bridgeDecimals = r'.params.bridgeDecimals
  chainIdFrom : r.params.chainIdFrom = r'.params.chainIdFrom
  chainIdTo : r.params.chainIdTo = r'.params.chainIdTo
  nonce : r.params.nonce = r'.params.nonce
  receiver : SameText r.params.receiver r'.params.receiver
  autoParams : SameText r.params.autoParams r'.params.autoParams
  nativeSender : SameText r.params.nativeSender r'.params.nativeSender
  token : SameText r.params.token r'.params.token
  signers : ∀ kind, signerSet (r.bucket kind) = signerSet (r'.bucket kind)

/-- **A directory and the tables hold the same**: at most one record for an id each, for the
same ids, and the same records. -/
structure HoldSame (dir : Files) (t : Tables) : Prop where
  oneFile : ∀ w name name' r r', dir name = some r → dir name' = some r' → Names name w →
    Names name' w → name = name'
  oneRow : ∀ w key key' row row', t.submissions key = some row → t.submissions key' = some row' →
    Names key w → Names key' w → key = key'
  sameIds : ∀ w, (∃ name r, dir name = some r ∧ Names name w) ↔
    ∃ key row, t.submissions key = some row ∧ Names key w
  sameRecord : ∀ w name r key r', dir name = some r → Names name w → loadRow t key = some r' →
    Names key w → SameRecord r r'

/-! ### Ids -/

variable {keccak256 : Bytes → Bytes32} {P : Parsers}

/-- The digits of an id have no prefix of their own. -/
theorem stripHexPrefix_of_valid {s : Text} (h : isValidSubmissionId s = true) :
    stripHexPrefix (stripHexPrefix s) = stripHexPrefix s := by
  rw [isValidSubmissionId, Bool.and_eq_true] at h
  apply stripHexPrefix_of_not
  rw [Bool.eq_false_iff]
  intro hfront
  have hx := List.all_eq_true.mp h.2 'x' (by rw [eq_of_hasHexPrefix hfront]; simp)
  exact absurd hx (by decide)

/-- The key of an id's digits is the key of the id. -/
theorem normId_stripHexPrefix {s : Text} (h : isValidSubmissionId s = true) :
    normId (stripHexPrefix s) = normId s := by
  rw [normId, normId, stripHexPrefix_of_valid h]

/-- Keys are equal when the ids are the same text. -/
theorem normId_inj {s t : Text} : normId s = normId t ↔ SameText s t := by
  simp [normId, SameText]

theorem names_normId {s : Text} {w : Bytes32} (h : Names s w) : Names (normId s) w := by
  rw [Names, normId] at *
  rw [show stripHexPrefix ('0' :: 'x' :: lower (stripHexPrefix s)) = lower (stripHexPrefix s)
    from rfl, lower_lower, h]

theorem Names.sameText {s t : Text} {w : Bytes32} (hs : Names s w) (ht : Names t w) :
    SameText s t := hs.trans ht.symm

theorem Names.of_sameText {s t : Text} {w : Bytes32} (hs : Names s w) (h : SameText s t) :
    Names t w := h.symm.trans hs

theorem SameText.symm {s t : Text} (h : SameText s t) : SameText t s := Eq.symm h

theorem SameText.trans {s t u : Text} (h : SameText s t) (h' : SameText t u) : SameText s u :=
  Eq.trans h h'

/-- Hexadecimal text in lowercase is the same text. -/
theorem sameText_lower {s : Text} {bs : Bytes} (h : lower (stripHexPrefix s) = Hex.encode bs) :
    SameText s (lower s) := by
  rw [SameText]
  cases hp : hasHexPrefix s with
  | true =>
    rw [lower_of_hasHexPrefix hp]
    exact (lower_lower _).symm
  | false =>
    -- There is no prefix after lowering either: `x` is no digit.
    rw [stripHexPrefix_of_not hp] at h ⊢
    have hp' : hasHexPrefix (lower s) = false := by
      rw [Bool.eq_false_iff]
      intro hfront
      rw [h] at hfront
      exact ne_hexText_of_hexEncode (eq_of_hasHexPrefix hfront)
    rw [stripHexPrefix_of_not hp', lower_lower]

/-! ### Rows behind files -/

/-- A signature as the tables keep it. -/
def lowered (sig : SignerSig) : SignerSig := ⟨lower sig.signer, sig.signature⟩

/-- **A row for a record**: the same parameters, as the database spells them. -/
structure RowOf (a : SubmissionRecord) (row : SubmissionRow) : Prop where
  submissionId : row.submissionId = normId a.submissionId
  bridgeDomain : ∃ dom, row.bridgeDomain = some dom ∧ SameText a.bridgeDomain dom
  debridgeId : row.debridgeId = lower a.debridgeId
  amount : row.amount = a.amount
  bridgeDecimals : row.bridgeDecimals = a.bridgeDecimals
  chainIdFrom : row.chainIdFrom = a.chainIdFrom
  chainIdTo : row.chainIdTo = a.chainIdTo
  nonce : row.nonce = a.nonce
  receiver : row.receiver = lower a.receiver
  autoParams : row.autoParams = lower a.autoParams
  nativeSender : row.nativeSender = lower a.nativeSender
  token : row.token = tokenColumn a

/-- The fields of a record that are hexadecimal are. -/
structure HexFields (a : SubmissionRecord) : Prop where
  submissionId : ∃ bs, lower (stripHexPrefix a.submissionId) = Hex.encode bs
  bridgeDomain : ∃ bs, lower (stripHexPrefix a.bridgeDomain) = Hex.encode bs
  debridgeId : ∃ bs, lower (stripHexPrefix a.debridgeId) = Hex.encode bs
  receiver : ∃ bs, lower (stripHexPrefix a.receiver) = Hex.encode bs
  autoParams : ∃ bs, lower (stripHexPrefix a.autoParams) = Hex.encode bs
  nativeSender : ∃ bs, lower (stripHexPrefix a.nativeSender) = Hex.encode bs
  token : ∃ bs, lower (stripHexPrefix a.token) = Hex.encode bs

/-- **An accepted record is hexadecimal where it should be.** -/
theorem hexFields_of_verifyBinding (hP : P.Lawful) {a : SubmissionRecord} {w : Bytes32}
    (h : verifyBinding keccak256 P a = .ok w) : HexFields a := by
  obtain ⟨-, -, hcanon, hid, htoken⟩ := verifyBinding_eq_ok.mp h
  obtain ⟨p, hp, -⟩ := canonicalSubmissionId_eq_ok.mp hcanon
  obtain ⟨hdom, hdeb, -, -, hrcv, hap, hns, -⟩ := parseRecord_eq_ok.mp hp
  refine ⟨⟨_, hP.b256_iff.mp hid⟩, ⟨_, hP.b256_iff.mp hdom⟩, ⟨_, hP.b256_iff.mp hdeb⟩,
    ⟨_, (hexBytes_eq_ok hP).mp hrcv⟩, ⟨_, (hexBytes_eq_ok hP).mp hap⟩,
    ⟨_, (hexBytes_eq_ok hP).mp hns⟩, ?_⟩
  by_cases hempty : a.token = []
  · exact ⟨[], by rw [hempty]; rfl⟩
  · rw [verifyTokenBinding, if_neg hempty] at htoken
    simp only [orRevert_bind_eq_ok] at htoken
    obtain ⟨token, htok, -⟩ := htoken
    exact ⟨_, hP.address_iff.mp htok⟩

/-- The token of a record, back from its column. -/
theorem tokenColumn_getD (a : SubmissionRecord) : (tokenColumn a).getD [] = lower a.token := by
  rw [tokenColumn]
  split
  · next h => rw [h]; rfl
  · rfl

/-- **What a row shows is the record**, up to spelling. -/
theorem RowOf.sameRecord {a : SubmissionRecord} {row : SubmissionRow} (h : RowOf a row)
    (hex : HexFields a) {b : SignedRecord} (hb : b.params = a) {b' : SignedRecord}
    (hb' : b'.params = row.intoRecord)
    (hsigners : ∀ kind, signerSet (b.bucket kind) = signerSet (b'.bucket kind)) :
    SameRecord b b' := by
  subst hb
  obtain ⟨dom, hdom, hsame⟩ := h.bridgeDomain
  obtain ⟨_, hid⟩ := hex.submissionId
  obtain ⟨_, hdeb⟩ := hex.debridgeId
  obtain ⟨_, hrcv⟩ := hex.receiver
  obtain ⟨_, hap⟩ := hex.autoParams
  obtain ⟨_, hns⟩ := hex.nativeSender
  obtain ⟨_, htok⟩ := hex.token
  constructor
  · rw [hb', SubmissionRow.intoRecord, h.submissionId]
    exact (lower_lower _).symm
  · rw [hb', SubmissionRow.intoRecord, hdom]
    exact hsame
  · rw [hb', SubmissionRow.intoRecord, h.debridgeId]
    exact sameText_lower hdeb
  · rw [hb', SubmissionRow.intoRecord, h.amount]
  · rw [hb', SubmissionRow.intoRecord, h.bridgeDecimals]
  · rw [hb', SubmissionRow.intoRecord, h.chainIdFrom]
  · rw [hb', SubmissionRow.intoRecord, h.chainIdTo]
  · rw [hb', SubmissionRow.intoRecord, h.nonce]
  · rw [hb', SubmissionRow.intoRecord, h.receiver]
    exact sameText_lower hrcv
  · rw [hb', SubmissionRow.intoRecord, h.autoParams]
    exact sameText_lower hap
  · rw [hb', SubmissionRow.intoRecord, h.nativeSender]
    exact sameText_lower hns
  · rw [hb', SubmissionRow.intoRecord, h.token, tokenColumn_getD]
    exact sameText_lower htok
  · exact hsigners

/-- The row a first post makes. -/
theorem rowOf_insert {a : SubmissionRecord} (hex : HexFields a) :
    RowOf a (insertSubmissionRow none (normId a.submissionId) a) := by
  obtain ⟨_, hdom⟩ := hex.bridgeDomain
  exact ⟨rfl, ⟨_, rfl, sameText_lower hdom⟩, rfl, rfl, rfl, rfl, rfl, rfl, rfl, rfl, rfl, rfl⟩

/-- **The comparison of the database is the comparison of the files**, under one spelling of
the id. -/
theorem sameParams_row {a b : SubmissionRecord} {row : SubmissionRow} (h : RowOf a row)
    (hid : SameText a.submissionId b.submissionId) :
    Store.sameParams row.intoRecord (incoming b) =
      Store.sameParams a { b with submissionId := a.submissionId } := by
  have hnorm : normId a.submissionId = normId b.submissionId := normId_inj.mpr hid
  simp only [Store.sameParams, SubmissionRow.intoRecord, incoming, h.submissionId, h.debridgeId,
    h.amount, h.chainIdFrom, h.chainIdTo, h.nonce, h.receiver, h.autoParams, h.nativeSender,
    hnorm, eqIgnoreCase, lower_lower, BEq.rfl]

/-- The files compare the ids too, as text. -/
theorem sameParams_file {a b : SubmissionRecord} (hid : SameText a.submissionId b.submissionId)
    (hex : ∃ bs, lower (stripHexPrefix a.submissionId) = Hex.encode bs) :
    Store.sameParams a b =
      (Store.sameParams a { b with submissionId := a.submissionId } &&
        hasHexPrefix a.submissionId == hasHexPrefix b.submissionId) := by
  obtain ⟨bs, hbs⟩ := hex
  have hb : lower (stripHexPrefix b.submissionId) = Hex.encode bs := Eq.trans hid.symm hbs
  have heq : eqIgnoreCase a.submissionId b.submissionId =
      (hasHexPrefix a.submissionId == hasHexPrefix b.submissionId) := by
    rw [Bool.eq_iff_iff, eqIgnoreCase_iff, lower_eq_iff hbs hb, beq_iff_eq]
    simp
  have hself : eqIgnoreCase a.submissionId a.submissionId = true := eqIgnoreCase_iff.mpr rfl
  simp only [Store.sameParams, heq, hself, Bool.true_and]
  cases hasHexPrefix a.submissionId == hasHexPrefix b.submissionId <;> simp

/-! ### The lists -/

/-- A signer is in a list of the tables when it is in the list of the file. -/
theorem any_lowered (bucket : List SignerSig) (sig : SignerSig) :
    ((bucket.map lowered).any fun row => row.signer == lower sig.signer) =
      bucket.any fun s => eqIgnoreCase s.signer sig.signer := by
  rw [List.any_map]
  rfl

/-- **The two caps refuse alike**, and the two lists grow alike. -/
theorem pushCapped_cases (bucket : List SignerSig) (sig : SignerSig) (kind : SigKind) :
    (∃ bucket', pushCapped bucket sig kind = .ok bucket' ∧
        enforceSignatureCap (bucket.map lowered) (lower sig.signer) kind = .ok () ∧
        insertSig (bucket.map lowered) (lowered sig) = bucket'.map lowered ∧
        ∀ s ∈ bucket', s ∈ bucket ∨ s = sig) ∨
      (∃ e, pushCapped bucket sig kind = .error e) ∧
        ∃ e, enforceSignatureCap (bucket.map lowered) (lower sig.signer) kind = .error e := by
  have hany := any_lowered bucket sig
  rw [pushCapped, enforceSignatureCap, insertSig, hany, List.length_map,
    show (lowered sig).signer = lower sig.signer from rfl, hany]
  cases hpresent : bucket.any fun s => eqIgnoreCase s.signer sig.signer with
  | true =>
    refine .inl ⟨bucket, rfl, ?_, rfl, fun s hs => .inl hs⟩
    split <;> rfl
  | false =>
    by_cases hcap : bucket.length ≥ MAX_SIGNATURES_PER_SUBMISSION
    · have hlt : ¬bucket.length < MAX_SIGNATURES_PER_SUBMISSION := not_lt.mpr hcap
      exact .inr ⟨⟨_, if_pos hcap⟩, ⟨_, if_neg hlt⟩⟩
    · refine .inl ⟨bucket ++ [sig], if_neg hcap, if_pos (by omega), ?_, ?_⟩
      · simp
      · intro s hs
        rcases List.mem_append.mp hs with hs | hs
        · exact .inl hs
        · exact .inr (List.mem_singleton.mp hs)

/-- The signers of a list and of its row list are the same, if they are addresses. -/
theorem signerSet_lowered (hP : P.Lawful) {bucket : List SignerSig}
    (h : ∀ s ∈ bucket, ∃ a, P.address s.signer = some a) :
    signerSet bucket = signerSet (bucket.map lowered) := by
  ext x
  simp only [signerSet, Set.mem_ofPred_eq, List.mem_map]
  constructor
  · rintro ⟨s, hs, rfl⟩
    obtain ⟨a, ha⟩ := h s hs
    exact ⟨lowered s, ⟨s, hs, rfl⟩, sameText_lower (hP.address_iff.mp ha)⟩
  · rintro ⟨_, ⟨s, hs, rfl⟩, rfl⟩
    obtain ⟨a, ha⟩ := h s hs
    exact ⟨s, hs, (sameText_lower (hP.address_iff.mp ha)).symm⟩

end Db

end SelendraBridge
