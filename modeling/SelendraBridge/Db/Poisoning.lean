import SelendraBridge.Db.Submissions
import SelendraBridge.Digest
import SelendraBridge.Store.Standard

/-!
# Whether a first writer can lock the others out

The id of a record is computed from what its text *parses* to, and the row it
creates is compared with later posts as *text*. Several spellings parse alike: a
hash or a byte string with or without `0x`, a number that is not in minimal
decimal; and two fields of a plain transfer – the native sender, and the bytes of a
payload up to what they decode to – are not in the hash at all. A first writer who
uses any of this freedom creates a row that an honest record does not compare equal
to, and the honest record is refused as a conflict.

`SelendraBridge.Db.sameParams_storedRow_iff` says exactly when two accepted records
under one id compare equal (`SelendraBridge.Db.SpelledAlike`), and
`SelendraBridge.Db.spelledAlike_fromSentEvent_iff` what that leaves of a first writer
when the second record is built from the event itself.
-/

namespace SelendraBridge

namespace Db

open Revert Store

variable {keccak256 : Bytes → Bytes32} {P : Parsers}

/-- The row an accepted record creates. -/
def storedRow (a : SubmissionRecord) : SubmissionRow :=
  insertSubmissionRow none (normId a.submissionId) a

/-- **Two records spelled alike**: the prefixes and the amount as text, and the
bytes that the id does not bind. -/
structure SpelledAlike (P : Parsers) (a b : SubmissionRecord) : Prop where
  debridgeId : hasHexPrefix a.debridgeId = hasHexPrefix b.debridgeId
  receiver : hasHexPrefix a.receiver = hasHexPrefix b.receiver
  autoParams : hasHexPrefix a.autoParams = hasHexPrefix b.autoParams
  nativeSender : hasHexPrefix a.nativeSender = hasHexPrefix b.nativeSender
  amount : a.amount = b.amount
  autoParamsBytes :
    hexBytes P "auto_params" a.autoParams = hexBytes P "auto_params" b.autoParams
  nativeSenderBytes :
    hexBytes P "native_sender" a.nativeSender = hexBytes P "native_sender" b.nativeSender

/-- **A record spelled as the event's own**: every prefix there, the amount in
minimal decimal, and the event's bytes where the id does not bind them. -/
structure SpelledAsEmitted (P : Parsers) (ev : SentEvent) (a : SubmissionRecord) : Prop where
  debridgeId : hasHexPrefix a.debridgeId = true
  receiver : hasHexPrefix a.receiver = true
  autoParams : hasHexPrefix a.autoParams = true
  nativeSender : hasHexPrefix a.nativeSender = true
  amount : a.amount = decimalText ev.amount.toNat
  autoParamsBytes : hexBytes P "auto_params" a.autoParams = .ok ev.autoParams
  nativeSenderBytes : hexBytes P "native_sender" a.nativeSender = .ok ev.nativeSender

/-- Two hexadecimal fields with known bytes compare equal exactly when they agree on
the prefix and the bytes. -/
theorem eqIgnoreCase_hexBytes_iff (hP : P.Lawful) {f : String} {s t : Text} {bs cs : Bytes}
    (hs : hexBytes P f s = .ok bs) (ht : hexBytes P f t = .ok cs) :
    eqIgnoreCase (lower s) t = true ↔
      hasHexPrefix s = hasHexPrefix t ∧ hexBytes P f s = hexBytes P f t := by
  rw [eqIgnoreCase_iff, lower_lower,
    lower_eq_iff ((hexBytes_eq_ok hP).mp hs) ((hexBytes_eq_ok hP).mp ht), hs, ht, Except.ok.injEq]

theorem eqIgnoreCase_b256_iff (hP : P.Lawful) {s t : Text} {w : Bytes32}
    (hs : P.b256 s = some w) (ht : P.b256 t = some w) :
    eqIgnoreCase (lower s) t = true ↔ hasHexPrefix s = hasHexPrefix t := by
  rw [eqIgnoreCase_iff, lower_lower, lower_eq_iff (hP.b256_iff.mp hs) (hP.b256_iff.mp ht)]
  simp

/-- Keys of one id are one key. -/
theorem eqIgnoreCase_normId (hP : P.Lawful) {s t : Text} {w : Bytes32} (hs : P.b256 s = some w)
    (ht : P.b256 t = some w) : eqIgnoreCase (normId s) (normId t) = true := by
  rw [eqIgnoreCase_iff, normId, normId, hP.b256_iff.mp hs, hP.b256_iff.mp ht]

/-- **When a row compares equal to a later record of the same id.** -/
theorem sameParams_storedRow_iff (hP : P.Lawful) {a b : SubmissionRecord} {id : Bytes32}
    (ha : verifyBinding keccak256 P a = .ok id) (hb : verifyBinding keccak256 P b = .ok id)
    (hcoll : ∀ x y, recordPreimage keccak256 P a = .ok x → recordPreimage keccak256 P b = .ok y →
      keccak256 x = keccak256 y → x = y) :
    sameParams (storedRow a).intoRecord (incoming b) = true ↔ SpelledAlike P a b := by
  obtain ⟨-, hsa, hca, hia, -⟩ := verifyBinding_eq_ok.mp ha
  obtain ⟨-, hsb, hcb, hib, -⟩ := verifyBinding_eq_ok.mp hb
  obtain ⟨p, hp, hpid⟩ := canonicalSubmissionId_eq_ok.mp hca
  obtain ⟨q, hq, hqid⟩ := canonicalSubmissionId_eq_ok.mp hcb
  have hpack : packRecord keccak256 a p = packRecord keccak256 b q :=
    hcoll _ _ (recordPreimage_eq_ok.mpr ⟨p, hp, rfl⟩) (recordPreimage_eq_ok.mpr ⟨q, hq, rfl⟩)
      (hpid.trans hqid.symm)
  obtain ⟨hdeb, -, hrec, hfrom, hto, hnonce⟩ := agree_of_packRecord_eq hP hsa hp hsb hq hpack
  obtain ⟨-, hda, -, -, hra, haa, hna, -⟩ := parseRecord_eq_ok.mp hp
  obtain ⟨-, hdb, -, -, hrb, hab, hnb, -⟩ := parseRecord_eq_ok.mp hq
  rw [← hdeb] at hdb
  rw [← hrec] at hrb
  have hr := eqIgnoreCase_hexBytes_iff hP hra hrb
  rw [hra, hrb] at hr
  simp only [sameParams, storedRow, incoming, insertSubmissionRow, SubmissionRow.intoRecord,
    Bool.and_eq_true, beq_iff_eq, eqIgnoreCase_normId hP hia hib, hfrom, hto, hnonce, true_and,
    and_true, eqIgnoreCase_b256_iff hP hda hdb, hr, eqIgnoreCase_hexBytes_iff hP haa hab,
    eqIgnoreCase_hexBytes_iff hP hna hnb]
  constructor
  · rintro ⟨⟨⟨⟨hd, hamt⟩, hrp⟩, hap, hab⟩, hnp, hnb⟩
    exact ⟨hd, hrp, hap, hnp, hamt, hab, hnb⟩
  · rintro ⟨hd, hrp, hap, hnp, hamt, hab, hnb⟩
    exact ⟨⟨⟨⟨hd, hamt⟩, hrp⟩, hap, hab⟩, hnp, hnb⟩

theorem fromSentEvent_eq_some {ev : SentEvent} {dom : Bytes32} {b : SubmissionRecord}
    (h : fromSentEvent ev dom = some b) :
    b.debridgeId = hexText (wordBytes ev.debridgeId) ∧ b.receiver = hexText ev.receiver ∧
      b.autoParams = hexText ev.autoParams ∧ b.nativeSender = hexText ev.nativeSender ∧
      b.amount = decimalText ev.amount.toNat := by
  simp only [fromSentEvent, Option.bind_eq_bind, Option.bind_eq_some_iff, Option.pure_def,
    Option.some.injEq] at h
  obtain ⟨_, _, rfl⟩ := h
  exact ⟨rfl, rfl, rfl, rfl, rfl⟩

/-- **What is left to a first writer** when the second record is the event's own. -/
theorem spelledAlike_fromSentEvent_iff (hP : P.Lawful) {ev : SentEvent} {dom : Bytes32}
    {a b : SubmissionRecord} (h : fromSentEvent ev dom = some b) :
    SpelledAlike P a b ↔ SpelledAsEmitted P ev a := by
  obtain ⟨hd, hr, ha, hn, hamt⟩ := fromSentEvent_eq_some h
  have hbytes : ∀ f bs, hexBytes P f (hexText bs) = .ok bs := fun f bs =>
    (hexBytes_eq_ok hP).mpr (by rw [stripHexPrefix_hexText, lower_hexEncode])
  constructor
  · rintro ⟨h₁, h₂, h₃, h₄, h₅, h₆, h₇⟩
    rw [hd, hasHexPrefix_hexText] at h₁
    rw [hr, hasHexPrefix_hexText] at h₂
    rw [ha, hasHexPrefix_hexText] at h₃
    rw [hn, hasHexPrefix_hexText] at h₄
    rw [ha, hbytes] at h₆
    rw [hn, hbytes] at h₇
    exact ⟨h₁, h₂, h₃, h₄, h₅.trans hamt, h₆, h₇⟩
  · rintro ⟨h₁, h₂, h₃, h₄, h₅, h₆, h₇⟩
    exact ⟨by rw [hd, h₁, hasHexPrefix_hexText], by rw [hr, h₂, hasHexPrefix_hexText],
      by rw [ha, h₃, hasHexPrefix_hexText], by rw [hn, h₄, hasHexPrefix_hexText],
      h₅.trans hamt.symm, by rw [ha, hbytes, h₆], by rw [hn, hbytes, h₇]⟩

/-- **A first writer locks nobody out exactly when it spells as the others do.**
For two accepted records under one id, the row of the first compares equal to the
second exactly when they are spelled alike; and a record built from an event is
taken, after any accepted record of the same id, exactly when that one is spelled as
the event's own. -/
theorem firstWriter_iff (hP : P.Lawful) {a : SubmissionRecord} {id : Bytes32}
    (ha : verifyBinding keccak256 P a = .ok id) :
    (∀ b, verifyBinding keccak256 P b = .ok id →
      (∀ x y, recordPreimage keccak256 P a = .ok x → recordPreimage keccak256 P b = .ok y →
        keccak256 x = keccak256 y → x = y) →
      (sameParams (storedRow a).intoRecord (incoming b) = true ↔ SpelledAlike P a b)) ∧
    (∀ ev dom b, fromSentEvent ev dom = some b → verifyBinding keccak256 P b = .ok id →
      (∀ x y, recordPreimage keccak256 P a = .ok x → recordPreimage keccak256 P b = .ok y →
        keccak256 x = keccak256 y → x = y) →
      (upsertParams keccak256 P (some (storedRow a)) b ≠
          .error (.store (.paramsConflict b.submissionId)) ↔ SpelledAsEmitted P ev a)) := by
  refine ⟨fun b hb hcoll => sameParams_storedRow_iff hP ha hb hcoll, ?_⟩
  intro ev dom b hev hb hcoll
  rw [upsertParams_ne_paramsConflict_iff hb, sameParams_storedRow_iff hP ha hb hcoll,
    spelledAlike_fromSentEvent_iff hP hev]

/-! ### A row that locks an honest record out -/

/-- A plain transfer of 1000 units, as its gate emits it. -/
def emitted : SentEvent where
  submissionId := 0x9e8cb09615e2006ffc6af70c125561c4d19ec6dfdad8e85727bb98b29b609dce
  debridgeId := 0xafdef99c1704a7d5f4cacc1c621cef270dae98e2ea1f2add9fa0fd4e7201018a
  amount := 1000
  bridgeDecimals := 6
  chainIdFrom := 1
  chainIdTo := 2
  receiver := addressBytes 0xbb
  nonce := 0
  autoParams := []
  nativeSender := addressBytes 0xcc
  token := 0xaa

/-- The record of an honest component. -/
def honest : SubmissionRecord where
  submissionId := hexText (wordBytes emitted.submissionId)
  bridgeDomain := hexText (wordBytes 0xd0)
  debridgeId := hexText (wordBytes emitted.debridgeId)
  amount := ['1', '0', '0', '0']
  bridgeDecimals := some 6
  chainIdFrom := 1
  chainIdTo := 2
  nonce := 0
  receiver := hexText emitted.receiver
  autoParams := ['0', 'x']
  nativeSender := hexText emitted.nativeSender
  token := hexText (addressBytes 0xaa)

/-- The same record with the receiver spelled without its `0x`. -/
def unprefixed : SubmissionRecord := { honest with receiver := Hex.encode emitted.receiver }

/-- Two records of one transfer, both accepted, and the second refused after the
first: the one that goes in first leaves out the `0x` of the receiver. -/
theorem unprefixed_locks_honest_out :
    fromSentEvent emitted 0xd0 = some honest ∧
      verifyBinding digestOf Parsers.standard unprefixed = .ok emitted.submissionId ∧
      verifyBinding digestOf Parsers.standard honest = .ok emitted.submissionId ∧
      sameParams (storedRow unprefixed).intoRecord (incoming honest) = false ∧
      upsertParams digestOf Parsers.standard (some (storedRow unprefixed)) honest =
        .error (.store (.paramsConflict honest.submissionId)) := by
  decide +kernel

theorem firstWriter_iff_honest :
    (sameParams (storedRow honest).intoRecord (incoming honest) = true ↔
        SpelledAlike Parsers.standard honest honest) ∧
      (upsertParams digestOf Parsers.standard (some (storedRow unprefixed)) honest ≠
          .error (.store (.paramsConflict honest.submissionId)) ↔
        SpelledAsEmitted Parsers.standard emitted unprefixed) := by
  have hh : verifyBinding digestOf Parsers.standard honest = .ok emitted.submissionId := by
    decide +kernel
  have hu : verifyBinding digestOf Parsers.standard unprefixed = .ok emitted.submissionId := by
    decide +kernel
  have hev : fromSentEvent emitted 0xd0 = some honest := by decide +kernel
  have hpre : recordPreimage digestOf Parsers.standard unprefixed =
      recordPreimage digestOf Parsers.standard honest := by decide +kernel
  constructor
  · refine (firstWriter_iff Parsers.standard_lawful hh).1 honest hh ?_
    intro x y hx hy _
    exact Except.ok.inj (hx.symm.trans hy)
  · refine (firstWriter_iff Parsers.standard_lawful hu).2 emitted 0xd0 honest hev hh ?_
    intro x y hx hy _
    rw [hpre] at hx
    exact Except.ok.inj (hx.symm.trans hy)

end Db

end SelendraBridge
