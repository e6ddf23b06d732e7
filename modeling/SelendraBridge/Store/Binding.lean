import SelendraBridge.Store.Record

/-!
# What an accepted record is bound to

A record that passes the write checks has a parse
(`SelendraBridge.Store.parseRecord`), and the string hashed into its id is the
string of a `SelendraBridge.Submission` – the size bound on the receiver is what
puts it there (`SelendraBridge.Store.packRecord_eq`). Two accepted records with one
id therefore agree on everything the id binds, as *values*.
-/

namespace SelendraBridge

namespace Store

open Revert

variable {keccak256 : Bytes → Bytes32} {P : Parsers}

/-! ### The checks, inverted -/

theorem hexBytes_eq_ok (hP : P.Lawful) {field : String} {s : Text} {bs : Bytes} :
    hexBytes P field s = .ok bs ↔ lower (stripHexPrefix s) = Hex.encode bs := by
  rw [← hP.hexDecode_iff, hexBytes]
  split
  · next h =>
    rw [h, Except.ok.injEq, hP.hexDecode_iff]
    constructor
    · rintro rfl
      rfl
    · intro hbs
      exact Hex.encode_inj hbs
  · rw [orRevert_eq_ok]

theorem boundedHex_eq_ok {field : String} {s : Text} {n : ℕ} {u : Unit} :
    boundedHex field s n = .ok u ↔ (stripHexPrefix s).length ≤ 2 * n := by
  rw [boundedHex, revertIf_eq_ok, not_lt]

theorem boundedHex_bind_eq_ok {β : Type} {field : String} {s : Text} {n : ℕ}
    {f : Unit → Except StoreError β} {b : β} :
    (boundedHex field s n >>= f) = .ok b ↔ (stripHexPrefix s).length ≤ 2 * n ∧ f () = .ok b := by
  rw [boundedHex, revertIf_bind_eq_ok, not_lt]

/-- A storable record has a receiver of at most 64 digits. -/
theorem receiver_of_checkStorable {r : SubmissionRecord} {u : Unit}
    (h : checkStorable r = .ok u) : (stripHexPrefix r.receiver).length ≤ 64 := by
  simp only [checkStorable, boundedHex_bind_eq_ok] at h
  exact h.1

/-- **The parse of a record, field by field.** -/
theorem parseRecord_eq_ok {rec : SubmissionRecord} {p : ParsedRecord} :
    parseRecord P rec = .ok p ↔
      P.b256 rec.bridgeDomain = some p.bridgeDomain ∧
      P.b256 rec.debridgeId = some p.debridgeId ∧
      P.u256 rec.amount = some p.amount ∧
      rec.bridgeDecimals = some p.bridgeDecimals ∧
      hexBytes P "receiver" rec.receiver = .ok p.receiver ∧
      hexBytes P "auto_params" rec.autoParams = .ok p.autoParams ∧
      hexBytes P "native_sender" rec.nativeSender = .ok p.nativeSender ∧
      decodeAutoParams P p.autoParams p.nativeSender = some p.auto := by
  obtain ⟨dom, deb, amt, dec, rcv, ap, ns, auto⟩ := p
  simp only [parseRecord, bind_eq_ok, orRevert_eq_ok, pure_eq_ok, ParsedRecord.mk.injEq]
  constructor
  · rintro ⟨_, h₁, _, h₂, _, h₃, _, h₄, _, h₅, _, h₆, _, h₇, _, h₈, rfl, rfl, rfl, rfl, rfl, rfl,
      rfl, rfl⟩
    exact ⟨h₁, h₂, h₃, h₄, h₅, h₆, h₇, h₈⟩
  · rintro ⟨h₁, h₂, h₃, h₄, h₅, h₆, h₇, h₈⟩
    exact ⟨_, h₁, _, h₂, _, h₃, _, h₄, _, h₅, _, h₆, _, h₇, _, h₈, rfl, rfl, rfl, rfl, rfl, rfl,
      rfl, rfl⟩

theorem canonicalSubmissionId_eq_ok {rec : SubmissionRecord} {id : Bytes32} :
    canonicalSubmissionId keccak256 P rec = .ok id ↔
      ∃ p, parseRecord P rec = .ok p ∧ keccak256 (packRecord keccak256 rec p) = id := by
  simp only [canonicalSubmissionId, bind_eq_ok, pure_eq_ok]

theorem recordPreimage_eq_ok {rec : SubmissionRecord} {bs : Bytes} :
    recordPreimage keccak256 P rec = .ok bs ↔
      ∃ p, parseRecord P rec = .ok p ∧ packRecord keccak256 rec p = bs := by
  simp only [recordPreimage, bind_eq_ok, pure_eq_ok]

/-- A storable receiver is at most 32 bytes. -/
theorem length_receiver_le (hP : P.Lawful) {rec : SubmissionRecord} {p : ParsedRecord}
    {u : Unit} (hs : checkStorable rec = .ok u) (hp : parseRecord P rec = .ok p) :
    p.receiver.length ≤ 32 := by
  have hdigits := (hexBytes_eq_ok hP).mp (parseRecord_eq_ok.mp hp).2.2.2.2.1
  have hlen := congrArg List.length hdigits
  rw [lower, List.length_map, Hex.length_encode] at hlen
  have hbound := receiver_of_checkStorable hs
  omega

/-! ### The submission behind a record -/

/-- **What a record's id binds**, as values. -/
def ParsedRecord.submission (keccak256 : Bytes → Bytes32) (rec : SubmissionRecord)
    (p : ParsedRecord) (h : p.receiver.length ≤ 32) : Submission where
  bridgeDomain := p.bridgeDomain
  debridgeId := p.debridgeId
  bridgeDecimals := p.bridgeDecimals
  amount := p.amount
  chainIdFrom := rec.chainIdFrom.setWidth 256
  chainIdTo := rec.chainIdTo.setWidth 256
  nonce := rec.nonce.setWidth 256
  receiver := p.receiver
  payload := p.auto.map (AutoParams.payload keccak256)
  receiver_le := h

/-- The string the store hashes is the string of the submission. -/
theorem packRecord_eq {rec : SubmissionRecord} {p : ParsedRecord} (h : p.receiver.length ≤ 32) :
    packRecord keccak256 rec p = (p.submission keccak256 rec h).preimage := by
  rw [packRecord, BridgeCore.packedSubmission_eq]
  cases hauto : p.auto with
  | none => simp [Submission.preimage, ParsedRecord.submission, hauto]
  | some auto =>
    simp [Submission.preimage, ParsedRecord.submission, hauto, BridgeCore.packedAuto_eq,
      Submission.packedAuto_eq]

/-- Widening a 64-bit number to a word loses nothing. -/
theorem setWidth_inj {m n : U64} (h : m.setWidth 256 = n.setWidth 256) : m = n := by
  have h' := congrArg BitVec.toNat h
  simp only [BitVec.toNat_setWidth] at h'
  have hm := m.isLt
  have hn := n.isLt
  exact BitVec.eq_of_toNat_eq (by omega)

/-- **Two records with one packed string agree as values** on everything the store
compares, except the payload's own bytes and the native sender. -/
theorem agree_of_packRecord_eq (hP : P.Lawful) {a b : SubmissionRecord} {p q : ParsedRecord}
    {u v : Unit} (ha : checkStorable a = .ok u) (hp : parseRecord P a = .ok p)
    (hb : checkStorable b = .ok v) (hq : parseRecord P b = .ok q)
    (h : packRecord keccak256 a p = packRecord keccak256 b q) :
    p.debridgeId = q.debridgeId ∧ p.amount = q.amount ∧ p.receiver = q.receiver ∧
      a.chainIdFrom = b.chainIdFrom ∧ a.chainIdTo = b.chainIdTo ∧ a.nonce = b.nonce := by
  have hpl := length_receiver_le hP ha hp
  have hql := length_receiver_le hP hb hq
  rw [packRecord_eq hpl, packRecord_eq hql] at h
  have hsub := Submission.preimage_inj h
  exact ⟨congrArg Submission.debridgeId hsub, congrArg Submission.amount hsub,
    congrArg Submission.receiver hsub, setWidth_inj (congrArg Submission.chainIdFrom hsub),
    setWidth_inj (congrArg Submission.chainIdTo hsub),
    setWidth_inj (congrArg Submission.nonce hsub)⟩

end Store

end SelendraBridge
