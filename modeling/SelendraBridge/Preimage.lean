import SelendraBridge.Db.Poisoning
import SelendraBridge.Gate.Ids

/-!
# The string under an id is unambiguous

Both sides hash a packed string, and both bound the receiver: the gate to 20 or 32
bytes, the store to at most 32. Each accepted input is a `SelendraBridge.Submission`,
and `SelendraBridge.Submission.preimage_inj` does the rest. What is spelled out here is
what that means field by field, on the gate's parameters and on the store's records.
-/

namespace SelendraBridge

open Revert

/-- **Two parameter tuples of the gate name one transfer**: every field of the hash is
the same, a payload is there on both sides or on neither, and what the hash has of two
payloads is the same. -/
structure Gate.SameTransfer (keccak256 : Bytes → Bytes32) (d d' : Bytes32)
    (p p' : Gate.IdParams) : Prop where
  bridgeDomain : d = d'
  debridgeId : p.debridgeId = p'.debridgeId
  chainIdFrom : p.chainIdFrom = p'.chainIdFrom
  chainIdTo : p.chainIdTo = p'.chainIdTo
  bridgeDecimals : p.bridgeDecimals = p'.bridgeDecimals
  amount : p.amount = p'.amount
  receiver : p.receiver = p'.receiver
  nonce : p.nonce = p'.nonce
  hasPayload : p.autoParams = [] ↔ p'.autoParams = []
  payload : p.autoParams ≠ [] → ∃ ap ap', Abi.decodeAutoParamsTo p.autoParams = some ap ∧
    Abi.decodeAutoParamsTo p'.autoParams = some ap' ∧
    ap.executionFee = ap'.executionFee ∧ ap.flags = ap'.flags ∧
    keccak256 ap.fallbackAddress = keccak256 ap'.fallbackAddress ∧
    keccak256 ap.data = keccak256 ap'.data ∧
    keccak256 p.nativeSender = keccak256 p'.nativeSender

/-- The same of two records of the store, on what their text parses to. -/
structure Store.SameTransfer (keccak256 : Bytes → Bytes32) (a a' : Store.SubmissionRecord)
    (p p' : Store.ParsedRecord) : Prop where
  bridgeDomain : p.bridgeDomain = p'.bridgeDomain
  debridgeId : p.debridgeId = p'.debridgeId
  chainIdFrom : a.chainIdFrom = a'.chainIdFrom
  chainIdTo : a.chainIdTo = a'.chainIdTo
  bridgeDecimals : p.bridgeDecimals = p'.bridgeDecimals
  amount : p.amount = p'.amount
  receiver : p.receiver = p'.receiver
  nonce : a.nonce = a'.nonce
  hasPayload : p.auto = none ↔ p'.auto = none
  payload : ∀ ap ap', p.auto = some ap → p'.auto = some ap' →
    ap.executionFee = ap'.executionFee ∧ ap.flags = ap'.flags ∧
    keccak256 ap.fallbackAddress = keccak256 ap'.fallbackAddress ∧
    keccak256 ap.data = keccak256 ap'.data ∧
    keccak256 ap.nativeSender = keccak256 ap'.nativeSender

variable {keccak256 : Bytes → Bytes32} {P : Store.Parsers}

theorem Gate.payload_eq_some_none (keccak256 : Bytes → Bytes32) {p : Gate.IdParams} :
    p.payload keccak256 = some none ↔ p.autoParams = [] := by
  unfold Gate.IdParams.payload
  split
  · next h => simp [List.length_eq_zero_iff.mp h]
  · next h =>
    have hne : p.autoParams ≠ [] := fun h' => h (by rw [h', List.length_nil])
    simp [hne]

theorem Gate.payload_eq_some_some {p : Gate.IdParams} {pl : Payload}
    (h : p.payload keccak256 = some (some pl)) :
    ∃ ap, Abi.decodeAutoParamsTo p.autoParams = some ap ∧
      (Gate.withSender ap p.nativeSender).payload keccak256 = pl := by
  unfold Gate.IdParams.payload at h
  split at h
  · simp at h
  · obtain ⟨ap, hap, hpl⟩ := Option.map_eq_some_iff.mp h
    exact ⟨ap, hap, Option.some.inj hpl⟩

/-- Two accepted tuples with one submission name one transfer. -/
theorem Gate.sameTransfer_of_submission {d d' : Bytes32} {p p' : Gate.IdParams} {s : Submission}
    (h : p.submission keccak256 d = some s) (h' : p'.submission keccak256 d' = some s) :
    Gate.SameTransfer keccak256 d d' p p' := by
  obtain ⟨h₁, h₂, h₃, h₄, h₅, h₆, h₇, h₈, hpl, -⟩ := Gate.submission_eq_some h
  obtain ⟨h₁', h₂', h₃', h₄', h₅', h₆', h₇', h₈', hpl', -⟩ := Gate.submission_eq_some h'
  have hiff : p.autoParams = [] ↔ p'.autoParams = [] := by
    rw [← Gate.payload_eq_some_none keccak256, hpl, ← Gate.payload_eq_some_none keccak256, hpl']
  refine ⟨h₁.symm.trans h₁', h₂.symm.trans h₂', h₅.symm.trans h₅', h₆.symm.trans h₆',
    h₃.symm.trans h₃', h₄.symm.trans h₄', h₈.symm.trans h₈', h₇.symm.trans h₇', hiff, ?_⟩
  intro hne
  rcases hs : s.payload with _ | pl
  · exact absurd ((Gate.payload_eq_some_none keccak256).mp (hpl.trans (congrArg some hs))) hne
  · obtain ⟨ap, hap, hpl₁⟩ := Gate.payload_eq_some_some (hpl.trans (congrArg some hs))
    obtain ⟨ap', hap', hpl₂⟩ := Gate.payload_eq_some_some (hpl'.trans (congrArg some hs))
    have heq := hpl₁.trans hpl₂.symm
    simp only [AutoParams.payload, Gate.withSender, Payload.mk.injEq] at heq
    exact ⟨ap, ap', hap, hap', heq⟩

/-- Two accepted records with one string name one transfer. -/
theorem Store.sameTransfer_of_packRecord (hP : P.Lawful) {a a' : Store.SubmissionRecord}
    {p p' : Store.ParsedRecord} {u u' : Unit} (hs : Store.checkStorable a = .ok u)
    (hs' : Store.checkStorable a' = .ok u') (hp : Store.parseRecord P a = .ok p)
    (hp' : Store.parseRecord P a' = .ok p')
    (h : Store.packRecord keccak256 a p = Store.packRecord keccak256 a' p') :
    Store.SameTransfer keccak256 a a' p p' := by
  have hl := Store.length_receiver_le hP hs hp
  have hl' := Store.length_receiver_le hP hs' hp'
  rw [Store.packRecord_eq hl, Store.packRecord_eq hl'] at h
  have hsub := Submission.preimage_inj h
  simp only [Store.ParsedRecord.submission, Submission.mk.injEq] at hsub
  obtain ⟨h₁, h₂, h₃, h₄, h₅, h₆, h₇, h₈, hpl⟩ := hsub
  refine ⟨h₁, h₂, Store.setWidth_inj h₅, Store.setWidth_inj h₆, h₃, h₄, h₈,
    Store.setWidth_inj h₇, ?_, ?_⟩
  · rw [← Option.map_eq_none_iff (f := AutoParams.payload keccak256), hpl, Option.map_eq_none_iff]
  · intro ap ap' hap hap'
    rw [hap, hap', Option.map_some, Option.map_some, Option.some.injEq] at hpl
    simpa [AutoParams.payload] using hpl

/-- **The string under an id is unambiguous.** Two parameter tuples the gate accepts
that pack to one string name one transfer; so do two records the store accepts; and no
string of a submission is the string of a cancel or a refund digest. -/
theorem preimage_unambiguous (hP : P.Lawful) :
    (∀ d d' p p' bs, Gate.idPreimage keccak256 d p = some bs →
        Gate.idPreimage keccak256 d' p' = some bs → Gate.SameTransfer keccak256 d d' p p') ∧
    (∀ d p bs id, Gate.idPreimage keccak256 d p = some bs →
        bs ≠ BridgeHash.packedCancel id ∧ bs ≠ BridgeHash.packedRefund id) ∧
    (∀ a a' p p' bs, Store.checkStorable a = .ok () → Store.checkStorable a' = .ok () →
        Store.parseRecord P a = .ok p → Store.parseRecord P a' = .ok p' →
        Store.recordPreimage keccak256 P a = .ok bs → Store.recordPreimage keccak256 P a' = .ok bs →
        Store.SameTransfer keccak256 a a' p p') ∧
    (∀ a bs id, Store.checkStorable a = .ok () → Store.recordPreimage keccak256 P a = .ok bs →
        bs ≠ BridgeHash.packedCancel id ∧ bs ≠ BridgeHash.packedRefund id) := by
  refine ⟨?_, ?_, ?_, ?_⟩
  · intro d d' p p' bs h h'
    obtain ⟨s, hs, hbs⟩ := Gate.idPreimage_eq_some.mp h
    obtain ⟨t, ht, hbt⟩ := Gate.idPreimage_eq_some.mp h'
    obtain rfl := Submission.preimage_inj (hbs.trans hbt.symm)
    exact Gate.sameTransfer_of_submission hs ht
  · intro d p bs id h
    obtain ⟨s, -, rfl⟩ := Gate.idPreimage_eq_some.mp h
    exact ⟨s.preimage_ne_packedCancel id, s.preimage_ne_packedRefund id⟩
  · intro a a' p p' bs hs hs' hp hp' h h'
    obtain ⟨q, hq, hbs⟩ := Store.recordPreimage_eq_ok.mp h
    obtain ⟨q', hq', hbs'⟩ := Store.recordPreimage_eq_ok.mp h'
    obtain rfl := Except.ok.inj (hp.symm.trans hq)
    obtain rfl := Except.ok.inj (hp'.symm.trans hq')
    exact Store.sameTransfer_of_packRecord hP hs hs' hp hp' (hbs.trans hbs'.symm)
  · intro a bs id hs h
    obtain ⟨p, hp, rfl⟩ := Store.recordPreimage_eq_ok.mp h
    rw [Store.packRecord_eq (Store.length_receiver_le hP hs hp)]
    exact ⟨Submission.preimage_ne_packedCancel _ id, Submission.preimage_ne_packedRefund _ id⟩

/-- A plain transfer of 1000 units, and the same with another native sender, which a
plain transfer does not bind. -/
def plainTransfer : Gate.IdParams where
  debridgeId := 0xafdef99c1704a7d5f4cacc1c621cef270dae98e2ea1f2add9fa0fd4e7201018a
  bridgeDecimals := 6
  amount := 1000
  chainIdFrom := 1
  chainIdTo := 2
  nonce := 0
  receiver := addressBytes 0xbb
  autoParams := []
  nativeSender := addressBytes 0xcc

theorem preimage_unambiguous_plain :
    Gate.SameTransfer digestOf 0xd0 0xd0 plainTransfer { plainTransfer with nativeSender := [] } ∧
      (∀ bs, Gate.idPreimage digestOf 0xd0 plainTransfer = some bs →
        bs ≠ BridgeHash.packedCancel 1 ∧ bs ≠ BridgeHash.packedRefund 1) ∧
      (∃ p p', Store.SameTransfer digestOf Db.honest Db.unprefixed p p') ∧
      (∀ bs, Store.recordPreimage digestOf Store.Parsers.standard Db.honest = .ok bs →
        bs ≠ BridgeHash.packedCancel 1 ∧ bs ≠ BridgeHash.packedRefund 1) := by
  have h := @preimage_unambiguous digestOf _ Store.Parsers.standard_lawful
  obtain ⟨bs, hbs⟩ : ∃ bs, Gate.idPreimage digestOf 0xd0 plainTransfer = some bs := ⟨_, rfl⟩
  have hs : Store.checkStorable Db.honest = .ok () := by decide +kernel
  have hs' : Store.checkStorable Db.unprefixed = .ok () := by decide +kernel
  obtain ⟨p, hp⟩ : ∃ p, Store.parseRecord Store.Parsers.standard Db.honest = .ok p := ⟨_, rfl⟩
  obtain ⟨p', hp'⟩ : ∃ p, Store.parseRecord Store.Parsers.standard Db.unprefixed = .ok p :=
    ⟨_, rfl⟩
  have hpre : Store.recordPreimage digestOf Store.Parsers.standard Db.honest =
      .ok (Store.packRecord digestOf Db.honest p) := Store.recordPreimage_eq_ok.mpr ⟨p, hp, rfl⟩
  have hpre' : Store.recordPreimage digestOf Store.Parsers.standard Db.unprefixed =
      .ok (Store.packRecord digestOf Db.honest p) := by
    rw [← hpre]
    decide +kernel
  exact ⟨h.1 _ _ _ _ bs hbs hbs, fun bs hbs => h.2.1 _ _ bs 1 hbs,
    ⟨p, p', h.2.2.1 _ _ _ _ _ hs hs' hp hp' hpre hpre'⟩, fun bs hbs => h.2.2.2 _ bs 1 hs hbs⟩

end SelendraBridge
