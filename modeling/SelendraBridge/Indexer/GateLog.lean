import SelendraBridge.Indexer.Mirror
import SelendraBridge.Store.Binding

/-!
# What the indexer makes of one log of a gate

`handle_gate_log` writes what it reads into the database: a `Sent` becomes a row
(`observe_submission`), and a `Claimed`, `Cancelled` or `Refunded` marks one. It can fail in two
ways. The database does not answer, and then another attempt may go through; or the write is
refused (`SelendraBridge.Indexer.Failure.refused`), for something about the log, and then every
attempt is. The loop around it does not tell the two apart.

Two kinds of `Sent` are therefore passed over before the write: one whose numbers do not fit 64
bits, and one that is over the store's size bounds. What is refused after that is what
`verify_binding` refuses, and that is more than sizes
(`SelendraBridge.Indexer.returnsOrRetries_iff`):

* the payload has to decode,
* the id has to be the hash of the parameters,
* the asset id has to be that of the token.

The last two hold of whatever a gate emits, and then it is down to the decoder
(`SelendraBridge.Indexer.digestible_iff_of_genuine`).
-/

namespace SelendraBridge

namespace Indexer

open Revert Store Db

/-! ### Logs, and the configuration -/

/-- A log of the gate, as its decoders read it, with the hash of its transaction if the node
gave one. -/
inductive GateLog
  | sent (ev : SentEvent)
  | claimed (submissionId : Bytes32) (tx : Option Bytes32)
  | cancelled (submissionId : Bytes32) (tx : Option Bytes32)
  | refunded (submissionId : Bytes32) (tx : Option Bytes32)
  | other

/-- `tx_hash`. -/
def txHash (tx : Option Bytes32) : Text := tx.elim [] fun h => hexText (wordBytes h)

/-- What the tables key an id by. -/
def key (submissionId : Bytes32) : Text := normId (hexText (wordBytes submissionId))

/-- The chain loop's configuration, and the code it is built on. -/
structure Config where
  keccak256 : Bytes → Bytes32
  parsers : Parsers
  chainId : U64
  /-- Is a gate configured? A router, a pool? -/
  gate : Bool
  router : Bool
  pool : Bool
  /-- The gate's own domain, read from it when the loop starts. -/
  bridgeDomain : Bytes32
  blockConfirmation : ℕ
  maxBlockRange : ℕ
  /-- The configuration is refused otherwise. -/
  maxBlockRange_pos : 0 < maxBlockRange

/-! ### The handler -/

section Handler

variable (cfg : Config)

/-- **`Db::observe_submission`.** -/
def observeSubmission (record : SubmissionRecord) (reply : DbReply) (m : Mirror) : Outcome :=
  match verifyBinding cfg.keccak256 cfg.parsers record with
  | .error e => (.error (.refused e), m)
  | .ok _ =>
    let id := normId record.submissionId
    query reply fun now =>
      { m with
        submissions := Function.update m.submissions id
          (some (insertSubmissionRow (m.submissions id) id record))
        lifecycle := Function.update m.lifecycle id (Db.observeSubmission now (m.lifecycle id)) }

/-- A mark under an id. -/
def report (submissionId : Text) (mark : Rows → Except DbError Rows) (reply : DbReply)
    (m : Mirror) : Outcome :=
  let id := normId submissionId
  match mark (m.lifecycle id) with
  | .error e => (.error (.refused e), m)
  | .ok rows => query reply fun _ => { m with lifecycle := Function.update m.lifecycle id rows }

/-- **`handle_gate_log`.** -/
def handleGateLog (log : GateLog) (reply : DbReply) (m : Mirror) : Outcome :=
  match log with
  | .sent ev =>
    match fromSentEvent ev cfg.bridgeDomain with
    -- A number over 64 bits: skipped, for the cursor must still advance.
    | none => (.ok (), m)
    | some record =>
      match checkStorable record with
      -- The store would refuse it on every attempt.
      | .error _ => (.ok (), m)
      | .ok _ => observeSubmission cfg record reply m
  | .claimed submissionId tx =>
    let id := hexText (wordBytes submissionId)
    report id (markClaimedWith id (txHash tx) .park) reply m
  | .cancelled submissionId tx =>
    let id := hexText (wordBytes submissionId)
    report id (markCancelledWith id (txHash tx) .park) reply m
  | .refunded submissionId tx =>
    let id := hexText (wordBytes submissionId)
    report id (markRefundedWith id (txHash tx) .park) reply m
  | .other => (.ok (), m)

/-! ### What can be handled -/

/-- The numbers of an event fit 64 bits, and its bytes the store. -/
structure InBounds (ev : SentEvent) : Prop where
  chainIdFrom : ev.chainIdFrom.toNat < 2 ^ 64
  chainIdTo : ev.chainIdTo.toNat < 2 ^ 64
  nonce : ev.nonce.toNat < 2 ^ 64
  receiver : ev.receiver.length ≤ MAX_ACCOUNT_BYTES
  nativeSender : ev.nativeSender.length ≤ MAX_ACCOUNT_BYTES
  autoParams : ev.autoParams.length ≤ MAX_AUTO_PARAMS_BYTES

/-- The id a gate gives an event with these parameters and this payload. -/
def gateId (ev : SentEvent) : Option AutoParams → Bytes32
  | none => BridgeHash.getSubmissionId cfg.keccak256 cfg.bridgeDomain ev.debridgeId
      ev.bridgeDecimals ev.amount ev.chainIdFrom ev.chainIdTo ev.nonce ev.receiver
  | some auto => BridgeHash.getSubmissionIdWithAuto cfg.keccak256 cfg.bridgeDomain ev.debridgeId
      ev.bridgeDecimals ev.amount ev.chainIdFrom ev.chainIdTo ev.nonce ev.receiver auto

/-- **An event that recomputes**: its payload decodes, and its ids are the ids of its
parameters. -/
structure Recomputes (ev : SentEvent) : Prop where
  submissionId : ∃ auto, decodeAutoParams cfg.parsers ev.autoParams ev.nativeSender = some auto ∧
    ev.submissionId = gateId cfg ev auto
  debridgeId : ev.debridgeId = BridgeHash.getDebridgeId cfg.keccak256 ev.chainIdFrom ev.token

/-- **A log that can be handled.** -/
def Digestible : GateLog → Prop
  | .sent ev => InBounds ev → Recomputes cfg ev
  | _ => True

/-- **A log the handler gets through with**: whenever it is handled the handler returns, or the
database did not answer; and it returns whenever the database does answer. -/
structure ReturnsOrRetries (log : GateLog) : Prop where
  returns_or : ∀ reply m, (handleGateLog cfg log reply m).1 = .ok () ∨
    (handleGateLog cfg log reply m).1 = .error .outage
  retries : ∀ now m, (handleGateLog cfg log (.answers now) m).1 = .ok ()

end Handler

variable {cfg : Config} {ev : SentEvent} {record : SubmissionRecord} {log : GateLog} {m : Mirror}
  {reply : DbReply}

/-! ### The record of an event -/

theorem key_inj {id id' : Bytes32} (h : key id = key id') : id = id' := by
  simp only [key, normId, stripHexPrefix_hexText, lower_hexEncode, List.cons.injEq, true_and] at h
  exact wordBytes_inj.mp (Hex.encode_inj h)

theorem u64OfU256_eq_some {n : U256} {v : U64} :
    u64OfU256 n = some v ↔ n.toNat < 2 ^ 64 ∧ n.setWidth 64 = v := by
  rw [u64OfU256, Option.ite_none_right_eq_some, Option.some.injEq]

/-- A number that fits is the same in either width. -/
theorem setWidth_setWidth_of_lt {n : U256} (h : n.toNat < 2 ^ 64) :
    (n.setWidth 64).setWidth 256 = n := by
  apply BitVec.eq_of_toNat_eq
  rw [BitVec.toNat_setWidth, BitVec.toNat_setWidth]
  have hn := n.isLt
  omega

/-- The record an event is written as, if its numbers fit. -/
def recordOf (cfg : Config) (ev : SentEvent) : SubmissionRecord where
  submissionId := hexText (wordBytes ev.submissionId)
  bridgeDomain := hexText (wordBytes cfg.bridgeDomain)
  debridgeId := hexText (wordBytes ev.debridgeId)
  amount := decimalText ev.amount.toNat
  bridgeDecimals := some ev.bridgeDecimals
  chainIdFrom := ev.chainIdFrom.setWidth 64
  chainIdTo := ev.chainIdTo.setWidth 64
  nonce := ev.nonce.setWidth 64
  receiver := hexText ev.receiver
  autoParams := hexText ev.autoParams
  nativeSender := hexText ev.nativeSender
  token := hexText (addressBytes ev.token)

theorem fromSentEvent_eq_some_iff : fromSentEvent ev cfg.bridgeDomain = some record ↔
    (ev.chainIdFrom.toNat < 2 ^ 64 ∧ ev.chainIdTo.toNat < 2 ^ 64 ∧ ev.nonce.toNat < 2 ^ 64) ∧
      recordOf cfg ev = record := by
  simp only [fromSentEvent, sentEventU64s, Option.bind_eq_bind, Option.bind_eq_some_iff,
    Option.pure_def, Option.some.injEq, u64OfU256_eq_some]
  constructor
  · rintro ⟨_, ⟨_, ⟨hfrom, rfl⟩, _, ⟨hto, rfl⟩, _, ⟨hnonce, rfl⟩, rfl⟩, rfl⟩
    exact ⟨⟨hfrom, hto, hnonce⟩, rfl⟩
  · rintro ⟨⟨hfrom, hto, hnonce⟩, rfl⟩
    exact ⟨_, ⟨_, ⟨hfrom, rfl⟩, _, ⟨hto, rfl⟩, _, ⟨hnonce, rfl⟩, rfl⟩, rfl⟩

/-- An amount has at most the digits of the largest one. -/
theorem length_decimalText_le (n : U256) :
    (decimalText n.toNat).length ≤ MAX_UINT256_DECIMAL_LEN := by
  have hn := n.isLt
  refine (Nat.length_toDigits_le_iff (by decide) (by decide)).mpr (hn.trans ?_)
  decide

theorem boundedHex_hexText {field : String} {bs : Bytes} {n : ℕ} :
    boundedHex field (hexText bs) n = .ok () ↔ bs.length ≤ n := by
  rw [boundedHex_eq_ok, stripHexPrefix_hexText, Hex.length_encode]
  omega

/-- What the store's bounds leave of an event. -/
theorem checkStorable_recordOf : checkStorable (recordOf cfg ev) = .ok () ↔
    ev.receiver.length ≤ MAX_ACCOUNT_BYTES ∧ ev.nativeSender.length ≤ MAX_ACCOUNT_BYTES ∧
      ev.autoParams.length ≤ MAX_AUTO_PARAMS_BYTES := by
  have hamount : revertIf ((decimalText ev.amount.toNat).length > MAX_UINT256_DECIMAL_LEN)
      (StoreError.badField "amount") = .ok () :=
    revertIf_eq_ok.mpr (not_lt.mpr (length_decimalText_le ev.amount))
  simp only [checkStorable, bind_eq_ok, exists_unit, recordOf, boundedHex_hexText,
    length_wordBytes, length_addressBytes, le_refl]
  constructor
  · rintro ⟨hreceiver, hsender, hauto, -⟩
    exact ⟨hreceiver, hsender, hauto⟩
  · rintro ⟨hreceiver, hsender, hauto⟩
    exact ⟨hreceiver, hsender, hauto, trivial, trivial, trivial, hamount⟩

/-- **The record an event in bounds is written as**, and only such an event is. -/
theorem inBounds_iff : InBounds ev ↔
    ∃ record, fromSentEvent ev cfg.bridgeDomain = some record ∧ checkStorable record = .ok () := by
  simp only [fromSentEvent_eq_some_iff]
  constructor
  · intro h
    exact ⟨_, ⟨⟨h.chainIdFrom, h.chainIdTo, h.nonce⟩, rfl⟩,
      checkStorable_recordOf.mpr ⟨h.receiver, h.nativeSender, h.autoParams⟩⟩
  · rintro ⟨_, ⟨⟨hfrom, hto, hnonce⟩, rfl⟩, hstorable⟩
    obtain ⟨hreceiver, hsender, hauto⟩ := checkStorable_recordOf.mp hstorable
    exact ⟨hfrom, hto, hnonce, hreceiver, hsender, hauto⟩

/-- The bytes of an event are read back from its record. -/
theorem hexBytes_hexText (hP : cfg.parsers.Lawful) (field : String) (bs : Bytes) :
    hexBytes cfg.parsers field (hexText bs) = .ok bs :=
  (hexBytes_eq_ok hP).mpr (by rw [stripHexPrefix_hexText, lower_hexEncode])

theorem b256_hexText (hP : cfg.parsers.Lawful) (w : Bytes32) :
    cfg.parsers.b256 (hexText (wordBytes w)) = some w :=
  hP.b256_iff.mpr (by rw [stripHexPrefix_hexText, lower_hexEncode])

theorem isValidSubmissionId_hexText (w : Bytes32) :
    isValidSubmissionId (hexText (wordBytes w)) = true := by
  rw [isValidSubmissionId, stripHexPrefix_hexText, Bool.and_eq_true, beq_iff_eq,
    Hex.length_encode, length_wordBytes, List.all_eq_true]
  refine ⟨rfl, fun c hc => ?_⟩
  have hdigits : Hex.digits.all isHexDigit = true := by decide
  exact List.all_eq_true.mp hdigits c (Hex.mem_digits_of_mem_encode hc)

/-- **The string the store hashes is the string the gate hashes**, for an event in bounds. -/
theorem canonicalSubmissionId_recordOf (hP : cfg.parsers.Lawful) (h : InBounds ev) {id : Bytes32} :
    canonicalSubmissionId cfg.keccak256 cfg.parsers (recordOf cfg ev) = .ok id ↔
      ∃ auto, decodeAutoParams cfg.parsers ev.autoParams ev.nativeSender = some auto ∧
        gateId cfg ev auto = id := by
  have hpack : ∀ p : ParsedRecord, p.bridgeDomain = cfg.bridgeDomain →
      p.debridgeId = ev.debridgeId → p.amount = ev.amount →
      p.bridgeDecimals = ev.bridgeDecimals → p.receiver = ev.receiver →
      cfg.keccak256 (packRecord cfg.keccak256 (recordOf cfg ev) p) = gateId cfg ev p.auto := by
    rintro ⟨dom, deb, amt, dec, rcv, ap, ns, auto⟩ rfl rfl rfl rfl rfl
    simp only [packRecord, recordOf, setWidth_setWidth_of_lt h.chainIdFrom,
      setWidth_setWidth_of_lt h.chainIdTo, setWidth_setWidth_of_lt h.nonce,
      BridgeCore.packedSubmission_eq, BridgeCore.packedAuto_eq]
    cases auto <;> rfl
  rw [canonicalSubmissionId_eq_ok]
  constructor
  · rintro ⟨p, hp, rfl⟩
    obtain ⟨hdom, hdeb, hamt, hdec, hrcv, hap, hns, hauto⟩ := parseRecord_eq_ok.mp hp
    simp only [recordOf] at hdom hdeb hamt hdec hrcv hap hns
    rw [b256_hexText hP, Option.some.injEq] at hdom hdeb
    rw [hP.u256_decimal, Option.some.injEq] at hamt
    rw [hexBytes_hexText hP, Except.ok.injEq] at hrcv hap hns
    rw [← hap, ← hns] at hauto
    exact ⟨p.auto, hauto, (hpack p hdom.symm hdeb.symm hamt.symm (Option.some.inj hdec).symm
      hrcv.symm).symm⟩
  · rintro ⟨auto, hauto, rfl⟩
    refine ⟨⟨cfg.bridgeDomain, ev.debridgeId, ev.amount, ev.bridgeDecimals, ev.receiver,
      ev.autoParams, ev.nativeSender, auto⟩, ?_, hpack _ rfl rfl rfl rfl rfl⟩
    exact parseRecord_eq_ok.mpr ⟨b256_hexText hP _, b256_hexText hP _, hP.u256_decimal _, rfl,
      hexBytes_hexText hP _ _, hexBytes_hexText hP _ _, hexBytes_hexText hP _ _, hauto⟩

/-- The token check, on a record that names one. -/
theorem verifyTokenBinding_recordOf (hP : cfg.parsers.Lawful) (h : InBounds ev) :
    verifyTokenBinding cfg.keccak256 cfg.parsers (recordOf cfg ev) = .ok () ↔
      ev.debridgeId = BridgeHash.getDebridgeId cfg.keccak256 ev.chainIdFrom ev.token := by
  have htoken : cfg.parsers.address (hexText (addressBytes ev.token)) = some ev.token :=
    hP.address_iff.mpr (by rw [stripHexPrefix_hexText, lower_hexEncode])
  rw [verifyTokenBinding, if_neg (by simp [recordOf, hexText])]
  simp only [recordOf, htoken, b256_hexText hP, orRevert, ok_bind, revertIf_eq_ok, not_not,
    setWidth_setWidth_of_lt h.chainIdFrom]
  exact eq_comm

/-- **What the write checks ask of an event** that is in bounds. -/
theorem verifyBinding_recordOf (hP : cfg.parsers.Lawful) (h : InBounds ev) :
    (∃ id, verifyBinding cfg.keccak256 cfg.parsers (recordOf cfg ev) = .ok id) ↔
      Recomputes cfg ev := by
  simp only [verifyBinding_eq_ok, canonicalSubmissionId_recordOf hP h,
    verifyTokenBinding_recordOf hP h]
  constructor
  · rintro ⟨id, -, -, ⟨auto, hauto, hid⟩, hclaimed, hasset⟩
    simp only [recordOf] at hclaimed
    rw [b256_hexText hP, Option.some.injEq] at hclaimed
    exact ⟨⟨auto, hauto, hclaimed.trans hid.symm⟩, hasset⟩
  · rintro ⟨⟨auto, hauto, hid⟩, hasset⟩
    exact ⟨ev.submissionId, isValidSubmissionId_hexText _, checkStorable_recordOf.mpr
      ⟨h.receiver, h.nativeSender, h.autoParams⟩, ⟨auto, hauto, hid.symm⟩, b256_hexText hP _,
      hasset⟩

/-- **What is left of an event that a gate emitted**: its payload has to decode. -/
theorem digestible_iff_of_genuine
    (hid : ∀ auto, decodeAutoParams cfg.parsers ev.autoParams ev.nativeSender = some auto →
      ev.submissionId = gateId cfg ev auto)
    (hasset : ev.debridgeId = BridgeHash.getDebridgeId cfg.keccak256 ev.chainIdFrom ev.token) :
    Digestible cfg (.sent ev) ↔
      (InBounds ev → ∃ auto,
        decodeAutoParams cfg.parsers ev.autoParams ev.nativeSender = some auto) := by
  constructor
  · intro h hbounds
    obtain ⟨auto, hauto, -⟩ := (h hbounds).submissionId
    exact ⟨auto, hauto⟩
  · intro h hbounds
    obtain ⟨auto, hauto⟩ := h hbounds
    exact ⟨⟨auto, hauto, hid auto hauto⟩, hasset⟩

/-! ### The handler, log by log -/

/-- An event in bounds is written, and the write checks decide. -/
theorem handleGateLog_sent (h : InBounds ev) : handleGateLog cfg (.sent ev) reply m =
    observeSubmission cfg (recordOf cfg ev) reply m := by
  have hrecord : fromSentEvent ev cfg.bridgeDomain = some (recordOf cfg ev) :=
    fromSentEvent_eq_some_iff.mpr ⟨⟨h.chainIdFrom, h.chainIdTo, h.nonce⟩, rfl⟩
  have hstorable : checkStorable (recordOf cfg ev) = .ok () :=
    checkStorable_recordOf.mpr ⟨h.receiver, h.nativeSender, h.autoParams⟩
  simp only [handleGateLog, hrecord, hstorable]

/-- **An event out of bounds is passed over.** -/
theorem handleGateLog_sent_of_not (h : ¬InBounds ev) :
    handleGateLog cfg (.sent ev) reply m = (.ok (), m) := by
  rw [handleGateLog]
  rcases hrecord : fromSentEvent ev cfg.bridgeDomain with _ | record
  · rfl
  · rcases hstorable : checkStorable record with e | u
    · simp only [hstorable]
    · exact absurd (inBounds_iff.mpr ⟨record, hrecord, hstorable⟩) h

theorem checkedId_hexText (submissionId : Bytes32) :
    checkedId (hexText (wordBytes submissionId)) = .ok (key submissionId) := by
  rw [checkedId, isValidSubmissionId_hexText]
  rfl

/-- The hash of a transaction may be stored, and so may its absence. -/
theorem isTxRef_txHash (tx : Option Bytes32) : isTxRef (txHash tx) = true := by
  cases tx with
  | none => rfl
  | some h =>
    have hdigits : Hex.digits.all isAlphanumeric = true := by decide
    rw [isTxRef, txHash, Option.elim_some, stripHexPrefix_hexText, Bool.and_eq_true,
      decide_eq_true_eq, List.all_eq_true]
    refine ⟨?_, fun c hc => List.all_eq_true.mp hdigits c (Hex.mem_digits_of_mem_encode hc)⟩
    rw [hexText, List.length_cons, List.length_cons, Hex.length_encode, length_wordBytes]
    decide

theorem checkedTxRef_txHash (field : String) (tx : Option Bytes32) :
    checkedTxRef field (txHash tx) = .ok ⟨txHash tx, isTxRef_txHash tx⟩ :=
  checkedTxRef_eq_ok.mpr rfl

/-- **A mark that may be parked is never refused.** -/
theorem exists_mark_park (submissionId : Bytes32) (tx : Option Bytes32) (field : String)
    (rep : TxRef → Report) (t : Rows) : ∃ rows, (do
      let id ← checkedId (hexText (wordBytes submissionId))
      let tx ← checkedTxRef field (txHash tx)
      mark id (rep tx) .park t) = .ok rows := by
  rw [checkedId_hexText, ok_bind, checkedTxRef_txHash, ok_bind]
  rcases hmark : mark (key submissionId)
    (rep ⟨txHash tx, isTxRef_txHash tx⟩) .park t with e | rows
  · obtain ⟨-, hmissing, -⟩ := mark_eq_error hmark
    cases hmissing
  · exact ⟨rows, rfl⟩

/-- Where the write is not refused, only an outage is in the way. -/
theorem ReturnsOrRetries.of_answered (h : Answered (handleGateLog cfg log)) :
    ReturnsOrRetries cfg log :=
  ⟨h.ok_or, h.ok⟩

/-- A mark is an update. -/
theorem report_of_ok {id : Text} {mark : Rows → Except DbError Rows}
    (h : ∀ t, ∃ rows, mark t = .ok rows) : Answered (report id mark) := by
  intro reply m
  obtain ⟨rows, hrows⟩ := h (m.lifecycle (normId id))
  exact ⟨_, by rw [report, hrows]⟩

/-- **The handler gets through with a log exactly when it can be handled.** -/
theorem returnsOrRetries_iff (hP : cfg.parsers.Lawful) :
    ReturnsOrRetries cfg log ↔ Digestible cfg log := by
  cases log with
  | sent ev =>
    constructor
    · intro h hbounds
      refine (verifyBinding_recordOf hP hbounds).mp ?_
      have hok := h.retries 0 .empty
      rw [handleGateLog_sent hbounds, observeSubmission] at hok
      rcases hbind : verifyBinding cfg.keccak256 cfg.parsers (recordOf cfg ev) with e | id
      · rw [hbind] at hok
        cases hok
      · exact ⟨id, rfl⟩
    · intro h
      by_cases hbounds : InBounds ev
      · obtain ⟨id, hbind⟩ := (verifyBinding_recordOf hP hbounds).mpr (h hbounds)
        refine .of_answered fun reply m => ?_
        rw [handleGateLog_sent hbounds, observeSubmission, hbind]
        exact ⟨_, rfl⟩
      · have hskip : ∀ reply m, handleGateLog cfg (.sent ev) reply m = (.ok (), m) :=
          fun _ _ => handleGateLog_sent_of_not hbounds
        exact ⟨fun reply m => .inl (by rw [hskip]), fun now m => by rw [hskip]⟩
  | claimed submissionId tx =>
    have hmark : ∀ t, ∃ rows,
        markClaimedWith (hexText (wordBytes submissionId)) (txHash tx) .park t = .ok rows :=
      exists_mark_park submissionId tx "claim_tx" .claimed
    refine iff_of_true (.of_answered fun reply m => ?_) trivial
    rw [handleGateLog]
    exact report_of_ok hmark reply m
  | cancelled submissionId tx =>
    have hmark : ∀ t, ∃ rows,
        markCancelledWith (hexText (wordBytes submissionId)) (txHash tx) .park t = .ok rows :=
      exists_mark_park submissionId tx "cancel_tx" .cancelled
    refine iff_of_true (.of_answered fun reply m => ?_) trivial
    rw [handleGateLog]
    exact report_of_ok hmark reply m
  | refunded submissionId tx =>
    have hmark : ∀ t, ∃ rows,
        markRefundedWith (hexText (wordBytes submissionId)) (txHash tx) .park t = .ok rows :=
      exists_mark_park submissionId tx "refund_tx" .refunded
    refine iff_of_true (.of_answered fun reply m => ?_) trivial
    rw [handleGateLog]
    exact report_of_ok hmark reply m
  | other => exact iff_of_true ⟨fun _ _ => .inl rfl, fun _ _ => rfl⟩ trivial

/-- **A log that cannot be handled is refused on every attempt**, and the database stays as it
is. -/
theorem refused_of_not_digestible (hP : cfg.parsers.Lawful) (h : ¬Digestible cfg log) :
    ∃ e, ∀ reply m, handleGateLog cfg log reply m = (.error (.refused e), m) := by
  cases log with
  | sent ev =>
    obtain ⟨hbounds, hnot⟩ := Classical.not_imp.mp h
    rcases hbind : verifyBinding cfg.keccak256 cfg.parsers (recordOf cfg ev) with e | id
    · refine ⟨e, fun reply m => ?_⟩
      rw [handleGateLog_sent hbounds, observeSubmission, hbind]
    · exact absurd ((verifyBinding_recordOf hP hbounds).mp ⟨id, hbind⟩) hnot
  | _ => exact absurd trivial h

theorem submissions_report (id : Text) (mark : Rows → Except DbError Rows) (now : ℕ) (m : Mirror) :
    (report id mark (.answers now) m).2.submissions = m.submissions := by
  unfold report
  dsimp only
  split <;> rfl

theorem intents_report (id : Text) (mark : Rows → Except DbError Rows) (now : ℕ) (m : Mirror) :
    (report id mark (.answers now) m).2.intents = m.intents := by
  unfold report
  dsimp only
  split <;> rfl

/-- **What a log of the gate does to the submissions**: it adds one, of a transfer in bounds, or
leaves them alone. -/
theorem submissions_handleGateLog (cfg : Config) (log : GateLog) (now : ℕ) (m : Mirror)
    (k : Text) : (handleGateLog cfg log (.answers now) m).2.submissions k = m.submissions k ∨
      ((handleGateLog cfg log (.answers now) m).2.submissions k).isSome = true ∧
        ∃ ev, log = .sent ev ∧ InBounds ev ∧ key ev.submissionId = k := by
  cases log with
  | sent ev =>
    by_cases hbounds : InBounds ev
    · rw [handleGateLog_sent hbounds, observeSubmission]
      split
      · exact .inl rfl
      · rcases eq_or_ne (key ev.submissionId) k with rfl | hne
        · refine .inr ⟨?_, ev, rfl, hbounds, rfl⟩
          simp only [query, recordOf, key, Function.update_self, Option.isSome_some]
        · exact .inl (Function.update_of_ne hne.symm _ _)
    · exact .inl (by rw [handleGateLog_sent_of_not hbounds])
  | claimed | cancelled | refunded =>
    rw [handleGateLog]
    exact .inl (by rw [submissions_report])
  | other => exact .inl rfl

theorem keeps_handleGateLog (cfg : Config) (log : GateLog) (now : ℕ) (m : Mirror) :
    m.Keeps (handleGateLog cfg log (.answers now) m).2 := by
  intro k hk
  rcases submissions_handleGateLog cfg log now m k with heq | ⟨hsome, -⟩
  · rw [heq]
    exact hk
  · exact hsome

/-- The gate has no part in the swaps. -/
theorem intents_handleGateLog (cfg : Config) (log : GateLog) (now : ℕ) (m : Mirror) :
    (handleGateLog cfg log (.answers now) m).2.intents = m.intents := by
  cases log with
  | sent ev =>
    by_cases hbounds : InBounds ev
    · rw [handleGateLog_sent hbounds, observeSubmission]
      split <;> rfl
    · rw [handleGateLog_sent_of_not hbounds]
  | claimed | cancelled | refunded =>
    rw [handleGateLog]
    exact intents_report _ _ now m
  | other => rfl

/-- **A transfer that was handled has its row**, if it is in bounds. -/
theorem row_of_handled (hbounds : InBounds ev)
    (h : (handleGateLog cfg (.sent ev) reply m).1 = .ok ()) :
    ∃ row, (handleGateLog cfg (.sent ev) reply m).2.submissions (key ev.submissionId) =
      some row := by
  rw [handleGateLog_sent hbounds, observeSubmission] at h ⊢
  generalize verifyBinding cfg.keccak256 cfg.parsers (recordOf cfg ev) = bound at h ⊢
  cases bound with
  | error e => cases h
  | ok id =>
    cases reply with
    | answers now =>
      simp only [query, recordOf, key, Function.update_self, Option.some.injEq, exists_eq']
    | fails left => cases h

end Indexer

end SelendraBridge
