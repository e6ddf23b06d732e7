import SelendraBridge.Validator.Window

/-!
# The nonce cursor against the chain

Where a scanner stands on its chain, its nonces are those of *some* last stretch of the logs
so far (`SelendraBridge.Validator.Follows`): all of them since the start block, or those since
a rescan forgot the rest. That is enough for the next log to have the expected nonce
(`SelendraBridge.Validator.checkNonce_of_sequenced`, from `Sequence.cursor_expects`), so on a
chain's true logs no step of a sequenced state raises an anomaly.

Being sequenced is kept by every step but two (`SelendraBridge.Validator.Step.sequenced`). A
batch that fails puts back the nonces it found, which are right only where it found them;
and a restart is only as good as the file.
-/

namespace SelendraBridge

namespace Validator

open Store Transition

variable {cfg : Config} {chain : Chain} {startBlock : ℕ} {s s' : State} {l : Label}
  {o : List Effect}

/-! ### Reading an event's nonce -/

theorem u64OfU256_eq_some {n : U256} {v : U64} :
    u64OfU256 n = some v ↔ v.toNat = n.toNat := by
  rw [u64OfU256]
  split
  · next hlt =>
    rw [Option.some.injEq]
    constructor
    · rintro rfl
      rw [BitVec.toNat_setWidth, Nat.mod_eq_of_lt hlt]
    · intro h
      apply BitVec.eq_of_toNat_eq
      rw [BitVec.toNat_setWidth, Nat.mod_eq_of_lt hlt, h]
  · next hge =>
    have hv := v.isLt
    constructor
    · intro h
      cases h
    · intro h
      omega

/-- **What is read of an event** is its corridor and its nonce, as 64-bit numbers. -/
theorem readNonce_eq_some {ev : SentEvent} {f t n : U64} :
    readNonce ev = some ((f, t), n) ↔
      f.toNat = ev.chainIdFrom.toNat ∧ t.toNat = ev.chainIdTo.toNat ∧ n.toNat = ev.nonce.toNat := by
  simp only [readNonce, sentEventU64s, Option.map_eq_some_iff, Option.bind_eq_bind,
    Option.bind_eq_some_iff, Option.pure_def, Option.some.injEq, u64OfU256_eq_some]
  constructor
  · rintro ⟨_, ⟨_, hf, _, ht, _, hn, rfl⟩, heq⟩
    obtain ⟨⟨rfl, rfl⟩, rfl⟩ : (_ = f ∧ _ = t) ∧ _ = n := by simpa using heq
    exact ⟨hf, ht, hn⟩
  · rintro ⟨hf, ht, hn⟩
    exact ⟨_, ⟨f, hf, t, ht, n, hn, rfl⟩, rfl⟩

/-- It can be read exactly when the three numbers fit. -/
theorem isSome_readNonce {ev : SentEvent} :
    (readNonce ev).isSome ↔
      ev.chainIdFrom.toNat < 2 ^ 64 ∧ ev.chainIdTo.toNat < 2 ^ 64 ∧ ev.nonce.toNat < 2 ^ 64 := by
  rw [Option.isSome_iff_exists]
  constructor
  · rintro ⟨⟨⟨f, t⟩, n⟩, h⟩
    obtain ⟨hf, ht, hn⟩ := readNonce_eq_some.mp h
    have h₁ := f.isLt
    have h₂ := t.isLt
    have h₃ := n.isLt
    omega
  · rintro ⟨hf, ht, hn⟩
    refine ⟨((BitVec.ofNat 64 ev.chainIdFrom.toNat, BitVec.ofNat 64 ev.chainIdTo.toNat),
      BitVec.ofNat 64 ev.nonce.toNat), readNonce_eq_some.mpr ⟨?_, ?_, ?_⟩⟩
    · rw [BitVec.toNat_ofNat, Nat.mod_eq_of_lt hf]
    · rw [BitVec.toNat_ofNat, Nat.mod_eq_of_lt ht]
    · rw [BitVec.toNat_ofNat, Nat.mod_eq_of_lt hn]

/-- **Reading nonces confuses nothing.** -/
theorem reading : Sequence.Reading corridor (fun ev => ev.nonce.toNat) readNonce
    BitVec.toNat where
  number_eq h := (readNonce_eq_some.mp h).2.2
  channel_iff := by
    rintro x y ⟨f, t⟩ ⟨f', t'⟩ m n hx hy
    obtain ⟨hf, ht, -⟩ := readNonce_eq_some.mp hx
    obtain ⟨hf', ht', -⟩ := readNonce_eq_some.mp hy
    simp only [corridor, Prod.mk.injEq, ← BitVec.toNat_inj, hf, ht, hf', ht']
  isSome_of_le := by
    intro x y hxy hle hy
    obtain ⟨hf, ht, hn⟩ := isSome_readNonce.mp hy
    obtain ⟨hfrom, hto⟩ := Prod.mk.inj hxy
    rw [isSome_readNonce, hfrom, hto]
    exact ⟨hf, ht, by omega⟩

/-- The record of an event has its numbers. -/
theorem readNonce_of_fromSentEvent {ev : SentEvent} {dom : Bytes32} {record : SubmissionRecord}
    (h : fromSentEvent ev dom = some record) :
    readNonce ev = some ((record.chainIdFrom, record.chainIdTo), record.nonce) := by
  simp only [fromSentEvent, Option.bind_eq_bind, Option.bind_eq_some_iff, Option.pure_def,
    Option.some.injEq] at h
  obtain ⟨u, hu, rfl⟩ := h
  rw [readNonce, hu]
  rfl

/-- An event without a record has no nonce either. -/
theorem readNonce_of_fromSentEvent_none {ev : SentEvent} {dom : Bytes32}
    (h : fromSentEvent ev dom = none) : readNonce ev = none := by
  rcases hu : sentEventU64s ev with _ | u
  · rw [readNonce, hu]
    rfl
  · rw [fromSentEvent, hu] at h
    cases h

/-! ### Following the chain -/

/-- **The nonces are those of the logs so far**, from somewhere on. -/
def Follows (chain : Chain) (ns : Nonces) (hi : ℕ) : Prop :=
  ∃ pre L, chain.sentIn 0 hi = pre ++ L ∧ ns = Sequence.cursor readNonce L

theorem follows_empty (chain : Chain) (hi : ℕ) : Follows chain (fun _ => none) hi :=
  ⟨_, [], (List.append_nil _).symm, rfl⟩

/-- The nonces of a batch in flight: those of the logs handled so far. -/
def Batch.Follows (chain : Chain) (b : Batch) (ns : Nonces) : Prop :=
  ∃ pre L, chain.sentIn 0 (b.scannedTo + 1) = pre ++ L ++ b.logs ∧
    ns = Sequence.cursor readNonce L

/-- Past the last log, the batch follows the chain to the end of its window. -/
theorem Batch.Follows.finish {b : Batch} {ns : Nonces} (h : b.Follows chain ns)
    (hlogs : b.logs = []) : Validator.Follows chain ns (b.scannedTo + 1) := by
  obtain ⟨pre, L, heq, hns⟩ := h
  rw [hlogs, List.append_nil] at heq
  exact ⟨pre, L, heq, hns⟩

/-- A batch starts where its window does. -/
theorem Follows.openBatch {ns : Nonces} {n scannedTo : ℕ} (h : Follows chain ns n)
    (hle : n ≤ scannedTo) (allowlist : Option Allowlist) :
    (⟨n, scannedTo, allowlist, ns, chain.sentIn n (scannedTo + 1)⟩ : Batch).Follows chain ns := by
  obtain ⟨pre, L, heq, hns⟩ := h
  have happend := chain.sentIn_append (Nat.zero_le n) (Nat.le_succ_of_le hle)
  rw [heq] at happend
  exact ⟨pre, L, happend.symm, hns⟩

/-- A log moves the batch's nonces to its own. -/
theorem Batch.Follows.tail {b : Batch} {ns : Nonces} (h : b.Follows chain ns) {ev : SentEvent}
    {rest : List SentEvent} (hlogs : b.logs = ev :: rest) :
    ({ b with logs := rest } : Batch).Follows chain (Sequence.advance readNonce ns ev) := by
  obtain ⟨pre, L, heq, hns⟩ := h
  refine ⟨pre, L ++ [ev], ?_, ?_⟩
  · rw [heq, hlogs]
    simp
  · rw [Sequence.cursor_append_singleton, hns]

/-- **A scan loop in step with its chain.** While the loop waits for a window's logs, it is so
both where it stands and where it is about to read; a batch remembers the nonces it
found. -/
def Sequenced (chain : Chain) (s : State) : Prop :=
  match s.phase with
  | .top | .awake => Follows chain s.rt.persist.nonces (s.rt.persist.lastBlock + 1)
  | .reading n => Follows chain s.rt.persist.nonces (s.rt.persist.lastBlock + 1) ∧
      Follows chain s.rt.persist.nonces n
  | .batch b stage => Follows chain b.noncesBefore b.fromBlock ∧
      (stage ≠ .stopped → b.Follows chain s.rt.persist.nonces)

theorem Sequenced.batch (h : Sequenced chain s) {b : Batch} {stage : Stage}
    (hphase : s.phase = .batch b stage) : Follows chain b.noncesBefore b.fromBlock ∧
      (stage ≠ .stopped → b.Follows chain s.rt.persist.nonces) := by
  rw [Sequenced, hphase] at h
  exact h

/-- A fresh scanner remembers no nonce. -/
theorem sequenced_boot (store : List (SubmissionRecord × SignerSig)) :
    Sequenced chain (boot cfg startBlock none store) := follows_empty chain _

/-- **The next log has the expected nonce.** -/
theorem checkNonce_of_sequenced (hgen : chain.Genuine cfg) (hseq : Sequenced chain s) {b : Batch}
    {ev : SentEvent} {rest : List SentEvent} {record : SubmissionRecord}
    (hphase : s.phase = .batch b .next) (hlogs : b.logs = ev :: rest)
    (hrec : fromSentEvent ev cfg.bridgeDomain = some record) :
    s.rt.checkNonce record.chainIdFrom record.chainIdTo record.nonce = .accept := by
  obtain ⟨pre, L, heq, hns⟩ := (hseq.batch hphase).2 (by decide)
  have hcon := hgen.consecutive (b.scannedTo + 1)
  rw [heq, hlogs] at hcon
  apply Runtime.checkNonce_eq_accept
  rw [hns]
  exact Sequence.cursor_expects reading hcon (readNonce_of_fromSentEvent hrec)

/-- The logs of a batch are logs of the chain. -/
theorem Batch.Shaped.mem_logsAt {b : Batch} {stage : Stage} (h : b.Shaped cfg chain stage)
    {ev : SentEvent} (hev : ev ∈ b.logs) : ∃ n, ev ∈ chain.logsAt n := by
  obtain ⟨done, hdone⟩ := h.suffix
  obtain ⟨n, -, -, hn⟩ := Chain.mem_sentIn.mp (hdone ▸ List.mem_append_right done hev)
  exact ⟨n, hn⟩

/-- **On a chain's true logs nothing but the operator pauses a sequenced scanner.** -/
theorem Step.raised_eq (h : Step cfg chain startBlock s l s' o) (hgen : chain.Genuine cfg)
    (hs : Shaped cfg chain s) (hseq : Sequenced chain s) {reason : PauseReason}
    (hraised : .raised reason ∈ o) : reason = .operator := by
  cases h with
  | anomaly hphase hlogs hrec hcheck =>
    exact absurd (checkNonce_of_sequenced hgen hseq hphase hlogs hrec) hcheck
  | mismatch hphase hlogs hauto hne =>
    obtain ⟨n, hn⟩ := (hs.batch hphase).mem_logsAt (hlogs ▸ List.mem_cons_self)
    exact absurd (hgen.id_eq n _ hn _ hauto) hne
  | @paused disk => cases disk <;> simpa [savedBy] using hraised
  | @resumed disk => cases disk <;> simp [savedBy] at hraised
  | @rescanned n disk => cases disk <;> simp [savedBy] at hraised
  | @rolledBack b disk => cases disk <;> simp [savedBy] at hraised
  | @finished b disk => cases disk <;> simp [savedBy] at hraised
  | _ => simp at hraised

/-- **Being in step is kept**, by a batch that fails if the cursor is still where it found it,
and by a restart if the file is in step. -/
theorem Step.sequenced (h : Step cfg chain startBlock s l s' o) (hgen : chain.Genuine cfg)
    (hs : Shaped cfg chain s) (hseq : Sequenced chain s)
    (hroll : ∀ b disk, l = .finish disk → s.phase = .batch b .stopped → Current s)
    (hfile : l = .crash → ∀ p, s.rt.file = some p → Follows chain p.nonces (p.lastBlock + 1)) :
    Sequenced chain s' := by
  cases h with
  | asleep => exact hseq
  | wake hphase =>
    rw [Sequenced, hphase] at hseq
    exact hseq
  | readCursor hphase =>
    rw [Sequenced, hphase] at hseq
    exact ⟨hseq, hseq⟩
  | abandon hphase =>
    rw [Sequenced, hphase] at hseq
    exact hseq.1
  | openBatch hphase hle =>
    rw [Sequenced, hphase] at hseq
    exact ⟨hseq.2, fun _ => hseq.2.openBatch hle _⟩
  | overU64 hphase hlogs hnone =>
    -- The nonce of such an event cannot be read, and is not accepted either.
    obtain ⟨hbefore, hfollows⟩ := hseq.batch hphase
    have htail := (hfollows (by decide)).tail hlogs
    rw [Sequence.advance_of_none (readNonce_of_fromSentEvent_none hnone)] at htail
    exact ⟨hbefore, fun _ => htail⟩
  | admitted hphase =>
    obtain ⟨hbefore, hfollows⟩ := hseq.batch hphase
    exact ⟨hbefore, fun _ => hfollows (by decide)⟩
  | anomaly hphase hlogs hrec hcheck =>
    exact absurd (checkNonce_of_sequenced hgen hseq hphase hlogs hrec) hcheck
  | withheld hphase | known hphase | stored hphase =>
    obtain ⟨hbefore, hfollows⟩ := hseq.batch hphase
    exact ⟨hbefore, fun _ => hfollows (fun h => by cases h)⟩
  | mismatch hphase hlogs hauto hne =>
    obtain ⟨n, hn⟩ := (hs.batch hphase).mem_logsAt (hlogs ▸ List.mem_cons_self)
    exact absurd (hgen.id_eq n _ hn _ hauto) hne
  | failed hphase => exact ⟨(hseq.batch hphase).1, fun h => absurd rfl h⟩
  | @accepted b record hphase =>
    obtain ⟨hbefore, hfollows⟩ := hseq.batch hphase
    obtain ⟨ev, rest, hlogs, hrec⟩ := (hs.batch hphase).record _ rfl
    have hrest : b.logs.tail = rest := by rw [hlogs, List.tail_cons]
    have htail := (hfollows (fun h => by cases h)).tail hlogs
    rw [Sequence.advance_of_some (readNonce_of_fromSentEvent hrec), ← hrest] at htail
    exact ⟨hbefore, fun _ => htail⟩
  | rolledBack hphase =>
    have hcur := (hroll _ _ rfl hphase).batch hphase
    have hbefore := (hseq.batch hphase).1
    rw [hcur] at hbefore
    simpa [Sequenced] using hbefore
  | finished hphase hlogs =>
    have hfollows := ((hseq.batch hphase).2 (by decide)).finish hlogs
    simpa [Sequenced] using hfollows
  | paused | resumed => simpa [Sequenced] using hseq
  | rescanned =>
    rcases hphase : s.phase with _ | _ | n | ⟨b, stage⟩
    · simpa [Sequenced, hphase] using follows_empty chain _
    · simpa [Sequenced, hphase] using follows_empty chain _
    · simpa [Sequenced, hphase] using ⟨follows_empty chain _, follows_empty chain n⟩
    · -- The batch goes on from nothing remembered.
      obtain ⟨hbefore, hfollows⟩ := hseq.batch hphase
      have hnow : stage ≠ .stopped → b.Follows chain fun _ => none := by
        intro hne
        obtain ⟨pre, L, heq, -⟩ := hfollows hne
        exact ⟨pre ++ L, [], by rw [List.append_nil, heq], rfl⟩
      simpa [Sequenced, hphase] using ⟨hbefore, hnow⟩
  | crashed =>
    rcases hf : s.rt.file with _ | p
    · simpa [Sequenced, boot, loadOrInit, hf, Persist.fresh] using follows_empty chain _
    · simpa [Sequenced, boot, loadOrInit, hf] using hfile rfl p hf

end Validator

end SelendraBridge
