import SelendraBridge.Lib.Transition
import SelendraBridge.Validator.HandleLog

/-!
# The scan loop, the operator and the crash

One source chain's scan loop as a machine, cut wherever it gives up the lock:

| step | the loop is | what it does with the lock |
|---|---|---|
| `wake` | at the top | reads the pause flag |
| `readCursor` | awake | reads the next block |
| `openBatch` | reading a window | takes the snapshot of the nonces |
| `checkLog` | at a log | checks its nonce |
| `judgeLog` | past the check | nothing: reads, signs, stores |
| `acceptLog` | done with the log | accepts its nonce |
| `finish` | past the last log, or stopped | writes both cursors back, and saves |

Between any two of these the operator may pause, resume or rescan, and the process may
crash, which loses everything but the file and the store. Windows are read from the chain
itself (`SelendraBridge.Validator.Chain`): an endpoint that lies is not modelled, only one
that does not answer (`abandon`).

What every step says of the state is inverted once, into
`SelendraBridge.Validator.Step`; the invariants go by its cases.
-/

namespace SelendraBridge

namespace Validator

open Store Transition

/-! ### The chain -/

/-- A source chain: the `Sent` logs of each block, in order. -/
structure Chain where
  logsAt : ℕ → List SentEvent

/-- The logs of the blocks from `lo` up to but not including `hi`. -/
def Chain.sentIn (chain : Chain) (lo hi : ℕ) : List SentEvent :=
  (List.range' lo (hi - lo)).flatMap chain.logsAt

/-- The corridor of an event, as its gate counts it. -/
def corridor (ev : SentEvent) : U256 × U256 := (ev.chainIdFrom, ev.chainIdTo)

/-- What a validator reads of an event's corridor and nonce. -/
def readNonce (ev : SentEvent) : Option ((U64 × U64) × U64) :=
  (sentEventU64s ev).map fun u => ((u.1, u.2.1), u.2.2)

/-- **A chain's true logs**: none in the genesis block, which has no transactions; nonces
that count from zero in each corridor; and ids that are the ids of their parameters. -/
structure Chain.Genuine (cfg : Config) (chain : Chain) : Prop where
  genesis : chain.logsAt 0 = []
  consecutive : ∀ n, Sequence.Consecutive corridor (fun ev => ev.nonce.toNat) (chain.sentIn 0 n)
  id_eq : ∀ n, ∀ ev ∈ chain.logsAt n, ∀ auto, submissionAuto cfg ev = some auto →
    computeId cfg ev auto = ev.submissionId

theorem Chain.sentIn_append (chain : Chain) {lo mid hi : ℕ} (h₁ : lo ≤ mid) (h₂ : mid ≤ hi) :
    chain.sentIn lo mid ++ chain.sentIn mid hi = chain.sentIn lo hi := by
  have hrange := List.range'_append_1 (s := lo) (m := mid - lo) (n := hi - mid)
  rw [show lo + (mid - lo) = mid by omega, show mid - lo + (hi - mid) = hi - lo by omega] at hrange
  rw [sentIn, sentIn, sentIn, ← List.flatMap_append, hrange]

theorem Chain.sentIn_of_le (chain : Chain) {lo hi : ℕ} (h : hi ≤ lo) : chain.sentIn lo hi = [] := by
  rw [sentIn, Nat.sub_eq_zero_of_le h]
  rfl

theorem Chain.mem_sentIn {chain : Chain} {lo hi : ℕ} {ev : SentEvent} :
    ev ∈ chain.sentIn lo hi ↔ ∃ n, lo ≤ n ∧ n < hi ∧ ev ∈ chain.logsAt n := by
  rw [sentIn, List.mem_flatMap]
  constructor
  · rintro ⟨n, hn, hev⟩
    have hmem := List.mem_range'_1.mp hn
    exact ⟨n, hmem.1, by omega, hev⟩
  · rintro ⟨n, hlo, hhi, hev⟩
    exact ⟨n, List.mem_range'_1.mpr ⟨hlo, by omega⟩, hev⟩

/-- A chain with finitely many blocks that have logs. -/
def Chain.ofBlocks (blocks : List (List SentEvent)) : Chain := ⟨fun n => blocks.getD n []⟩

theorem Chain.sentIn_ofBlocks (blocks : List (List SentEvent)) (n : ℕ) :
    (Chain.ofBlocks blocks).sentIn 0 n = (blocks.take n).flatten := by
  induction n with
  | zero => rfl
  | succ n ih =>
    have hblock : (Chain.ofBlocks blocks).sentIn n (n + 1) = blocks.getD n [] := by
      simp [sentIn, ofBlocks]
    rw [← sentIn_append _ (Nat.zero_le n) (Nat.le_succ n), ih, hblock, List.take_add_one,
      List.flatten_append, List.getD_eq_getElem?_getD]
    rcases blocks[n]? with _ | logs <;> simp

/-- **Such a chain is genuine** if its logs are, taken together. -/
theorem Chain.genuine_ofBlocks {cfg : Config} {blocks : List (List SentEvent)}
    (hgenesis : blocks.getD 0 [] = [])
    (hcon : Sequence.Consecutive corridor (fun ev => ev.nonce.toNat) blocks.flatten)
    (hid : ∀ ev ∈ blocks.flatten, ∀ auto, submissionAuto cfg ev = some auto →
      computeId cfg ev auto = ev.submissionId) : (Chain.ofBlocks blocks).Genuine cfg where
  genesis := hgenesis
  consecutive n := by
    rw [sentIn_ofBlocks]
    rw [← List.take_append_drop n blocks, List.flatten_append] at hcon
    exact hcon.of_append
  id_eq n ev hev := by
    refine hid ev (List.mem_flatten.mpr ?_)
    rcases hn : blocks[n]? with _ | logs
    · simp [ofBlocks, hn] at hev
    · exact ⟨logs, List.mem_of_getElem? hn, by simpa [ofBlocks, hn] using hev⟩

/-! ### States and steps -/

/-- The window a scanner works on. -/
structure Batch where
  fromBlock : ℕ
  scannedTo : ℕ
  allowlist : Option Allowlist
  noncesBefore : Nonces
  /-- The logs not yet handled. -/
  logs : List SentEvent

/-- Where a scanner is in its window. -/
inductive Stage
  /-- Before the next log, or past the last. -/
  | next
  /-- Past the nonce check of the first log. -/
  | checked (record : SubmissionRecord)
  /-- Done with the first log but for its nonce. -/
  | judged (record : SubmissionRecord)
  /-- An anomaly or a failure ended the batch. -/
  | stopped
  deriving DecidableEq

/-- Where a scan loop is. -/
inductive Phase
  | top
  | awake
  | reading (fromBlock : ℕ)
  | batch (b : Batch) (stage : Stage)

/-- The validator's process, its state file, and the store. -/
structure State where
  rt : Runtime
  progress : BatchProgress
  scale : ScaleGuard
  phase : Phase
  store : List (SubmissionRecord × SignerSig)

/-- What can be seen of a step. -/
inductive Effect
  /-- An event is passed to `handle_log`. -/
  | handled (ev : SentEvent)
  | skipped (ev : SentEvent) (why : Skip)
  | raised (reason : PauseReason)
  | saved (p : Persist)

/-- The steps. Those that save say whether the disk lets them. -/
inductive Label
  | wake
  | readCursor
  | abandon
  | openBatch (scannedTo : ℕ) (allowlist : Option Allowlist)
  | checkLog (disk : Bool)
  | judgeLog (replies : Replies) (disk : Bool)
  | acceptLog
  | finish (disk : Bool)
  | pauseOne (disk : Bool)
  | resumeOne (disk : Bool)
  | rescanOne (fromBlock : ℕ) (disk : Bool)
  | crash
  deriving DecidableEq

/-- What a write shows. -/
def savedBy (disk : Bool) (rt : Runtime) : List Effect := if disk then [.saved rt.persist] else []

/-- A process that starts, with a file and a store. -/
def boot (cfg : Config) (startBlock : ℕ) (file : Option Persist)
    (store : List (SubmissionRecord × SignerSig)) : State where
  rt := loadOrInit file startBlock
  progress := ⟨none, []⟩
  scale := ⟨cfg.peers, fun _ => none⟩
  phase := .top
  store

variable (cfg : Config) (chain : Chain) (startBlock : ℕ) (s : State)

/-- A batch that stops here, with a pause that is saved. -/
def stopWith (b : Batch) (reason : PauseReason) (disk : Bool) (effects : List Effect) :
    State × List Effect :=
  ({ s with rt := (s.rt.pause reason).save disk, phase := .batch b .stopped },
    effects ++ .raised reason :: savedBy disk (s.rt.pause reason))

/-- The first half of `handle_log`: the record of an event, and its nonce. -/
def checkLog (b : Batch) (ev : SentEvent) (rest : List SentEvent) (disk : Bool) :
    State × List Effect :=
  match fromSentEvent ev cfg.bridgeDomain with
  | none =>
    ({ s with phase := .batch { b with logs := rest } .next },
      [.handled ev, .skipped ev .overU64])
  | some record =>
    let chainFrom := record.chainIdFrom
    let chainTo := record.chainIdTo
    match s.rt.checkNonce chainFrom chainTo record.nonce with
    | .accept => ({ s with phase := .batch b (.checked record) }, [.handled ev])
    | .missed =>
      let expected := ((s.rt.lastNonce chainFrom chainTo).map (· + 1)).getD 0
      stopWith s b (.missedNonce chainFrom chainTo expected record.nonce) disk [.handled ev]
    | .duplicated =>
      let last := (s.rt.lastNonce chainFrom chainTo).getD 0
      stopWith s b (.duplicatedNonce chainFrom chainTo last record.nonce) disk [.handled ev]

/-- The second half, up to the nonce. -/
def judgeLog (b : Batch) (ev : SentEvent) (record : SubmissionRecord) (replies : Replies)
    (disk : Bool) : State × List Effect :=
  let (finding, scale) := examine cfg b.allowlist s.progress.stored s.scale replies ev record
  let s := { s with scale }
  let row := (record, signerSig cfg ev.submissionId)
  match finding with
  | .skipped why => ({ s with phase := .batch b (.judged record) }, [.skipped ev why])
  | .mismatch => stopWith s b (.idMismatch (hexText (wordBytes ev.submissionId))) disk []
  | .failed held =>
    ({ s with
        phase := .batch b .stopped
        store := if held then row :: s.store else s.store }, [])
  | .known => ({ s with phase := .batch b (.judged record) }, [])
  | .stored =>
    ({ s with
        phase := .batch b (.judged record)
        progress := { s.progress with stored := ev.submissionId :: s.progress.stored }
        store := row :: s.store }, [])

/-- **One step of the machine**, if it can be taken. -/
def exec : Label → Option (State × List Effect)
  | .wake =>
    match s.phase with
    | .top => some (if s.rt.paused then s else { s with phase := .awake }, [])
    | _ => none
  | .readCursor =>
    match s.phase with
    | .awake => some ({ s with phase := .reading s.rt.nextBlock }, [])
    | _ => none
  | .abandon =>
    match s.phase with
    | .reading _ => some ({ s with phase := .top }, [])
    | _ => none
  | .openBatch scannedTo allowlist =>
    match s.phase with
    | .reading fromBlock =>
      if scannedTo < fromBlock then none
      else
        let b : Batch := ⟨fromBlock, scannedTo, allowlist, s.rt.nonceSnapshot,
          chain.sentIn fromBlock (scannedTo + 1)⟩
        some ({ s with progress := s.progress.forWindow fromBlock, phase := .batch b .next }, [])
    | _ => none
  | .checkLog disk =>
    match s.phase with
    | .batch b .next =>
      match b.logs with
      | ev :: rest => some (checkLog cfg s b ev rest disk)
      | [] => none
    | _ => none
  | .judgeLog replies disk =>
    match s.phase with
    | .batch b (.checked record) =>
      match b.logs with
      | ev :: _ => some (judgeLog cfg s b ev record replies disk)
      | [] => none
    | _ => none
  | .acceptLog =>
    match s.phase with
    | .batch b (.judged record) =>
      some ({ s with
        rt := s.rt.acceptNonce record.chainIdFrom record.chainIdTo record.nonce
        phase := .batch { b with logs := b.logs.tail } .next }, [])
    | _ => none
  | .finish disk =>
    match s.phase with
    | .batch b .stopped =>
      let rt := s.rt.restoreNonces b.noncesBefore
      some ({ s with rt := rt.save disk, phase := .top }, savedBy disk rt)
    | .batch b .next =>
      if b.logs = [] then
        let rt := s.rt.advanceTo b.scannedTo
        some ({ s with rt := rt.save disk, phase := .top }, savedBy disk rt)
      else none
    | _ => none
  | .pauseOne disk =>
    let rt := s.rt.pause .operator
    some ({ s with rt := rt.save disk }, .raised .operator :: savedBy disk rt)
  | .resumeOne disk =>
    let rt := s.rt.resume
    some ({ s with rt := rt.save disk }, savedBy disk rt)
  | .rescanOne fromBlock disk =>
    let rt := s.rt.rescanFrom fromBlock
    some ({ s with rt := rt.save disk }, savedBy disk rt)
  | .crash => some (boot cfg startBlock s.rt.file s.store, [])

/-! ### What a step does -/

/-- **The steps, case by case**, with what held when each was taken. -/
inductive Step : Label → State → List Effect → Prop
  | asleep : s.phase = .top → Step .wake s []
  | wake : s.phase = .top → s.rt.paused = false → Step .wake { s with phase := .awake } []
  | readCursor : s.phase = .awake →
      Step .readCursor { s with phase := .reading s.rt.nextBlock } []
  | abandon {n : ℕ} : s.phase = .reading n → Step .abandon { s with phase := .top } []
  | openBatch {n scannedTo : ℕ} {allowlist : Option Allowlist} : s.phase = .reading n →
      n ≤ scannedTo →
      Step (.openBatch scannedTo allowlist)
        { s with
          progress := s.progress.forWindow n
          phase := .batch ⟨n, scannedTo, allowlist, s.rt.persist.nonces,
            chain.sentIn n (scannedTo + 1)⟩ .next } []
  | overU64 {b : Batch} {ev : SentEvent} {rest : List SentEvent} {disk : Bool} :
      s.phase = .batch b .next → b.logs = ev :: rest → fromSentEvent ev cfg.bridgeDomain = none →
      Step (.checkLog disk) { s with phase := .batch { b with logs := rest } .next }
        [.handled ev, .skipped ev .overU64]
  | admitted {b : Batch} {ev : SentEvent} {rest : List SentEvent} {record : SubmissionRecord}
      {disk : Bool} : s.phase = .batch b .next → b.logs = ev :: rest →
      fromSentEvent ev cfg.bridgeDomain = some record →
      Step (.checkLog disk) { s with phase := .batch b (.checked record) } [.handled ev]
  | anomaly {b : Batch} {ev : SentEvent} {rest : List SentEvent} {record : SubmissionRecord}
      {reason : PauseReason} {disk : Bool} : s.phase = .batch b .next → b.logs = ev :: rest →
      fromSentEvent ev cfg.bridgeDomain = some record →
      s.rt.checkNonce record.chainIdFrom record.chainIdTo record.nonce ≠ .accept →
      Step (.checkLog disk) (stopWith s b reason disk [.handled ev]).1
        (stopWith s b reason disk [.handled ev]).2
  | withheld {b : Batch} {ev : SentEvent} {rest : List SentEvent} {record : SubmissionRecord}
      {why : Skip} {scale : ScaleGuard} {replies : Replies} {disk : Bool} :
      s.phase = .batch b (.checked record) → b.logs = ev :: rest →
      Step (.judgeLog replies disk) { s with scale, phase := .batch b (.judged record) }
        [.skipped ev why]
  | mismatch {b : Batch} {ev : SentEvent} {rest : List SentEvent} {record : SubmissionRecord}
      {auto : Option AutoParams} {reason : PauseReason} {scale : ScaleGuard} {replies : Replies}
      {disk : Bool} : s.phase = .batch b (.checked record) → b.logs = ev :: rest →
      submissionAuto cfg ev = some auto → computeId cfg ev auto ≠ ev.submissionId →
      Step (.judgeLog replies disk) (stopWith { s with scale } b reason disk []).1
        (stopWith { s with scale } b reason disk []).2
  | failed {b : Batch} {record : SubmissionRecord}
      {rows : List (SubmissionRecord × SignerSig)} {scale : ScaleGuard} {replies : Replies}
      {disk : Bool} : s.phase = .batch b (.checked record) →
      Step (.judgeLog replies disk)
        { s with scale, phase := .batch b .stopped, store := rows ++ s.store } []
  | known {b : Batch} {ev : SentEvent} {rest : List SentEvent} {record : SubmissionRecord}
      {scale : ScaleGuard} {replies : Replies} {disk : Bool} :
      s.phase = .batch b (.checked record) → b.logs = ev :: rest →
      ev.submissionId ∈ s.progress.stored →
      Step (.judgeLog replies disk) { s with scale, phase := .batch b (.judged record) } []
  | stored {b : Batch} {ev : SentEvent} {rest : List SentEvent} {record : SubmissionRecord}
      {scale : ScaleGuard} {replies : Replies} {disk : Bool} :
      s.phase = .batch b (.checked record) → b.logs = ev :: rest →
      Step (.judgeLog replies disk)
        { s with
          scale
          phase := .batch b (.judged record)
          progress := { s.progress with stored := ev.submissionId :: s.progress.stored }
          store := (record, signerSig cfg ev.submissionId) :: s.store } []
  | accepted {b : Batch} {record : SubmissionRecord} : s.phase = .batch b (.judged record) →
      Step .acceptLog
        { s with
          rt := s.rt.acceptNonce record.chainIdFrom record.chainIdTo record.nonce
          phase := .batch { b with logs := b.logs.tail } .next } []
  | rolledBack {b : Batch} {disk : Bool} : s.phase = .batch b .stopped →
      Step (.finish disk)
        { s with rt := (s.rt.restoreNonces b.noncesBefore).save disk, phase := .top }
        (savedBy disk (s.rt.restoreNonces b.noncesBefore))
  | finished {b : Batch} {disk : Bool} : s.phase = .batch b .next → b.logs = [] →
      Step (.finish disk) { s with rt := (s.rt.advanceTo b.scannedTo).save disk, phase := .top }
        (savedBy disk (s.rt.advanceTo b.scannedTo))
  | paused {disk : Bool} :
      Step (.pauseOne disk) { s with rt := (s.rt.pause .operator).save disk }
        (.raised .operator :: savedBy disk (s.rt.pause .operator))
  | resumed {disk : Bool} :
      Step (.resumeOne disk) { s with rt := s.rt.resume.save disk } (savedBy disk s.rt.resume)
  | rescanned {n : ℕ} {disk : Bool} :
      Step (.rescanOne n disk) { s with rt := (s.rt.rescanFrom n).save disk }
        (savedBy disk (s.rt.rescanFrom n))
  | crashed : Step .crash (boot cfg startBlock s.rt.file s.store) []

variable {cfg chain startBlock s}

/-- The first half of `handle_log`, case by case. -/
theorem step_of_checkLog {b : Batch} {ev : SentEvent} {rest : List SentEvent} {disk : Bool}
    (hphase : s.phase = .batch b .next) (hlogs : b.logs = ev :: rest) :
    Step cfg chain startBlock s (.checkLog disk) (checkLog cfg s b ev rest disk).1
      (checkLog cfg s b ev rest disk).2 := by
  unfold checkLog
  split
  · next hnone => exact .overU64 hphase hlogs hnone
  · next record hrec =>
    dsimp only
    split
    · exact .admitted hphase hlogs hrec
    · next hcheck => exact .anomaly hphase hlogs hrec (by rw [hcheck]; decide)
    · next hcheck => exact .anomaly hphase hlogs hrec (by rw [hcheck]; decide)

/-- The second half. -/
theorem step_of_judgeLog {b : Batch} {ev : SentEvent} {rest : List SentEvent}
    {record : SubmissionRecord} {replies : Replies} {disk : Bool}
    (hphase : s.phase = .batch b (.checked record)) (hlogs : b.logs = ev :: rest) :
    Step cfg chain startBlock s (.judgeLog replies disk)
      (judgeLog cfg s b ev record replies disk).1 (judgeLog cfg s b ev record replies disk).2 := by
  unfold judgeLog
  rcases hx : examine cfg b.allowlist s.progress.stored s.scale replies ev record with ⟨f, scale⟩
  have hf : (examine cfg b.allowlist s.progress.stored s.scale replies ev record).1 = f := by
    rw [hx]
  dsimp only
  cases f with
  | skipped why => exact .withheld hphase hlogs
  | mismatch =>
    obtain ⟨auto, hauto, hne⟩ := computeId_ne_of_examine_mismatch hf
    exact .mismatch hphase hlogs hauto hne
  | failed held =>
    cases held with
    | false => exact @Step.failed _ _ _ _ _ _ [] _ _ _ hphase
    | true => exact @Step.failed _ _ _ _ _ _ [(record, signerSig cfg ev.submissionId)] _ _ _ hphase
  | known => exact .known hphase hlogs (contains_of_examine_known hf)
  | stored => exact .stored hphase hlogs

/-- **Every step is one of the cases.** -/
theorem step_of_exec {l : Label} {s' : State} {o : List Effect}
    (h : exec cfg chain startBlock s l = some (s', o)) : Step cfg chain startBlock s l s' o := by
  cases l with
  | wake =>
    simp only [exec] at h
    split at h
    · next hphase =>
      cases hp : s.rt.paused with
      | true =>
        rw [hp] at h
        obtain ⟨rfl, rfl⟩ := Prod.mk.inj (Option.some.inj h)
        exact .asleep hphase
      | false =>
        rw [hp] at h
        obtain ⟨rfl, rfl⟩ := Prod.mk.inj (Option.some.inj h)
        exact .wake hphase hp
    · cases h
  | readCursor =>
    simp only [exec] at h
    split at h
    · next hphase =>
      obtain ⟨rfl, rfl⟩ := Prod.mk.inj (Option.some.inj h)
      exact .readCursor hphase
    · cases h
  | abandon =>
    simp only [exec] at h
    split at h
    · next hphase =>
      obtain ⟨rfl, rfl⟩ := Prod.mk.inj (Option.some.inj h)
      exact .abandon hphase
    · cases h
  | openBatch scannedTo allowlist =>
    simp only [exec] at h
    split at h
    · next hphase =>
      split at h
      · cases h
      · next hle =>
        obtain ⟨rfl, rfl⟩ := Prod.mk.inj (Option.some.inj h)
        exact .openBatch hphase (not_lt.mp hle)
    · cases h
  | checkLog disk =>
    simp only [exec] at h
    split at h
    · next hphase =>
      split at h
      · next hlogs =>
        obtain ⟨rfl, rfl⟩ := Prod.mk.inj (Option.some.inj h)
        exact step_of_checkLog hphase hlogs
      · cases h
    · cases h
  | judgeLog replies disk =>
    simp only [exec] at h
    split at h
    · next hphase =>
      split at h
      · next hlogs =>
        obtain ⟨rfl, rfl⟩ := Prod.mk.inj (Option.some.inj h)
        exact step_of_judgeLog hphase hlogs
      · cases h
    · cases h
  | acceptLog =>
    simp only [exec] at h
    split at h
    · next hphase =>
      obtain ⟨rfl, rfl⟩ := Prod.mk.inj (Option.some.inj h)
      exact .accepted hphase
    · cases h
  | finish disk =>
    simp only [exec] at h
    split at h
    · next hphase =>
      obtain ⟨rfl, rfl⟩ := Prod.mk.inj (Option.some.inj h)
      exact .rolledBack hphase
    · next hphase =>
      split at h
      · next hlogs =>
        obtain ⟨rfl, rfl⟩ := Prod.mk.inj (Option.some.inj h)
        exact .finished hphase hlogs
      · cases h
    · cases h
  | pauseOne disk =>
    obtain ⟨rfl, rfl⟩ := Prod.mk.inj (Option.some.inj h)
    exact .paused
  | resumeOne disk =>
    obtain ⟨rfl, rfl⟩ := Prod.mk.inj (Option.some.inj h)
    exact .resumed
  | rescanOne n disk =>
    obtain ⟨rfl, rfl⟩ := Prod.mk.inj (Option.some.inj h)
    exact .rescanned
  | crash =>
    obtain ⟨rfl, rfl⟩ := Prod.mk.inj (Option.some.inj h)
    exact .crashed

end Validator

end SelendraBridge
