import Mathlib.Data.Prod.Lex
import SelendraBridge.Basic
import SelendraBridge.Lib.Replay
import SelendraBridge.Lib.Transition

/-!
# The tokens that a pool lists

The service tells which tokens a pool lists from the pool's logs. It keeps, for the chain, the
tokens in the order they were first listed, whether each is listed now, and how far the logs
were read; and it reads on from there, a bounded number of chunks at a time, each by two
requests: one for the logs that list, one for the logs that delist.

| who reads | from where | when |
|:----------|:-----------|:-----|
| a request | what is kept, or the block of the pool | nothing is listed yet |
| a backfill | what is kept | something is listed, and the chain went on |

Several of them may be on their way, each with a copy of its own, and what each one ends up
with is kept unless something newer is (`SelendraBridge.Api.storeState`).

A chunk whose second request fails was not read, but what the first one brought is replayed all
the same. So what is kept is the replay of the blocks it says were read unless such a chunk
lists a token that was not listed before it, and in no other case
(`SelendraBridge.Api.replays_iff`).
-/

namespace SelendraBridge

namespace Api

open Transition

/-! ### The logs -/

/-- The greatest number of 64 bits. -/
def U64_MAX : ℕ := 2 ^ 64 - 1

/-- `saturating_add`. -/
def satAdd (a b : ℕ) : ℕ := min (a + b) U64_MAX

local instance lawfulBEqToken : LawfulBEq Address := inferInstance

/-- A log of the pool: a `TokenListed`, or a `TokenDelisted`. -/
structure Log where
  block : ℕ
  index : ℕ
  isListed : Bool
  token : Address
  deriving DecidableEq

/-- The place of a log in the chain. -/
def Log.key (e : Log) : ℕ ×ₗ ℕ := toLex (e.block, e.index)

/-- **The logs of a pool**, in the order of the chain. -/
structure History where
  logs : List Log
  sorted : logs.Pairwise fun a b => a.key < b.key

/-- A pool, as it is configured. -/
structure Pool where
  fromBlock : ℕ
  maxRange : ℕ
  fromBlock_le : fromBlock ≤ U64_MAX
  maxRange_pos : 0 < maxRange

/-! ### Reading them -/

/-- `TokenListState`. -/
@[ext]
structure TokenListState where
  order : List Address
  live : Address → Option Bool
  scannedTo : Option ℕ

namespace TokenListState

/-- `TokenListState::default`. -/
def empty : TokenListState := ⟨[], fun _ => none, none⟩

/-- `listed`. -/
def listed (state : TokenListState) : List Address :=
  state.order.filter fun t => (state.live t).getD false

/-- One event, applied. -/
def apply (state : TokenListState) (e : Log) : TokenListState :=
  if e.isListed then
    { state with
      order := if ¬(state.live e.token).getD false = true ∧ e.token ∉ state.order then
          state.order ++ [e.token]
        else state.order
      live := Function.update state.live e.token (some true) }
  else { state with live := Function.update state.live e.token (some false) }

end TokenListState

/-- `get_logs` of one of the two kinds, for a range of blocks. -/
def getLogs (logs : List Log) (isListed : Bool) (start stop : ℕ) : List Log :=
  logs.filter fun e => e.isListed = isListed ∧ start ≤ e.block ∧ e.block ≤ stop

/-- `collect_chunk`, where `answers` says which of the two requests is answered: whether the
chunk was read, and the events. -/
def collectChunk (logs : List Log) (start stop : ℕ) (answers : Bool × Bool) (events : List Log) :
    Bool × List Log :=
  if answers.1 then
    let events := events ++ getLogs logs true start stop
    if answers.2 then (true, events ++ getLogs logs false start stop) else (false, events)
  else (false, events)

/-- What the loop of `scan_step` carries: how far it has read, the events, and whether a chunk
failed. -/
structure Scanned where
  reached : Option ℕ
  events : List Log
  failed : Bool

/-- The last block of the chunk that starts at a block. -/
def chunkStop (maxRange tip start : ℕ) : ℕ := min (satAdd start (maxRange - 1)) tip

/-- The loop of `scan_step`, for at most so many chunks. -/
def scanChunks (logs : List Log) (maxRange tip : ℕ) :
    ℕ → (ℕ → Bool × Bool) → ℕ → Scanned → Scanned
  | 0, _, _, s => s
  | chunks + 1, answers, start, s =>
    if start ≤ tip then
      let stop := chunkStop maxRange tip start
      match collectChunk logs start stop (answers 0) s.events with
      | (false, events) => { s with events, failed := true }
      | (true, events) =>
        scanChunks logs maxRange tip chunks (fun k => answers (k + 1)) (satAdd stop 1)
          { s with reached := some stop, events }
    else s

/-- `MAX_CHUNKS_PER_CALL`. -/
def MAX_CHUNKS_PER_CALL : ℕ := 20

/-- Where a scan starts. -/
def scanStart (fromBlock : ℕ) (scannedTo : Option ℕ) : ℕ :=
  match scannedTo with
  | some done => satAdd done 1
  | none => fromBlock

/-- `scan_step`: the state, and whether a chunk failed. -/
def scanStep (logs : List Log) (fromBlock maxRange tip : ℕ) (answers : ℕ → Bool × Bool)
    (state : TokenListState) : TokenListState × Bool :=
  let s := scanChunks logs maxRange tip MAX_CHUNKS_PER_CALL answers
    (scanStart fromBlock state.scannedTo) ⟨state.scannedTo, [], false⟩
  let events := Roster.sortByKey Log.key s.events
  ({ events.foldl TokenListState.apply state with scannedTo := s.reached }, s.failed)

/-! ### Keeping what was read -/

/-- `>=` on `Option<u64>`. -/
def atLeast : Option ℕ → Option ℕ → Bool
  | _, none => true
  | none, some _ => false
  | some a, some b => decide (b ≤ a)

/-- A scan on its way: what it goes on from, and how far it is to go. -/
structure Scan where
  fromBlock : ℕ
  tip : ℕ
  state : TokenListState

/-- The listing of one chain: what is kept, whether a backfill is running, the one that has not
started yet, the one that has, and the scans of requests. -/
structure Listings where
  cache : Option TokenListState
  backfilling : Bool
  spawned : Option ℕ
  backfill : Option Scan
  requests : ℕ → Option Scan

/-- Nothing is kept, and nothing is running. -/
def start : Listings := ⟨none, false, none, none, fun _ => none⟩

/-- `store_state`. -/
def storeState (s : Listings) (state : TokenListState) : Listings :=
  if s.cache.all fun cur => atLeast state.scannedTo cur.scannedTo then
    { s with cache := some state }
  else s

/-- `spawn_backfill`, up to the task that it spawns. -/
def spawnBackfill (s : Listings) (tip : ℕ) : Listings :=
  if s.backfilling then s else { s with backfilling := true, spawned := some tip }

/-- What can happen next. A request comes with the tip that it read, and a scan ends with what
its requests were answered. -/
inductive Event
  | request (id tip : ℕ)
  | answer (id : ℕ) (answers : ℕ → Bool × Bool)
  | wake
  | finish (answers : ℕ → Bool × Bool)

/-- What a request is answered, where it is. -/
inductive Reply
  | nothing
  | tokens (listed : List Address)
  | failed
  deriving DecidableEq

/-- `listed_tokens`, up to its own scan. -/
def request (p : Pool) (s : Listings) (id tip : ℕ) : Listings × Reply :=
  let scan := { s with
    requests := Function.update s.requests id
      (some ⟨p.fromBlock, tip, s.cache.getD TokenListState.empty⟩) }
  match s.cache with
  | none => (scan, .nothing)
  | some state =>
    match state.scannedTo with
    | none => (scan, .nothing)
    | some done =>
      if state.listed ≠ [] then
        (if done < tip then spawnBackfill s tip else s, .tokens state.listed)
      else (scan, .nothing)

/-- `listed_tokens`, after its own scan. -/
def answer (logs : List Log) (p : Pool) (s : Listings) (id : ℕ) (scan : Scan)
    (answers : ℕ → Bool × Bool) : Listings × Reply :=
  let r := scanStep logs scan.fromBlock p.maxRange scan.tip answers scan.state
  (storeState { s with requests := Function.update s.requests id none } r.1,
    if r.2 ∧ r.1.listed = [] then .failed else .tokens r.1.listed)

/-- **One step** of the listing of a chain. -/
def exec (logs : List Log) (p : Pool) (s : Listings) : Event → Option (Listings × Reply)
  | .request id tip => if s.requests id = none then some (request p s id tip) else none
  | .answer id answers => (s.requests id).map fun scan => answer logs p s id scan answers
  | .wake => s.spawned.map fun tip =>
      ({ s with
          spawned := none
          backfill := some ⟨0, tip, s.cache.getD TokenListState.empty⟩ }, .nothing)
  | .finish answers => s.backfill.map fun scan =>
      let r := scanStep logs scan.fromBlock p.maxRange scan.tip answers scan.state
      ({ storeState { s with backfill := none } r.1 with backfilling := false }, .nothing)

/-! ### Replaying -/

namespace TokenListState

variable {st : TokenListState} {e : Log} {es : List Log} {t : Address}

/-- Whatever is listed now was listed first at some place. -/
def Tidy (st : TokenListState) : Prop := ∀ t, st.live t = some true → t ∈ st.order

theorem live_apply : (st.apply e).live t = if t = e.token then some e.isListed else st.live t := by
  rw [apply]
  by_cases hl : e.isListed = true
  · rw [if_pos hl, hl]
    exact Function.update_apply ..
  · rw [if_neg hl, Bool.eq_false_of_not_eq_true hl]
    exact Function.update_apply ..

theorem scannedTo_apply : (st.apply e).scannedTo = st.scannedTo := by
  rw [apply]
  split <;> rfl

theorem order_subset_apply : st.order ⊆ (st.apply e).order := by
  intro x hx
  rw [apply]
  split
  · dsimp only
    split
    · exact List.mem_append_left _ hx
    · exact hx
  · exact hx

/-- A token that is listed is in the order. -/
theorem mem_order_apply (hst : st.Tidy) (hl : e.isListed = true) :
    e.token ∈ (st.apply e).order := by
  rw [apply, if_pos hl]
  dsimp only
  split
  · exact List.mem_append_right _ (List.mem_singleton_self _)
  · next hold =>
    rw [not_and_or, not_not, not_not] at hold
    rcases hold with hlive | hmem
    · refine hst _ ?_
      rcases hv : st.live e.token with _ | b
      · rw [hv] at hlive
        cases hlive
      · rw [hv, Option.getD_some] at hlive
        rw [hlive]
    · exact hmem

/-- A token that is listed already, or was, keeps its place. -/
theorem order_apply (h : e.isListed = true → st.live e.token = some true ∨ e.token ∈ st.order) :
    (st.apply e).order = st.order := by
  rw [apply]
  split
  · next hl =>
    refine if_neg ?_
    rintro ⟨hlive, hmem⟩
    rcases h hl with h | h
    · exact hlive (by rw [h, Option.getD_some])
    · exact hmem h
  · rfl

theorem Tidy.apply (hst : st.Tidy) : (st.apply e).Tidy := by
  intro x hx
  rw [live_apply] at hx
  by_cases hxe : x = e.token
  · rw [if_pos hxe] at hx
    exact hxe ▸ mem_order_apply hst (Option.some.inj hx)
  · rw [if_neg hxe] at hx
    exact order_subset_apply (hst x hx)

theorem tidy_empty : empty.Tidy := fun _ h => nomatch h

theorem Tidy.foldl (hst : st.Tidy) : (es.foldl TokenListState.apply st).Tidy := by
  induction es generalizing st with
  | nil => exact hst
  | cons e es ih => exact ih hst.apply

/-- **An event that is applied twice** changes nothing the second time. -/
theorem idempotent_apply : Replay.Idempotent apply := by
  intro st e
  have hnow : (st.apply e).live e.token = some e.isListed := by rw [live_apply, if_pos rfl]
  refine TokenListState.ext ?_ ?_ scannedTo_apply
  · exact order_apply fun hl => .inl (by rw [hnow, hl])
  · funext x
    rw [live_apply]
    split
    · next h => rw [h, hnow]
    · rfl

/-- What the last event for a token says, if there is one. -/
def flag (t : Address) : List Log → Option Bool
  | [] => none
  | e :: es => (flag t es).or (if t = e.token then some e.isListed else none)

/-- **What is listed after some events**: what the last one says, or what was listed before. -/
theorem live_foldl : (es.foldl apply st).live t = (flag t es).or (st.live t) := by
  induction es generalizing st with
  | nil => rfl
  | cons e es ih =>
    rw [List.foldl_cons, ih, flag, Option.or_assoc, live_apply]
    congr 1
    split <;> rfl

theorem scannedTo_foldl : (es.foldl apply st).scannedTo = st.scannedTo := by
  induction es generalizing st with
  | nil => rfl
  | cons e es ih => rw [List.foldl_cons, ih, scannedTo_apply]

theorem order_subset_foldl : st.order ⊆ (es.foldl apply st).order := by
  induction es generalizing st with
  | nil => exact List.Subset.refl _
  | cons e es ih => exact List.Subset.trans order_subset_apply ih

/-- Every token that was listed has a place. -/
theorem mem_order_foldl (hst : st.Tidy) (he : e ∈ es) (hl : e.isListed = true) :
    e.token ∈ (es.foldl apply st).order := by
  induction es generalizing st with
  | nil => exact absurd he List.not_mem_nil
  | cons a es ih =>
    rcases List.mem_cons.mp he with rfl | he
    · rw [List.foldl_cons]
      exact order_subset_foldl (mem_order_apply hst hl)
    · exact ih hst.apply he

/-- Tokens that have a place keep it, and no other gets one. -/
theorem order_foldl (h : ∀ e ∈ es, e.isListed = true → e.token ∈ st.order) :
    (es.foldl apply st).order = st.order := by
  induction es generalizing st with
  | nil => rfl
  | cons e es ih =>
    have hfirst : (st.apply e).order = st.order :=
      order_apply fun hl => .inr (h e List.mem_cons_self hl)
    rw [List.foldl_cons, ih, hfirst]
    intro a ha hl
    rw [hfirst]
    exact h a (List.mem_cons_of_mem _ ha) hl

/-- **Some events that are applied again** right after themselves change nothing. -/
theorem foldl_again (hst : st.Tidy) :
    es.foldl apply (es.foldl apply st) = es.foldl apply st := by
  refine TokenListState.ext ?_ ?_ scannedTo_foldl
  · exact order_foldl fun e he hl => mem_order_foldl hst he hl
  · funext x
    rw [live_foldl, live_foldl]
    cases flag x es <;> rfl

/-- There is a last event for every token that has one. -/
theorem flag_ne_none (he : e ∈ es) : flag e.token es ≠ none := by
  induction es with
  | nil => exact absurd he List.not_mem_nil
  | cons a es ih =>
    rw [flag, ne_eq, Option.or_eq_none_iff]
    rintro ⟨hlater, hfirst⟩
    rcases List.mem_cons.mp he with rfl | he
    · rw [if_pos rfl] at hfirst
      cases hfirst
    · exact ih he hlater

/-- Of events that only list, the last one for a token is one of them, and lists it. -/
theorem flag_of_listed (hall : ∀ e ∈ es, e.isListed = true) :
    flag t es = none ∨ flag t es = some true ∧ ∃ e ∈ es, e.token = t := by
  induction es with
  | nil => exact .inl rfl
  | cons a es ih =>
    rw [flag]
    rcases ih fun e he => hall e (List.mem_cons_of_mem _ he) with hnone | ⟨hsome, e, he, het⟩
    · rw [hnone, Option.none_or]
      by_cases ha : t = a.token
      · rw [if_pos ha, hall a List.mem_cons_self]
        exact .inr ⟨rfl, a, List.mem_cons_self, ha.symm⟩
      · exact .inl (if_neg ha)
    · rw [hsome]
      exact .inr ⟨rfl, e, List.mem_cons_of_mem _ he, het⟩

/-- **Events that only list** change nothing exactly if what they list is listed. -/
theorem foldl_eq_iff (hst : st.Tidy) (hall : ∀ e ∈ es, e.isListed = true) :
    es.foldl apply st = st ↔ ∀ e ∈ es, st.live e.token = some true := by
  constructor
  · intro h e he
    rcases flag_of_listed (t := e.token) hall with hnone | ⟨hsome, -⟩
    · exact absurd hnone (flag_ne_none he)
    · have hlive : (es.foldl apply st).live e.token = some true := by
        rw [live_foldl, hsome]
        rfl
      rwa [h] at hlive
  · intro h
    refine TokenListState.ext ?_ ?_ scannedTo_foldl
    · exact order_foldl fun e he _ => hst _ (h e he)
    · funext x
      rw [live_foldl]
      rcases flag_of_listed (t := x) hall with hnone | ⟨hsome, e, he, rfl⟩
      · rw [hnone, Option.none_or]
      · rw [hsome, h e he]
        rfl

end TokenListState

/-! ### The chunks of a scan -/

section Chunks

variable {logs : List Log} {maxRange tip chunks k : ℕ} {answers : ℕ → Bool × Bool} {start : ℕ}

/-- Where each chunk of a scan starts. -/
def chunkStart (maxRange tip : ℕ) : ℕ → ℕ → ℕ
  | start, 0 => start
  | start, k + 1 => chunkStart maxRange tip (satAdd (chunkStop maxRange tip start) 1) k

/-- The last block of the first chunks of a scan, if there is one. -/
def lastStop (maxRange tip start : ℕ) : ℕ → Option ℕ
  | 0 => none
  | k + 1 => some (chunkStop maxRange tip (chunkStart maxRange tip start k))

/-- **A scan breaks off in the middle of a chunk**: all requests are answered up to the first one
for it, and the second one fails. -/
structure HalfRead (maxRange tip chunks : ℕ) (answers : ℕ → Bool × Bool) (start k : ℕ) : Prop where
  budget : k < chunks
  before : ∀ j < k, answers j = (true, true)
  inTip : ∀ j ≤ k, chunkStart maxRange tip start j ≤ tip
  half : answers k = (true, false)

/-- A scan breaks off only once. -/
theorem HalfRead.unique {j : ℕ} (hk : HalfRead maxRange tip chunks answers start k)
    (hj : HalfRead maxRange tip chunks answers start j) : j = k := by
  rcases lt_trichotomy j k with h | h | h
  · have hans := hk.before j h
    rw [hj.half] at hans
    cases hans
  · exact h
  · have hans := hj.before k h
    rw [hk.half] at hans
    cases hans

/-- What breaks off after the first chunk breaks off in the rest. -/
theorem halfRead_succ (htip : start ≤ tip) (hans : answers 0 = (true, true)) :
    HalfRead maxRange tip (chunks + 1) answers start (k + 1) ↔
      HalfRead maxRange tip chunks (fun j => answers (j + 1))
        (satAdd (chunkStop maxRange tip start) 1) k := by
  constructor
  · intro h
    exact {
      budget := Nat.lt_of_succ_lt_succ h.budget
      before := fun j hj => h.before (j + 1) (Nat.succ_lt_succ hj)
      inTip := fun j hj => h.inTip (j + 1) (Nat.succ_le_succ hj)
      half := h.half }
  · intro h
    refine ⟨Nat.succ_lt_succ h.budget, ?_, ?_, h.half⟩
    · rintro (_ | j) hj
      · exact hans
      · exact h.before j (Nat.lt_of_succ_lt_succ hj)
    · rintro (_ | j) hj
      · exact htip
      · exact h.inTip j (Nat.le_of_succ_le_succ hj)

/-- What a scan has read in full. -/
def Read (logs : List Log) (maxRange tip start k : ℕ) (e : Log) : Prop :=
  e ∈ logs ∧ ∃ j < k, chunkStart maxRange tip start j ≤ e.block ∧
    e.block ≤ chunkStop maxRange tip (chunkStart maxRange tip start j)

theorem mem_getLogs {isListed : Bool} {stop : ℕ} {e : Log} :
    e ∈ getLogs logs isListed start stop ↔
      e ∈ logs ∧ e.isListed = isListed ∧ start ≤ e.block ∧ e.block ≤ stop := by
  rw [getLogs, List.mem_filter, decide_eq_true_iff]

/-- The first chunk, and the others. -/
theorem read_succ {e : Log} : Read logs maxRange tip start (k + 1) e ↔
    (e ∈ logs ∧ start ≤ e.block ∧ e.block ≤ chunkStop maxRange tip start) ∨
      Read logs maxRange tip (satAdd (chunkStop maxRange tip start) 1) k e := by
  constructor
  · rintro ⟨he, j, hj, hle⟩
    rcases j with _ | j
    · exact .inl ⟨he, hle⟩
    · exact .inr ⟨he, j, Nat.lt_of_succ_lt_succ hj, hle⟩
  · rintro (⟨he, hle⟩ | ⟨he, j, hj, hle⟩)
    · exact ⟨he, 0, Nat.succ_pos k, hle⟩
    · exact ⟨he, j + 1, Nat.succ_lt_succ hj, hle⟩

theorem not_read_zero {e : Log} : ¬Read logs maxRange tip start 0 e := by
  rintro ⟨-, j, hj, -⟩
  exact absurd hj (Nat.not_lt_zero j)

theorem lastStop_succ : lastStop maxRange tip start (k + 1) =
    (lastStop maxRange tip (satAdd (chunkStop maxRange tip start) 1) k).or
      (some (chunkStop maxRange tip start)) := by
  cases k <;> rfl

/-- **What the loop does**: it reads some chunks in full, and then either stops between two of
them or breaks off in the middle of the next. -/
theorem scanChunks_spec (s : Scanned) : ∃ k ≤ chunks,
    (∀ j < k, chunkStart maxRange tip start j ≤ tip) ∧
    (scanChunks logs maxRange tip chunks answers start s).reached =
      (lastStop maxRange tip start k).or s.reached ∧
    ∃ part : List Log,
      (∀ e, e ∈ (scanChunks logs maxRange tip chunks answers start s).events ↔
        e ∈ s.events ∨ Read logs maxRange tip start k e ∨ e ∈ part) ∧
      (part = [] ∧ (∀ j, ¬HalfRead maxRange tip chunks answers start j) ∨
        HalfRead maxRange tip chunks answers start k ∧
          part = getLogs logs true (chunkStart maxRange tip start k)
            (chunkStop maxRange tip (chunkStart maxRange tip start k))) := by
  induction chunks generalizing answers start s with
  | zero =>
    refine ⟨0, le_rfl, fun _ h => absurd h (Nat.not_lt_zero _), rfl, [], ?_, .inl ⟨rfl, ?_⟩⟩
    · intro e
      simp [scanChunks, Read]
    · exact fun j h => absurd h.budget (Nat.not_lt_zero _)
  | succ chunks ih =>
    by_cases htip : start ≤ tip
    · rcases hans : answers 0 with ⟨first, second⟩
      cases first with
      | false =>
        -- The first request fails, and nothing is added.
        have hscan : scanChunks logs maxRange tip (chunks + 1) answers start s =
            { s with failed := true } := by
          rw [scanChunks, if_pos htip, hans]
          rfl
        rw [hscan]
        refine ⟨0, Nat.zero_le _, fun _ h => absurd h (Nat.not_lt_zero _), rfl, [], ?_,
          .inl ⟨rfl, ?_⟩⟩
        · intro e
          simp [not_read_zero]
        · rintro (_ | j) h
          · have hhalf := h.half
            rw [hans] at hhalf
            cases hhalf
          · have hbefore := h.before 0 (Nat.succ_pos j)
            rw [hans] at hbefore
            cases hbefore
      | true =>
        cases second with
        | false =>
          -- The second request fails, and what the first one brought stays.
          have hscan : scanChunks logs maxRange tip (chunks + 1) answers start s =
              { s with
                events := s.events ++ getLogs logs true start (chunkStop maxRange tip start)
                failed := true } := by
            rw [scanChunks, if_pos htip, hans]
            rfl
          rw [hscan]
          refine ⟨0, Nat.zero_le _, fun _ h => absurd h (Nat.not_lt_zero _), rfl,
            getLogs logs true start (chunkStop maxRange tip start), ?_, .inr ⟨?_, rfl⟩⟩
          · intro e
            simp [not_read_zero]
          · refine ⟨Nat.succ_pos _, fun _ h => absurd h (Nat.not_lt_zero _), ?_, hans⟩
            intro j hj
            obtain rfl := Nat.le_zero.mp hj
            exact htip
        | true =>
          -- The chunk is read, and the rest follows.
          have hscan : scanChunks logs maxRange tip (chunks + 1) answers start s =
              scanChunks logs maxRange tip chunks (fun j => answers (j + 1))
                (satAdd (chunkStop maxRange tip start) 1)
                { s with
                  reached := some (chunkStop maxRange tip start)
                  events := s.events ++ getLogs logs true start (chunkStop maxRange tip start) ++
                    getLogs logs false start (chunkStop maxRange tip start) } := by
            rw [scanChunks, if_pos htip, hans]
            rfl
          rw [hscan]
          obtain ⟨k, hk, hin, hreached, part, hevents, hpart⟩ :=
            @ih (fun j => answers (j + 1)) (satAdd (chunkStop maxRange tip start) 1)
              { s with
                reached := some (chunkStop maxRange tip start)
                events := s.events ++ getLogs logs true start (chunkStop maxRange tip start) ++
                  getLogs logs false start (chunkStop maxRange tip start) }
          refine ⟨k + 1, Nat.succ_le_succ hk, ?_, ?_, part, ?_, ?_⟩
          · rintro (_ | j) hj
            · exact htip
            · exact hin j (Nat.lt_of_succ_lt_succ hj)
          · rw [hreached, lastStop_succ, Option.or_assoc]
            rfl
          · intro e
            rw [hevents, read_succ, List.mem_append, List.mem_append, mem_getLogs, mem_getLogs]
            have hkind : e.isListed = true ∨ e.isListed = false := by
              cases e.isListed <;> simp
            tauto
          · rcases hpart with ⟨hnil, hno⟩ | ⟨hhalf, hpart⟩
            · refine .inl ⟨hnil, ?_⟩
              rintro (_ | j) h
              · have hhalf := h.half
                rw [hans] at hhalf
                cases hhalf
              · exact hno j ((halfRead_succ htip hans).mp h)
            · exact .inr ⟨(halfRead_succ htip hans).mpr hhalf, hpart⟩
    · -- There is no block left to read.
      refine ⟨0, Nat.zero_le _, fun _ h => absurd h (Nat.not_lt_zero _), ?_, [], ?_,
        .inl ⟨rfl, ?_⟩⟩
      · rw [scanChunks, if_neg htip]
        rfl
      · intro e
        rw [scanChunks, if_neg htip]
        simp [Read]
      · exact fun j h => htip (h.inTip 0 (Nat.zero_le _))

/-! ### The blocks that were read -/

theorem chunkStart_succ : chunkStart maxRange tip start (k + 1) =
    satAdd (chunkStop maxRange tip (chunkStart maxRange tip start k)) 1 := by
  induction k generalizing start with
  | zero => rfl
  | succ k ih => exact ih

theorem chunkStop_le : chunkStop maxRange tip start ≤ U64_MAX :=
  (Nat.min_le_left _ _).trans (Nat.min_le_right _ _)

theorem chunkStart_le (hstart : start ≤ U64_MAX) : chunkStart maxRange tip start k ≤ U64_MAX := by
  rcases k with _ | k
  · exact hstart
  · rw [chunkStart_succ]
    exact Nat.min_le_right _ _

/-- A chunk has a block. -/
theorem le_chunkStop (hstart : start ≤ U64_MAX) (htip : start ≤ tip) :
    start ≤ chunkStop maxRange tip start := by
  rw [chunkStop, satAdd]
  omega

/-- The next chunk starts right after the last block, or at it if there is none after it. -/
theorem chunkStart_succ_eq : chunkStart maxRange tip start (k + 1) =
    min (chunkStop maxRange tip (chunkStart maxRange tip start k) + 1) U64_MAX :=
  chunkStart_succ

theorem start_le_chunkStart (hstart : start ≤ U64_MAX)
    (hin : ∀ j < k, chunkStart maxRange tip start j ≤ tip) :
    start ≤ chunkStart maxRange tip start k := by
  induction k with
  | zero => exact le_rfl
  | succ k ih =>
    have hsofar := ih fun j hj => hin j (by omega)
    have hlast : chunkStart maxRange tip start k ≤
        chunkStop maxRange tip (chunkStart maxRange tip start k) :=
      le_chunkStop (chunkStart_le hstart) (hin k (by omega))
    have hmax : chunkStop maxRange tip (chunkStart maxRange tip start k) ≤ U64_MAX := chunkStop_le
    rw [chunkStart_succ_eq]
    omega

/-- **The chunks leave no block out**: what the first of them cover are the blocks up to the last
one of the last. -/
theorem exists_chunk_iff (hstart : start ≤ U64_MAX) {b : ℕ}
    (hin : ∀ j < k + 1, chunkStart maxRange tip start j ≤ tip) :
    (∃ j < k + 1, chunkStart maxRange tip start j ≤ b ∧
        b ≤ chunkStop maxRange tip (chunkStart maxRange tip start j)) ↔
      start ≤ b ∧ b ≤ chunkStop maxRange tip (chunkStart maxRange tip start k) := by
  induction k with
  | zero => simp [chunkStart]
  | succ k ih =>
    have hpast := ih fun j hj => hin j (by omega)
    have hnext : chunkStart maxRange tip start (k + 1) ≤
        chunkStop maxRange tip (chunkStart maxRange tip start (k + 1)) :=
      le_chunkStop (chunkStart_le hstart) (hin (k + 1) (by omega))
    have hfirst : start ≤ chunkStart maxRange tip start (k + 1) :=
      start_le_chunkStart hstart fun j hj => hin j (by omega)
    have hmax : chunkStop maxRange tip (chunkStart maxRange tip start k) ≤ U64_MAX := chunkStop_le
    have heq : chunkStart maxRange tip start (k + 1) =
        min (chunkStop maxRange tip (chunkStart maxRange tip start k) + 1) U64_MAX :=
      chunkStart_succ_eq
    constructor
    · rintro ⟨j, hj, hle⟩
      rcases Nat.lt_succ_iff_lt_or_eq.mp hj with hj | rfl
      · obtain ⟨hlow, hhigh⟩ := hpast.mp ⟨j, hj, hle⟩
        exact ⟨hlow, by omega⟩
      · exact ⟨by omega, hle.2⟩
    · rintro ⟨hlow, hhigh⟩
      by_cases hb : b ≤ chunkStop maxRange tip (chunkStart maxRange tip start k)
      · obtain ⟨j, hj, hle⟩ := hpast.mpr ⟨hlow, hb⟩
        exact ⟨j, by omega, hle⟩
      · exact ⟨k + 1, by omega, by omega, hhigh⟩

/-- The logs of the blocks up to one, from another. -/
def window (logs : List Log) (fromBlock : ℕ) : Option ℕ → List Log
  | none => []
  | some d => logs.filter fun e => fromBlock ≤ e.block ∧ e.block ≤ d

theorem mem_window {upto : Option ℕ} {e : Log} : e ∈ window logs start upto ↔
    e ∈ logs ∧ start ≤ e.block ∧ ∃ d, upto = some d ∧ e.block ≤ d := by
  rcases upto with _ | d
  · simp [window]
  · simp [window, List.mem_filter]

/-- **What was read in full are the blocks from the start of the scan**, without a gap. -/
theorem read_iff (hstart : start ≤ U64_MAX)
    (hin : ∀ j < k, chunkStart maxRange tip start j ≤ tip) {e : Log} :
    Read logs maxRange tip start k e ↔
      e ∈ window logs start (lastStop maxRange tip start k) := by
  rcases k with _ | k
  · simp [not_read_zero, lastStop, window]
  · rw [Read, exists_chunk_iff hstart hin, mem_window, lastStop]
    simp

/-- The logs of a chunk that list, and that the scan has not read before. -/
def fresh (logs : List Log) (maxRange tip start k : ℕ) : List Log :=
  (getLogs logs true (chunkStart maxRange tip start k)
    (chunkStop maxRange tip (chunkStart maxRange tip start k))).filter fun e =>
      (lastStop maxRange tip start k).all fun d => decide (d < e.block)

end Chunks

/-! ### What a scan ends up with -/

/-- **The replay of the blocks up to one.** -/
def replay (logs : List Log) (fromBlock : ℕ) (upto : Option ℕ) : TokenListState :=
  { (window logs fromBlock upto).foldl TokenListState.apply TokenListState.empty with
    scannedTo := upto }

section Scan

variable {H : History} {maxRange tip chunks k fromBlock start : ℕ} {answers : ℕ → Bool × Bool}
  {upto : Option ℕ} {es : List Log}

theorem tidy_replay {logs : List Log} : (replay logs fromBlock upto).Tidy :=
  @TokenListState.Tidy.foldl _ (window logs fromBlock upto) TokenListState.tidy_empty

theorem foldl_scannedTo (st : TokenListState) (d : Option ℕ) :
    es.foldl TokenListState.apply { st with scannedTo := d } =
      { es.foldl TokenListState.apply st with scannedTo := d } := by
  induction es generalizing st with
  | nil => rfl
  | cons e es ih =>
    have hone : TokenListState.apply { st with scannedTo := d } e =
        { st.apply e with scannedTo := d } := by
      unfold TokenListState.apply
      split <;> rfl
    rw [List.foldl_cons, List.foldl_cons, hone, ih]

theorem key_lt_of_block_lt {a b : Log} (h : a.block < b.block) : a.key < b.key :=
  Prod.Lex.toLex_lt_toLex.mpr (.inl h)

theorem sorted_filter_append {p q : Log → Bool}
    (h : ∀ a b, p a = true → q b = true → a.block < b.block) :
    (H.logs.filter p ++ H.logs.filter q).Pairwise fun a b => a.key < b.key := by
  refine List.pairwise_append.mpr ⟨H.sorted.filter _, H.sorted.filter _, ?_⟩
  intro a ha b hb
  exact key_lt_of_block_lt (h a b (List.mem_filter.mp ha).2 (List.mem_filter.mp hb).2)

/-- A range of blocks is cut in two. -/
theorem filter_cut {a b c : ℕ} (hab : a ≤ b) (hbc : b ≤ c + 1) :
    (H.logs.filter fun e => a ≤ e.block ∧ e.block ≤ c) =
      (H.logs.filter fun e => a ≤ e.block ∧ e.block < b) ++
        H.logs.filter fun e => b ≤ e.block ∧ e.block ≤ c := by
  refine Replay.eq_of_mem_iff (H.sorted.filter _) (sorted_filter_append ?_) ?_
  · intro x y hx hy
    have hx := of_decide_eq_true hx
    have hy := of_decide_eq_true hy
    omega
  · intro e
    simp only [List.mem_append, List.mem_filter, decide_eq_true_iff]
    constructor
    · rintro ⟨he, hlow, hhigh⟩
      rcases Nat.lt_or_ge e.block b with h | h
      · exact .inl ⟨he, hlow, h⟩
      · exact .inr ⟨he, h, hhigh⟩
    · rintro (⟨he, hlow, h⟩ | ⟨he, h, hhigh⟩)
      · exact ⟨he, hlow, by omega⟩
      · exact ⟨he, by omega, hhigh⟩

/-- **The replay goes on**: the blocks from the start of a scan on, replayed on what was read
before, make the replay of all of them. -/
theorem foldl_window (hup : ∀ d, upto = some d → fromBlock ≤ d ∧ d ≤ U64_MAX)
    (hstart : start = scanStart fromBlock upto) {D : ℕ} (hD : start ≤ D) :
    { (window H.logs start (some D)).foldl TokenListState.apply (replay H.logs fromBlock upto) with
      scannedTo := some D } = replay H.logs fromBlock (some D) := by
  rcases upto with _ | d
  · subst hstart
    rw [replay, window]
    rfl
  · obtain ⟨hfrom, hmax⟩ := hup d rfl
    have hlow : fromBlock ≤ start ∧ d ≤ start ∧ start ≤ d + 1 := by
      rw [hstart, scanStart, satAdd]
      omega
    -- What was read before, what is read again, and what is new.
    obtain ⟨pre, hpre⟩ : ∃ pre, pre = H.logs.filter fun e => fromBlock ≤ e.block ∧
      e.block < start := ⟨_, rfl⟩
    obtain ⟨mid, hmid⟩ : ∃ mid, mid = H.logs.filter fun e => start ≤ e.block ∧
      e.block ≤ d := ⟨_, rfl⟩
    obtain ⟨post, hpost⟩ : ∃ post, post = H.logs.filter fun e => d + 1 ≤ e.block ∧
      e.block ≤ D := ⟨_, rfl⟩
    have hbefore : window H.logs fromBlock (some d) = pre ++ mid := by
      rw [hpre, hmid]
      exact filter_cut hlow.1 hlow.2.2
    have hscan : window H.logs start (some D) = mid ++ post := by
      have hcut := filter_cut (H := H) (a := start) (b := d + 1) (c := D) hlow.2.2 (by omega)
      simp only [Nat.lt_succ_iff] at hcut
      rw [hmid, hpost]
      exact hcut
    have hafter : window H.logs fromBlock (some D) = pre ++ (mid ++ post) := by
      rw [← hscan, hpre]
      exact filter_cut hlow.1 (by omega)
    have hagain : mid.foldl TokenListState.apply (mid.foldl TokenListState.apply
        (pre.foldl TokenListState.apply TokenListState.empty)) =
          mid.foldl TokenListState.apply
            (pre.foldl TokenListState.apply TokenListState.empty) :=
      TokenListState.foldl_again TokenListState.tidy_empty.foldl
    rw [replay, replay, hbefore, hscan, hafter, foldl_scannedTo]
    simp only [List.foldl_append, hagain]

/-- **What a scan makes of the events it collected**: what it has read in full is replayed, and
then what it has of a chunk that it broke off in. -/
theorem foldl_events (hstart : start ≤ U64_MAX)
    (hin : ∀ j < k, chunkStart maxRange tip start j ≤ tip) {part rest : List Log}
    (hmem : ∀ e, e ∈ es ↔ Read H.logs maxRange tip start k e ∨ e ∈ part)
    (hpart : part = [] ∧ rest = [] ∨ part = getLogs H.logs true (chunkStart maxRange tip start k)
        (chunkStop maxRange tip (chunkStart maxRange tip start k)) ∧
      rest = fresh H.logs maxRange tip start k) (st : TokenListState) :
    (Roster.sortByKey Log.key es).foldl TokenListState.apply st =
      rest.foldl TokenListState.apply
        ((window H.logs start (lastStop maxRange tip start k)).foldl TokenListState.apply st) := by
  rw [← List.foldl_append]
  have hrest : ∀ e ∈ rest, e ∈ fresh H.logs maxRange tip start k := by
    intro e he
    rcases hpart with ⟨-, hnil⟩ | ⟨-, hfresh⟩
    · exact absurd (hnil ▸ he) List.not_mem_nil
    · exact hfresh ▸ he
  have hsorted : rest.Pairwise fun a b => a.key < b.key := by
    rcases hpart with ⟨-, rfl⟩ | ⟨-, rfl⟩
    · exact List.Pairwise.nil
    · exact (H.sorted.filter _).filter _
  refine Replay.foldl_sortByKey TokenListState.idempotent_apply ?_ ?_ st
  · refine List.pairwise_append.mpr ⟨?_, hsorted, ?_⟩
    · rcases lastStop maxRange tip start k with _ | d
      · exact List.Pairwise.nil
      · exact H.sorted.filter _
    · intro a ha b hb
      obtain ⟨-, -, d, hd, hle⟩ := mem_window.mp ha
      have hnew := (List.mem_filter.mp (hrest b hb)).2
      rw [hd, Option.all_some] at hnew
      exact key_lt_of_block_lt (Nat.lt_of_le_of_lt hle (of_decide_eq_true hnew))
  · intro e
    rw [hmem, read_iff hstart hin, List.mem_append]
    rcases hpart with ⟨rfl, rfl⟩ | ⟨rfl, rfl⟩
    · exact Iff.rfl
    · constructor
      · rintro (h | h)
        · exact .inl h
        · -- What the half chunk has of blocks read before is in the window.
          by_cases hnew : ((lastStop maxRange tip start k).all fun d =>
              decide (d < e.block)) = true
          · exact .inr (List.mem_filter.mpr ⟨h, hnew⟩)
          · obtain ⟨he, -, hlow, -⟩ := mem_getLogs.mp h
            refine .inl (mem_window.mpr ⟨he, (start_le_chunkStart hstart hin).trans hlow, ?_⟩)
            rcases hlast : lastStop maxRange tip start k with _ | d
            · rw [hlast] at hnew
              exact absurd rfl hnew
            · rw [hlast, Option.all_some, decide_eq_true_iff, not_lt] at hnew
              exact ⟨d, rfl, hnew⟩
      · rintro (h | h)
        · exact .inl h
        · exact .inr (List.mem_filter.mp h).1

/-- How far a scan has read, after some chunks. -/
def reachedAfter (maxRange tip start : ℕ) (upto : Option ℕ) (k : ℕ) : Option ℕ :=
  (lastStop maxRange tip start k).or upto

/-- **What a scan makes of the replay of what was read before it**: the replay of what has been
read after it, with what it has of a chunk that it broke off in. -/
theorem scanStep_replay {f : ℕ} (hfrom : fromBlock ≤ U64_MAX)
    (hup : ∀ d, upto = some d → fromBlock ≤ d ∧ d ≤ U64_MAX)
    (hf : scanStart f upto = scanStart fromBlock upto) :
    ∃ k, (∀ d, reachedAfter maxRange tip (scanStart fromBlock upto) upto k = some d →
        fromBlock ≤ d ∧ d ≤ U64_MAX) ∧
      ((scanStep H.logs f maxRange tip answers (replay H.logs fromBlock upto)).1 =
          replay H.logs fromBlock (reachedAfter maxRange tip (scanStart fromBlock upto) upto k) ∧
        (∀ j, ¬HalfRead maxRange tip MAX_CHUNKS_PER_CALL answers (scanStart fromBlock upto) j) ∨
      (scanStep H.logs f maxRange tip answers (replay H.logs fromBlock upto)).1 =
          (fresh H.logs maxRange tip (scanStart fromBlock upto) k).foldl TokenListState.apply
            (replay H.logs fromBlock
              (reachedAfter maxRange tip (scanStart fromBlock upto) upto k)) ∧
        HalfRead maxRange tip MAX_CHUNKS_PER_CALL answers (scanStart fromBlock upto) k) := by
  have hstart : scanStart fromBlock upto ≤ U64_MAX := by
    rcases upto with _ | d
    · exact hfrom
    · exact Nat.min_le_right _ _
  have hlow : fromBlock ≤ scanStart fromBlock upto := by
    rcases upto with _ | d
    · exact le_rfl
    · obtain ⟨h, hmax⟩ := hup d rfl
      rw [scanStart, satAdd]
      omega
  obtain ⟨k, -, hin, hreached, part, hevents, hpart⟩ :=
    @scanChunks_spec H.logs maxRange tip MAX_CHUNKS_PER_CALL answers (scanStart fromBlock upto)
      ⟨upto, [], false⟩
  have hmem : ∀ e, e ∈ (scanChunks H.logs maxRange tip MAX_CHUNKS_PER_CALL answers
      (scanStart fromBlock upto) ⟨upto, [], false⟩).events ↔
        Read H.logs maxRange tip (scanStart fromBlock upto) k e ∨ e ∈ part := by
    intro e
    rw [hevents]
    simp
  have hlast : ∀ D, lastStop maxRange tip (scanStart fromBlock upto) k = some D →
      scanStart fromBlock upto ≤ D ∧ D ≤ U64_MAX := by
    rcases k with _ | k
    · rintro D ⟨⟩
    · rintro D ⟨⟩
      have hone : chunkStart maxRange tip (scanStart fromBlock upto) k ≤
          chunkStop maxRange tip (chunkStart maxRange tip (scanStart fromBlock upto) k) :=
        le_chunkStop (chunkStart_le hstart) (hin k (Nat.lt_succ_self k))
      have hfirst := start_le_chunkStart hstart fun j (hj : j < k) => hin j (by omega)
      exact ⟨hfirst.trans hone, chunkStop_le⟩
  have hwindow : { (window H.logs (scanStart fromBlock upto)
        (lastStop maxRange tip (scanStart fromBlock upto) k)).foldl TokenListState.apply
          (replay H.logs fromBlock upto) with
      scannedTo := reachedAfter maxRange tip (scanStart fromBlock upto) upto k } =
        replay H.logs fromBlock
          (reachedAfter maxRange tip (scanStart fromBlock upto) upto k) := by
    rw [reachedAfter]
    rcases hk : lastStop maxRange tip (scanStart fromBlock upto) k with _ | D
    · rfl
    · exact foldl_window hup rfl (hlast D hk).1
  have hscan : ∀ {rest : List Log}, (part = [] ∧ rest = [] ∨
      part = getLogs H.logs true (chunkStart maxRange tip (scanStart fromBlock upto) k)
        (chunkStop maxRange tip (chunkStart maxRange tip (scanStart fromBlock upto) k)) ∧
      rest = fresh H.logs maxRange tip (scanStart fromBlock upto) k) →
      (scanStep H.logs f maxRange tip answers (replay H.logs fromBlock upto)).1 =
        rest.foldl TokenListState.apply (replay H.logs fromBlock
          (reachedAfter maxRange tip (scanStart fromBlock upto) upto k)) := by
    intro rest hcase
    have hto : (replay H.logs fromBlock upto).scannedTo = upto := rfl
    rw [← hwindow, foldl_scannedTo, ← foldl_events hstart hin hmem hcase, scanStep]
    dsimp only
    rw [hto, hf, hreached]
    rfl
  refine ⟨k, ?_, ?_⟩
  · intro d hd
    rw [reachedAfter] at hd
    rcases hk : lastStop maxRange tip (scanStart fromBlock upto) k with _ | D
    · rw [hk, Option.none_or] at hd
      exact hup d hd
    · rw [hk, Option.some_or] at hd
      obtain rfl := Option.some.inj hd
      exact ⟨hlow.trans (hlast D hk).1, (hlast D hk).2⟩
  · rcases hpart with ⟨hnil, hno⟩ | ⟨hhalf, hpart⟩
    · exact .inl ⟨hscan (.inl ⟨hnil, rfl⟩), hno⟩
    · exact .inr ⟨hscan (.inr ⟨hpart, rfl⟩), hhalf⟩

end Scan

/-! ### The runs -/

section Runs

variable {H : History} {p : Pool} {s s' : Listings} {a : Event} {o : Reply}
  {tr : List (Entry Listings Event Reply)} {answers : ℕ → Bool × Bool}

/-- **What is kept is what was read**: the replay of the blocks up to its cursor. -/
def Faithful (H : History) (p : Pool) (st : TokenListState) : Prop :=
  st = replay H.logs p.fromBlock st.scannedTo

/-- A state that a scan may go on from. -/
def Good (H : History) (p : Pool) (st : TokenListState) : Prop :=
  ∃ upto, st = replay H.logs p.fromBlock upto ∧ ∀ d, upto = some d → p.fromBlock ≤ d ∧ d ≤ U64_MAX

/-- **A scan that may break off**: where it does in the middle of a chunk, and what it ends up with
is kept, the logs of the chunk that it has read list tokens that are listed. -/
def ScanSafe (H : History) (p : Pool) (cache : Option TokenListState) (scan : Scan)
    (answers : ℕ → Bool × Bool) : Prop :=
  ∀ k, HalfRead p.maxRange scan.tip MAX_CHUNKS_PER_CALL answers
      (scanStart p.fromBlock scan.state.scannedTo) k →
    (cache.all fun cur => atLeast (reachedAfter p.maxRange scan.tip
      (scanStart p.fromBlock scan.state.scannedTo) scan.state.scannedTo k) cur.scannedTo) = true →
    ∀ e ∈ fresh H.logs p.maxRange scan.tip (scanStart p.fromBlock scan.state.scannedTo) k,
      (replay H.logs p.fromBlock (reachedAfter p.maxRange scan.tip
        (scanStart p.fromBlock scan.state.scannedTo) scan.state.scannedTo k)).live e.token =
          some true

/-- **A safe step**: a scan that ends in it may have broken off where it did. -/
def Safe (H : History) (p : Pool) (s : Listings) : Event → Prop
  | .request _ _ => True
  | .answer id answers => ∀ scan, s.requests id = some scan → ScanSafe H p s.cache scan answers
  | .wake => True
  | .finish answers => ∀ scan, s.backfill = some scan → ScanSafe H p s.cache scan answers

/-- What is kept and what is on its way was read. -/
structure Inv (H : History) (p : Pool) (s : Listings) : Prop where
  cache : ∀ st, s.cache = some st → Good H p st
  requests : ∀ id scan, s.requests id = some scan →
    scan.fromBlock = p.fromBlock ∧ Good H p scan.state
  backfill : ∀ scan, s.backfill = some scan →
    scan.state.scannedTo.isSome = true ∧ Good H p scan.state
  spawned : s.spawned.isSome = true → ∃ st, s.cache = some st ∧ st.scannedTo.isSome = true

theorem Good.faithful {st : TokenListState} (h : Good H p st) : Faithful H p st := by
  obtain ⟨upto, rfl, -⟩ := h
  rfl

theorem good_empty : Good H p TokenListState.empty := ⟨none, rfl, fun _ h => nomatch h⟩

/-- **What a scan makes of what was read** is what was read, exactly if the logs of a chunk that
it broke off in list tokens that are listed. -/
theorem scan_spec {scan : Scan} (hgood : Good H p scan.state)
    (hf : scanStart scan.fromBlock scan.state.scannedTo =
      scanStart p.fromBlock scan.state.scannedTo) {r : TokenListState}
    (hr : r = (scanStep H.logs scan.fromBlock p.maxRange scan.tip answers scan.state).1) :
    (∀ k, HalfRead p.maxRange scan.tip MAX_CHUNKS_PER_CALL answers
        (scanStart p.fromBlock scan.state.scannedTo) k →
      r.scannedTo = reachedAfter p.maxRange scan.tip
        (scanStart p.fromBlock scan.state.scannedTo) scan.state.scannedTo k) ∧
    (Faithful H p r → Good H p r) ∧
    (Faithful H p r ↔ ScanSafe H p none scan answers) := by
  obtain ⟨f, tip, st⟩ := scan
  obtain ⟨upto, rfl, hup⟩ := hgood
  obtain ⟨k, hbounds, ⟨hscan, hno⟩ | ⟨hscan, hhalf⟩⟩ :=
    @scanStep_replay H p.maxRange tip p.fromBlock answers upto f p.fromBlock_le hup hf
  · rw [← show r = _ from hr] at hscan
    have hgood : Good H p r := ⟨_, hscan, hbounds⟩
    exact ⟨fun j hj => absurd hj (hno j), fun _ => hgood,
      fun _ j hj => absurd hj (hno j), fun _ => hgood.faithful⟩
  · rw [← show r = _ from hr] at hscan
    have hto : r.scannedTo = reachedAfter p.maxRange tip (scanStart p.fromBlock upto) upto k := by
      rw [hscan, TokenListState.scannedTo_foldl]
      rfl
    have hlisted : ∀ e ∈ fresh H.logs p.maxRange tip (scanStart p.fromBlock upto) k,
        e.isListed = true := fun e he => (mem_getLogs.mp (List.mem_filter.mp he).1).2.1
    have hiff : Faithful H p r ↔ ∀ e ∈ fresh H.logs p.maxRange tip (scanStart p.fromBlock upto) k,
        (replay H.logs p.fromBlock (reachedAfter p.maxRange tip (scanStart p.fromBlock upto)
          upto k)).live e.token = some true := by
      rw [Faithful, hto, hscan]
      exact TokenListState.foldl_eq_iff tidy_replay hlisted
    refine ⟨?_, ?_, ?_⟩
    · intro j hj
      rw [hhalf.unique hj]
      exact hto
    · intro hfaith
      exact ⟨_, hfaith, by rw [hto]; exact hbounds⟩
    · rw [hiff]
      constructor
      · intro h j hj _
        rw [hhalf.unique hj]
        exact h
      · exact fun h => h k hhalf rfl

theorem atLeast_refl (c : Option ℕ) : atLeast c c = true := by
  cases c with
  | none => rfl
  | some d => exact decide_eq_true le_rfl

/-- **What `store_state` keeps**: the state, unless what is kept is newer. -/
theorem cache_storeState {st : TokenListState} :
    (storeState s st).cache =
      if (s.cache.all fun cur => atLeast st.scannedTo cur.scannedTo) = true then some st
      else s.cache := by
  rw [storeState]
  split <;> rfl

/-- **The cursor never goes back.** -/
theorem forward_storeState {st c : TokenListState} (hc : s.cache = some c) :
    ∃ c', (storeState s st).cache = some c' ∧ atLeast c'.scannedTo c.scannedTo = true := by
  rw [cache_storeState, hc, Option.all_some]
  split
  · next h => exact ⟨st, rfl, h⟩
  · exact ⟨c, rfl, atLeast_refl _⟩

theorem storeState_eq {st : TokenListState} :
    storeState s st = { s with cache := (storeState s st).cache } := by
  rw [storeState]
  split <;> rfl

/-- **Storing what a scan ends up with**: what is kept then was read exactly if the scan was
safe. -/
theorem storeState_iff {scan : Scan} (hcache : ∀ st, s.cache = some st → Good H p st)
    (hgood : Good H p scan.state)
    (hf : scanStart scan.fromBlock scan.state.scannedTo =
      scanStart p.fromBlock scan.state.scannedTo) {r : TokenListState}
    (hr : r = (scanStep H.logs scan.fromBlock p.maxRange scan.tip answers scan.state).1) :
    ((∀ st, (storeState s r).cache = some st → Faithful H p st) ↔
      ScanSafe H p s.cache scan answers) ∧
    ((∀ st, (storeState s r).cache = some st → Faithful H p st) →
      ∀ st, (storeState s r).cache = some st → Good H p st) := by
  obtain ⟨hto, hkeep, hiff⟩ := scan_spec hgood hf hr
  rw [cache_storeState]
  by_cases hnew : (s.cache.all fun cur => atLeast r.scannedTo cur.scannedTo) = true
  · rw [if_pos hnew]
    simp only [Option.some.injEq, forall_eq']
    refine ⟨hiff.trans ⟨?_, ?_⟩, hkeep⟩
    · exact fun h k hk _ => h k hk rfl
    · intro h k hk _
      exact h k hk (by rw [← hto k hk]; exact hnew)
  · rw [if_neg hnew]
    refine ⟨⟨?_, fun _ st hst => (hcache st hst).faithful⟩, fun _ => hcache⟩
    intro _ k hk hstored
    rw [← hto k hk] at hstored
    exact absurd hstored hnew

theorem cache_spawnBackfill {tip : ℕ} : (spawnBackfill s tip).cache = s.cache := by
  rw [spawnBackfill]
  split <;> rfl

/-- **What a request does before its own scan**: it answers from what is kept, and may spawn a
backfill, or goes on from a copy of it. -/
theorem request_cases {id tip : ℕ} :
    (∃ st done, s.cache = some st ∧ st.scannedTo = some done ∧
      ((request p s id tip).1 = s ∨ (request p s id tip).1 = spawnBackfill s tip)) ∨
    (request p s id tip).1 = { s with
      requests := Function.update s.requests id
        (some ⟨p.fromBlock, tip, s.cache.getD TokenListState.empty⟩) } := by
  unfold request
  rcases hcache : s.cache with _ | st
  · exact .inr rfl
  rcases hto : st.scannedTo with _ | done
  · exact .inr (by simp only [hto])
  · simp only [hto]
    by_cases hlisted : st.listed = []
    · exact .inr (by rw [if_neg (not_not.mpr hlisted)])
    · refine .inl ⟨st, done, rfl, hto, ?_⟩
      rw [if_pos hlisted]
      dsimp only
      split
      · exact .inr rfl
      · exact .inl rfl

theorem good_getD (hcache : ∀ st, s.cache = some st → Good H p st) :
    Good H p (s.cache.getD TokenListState.empty) := by
  rcases h : s.cache with _ | st
  · exact good_empty
  · exact hcache st h

theorem inv_start : Inv H p start where
  cache := fun _ h => nomatch h
  requests := fun _ _ h => nomatch h
  backfill := fun _ h => nomatch h
  spawned := fun h => nomatch h

theorem isSome_of_atLeast {c d : Option ℕ} (h : atLeast c d = true) (hd : d.isSome = true) :
    c.isSome = true := by
  rcases d with _ | d
  · cases hd
  · rcases c with _ | c
    · cases h
    · rfl

/-- What the backfill that was spawned goes on from is still there after a scan is stored. -/
theorem spawned_storeState {st : TokenListState}
    (h : ∃ st, s.cache = some st ∧ st.scannedTo.isSome = true) :
    ∃ st', (storeState s st).cache = some st' ∧ st'.scannedTo.isSome = true := by
  obtain ⟨c, hc, hsome⟩ := h
  obtain ⟨c', hc', hle⟩ := @forward_storeState s st c hc
  exact ⟨c', hc', isSome_of_atLeast hle hsome⟩

/-- **One step**: while what is kept and what is on its way was read, what is kept after a step
was read exactly if the step was safe, and then so was what is on its way. -/
theorem step_iff (hinv : Inv H p s) (h : exec H.logs p s a = some (s', o)) :
    ((∀ st, s'.cache = some st → Faithful H p st) ↔ Safe H p s a) ∧
      ((∀ st, s'.cache = some st → Faithful H p st) → Inv H p s') := by
  have hsame : ∀ {t : Listings}, t.cache = s.cache → ∀ st, t.cache = some st → Faithful H p st :=
    fun heq st hst => (hinv.cache st (heq ▸ hst)).faithful
  cases a with
  | request id tip =>
    obtain ⟨-, hreq⟩ := Option.ite_none_right_eq_some.mp h
    obtain rfl : (request p s id tip).1 = s' := congrArg Prod.fst (Option.some.inj hreq)
    rcases @request_cases p s id tip with ⟨st, done, hst, hto, heq | heq⟩ | heq
    · rw [heq]
      exact ⟨⟨fun _ => trivial, fun _ => hsame rfl⟩, fun _ => hinv⟩
    · rw [heq]
      refine ⟨⟨fun _ => trivial, fun _ => hsame cache_spawnBackfill⟩, fun _ => ?_⟩
      rw [spawnBackfill]
      split
      · exact hinv
      · exact ⟨hinv.cache, hinv.requests, hinv.backfill, fun _ => ⟨st, hst, by rw [hto]; rfl⟩⟩
    · rw [heq]
      refine ⟨⟨fun _ => trivial, fun _ => hsame rfl⟩, fun _ => ⟨hinv.cache, ?_, hinv.backfill,
        hinv.spawned⟩⟩
      intro id' scan hscan
      dsimp only at hscan
      rw [Function.update_apply] at hscan
      split at hscan
      · obtain rfl := Option.some.inj hscan
        exact ⟨rfl, good_getD hinv.cache⟩
      · exact hinv.requests id' scan hscan
  | answer id answers =>
    obtain ⟨scan, hscan, hans⟩ := Option.map_eq_some_iff.mp h
    obtain ⟨rfl, -⟩ := Prod.mk.inj hans
    obtain ⟨hfrom, hgood⟩ := hinv.requests id scan hscan
    have hstore := @storeState_iff H p { s with requests := Function.update s.requests id none }
      answers scan hinv.cache hgood (by rw [hfrom]) _ rfl
    refine ⟨hstore.1.trans ⟨?_, fun hsafe => hsafe scan hscan⟩, fun hC => ?_⟩
    · intro hsafe scan' hscan'
      obtain rfl := Option.some.inj (hscan.symm.trans hscan')
      exact hsafe
    · refine ⟨hstore.2 hC, ?_, ?_, ?_⟩
      · intro id' scan' hscan'
        rw [storeState_eq] at hscan'
        dsimp only at hscan'
        rw [Function.update_apply] at hscan'
        split at hscan'
        · cases hscan'
        · exact hinv.requests id' scan' hscan'
      · intro scan' hscan'
        rw [storeState_eq] at hscan'
        exact hinv.backfill scan' hscan'
      · intro hspawned
        rw [storeState_eq] at hspawned
        exact spawned_storeState (hinv.spawned hspawned)
  | wake =>
    obtain ⟨tip, htip, heq⟩ := Option.map_eq_some_iff.mp h
    obtain ⟨rfl, -⟩ := Prod.mk.inj heq
    refine ⟨⟨fun _ => trivial, fun _ => hsame rfl⟩, fun _ => ⟨hinv.cache, hinv.requests, ?_,
      fun hnone => nomatch hnone⟩⟩
    intro scan hscan
    obtain rfl := Option.some.inj hscan
    obtain ⟨st, hst, hsome⟩ := hinv.spawned (by rw [htip]; rfl)
    refine ⟨?_, good_getD hinv.cache⟩
    rw [hst, Option.getD_some]
    exact hsome
  | finish answers =>
    obtain ⟨scan, hscan, heq⟩ := Option.map_eq_some_iff.mp h
    obtain ⟨rfl, -⟩ := Prod.mk.inj heq
    obtain ⟨hsome, hgood⟩ := hinv.backfill scan hscan
    have hf : scanStart scan.fromBlock scan.state.scannedTo =
        scanStart p.fromBlock scan.state.scannedTo := by
      obtain ⟨d, hd⟩ := Option.isSome_iff_exists.mp hsome
      rw [hd]
      rfl
    have hstore := @storeState_iff H p { s with backfill := none } answers scan hinv.cache hgood
      hf _ rfl
    refine ⟨hstore.1.trans ⟨?_, fun hsafe => hsafe scan hscan⟩, fun hC => ?_⟩
    · intro hsafe scan' hscan'
      obtain rfl := Option.some.inj (hscan.symm.trans hscan')
      exact hsafe
    · refine ⟨hstore.2 hC, ?_, ?_, ?_⟩
      · intro id' scan' hscan'
        dsimp only at hscan'
        rw [storeState_eq] at hscan'
        exact hinv.requests id' scan' hscan'
      · intro scan' hscan'
        dsimp only at hscan'
        rw [storeState_eq] at hscan'
        cases hscan'
      · intro hspawned
        dsimp only at hspawned
        rw [storeState_eq] at hspawned
        exact spawned_storeState (hinv.spawned hspawned)

/-- **The cursor of what is kept** never goes back. -/
theorem forward_exec (h : exec H.logs p s a = some (s', o)) {c : TokenListState}
    (hc : s.cache = some c) :
    ∃ c', s'.cache = some c' ∧ atLeast c'.scannedTo c.scannedTo = true := by
  have hsame : ∀ {t : Listings}, t.cache = s.cache →
      ∃ c', t.cache = some c' ∧ atLeast c'.scannedTo c.scannedTo = true :=
    fun heq => ⟨c, heq.trans hc, atLeast_refl _⟩
  cases a with
  | request id tip =>
    obtain ⟨-, hreq⟩ := Option.ite_none_right_eq_some.mp h
    obtain rfl : (request p s id tip).1 = s' := congrArg Prod.fst (Option.some.inj hreq)
    rcases @request_cases p s id tip with ⟨-, -, -, -, heq | heq⟩ | heq
    · exact hsame (by rw [heq])
    · exact hsame (by rw [heq, cache_spawnBackfill])
    · exact hsame (by rw [heq])
  | answer id answers =>
    obtain ⟨scan, -, hans⟩ := Option.map_eq_some_iff.mp h
    obtain ⟨rfl, -⟩ := Prod.mk.inj hans
    exact forward_storeState hc
  | wake =>
    obtain ⟨tip, -, heq⟩ := Option.map_eq_some_iff.mp h
    obtain ⟨rfl, -⟩ := Prod.mk.inj heq
    exact hsame rfl
  | finish answers =>
    obtain ⟨scan, -, heq⟩ := Option.map_eq_some_iff.mp h
    obtain ⟨rfl, -⟩ := Prod.mk.inj heq
    exact forward_storeState hc

/-- **The listing is a replay up to its cursor**: every state that is kept in a run is the replay
of the blocks up to the one it says, and that one never goes back. -/
structure Replays (H : History) (p : Pool) (tr : List (Entry Listings Event Reply)) : Prop where
  faithful : ∀ e ∈ tr, ∀ st, e.post.cache = some st → Faithful H p st
  forward : ∀ e ∈ tr, ∀ c, e.pre.cache = some c →
    ∃ c', e.post.cache = some c' ∧ atLeast c'.scannedTo c.scannedTo = true

/-- What is kept along a run was read, exactly if every step was safe. -/
theorem faithful_iff (hrun : Run (exec H.logs p) start tr s) :
    (∀ e ∈ tr, ∀ st, e.post.cache = some st → Faithful H p st) ↔
      ∀ e ∈ tr, Safe H p e.pre e.label :=
  hrun.forall_post_iff (P := Inv H p)
    (C := fun s => ∀ st, s.cache = some st → Faithful H p st) (Q := Safe H p) inv_start
    (fun _ _ _ _ hinv hexec => (step_iff hinv hexec).1)
    (fun _ _ _ _ hinv hexec => (step_iff hinv hexec).2)

/-- **When the listing is a replay**: in a run of requests and backfills, in any order and with any
of their reads failing, exactly if no scan whose state is kept broke off between the two reads of
a chunk that lists a token which was not listed before it. -/
theorem replays_iff (hrun : Run (exec H.logs p) start tr s) :
    Replays H p tr ↔ ∀ e ∈ tr, Safe H p e.pre e.label := by
  constructor
  · exact fun h => (faithful_iff hrun).mp h.faithful
  · intro h
    exact ⟨(faithful_iff hrun).mpr h, fun e he c hc => forward_exec (hrun.exec_of_mem he) hc⟩

end Runs

/-! ### Two runs -/

/-- A pool that lists two tokens and then delists one of them. -/
def threeLogs : History where
  logs := [⟨5, 0, true, 0xaa⟩, ⟨6, 0, true, 0xbb⟩, ⟨7, 0, false, 0xbb⟩]
  sorted := by decide

theorem ten_pos : 0 < 10 := by decide

/-- That pool, from its first block, ten blocks at a time. -/
def smallPool : Pool where
  fromBlock := 5
  maxRange := 10
  fromBlock_le := by decide
  maxRange_pos := ten_pos

/-- A request whose reads are all answered. -/
def answered : List Event := [.request 0 20, .answer 0 fun _ => (true, true)]

/-- A request whose second read fails. -/
def brokenOff : List Event := [.request 0 20, .answer 0 fun k => (true, k ≠ 0)]

/-- Where every read is answered, the listing is a replay. -/
theorem replays_answered :
    Replays threeLogs smallPool (traceOf (exec threeLogs.logs smallPool) start answered).1 ∧
      (traceOf (exec threeLogs.logs smallPool) start answered).2.cache.map
        TokenListState.scannedTo = some (some 20) ∧
      (replay threeLogs.logs smallPool.fromBlock (some 20)).listed = [0xaa] := by
  have hsome : (runFrom (exec threeLogs.logs smallPool) start answered).isSome = true := by
    decide +kernel
  refine ⟨(replays_iff (run_traceOf hsome)).mpr ?_, by decide +kernel, by decide +kernel⟩
  intro e he
  have hlabel : e.label ∈ answered := label_traceOf hsome ▸ List.mem_map_of_mem he
  rcases List.mem_cons.mp hlabel with h | hlabel
  · rw [h]
    trivial
  · rw [List.mem_singleton.mp hlabel]
    intro scan _ k hk
    have hhalf := hk.half
    cases hhalf

/-- A chunk that could not be read leaves tokens behind, among them one that it delists. -/
theorem not_replays_brokenOff :
    Run (exec threeLogs.logs smallPool) start
        (traceOf (exec threeLogs.logs smallPool) start brokenOff).1
        (traceOf (exec threeLogs.logs smallPool) start brokenOff).2 ∧
      (traceOf (exec threeLogs.logs smallPool) start brokenOff).2.cache.map
        TokenListState.scannedTo = some none ∧
      ¬Replays threeLogs smallPool
        (traceOf (exec threeLogs.logs smallPool) start brokenOff).1 := by
  have hsome : (runFrom (exec threeLogs.logs smallPool) start brokenOff).isSome = true := by
    decide +kernel
  refine ⟨run_traceOf hsome, by decide +kernel, ?_⟩
  intro h
  have hsafe := (faithful_iff (run_traceOf hsome)).mp h.faithful
  -- The scan of the request, which goes on from nothing and breaks off in the first chunk.
  have hmem : ∃ e ∈ (traceOf (exec threeLogs.logs smallPool) start brokenOff).1,
      e.pre = (request smallPool start 0 20).1 ∧ e.label = .answer 0 fun k => (true, k ≠ 0) :=
    ⟨_, List.mem_cons_of_mem _ List.mem_cons_self, rfl, rfl⟩
  obtain ⟨e, he, hpre, hlabel⟩ := hmem
  have hscan := hsafe e he
  rw [hpre, hlabel] at hscan
  have hhalf : HalfRead 10 20 MAX_CHUNKS_PER_CALL (fun k => (true, k ≠ 0)) 5 0 := by
    refine ⟨by decide, fun _ hj => absurd hj (Nat.not_lt_zero _), ?_, rfl⟩
    rintro j hj
    obtain rfl := Nat.le_zero.mp hj
    decide
  have hlive := hscan ⟨5, 20, TokenListState.empty⟩ rfl 0 hhalf rfl ⟨5, 0, true, 0xaa⟩
    (by decide +kernel)
  cases hlive

end Api

end SelendraBridge
