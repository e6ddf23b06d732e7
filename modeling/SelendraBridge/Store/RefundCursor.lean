import Mathlib.Data.List.DropRight
import SelendraBridge.Lib.Paging
import SelendraBridge.Lib.Transition

/-!
# Walking the refund queue

A refund loop does not read its queue at once. Each tick it walks some pages of it
(`SelendraBridge.Store.walk`), from where the last tick stopped, and starts at the head again
once it came to the end. The cursor that says where is moved page by page, but the rows are
given to the caller at the end of the walk, and only if no page failed.

So the cursor and the rows go together as long as a walk that fails does so at its first
page. Then what was returned since the last wrap is what the cursor is past, and the walks of
a cycle return the queue. A walk that fails later has moved the cursor over pages that nobody
gets (`SelendraBridge.Store.rows_skipped`), and that is the only way
(`SelendraBridge.Store.nothing_skipped_iff`).
-/

namespace SelendraBridge

namespace Store

open Transition Paging

/-! ### The queue -/

/-- The refund queue: rows with an id, in the strict order of the keys of their ids. -/
structure Queue (ρ ι κ : Type) [LinearOrder κ] where
  rows : List ρ
  id : ρ → ι
  /-- What the rows are ordered by: the time a row was made, then its id. -/
  keyOf : ι → κ
  sorted : rows.Pairwise fun a b => keyOf (id a) < keyOf (id b)

variable {ρ ι κ : Type} [LinearOrder κ]

namespace Queue

variable (q : Queue ρ ι κ)

def key (r : ρ) : κ := q.keyOf (q.id r)

/-- The rows after a cursor. -/
def rest (after : Option ι) : List ρ := Paging.after q.key q.rows (after.map q.keyOf)

/-- The rows that a cursor is past. -/
def passed (after : Option ι) : List ρ := upTo q.key q.rows (after.map q.keyOf)

/-- `refund_candidates`: one page. -/
def refundCandidates (limit : ℕ) (after : Option ι) : List ρ := (q.rest after).take limit

end Queue

/-! ### The walk -/

/-- `RefundCursor`. -/
structure RefundCursor (ι : Type) where
  after : Option ι
  deriving DecidableEq

/-- `RefundWalk`: what one tick produced. -/
structure RefundWalk (ρ : Type) where
  candidates : List ρ
  /-- There is more. -/
  truncated : Bool
  deriving DecidableEq

section Walk

variable {ε : Type} (id : ρ → ι) (limit : ℕ) (fetch : ℕ → Option ι → Except ε (List ρ))

/-- The loop of `walk`, with the pages it may still read, the number of the next one, and what
it has. -/
def walkFrom : ℕ → ℕ → RefundCursor ι → List ρ → RefundCursor ι × Except ε (RefundWalk ρ)
  | 0, _, cursor, candidates => (cursor, .ok ⟨candidates, true⟩)
  | budget + 1, n, cursor, candidates =>
    match fetch n cursor.after with
    | .error e => (cursor, .error e)
    | .ok page =>
      let moved := (page.getLast?.map id).or cursor.after
      -- A short page is the end of the queue: the next tick starts at the head.
      if page.length < limit then (⟨none⟩, .ok ⟨candidates ++ page, false⟩)
      else walkFrom budget (n + 1) ⟨moved⟩ (candidates ++ page)

/-- `RefundCursor::walk`: up to `budget` pages of `limit` rows. -/
def walk (budget : ℕ) (cursor : RefundCursor ι) : RefundCursor ι × Except ε (RefundWalk ρ) :=
  walkFrom id limit fetch budget 0 cursor []

end Walk

/-- Pages that fail when they do, and else are those of the queue. -/
def Queue.fetch (q : Queue ρ ι κ) (limit : ℕ) (fails : ℕ → Bool) (n : ℕ) (after : Option ι) :
    Except Unit (List ρ) :=
  if fails n then .error () else .ok (q.refundCandidates limit after)

variable {q : Queue ρ ι κ} {limit budget n : ℕ} {fails : ℕ → Bool}
  {cursor cursor' : RefundCursor ι} {candidates : List ρ} {r : Except Unit (RefundWalk ρ)}

/-- The rows are those that a cursor is past and those after it. -/
theorem passed_append_rest (after : Option ι) : q.passed after ++ q.rest after = q.rows :=
  upTo_append_after q.sorted _

/-- A cursor at the head is past nothing. -/
@[simp] theorem passed_none : q.passed none = [] := upTo_none

/-- **A full page moves the cursor over itself.** -/
theorem moved_of_page (hlimit : limit ≤ (q.rest cursor.after).length) :
    q.passed (((q.refundCandidates limit cursor.after).getLast?.map q.id).or cursor.after) =
        q.passed cursor.after ++ q.refundCandidates limit cursor.after ∧
      q.rest (((q.refundCandidates limit cursor.after).getLast?.map q.id).or cursor.after) =
        (q.rest cursor.after).drop limit := by
  rcases List.eq_nil_or_concat (q.refundCandidates limit cursor.after) with hnil | ⟨page, x, hpage⟩
  · -- Only a page of no rows is full and empty.
    have hzero : limit = 0 := by
      have hlen := congrArg List.length hnil
      rw [Queue.refundCandidates, List.length_take, List.length_nil] at hlen
      omega
    rw [hnil, hzero]
    exact ⟨(List.append_nil _).symm, rfl⟩
  · rw [List.concat_eq_append] at hpage
    have hsplit : q.rest cursor.after = page ++ x :: (q.rest cursor.after).drop limit := by
      have htake : (q.rest cursor.after).take limit = page ++ [x] := hpage
      calc q.rest cursor.after
          = (q.rest cursor.after).take limit ++ (q.rest cursor.after).drop limit :=
            (List.take_append_drop _ _).symm
        _ = page ++ x :: (q.rest cursor.after).drop limit := by
            rw [htake, List.append_assoc, List.singleton_append]
    rw [hpage, List.getLast?_concat, ← List.append_assoc]
    exact ⟨upTo_last q.sorted hsplit, after_last q.sorted hsplit⟩

/-- **What the loop of a walk does**, from a cursor. -/
inductive Walked (q : Queue ρ ι κ) (limit : ℕ) (fails : ℕ → Bool) (budget n : ℕ)
    (cursor : RefundCursor ι) (candidates : List ρ) :
    RefundCursor ι → Except Unit (RefundWalk ρ) → Prop
  /-- The budget is used up. -/
  | truncated {cursor' : RefundCursor ι} {found : List ρ}
      (passed : q.passed cursor'.after = q.passed cursor.after ++ found)
      (served : ∀ k < budget, fails (n + k) = false) :
      Walked q limit fails budget n cursor candidates cursor' (.ok ⟨candidates ++ found, true⟩)
  /-- The end of the queue is reached, with a page that is short. -/
  | ended {found : List ρ} {m : ℕ} (passed : q.passed cursor.after ++ found = q.rows)
      (short : (q.rest cursor.after).length < (m + 1) * limit)
      (served : ∀ k ≤ m, fails (n + k) = false) :
      Walked q limit fails budget n cursor candidates ⟨none⟩ (.ok ⟨candidates ++ found, false⟩)
  /-- A page fails, after some that did not. -/
  | failed {cursor' : RefundCursor ι} {m : ℕ} (few : m < budget)
      (fail : fails (n + m) = true) (served : ∀ k < m, fails (n + k) = false)
      (full : m * limit ≤ (q.rest cursor.after).length)
      (passed : q.passed cursor'.after =
        q.passed cursor.after ++ (q.rest cursor.after).take (m * limit))
      (still : m = 0 → cursor' = cursor) :
      Walked q limit fails budget n cursor candidates cursor' (.error ())

theorem walked_of_walkFrom (budget n : ℕ) (cursor : RefundCursor ι) (candidates : List ρ) :
    Walked q limit fails budget n cursor candidates
      (walkFrom q.id limit (q.fetch limit fails) budget n cursor candidates).1
      (walkFrom q.id limit (q.fetch limit fails) budget n cursor candidates).2 := by
  induction budget generalizing n cursor candidates with
  | zero =>
    have h := @Walked.truncated ρ ι κ _ q limit fails 0 n cursor candidates cursor []
      (List.append_nil _).symm fun k hk => absurd hk (Nat.not_lt_zero k)
    rwa [List.append_nil] at h
  | succ budget ih =>
    unfold walkFrom
    rcases hfail : fails n with _ | _
    · have hfetch : q.fetch limit fails n cursor.after =
          .ok (q.refundCandidates limit cursor.after) := if_neg (by rw [hfail]; simp)
      rw [hfetch]
      dsimp only
      split
      · next hshort =>
        have hlen : (q.rest cursor.after).length < limit := by
          rw [Queue.refundCandidates, List.length_take] at hshort
          omega
        have hall : q.refundCandidates limit cursor.after = q.rest cursor.after :=
          List.take_of_length_le hlen.le
        refine .ended (m := 0) ?_ (by omega) fun k hk => ?_
        · rw [hall]
          exact passed_append_rest _
        · obtain rfl : k = 0 := by omega
          exact hfail
      · next hfull =>
        have hlen : limit ≤ (q.rest cursor.after).length := by
          rw [Queue.refundCandidates, List.length_take] at hfull
          omega
        obtain ⟨hpassed, hrest⟩ := moved_of_page hlen
        have hserved : ∀ {m : ℕ}, (∀ k < m, fails (n + 1 + k) = false) →
            ∀ k < m + 1, fails (n + k) = false := by
          rintro m hm k hk
          rcases k with _ | k
          · exact hfail
          · rw [show n + (k + 1) = n + 1 + k by omega]
            exact hm k (by omega)
        have hdrop : ((q.rest cursor.after).drop limit).length =
          (q.rest cursor.after).length - limit := List.length_drop
        generalize hmoved : (⟨((q.refundCandidates limit cursor.after).getLast?.map q.id).or
          cursor.after⟩ : RefundCursor ι) = moved
        rw [show ((q.refundCandidates limit cursor.after).getLast?.map q.id).or cursor.after =
          moved.after by rw [← hmoved]] at hpassed hrest
        have hih := ih (n + 1) moved (candidates ++ q.refundCandidates limit cursor.after)
        generalize walkFrom q.id limit (q.fetch limit fails) budget (n + 1) moved
          (candidates ++ q.refundCandidates limit cursor.after) = result at hih
        rcases result with ⟨cursor', r⟩
        cases hih with
        | truncated passed served =>
          rw [List.append_assoc]
          refine .truncated ?_ (hserved served)
          rw [passed, hpassed, List.append_assoc]
        | @ended found pages passed short served =>
          rw [List.append_assoc]
          refine .ended (m := pages + 1) ?_ ?_ fun k hk => ?_
          · rw [← List.append_assoc, ← hpassed]
            exact passed
          · rw [hrest, hdrop] at short
            rw [Nat.add_mul, Nat.one_mul]
            omega
          · exact hserved (m := pages + 1) (fun k hk => served k (by omega)) k (by omega)
        | @failed _ pages few fail served full passed still =>
          refine .failed (m := pages + 1) (by omega) ?_ (hserved served) ?_ ?_ (by omega)
          · rw [show n + (pages + 1) = n + 1 + pages by omega]
            exact fail
          · rw [hrest, hdrop] at full
            rw [Nat.add_mul, Nat.one_mul]
            omega
          · rw [passed, hpassed, hrest, List.append_assoc, Nat.add_mul, Nat.one_mul,
              Nat.add_comm (pages * limit), List.take_add]
            rfl
    · have hfetch : q.fetch limit fails n cursor.after = .error () := if_pos hfail
      rw [hfetch]
      refine .failed (m := 0) (by omega) hfail (fun k hk => absurd hk (Nat.not_lt_zero k))
        (by omega) ?_ fun _ => rfl
      rw [Nat.zero_mul, List.take_zero, List.append_nil]

/-! ### Tick after tick -/

/-- One tick of a refund loop: a walk with some pages that fail. -/
def tick (q : Queue ρ ι κ) (limit budget : ℕ) (cursor : RefundCursor ι) (fails : ℕ → Bool) :
    Option (RefundCursor ι × Except Unit (RefundWalk ρ)) :=
  some (walk q.id limit (q.fetch limit fails) budget cursor)

/-- A tick of a run. -/
abbrev Tick (ρ ι : Type) := Entry (RefundCursor ι) (ℕ → Bool) (Except Unit (RefundWalk ρ))

/-- What a tick returned to its caller. -/
def Tick.found (e : Tick ρ ι) : List ρ :=
  match e.out with
  | .ok w => w.candidates
  | .error _ => []

/-- A tick reached the end of the queue. -/
def Tick.wraps (e : Tick ρ ι) : Bool :=
  match e.out with
  | .ok w => !w.truncated
  | .error _ => false

/-- What the ticks returned, together. -/
def returned (tr : List (Tick ρ ι)) : List ρ := tr.flatMap Tick.found

/-- The ticks since the last that wrapped. -/
def thisCycle (tr : List (Tick ρ ι)) : List (Tick ρ ι) := tr.rtakeWhile fun e => !e.wraps

/-- **A walk is torn**: a page of it fails after pages that were served. -/
def Torn (q : Queue ρ ι κ) (limit budget : ℕ) (e : Tick ρ ι) : Prop :=
  0 < limit ∧ ∃ pages, 0 < pages ∧ pages < budget ∧ e.label pages = true ∧
    (∀ k < pages, e.label k = false) ∧ pages * limit ≤ (q.rest e.pre.after).length

/-- **No row is skipped.** -/
structure NothingSkipped (q : Queue ρ ι κ) (tr : List (Tick ρ ι)) : Prop where
  /-- The cursor is only past rows that were returned since it was at the head. -/
  cursor : ∀ before e after, tr = before ++ e :: after →
    ∀ r ∈ q.passed e.post.after, r ∈ returned (thisCycle (before ++ [e]))
  /-- The walks of a full cycle return the rows, each once. -/
  cycle : ∀ earlier mid e later, tr = earlier ++ mid ++ e :: later →
    (earlier = [] ∨ ∃ a b, earlier = a ++ [b] ∧ b.wraps = true) →
    (∀ f ∈ mid, f.wraps = false) → e.wraps = true → returned (mid ++ [e]) = q.rows

section Run

variable {tr tr' : List (Tick ρ ι)} {e : Tick ρ ι}

theorem returned_append : returned (tr ++ tr') = returned tr ++ returned tr' :=
  List.flatMap_append

@[simp] theorem returned_singleton : returned [e] = e.found := List.flatMap_singleton _ _

theorem thisCycle_snoc (h : e.wraps = false) : thisCycle (tr ++ [e]) = thisCycle tr ++ [e] :=
  List.rtakeWhile_concat_pos _ _ _ (by rw [h]; rfl)

theorem thisCycle_wrap (h : e.wraps = true) : thisCycle (tr ++ [e]) = [] :=
  List.rtakeWhile_concat_neg _ _ _ (by rw [h]; simp)

/-- A cycle starts where the last one ended. -/
theorem thisCycle_append (h : tr = [] ∨ ∃ a b, tr = a ++ [b] ∧ b.wraps = true)
    (htr' : ∀ f ∈ tr', f.wraps = false) : thisCycle (tr ++ tr') = tr' := by
  induction tr' using List.reverseRecOn with
  | nil =>
    rcases h with rfl | ⟨a, b, rfl, hb⟩
    · rfl
    · rw [List.append_nil, thisCycle_wrap hb]
  | append_singleton tr' f ih =>
    rw [← List.append_assoc, thisCycle_snoc (htr' f (by simp)),
      ih fun g hg => htr' g (List.mem_append_left _ hg)]

/-- What a tick does, from its cursor. -/
theorem walked_of_tick {out : Except Unit (RefundWalk ρ)}
    (h : tick q limit budget cursor fails = some (cursor', out)) :
    Walked q limit fails budget 0 cursor [] cursor' out := by
  obtain ⟨rfl, rfl⟩ := Prod.mk.inj (Option.some.inj h)
  exact walked_of_walkFrom budget 0 cursor []

/-- No row is on both sides of a cursor. -/
theorem not_mem_rest_of_mem_passed {after : Option ι} {x : ρ} (h : x ∈ q.passed after) :
    x ∉ q.rest after := by
  rcases after with _ | a
  · exact absurd h (by simp [Queue.passed])
  · intro hrest
    have hle : q.key x ≤ q.keyOf a := by simpa [Queue.passed, upTo] using (List.mem_filter.mp h).2
    have hlt : q.keyOf a < q.key x := by
      simpa [Queue.rest, Paging.after] using (List.mem_filter.mp hrest).2
    exact absurd hlt (not_lt.mpr hle)

/-- What was returned in a cycle is what the cursor is past, or less. -/
theorem returned_subset_passed (hrun : Run (tick q limit budget) ⟨none⟩ tr cursor) :
    ∀ x ∈ returned (thisCycle tr), x ∈ q.passed cursor.after := by
  refine hrun.rec_trace (P := fun tr c => ∀ x ∈ returned (thisCycle tr), x ∈ q.passed c.after)
    (fun x hx => absurd hx List.not_mem_nil) ?_
  rintro tr c fails c' out hrun ih hstep x hx
  have hwalk := walked_of_tick hstep
  cases hwalk with
  | @truncated _ found passed served =>
    rw [thisCycle_snoc rfl, returned_append, List.mem_append] at hx
    rw [passed, List.mem_append]
    rcases hx with hx | hx
    · exact .inl (ih x hx)
    · exact .inr (by simpa [returned, Tick.found] using hx)
  | ended =>
    rw [thisCycle_wrap rfl] at hx
    exact absurd hx List.not_mem_nil
  | failed few fail served full passed still =>
    rw [thisCycle_snoc rfl, returned_append, List.mem_append] at hx
    rw [passed, List.mem_append]
    rcases hx with hx | hx
    · exact .inl (ih x hx)
    · exact absurd hx (by simp [returned, Tick.found])

/-- **A torn walk leaves its cursor past rows that were not returned.** -/
theorem exists_skipped_of_torn (hrun : Run (tick q limit budget) ⟨none⟩ (tr ++ [e]) cursor)
    (htorn : Torn q limit budget e) :
    ∃ x ∈ q.passed e.post.after, x ∉ returned (thisCycle (tr ++ [e])) := by
  obtain ⟨hbefore, hstep, -⟩ := hrun.split
  obtain ⟨hlimit, pages, hpages, hfew, hfail, hserved, hfull⟩ := htorn
  have hwalk := walked_of_tick hstep
  generalize hout : e.out = out at hwalk
  generalize hpost : e.post = post at hwalk
  cases hwalk with
  | truncated _ served =>
    have hserve := served pages hfew
    rw [Nat.zero_add] at hserve
    exact absurd (hfail.symm.trans hserve) (by simp)
  | @ended found pages' _ short served =>
    -- The short page comes before the one that fails, or there are not so many pages.
    rcases Nat.lt_or_ge pages' pages with hlt | hge
    · have hle : (pages' + 1) * limit ≤ pages * limit := Nat.mul_le_mul_right _ hlt
      omega
    · have hserve := served pages hge
      rw [Nat.zero_add] at hserve
      exact absurd (hfail.symm.trans hserve) (by simp)
  | @failed _ pages' few fail served full passed still =>
    have hzero : 0 < pages' := by
      rcases Nat.eq_zero_or_pos pages' with rfl | hpos
      · exact absurd (fail.symm.trans (hserved 0 hpages)) (by simp)
      · exact hpos
    have hmany : 0 < pages' * limit := Nat.mul_pos hzero hlimit
    obtain ⟨x, rest, hrest⟩ := List.exists_cons_of_length_pos (l := q.rest e.pre.after) (by omega)
    have hx : x ∈ (q.rest e.pre.after).take (pages' * limit) := by
      obtain ⟨m, hm⟩ := Nat.exists_eq_succ_of_ne_zero hmany.ne'
      rw [hrest, hm, List.take_succ_cons]
      exact List.mem_cons_self
    refine ⟨x, ?_, fun hmem => ?_⟩
    · rw [passed]
      exact List.mem_append_right _ hx
    · have hnone : returned [e] = [] := by
        rw [returned_singleton, Tick.found, hout]
      have hwraps : e.wraps = false := by rw [Tick.wraps, hout]
      rw [thisCycle_snoc hwraps, returned_append, hnone, List.append_nil] at hmem
      exact not_mem_rest_of_mem_passed (returned_subset_passed hbefore x hmem)
        (List.mem_of_mem_take hx)

/-- **Without torn walks the cursor is past exactly what was returned.** -/
theorem returned_eq_passed (hrun : Run (tick q limit budget) ⟨none⟩ tr cursor)
    (hwhole : ∀ e ∈ tr, ¬Torn q limit budget e) :
    returned (thisCycle tr) = q.passed cursor.after := by
  refine hrun.rec_trace (P := fun tr c => (∀ e ∈ tr, ¬Torn q limit budget e) →
    returned (thisCycle tr) = q.passed c.after) (fun _ => passed_none.symm) ?_ hwhole
  rintro tr c fails c' out hrun ih hstep hwhole
  have ih := ih fun e he => hwhole e (List.mem_append_left _ he)
  have hwalk := walked_of_tick hstep
  cases hwalk with
  | @truncated _ found passed served =>
    rw [thisCycle_snoc rfl, returned_append, ih, passed, returned_singleton]
    rfl
  | ended =>
    rw [thisCycle_wrap rfl, passed_none]
    rfl
  | @failed _ pages few fail served full passed still =>
    have hnone : (q.rest c.after).take (pages * limit) = [] := by
      by_contra hne
      refine hwhole _ (List.mem_append_right _ (List.mem_singleton_self _)) ⟨?_, pages, ?_, few,
        ?_, fun k hk => ?_, full⟩
      · exact Nat.pos_of_ne_zero fun h0 => hne (by rw [h0, Nat.mul_zero, List.take_zero])
      · exact Nat.pos_of_ne_zero fun h0 => hne (by rw [h0, Nat.zero_mul, List.take_zero])
      · rwa [Nat.zero_add] at fail
      · have hserve := served k hk
        rwa [Nat.zero_add] at hserve
    rw [thisCycle_snoc rfl, returned_append, ih, passed, hnone, returned_singleton]
    rfl

/-- **Rows are skipped by torn walks, and by nothing else.** -/
theorem nothing_skipped_iff (hrun : Run (tick q limit budget) ⟨none⟩ tr cursor) :
    NothingSkipped q tr ↔ ∀ e ∈ tr, ¬Torn q limit budget e := by
  constructor
  · rintro hlaw e he htorn
    obtain ⟨before, after, rfl⟩ := List.append_of_mem he
    obtain ⟨hbefore, hstep, -⟩ := hrun.split
    obtain ⟨x, hx, hnot⟩ := exists_skipped_of_torn (hbefore.snoc hstep) htorn
    exact hnot (hlaw.cursor before e after rfl x hx)
  · intro hwhole
    constructor
    · rintro before e after rfl x hx
      obtain ⟨hbefore, hstep, -⟩ := hrun.split
      have hsub : ∀ f ∈ before ++ [e], f ∈ before ++ e :: after := by
        intro f hf
        rw [← List.singleton_append, ← List.append_assoc]
        exact List.mem_append_left _ hf
      rw [returned_eq_passed (hbefore.snoc hstep) fun f hf => hwhole f (hsub f hf)]
      exact hx
    · rintro earlier mid e later rfl hstart hmid hwraps
      obtain ⟨hbefore, hstep, -⟩ := hrun.split
      have hkept := returned_eq_passed hbefore fun f hf => hwhole f (List.mem_append_left _ hf)
      rw [thisCycle_append hstart hmid] at hkept
      have hwalk := walked_of_tick hstep
      generalize hout : e.out = out at hwalk
      generalize e.post = post at hwalk
      rw [Tick.wraps, hout] at hwraps
      cases hwalk with
      | truncated => exact absurd hwraps (by simp)
      | failed => exact absurd hwraps (by simp)
      | ended passed =>
        rw [returned_append, hkept, ← passed, returned_singleton, Tick.found, hout]
        rfl

/-- A queue of numbers. -/
def numbers (n : ℕ) : Queue ℕ ℕ ℕ :=
  ⟨List.range n, fun r => r, fun i => i, List.pairwise_lt_range⟩

/-- A tick without failures, and one that comes to nothing. -/
def whole : ℕ → Bool := fun _ => false

def dead : ℕ → Bool := fun _ => true

/-- Five rows, in pages of two, two pages in a tick. -/
def fiveRows : List (Tick ℕ ℕ) × RefundCursor ℕ :=
  traceOf (tick (numbers 5) 2 2) ⟨none⟩ [dead, whole, dead, whole]

theorem nothing_skipped_iff_fiveRows :
    fiveRows.1.map Tick.found = [[], [0, 1, 2, 3], [], [4]] ∧
      NothingSkipped (numbers 5) fiveRows.1 := by
  have hsome : (runFrom (tick (numbers 5) 2 2) ⟨none⟩ [dead, whole, dead, whole]).isSome =
    true := rfl
  have hlabels : fiveRows.1.map Entry.label = [dead, whole, dead, whole] := label_traceOf hsome
  refine ⟨by decide, (nothing_skipped_iff (run_traceOf hsome)).mpr ?_⟩
  rintro e he ⟨-, pages, hpages, -, hfail, hserved, -⟩
  have hlabel : e.label ∈ [dead, whole, dead, whole] := hlabels ▸ List.mem_map_of_mem he
  have hfirst := hserved 0 hpages
  simp only [List.mem_cons, List.not_mem_nil, or_false] at hlabel
  rcases hlabel with hl | hl | hl | hl <;> rw [hl] at hfail hfirst
  · exact absurd hfirst (by simp [dead])
  · exact absurd hfail (by simp [whole])
  · exact absurd hfirst (by simp [dead])
  · exact absurd hfail (by simp [whole])

/-- **Rows are skipped.** Of a queue of two pages the first is read and the second fails: the
cursor is past the first, and nobody got it. -/
theorem rows_skipped : ¬ ∀ (q : Queue ℕ ℕ ℕ) (tr : List (Tick ℕ ℕ)) (cursor : RefundCursor ℕ),
    Run (tick q 500 20) ⟨none⟩ tr cursor →
      ∀ r ∈ q.passed cursor.after, r ∈ returned tr := by
  intro h
  have hstep : tick (numbers 501) 500 20 ⟨none⟩ (fun n => decide (n = 1)) =
      some (⟨some 499⟩, .error ()) := by decide +kernel
  have hmem := h _ _ _ (Run.nil.snoc hstep) 0 (by decide +kernel)
  exact absurd hmem (by simp [returned, Tick.found])

end Run

end Store

end SelendraBridge
