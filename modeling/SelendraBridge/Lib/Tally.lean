import Mathlib.Data.List.Forall2
import Mathlib.Data.List.Perm.Subperm
import SelendraBridge.Lib.Revert

/-!
# Counting distinct members along an ascending list

A ballot is a list of papers, and each paper names somebody, or fails to. To count
*distinct* members without keeping a set of those already seen, one insists that the names
come in strictly ascending order and counts the members among them: a name that came
before is not above the last one. `Tally.tally` is that loop, with the last name and the
count so far as its accumulators, and the reasons for which it refuses as parameters.

The loop goes through exactly when the papers name an ascending list above `last`, and
then adds to the count the members on it (`Tally.tally_eq_ok`). Everything else is about
ascending lists: what was counted is a list of distinct members
(`Tally.exists_members_of_tally`), and a list of members in order is counted in full
(`Tally.tally_of_members`) and is no longer than the list of all of them
(`Tally.length_le`).
-/

namespace Tally

open Revert

variable {α β ε : Type}

/-- **The loop**: how many members the papers name, after `last`. -/
def tally [LE α] [DecidableLE α] (name : β → Except ε α) (unordered : ε) (isMember : α → Bool) :
    List β → α → ℕ → Except ε ℕ
  | [], _, count => .ok count
  | paper :: papers, last, count => do
    let a ← name paper
    revertIf (a ≤ last) unordered
    tally name unordered isMember papers a (if isMember a then count + 1 else count)

/-- The names on some papers. -/
def Names (name : β → Except ε α) (papers : List β) (names : List α) : Prop :=
  List.Forall₂ (fun paper a => name paper = .ok a) papers names

/-- A name is on one of the papers. -/
theorem Names.exists_paper {name : β → Except ε α} {papers : List β} {names : List α}
    (h : Names name papers names) {a : α} (ha : a ∈ names) :
    ∃ paper ∈ papers, name paper = .ok a := by
  induction h with
  | nil => exact absurd ha List.not_mem_nil
  | cons hname _ ih =>
    rcases List.mem_cons.mp ha with rfl | ha
    · exact ⟨_, List.mem_cons_self, hname⟩
    · obtain ⟨paper, hpaper, h⟩ := ih ha
      exact ⟨paper, List.mem_cons_of_mem _ hpaper, h⟩

variable [LT α] [LE α] [Std.LawfulOrderLT α]

/-! ### Ascending lists -/

/-- An ascending list repeats nothing. -/
theorem nodup_of_ascending {names : List α} (h : names.Pairwise (· < ·)) : names.Nodup := by
  refine List.Pairwise.imp ?_ h
  rintro a b hlt rfl
  exact Std.lt_irrefl hlt

/-- **An ascending list of members is no longer than the list of all of them.** -/
theorem length_le {names members : List α} (h : names.Pairwise (· < ·))
    (hmem : ∀ a ∈ names, a ∈ members) : names.length ≤ members.length :=
  (List.Nodup.subperm (nodup_of_ascending h) hmem).length_le

variable [Std.IsLinearOrder α] {last : α}

/-- Going on from a name above the last one, the list stays above the last one. -/
theorem ascending_cons {a : α} {names : List α} (hlast : last < a)
    (h : (a :: names).Pairwise (· < ·)) : (last :: a :: names).Pairwise (· < ·) := by
  refine List.pairwise_cons.mpr ⟨?_, h⟩
  intro b hb
  rcases List.mem_cons.mp hb with rfl | hb
  · exact hlast
  · exact Std.lt_trans hlast (List.rel_of_pairwise_cons h hb)

variable [DecidableLE α] {name : β → Except ε α} {unordered : ε} {isMember : α → Bool}
  {papers : List β} {count n : ℕ}

/-! ### What the loop counts -/

/-- **The loop, said once**: it goes through exactly on papers whose names ascend from
`last`, and counts the members among them. -/
theorem tally_eq_ok : tally name unordered isMember papers last count = .ok n ↔
    ∃ names, Names name papers names ∧ (last :: names).Pairwise (· < ·) ∧
      n = count + names.countP isMember := by
  induction papers generalizing last count with
  | nil =>
    constructor
    · intro h
      obtain rfl := Except.ok.inj h
      exact ⟨[], .nil, by simp, by simp⟩
    · rintro ⟨names, hnames, -, rfl⟩
      obtain rfl := List.forall₂_nil_left_iff.mp hnames
      simp [tally]
  | cons paper papers ih =>
    rw [tally, bind_eq_ok]
    simp only [revertIf_bind_eq_ok, ih, Std.not_le]
    constructor
    · rintro ⟨a, ha, hlast, names, hnames, hsorted, hn⟩
      refine ⟨a :: names, .cons ha hnames, ascending_cons hlast hsorted, ?_⟩
      rw [List.countP_cons, hn]
      split <;> omega
    · rintro ⟨names, hnames, hsorted, hn⟩
      obtain ⟨a, rest, ha, hrest, rfl⟩ := List.forall₂_cons_left_iff.mp hnames
      refine ⟨a, ha, List.rel_of_pairwise_cons hsorted List.mem_cons_self, rest, hrest,
        hsorted.of_cons, ?_⟩
      rw [hn, List.countP_cons]
      split <;> omega

/-- **What was counted is a list of distinct members**, each named on one of the
papers. -/
theorem exists_members_of_tally
    (h : tally name unordered isMember papers last count = .ok n) :
    ∃ names : List α, n = count + names.length ∧ names.Nodup ∧
      ∀ a ∈ names, isMember a = true ∧ ∃ paper ∈ papers, name paper = .ok a := by
  obtain ⟨names, hnames, hsorted, hn⟩ := tally_eq_ok.mp h
  refine ⟨names.filter isMember, ?_, ?_, ?_⟩
  · rw [hn, List.countP_eq_length_filter]
  · exact (nodup_of_ascending hsorted.of_cons).filter _
  · intro a ha
    obtain ⟨hmem, hmember⟩ := List.mem_filter.mp ha
    obtain ⟨paper, hpaper, hname⟩ := hnames.exists_paper hmem
    exact ⟨hmember, paper, hpaper, hname⟩

/-- **Members in order are counted in full.** -/
theorem tally_of_members {names : List α} (hnames : Names name papers names)
    (hsorted : (last :: names).Pairwise (· < ·)) (hmember : ∀ a ∈ names, isMember a = true) :
    tally name unordered isMember papers last count = .ok (count + names.length) := by
  rw [tally_eq_ok]
  refine ⟨names, hnames, hsorted, ?_⟩
  rw [List.countP_eq_length.mpr hmember]

end Tally
