import Mathlib.Data.List.Basic
import Mathlib.Tactic.Common

/-!
# Sorting by a key

A list of items is put in the order of a key, and items with a key that was seen are left
out. Whatever the items are, what comes out is in strictly ascending order of the key, and
has the keys that went in: after `Roster.sortByKey` if no key was there twice
(`Roster.ascending_sortByKey`), after `Roster.dedupByKey` in any case
(`Roster.ascending_dedupByKey`, `Roster.mem_keys_dedupByKey`).
-/

namespace Roster

variable {α κ : Type}

/-! ### Leaving out keys that repeat -/

section Dedup

variable [DecidableEq κ]

/-- The items without those that come right after one of their key. -/
def dedupByKey (key : α → κ) : List α → List α
  | [] => []
  | [a] => [a]
  | a :: b :: l => if key a = key b then dedupByKey key (a :: l) else a :: dedupByKey key (b :: l)
termination_by l => l.length

/-- What is left was there. -/
theorem subset_dedupByKey (key : α → κ) (l : List α) : dedupByKey key l ⊆ l := by
  induction l using dedupByKey.induct key with
  | case1 => simp [dedupByKey]
  | case2 a => simp [dedupByKey]
  | case3 a b l heq ih =>
    rw [dedupByKey, if_pos heq]
    intro x hx
    rcases List.mem_cons.mp (ih hx) with rfl | hx
    · exact List.mem_cons_self
    · exact List.mem_cons_of_mem _ (List.mem_cons_of_mem _ hx)
  | case4 a b l hne ih =>
    rw [dedupByKey, if_neg hne]
    exact List.cons_subset_cons _ ih

/-- **No key is lost.** -/
theorem mem_keys_dedupByKey (key : α → κ) (l : List α) (k : κ) :
    k ∈ (dedupByKey key l).map key ↔ k ∈ l.map key := by
  induction l using dedupByKey.induct key with
  | case1 => simp [dedupByKey]
  | case2 a => simp [dedupByKey]
  | case3 a b l heq ih =>
    rw [dedupByKey, if_pos heq, ih]
    simp [heq]
  | case4 a b l hne ih =>
    rw [dedupByKey, if_neg hne]
    simp only [List.map_cons, List.mem_cons] at ih ⊢
    rw [ih]

end Dedup

/-! ### Ascending keys -/

section Order

variable [LE κ] [LT κ] [Std.LawfulOrderLT κ] [Std.IsLinearOrder κ] {key : α → κ} {l : List α}

/-- Keys in order, none of them twice, ascend. -/
theorem ascending_of_nodup (hsorted : l.Pairwise fun a b => key a ≤ key b)
    (hnodup : (l.map key).Nodup) : (l.map key).Pairwise (· < ·) := by
  rw [List.pairwise_map]
  refine (hsorted.and (List.pairwise_map.mp hnodup)).imp ?_
  rintro a b ⟨hle, hne⟩
  exact Std.lt_of_le_of_ne hle hne

/-- **Of sorted items one of each key is left, in ascending order.** -/
theorem ascending_dedupByKey [DecidableEq κ] (h : l.Pairwise fun a b => key a ≤ key b) :
    ((dedupByKey key l).map key).Pairwise (· < ·) := by
  induction l using dedupByKey.induct key with
  | case1 => simp [dedupByKey]
  | case2 a => simp [dedupByKey]
  | case3 a b l heq ih =>
    rw [dedupByKey, if_pos heq]
    obtain ⟨ha, hl⟩ := List.pairwise_cons.mp h
    exact ih (List.pairwise_cons.mpr ⟨fun x hx => ha x (List.mem_cons_of_mem _ hx),
      (List.pairwise_cons.mp hl).2⟩)
  | case4 a b l hne ih =>
    rw [dedupByKey, if_neg hne, List.map_cons, List.pairwise_cons]
    obtain ⟨ha, hl⟩ := List.pairwise_cons.mp h
    refine ⟨?_, ih hl⟩
    intro k hk
    -- The next key is above this one, and every later one is not below it.
    have hb : key a < key b := Std.lt_of_le_of_ne (ha b List.mem_cons_self) hne
    obtain ⟨x, hx, rfl⟩ := List.mem_map.mp ((mem_keys_dedupByKey key _ k).mp hk)
    rcases List.mem_cons.mp hx with rfl | hx
    · exact hb
    · exact Std.lt_of_lt_of_le hb ((List.pairwise_cons.mp hl).1 x hx)

end Order

/-! ### Sorting -/

section Sorting

variable [LE κ] [DecidableLE κ]

/-- The items in the order of their keys; items of one key stay in the order they are in. -/
def sortByKey (key : α → κ) (l : List α) : List α :=
  l.mergeSort fun a b => decide (key a ≤ key b)

theorem perm_sortByKey (key : α → κ) (l : List α) : (sortByKey key l).Perm l :=
  List.mergeSort_perm l _

/-- **In order.** -/
theorem sorted_sortByKey [Std.IsLinearOrder κ] (key : α → κ) (l : List α) :
    (sortByKey key l).Pairwise fun a b => key a ≤ key b := by
  have htrans : ∀ a b c : α, decide (key a ≤ key b) = true → decide (key b ≤ key c) = true →
      decide (key a ≤ key c) = true := fun a b c hab hbc =>
    decide_eq_true (Std.le_trans (of_decide_eq_true hab) (of_decide_eq_true hbc))
  have htotal : ∀ a b : α, (decide (key a ≤ key b) || decide (key b ≤ key a)) = true := by
    intro a b
    rw [Bool.or_eq_true, decide_eq_true_iff, decide_eq_true_iff]
    exact Std.le_total
  exact (List.pairwise_mergeSort htrans htotal l).imp of_decide_eq_true

variable [LT κ] [Std.LawfulOrderLT κ] {key : α → κ} {l : List α}

/-- **Sorted items of different keys ascend.** -/
theorem ascending_sortByKey [Std.IsLinearOrder κ] (hnodup : (l.map key).Nodup) :
    ((sortByKey key l).map key).Pairwise (· < ·) :=
  ascending_of_nodup (sorted_sortByKey key l)
    (((perm_sortByKey key l).map key).nodup_iff.mpr hnodup)

/-- Items in ascending order stay in it. -/
theorem sortByKey_of_ascending (h : (l.map key).Pairwise (· < ·)) : sortByKey key l = l := by
  have hle := List.pairwise_map.mp h
  exact List.mergeSort_of_pairwise (hle.imp fun hlt => decide_eq_true (Std.le_of_lt hlt))

end Sorting

end Roster
