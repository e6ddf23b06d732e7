import Mathlib.Data.Fintype.Card
import Mathlib.Data.List.FinRange
import Mathlib.Data.List.Sort
import Mathlib.Order.Lattice
import Mathlib.Tactic.Common

/-!
# Answers, some of which are lies

Everybody is asked the same thing, and the answers come as a list. At some places of it stands a
liar, whose answer may be anything. Nothing is known about who they are, only how many there may
be, so everything here is a count: of what more answers say than there are liars, an honest one
says (`Votes.exists_honest`).

An ordered answer can also be picked by rank. In a descending list, more than `k` entries are at
least the `k`-th, and as many as are left from there are at most it
(`Votes.lt_countP_ge`, `Votes.le_countP_le`); so the middle one lies between two honest answers,
if the liars are fewer than half (`Votes.middle_between`).
-/

namespace Votes

variable {α : Type*} {answers : List α} {liars : Finset (Fin answers.length)}

/-! ### What more say than lie -/

/-- As many places hold an answer of a kind as there are such answers. -/
theorem card_filter_places (p : α → Prop) [DecidablePred p] :
    (Finset.univ.filter fun i : Fin answers.length => p (answers.get i)).card =
      answers.countP fun a => decide (p a) := by
  conv_rhs => rw [← List.map_get_finRange answers]
  rw [List.countP_map, List.countP_eq_length_filter]
  rfl

/-- **An honest answer is among them**, if there are more of a kind than there are liars. -/
theorem exists_honest {p : α → Prop} [DecidablePred p]
    (h : liars.card < answers.countP fun a => decide (p a)) : ∃ i ∉ liars, p (answers.get i) := by
  rw [← card_filter_places] at h
  obtain ⟨i, hi, hhonest⟩ := Finset.exists_mem_notMem_of_card_lt_card h
  exact ⟨i, hhonest, (Finset.mem_filter.mp hi).2⟩

/-- What a majority says is not said by liars only. -/
theorem exists_honest_of_majority {p : α → Prop} [DecidablePred p]
    (hminority : 2 * liars.card < answers.length)
    (h : answers.length < (answers.countP fun a => decide (p a)) * 2) :
    ∃ i ∉ liars, p (answers.get i) :=
  exists_honest (by omega)

/-! ### The middle one -/

section Order

variable [LinearOrder α] {l : List α} {k : ℕ} {a : α}

/-- A descending list, cut at one of its entries: what is before it is at least it, and what is
behind it at most. -/
theorem exists_cut (hl : l.Pairwise (· ≥ ·)) (hk : l[k]? = some a) :
    ∃ l₁ l₂, l = l₁ ++ a :: l₂ ∧ l₁.length = k ∧ (∀ b ∈ l₁, a ≤ b) ∧ ∀ b ∈ l₂, b ≤ a := by
  obtain ⟨hlt, rfl⟩ := List.getElem?_eq_some_iff.mp hk
  have hcut : l = l.take k ++ l[k] :: l.drop (k + 1) := by
    rw [List.getElem_cons_drop, List.take_append_drop]
  have hpw := hl
  rw [hcut, List.pairwise_append, List.pairwise_cons] at hpw
  obtain ⟨-, ⟨hbehind, -⟩, hbefore⟩ := hpw
  exact ⟨_, _, hcut, by rw [List.length_take]; omega,
    fun b hb => hbefore b hb _ List.mem_cons_self, hbehind⟩

/-- More than `k` entries of a descending list are at least the `k`-th. -/
theorem lt_countP_ge (hl : l.Pairwise (· ≥ ·)) (hk : l[k]? = some a) :
    k < l.countP fun b => decide (a ≤ b) := by
  obtain ⟨l₁, l₂, rfl, rfl, hbefore, -⟩ := exists_cut hl hk
  have hall : (l₁.countP fun b => decide (a ≤ b)) = l₁.length :=
    List.countP_eq_length.mpr fun b hb => decide_eq_true (hbefore b hb)
  rw [List.countP_append, hall, List.countP_cons, if_pos (decide_eq_true (le_refl a))]
  omega

/-- From the `k`-th entry of a descending list on, everything is at most it. -/
theorem le_countP_le (hl : l.Pairwise (· ≥ ·)) (hk : l[k]? = some a) :
    l.length - k ≤ l.countP fun b => decide (b ≤ a) := by
  obtain ⟨l₁, l₂, rfl, rfl, -, hbehind⟩ := exists_cut hl hk
  have hall : (l₂.countP fun b => decide (b ≤ a)) = l₂.length :=
    List.countP_eq_length.mpr fun b hb => decide_eq_true (hbehind b hb)
  rw [List.countP_append, List.countP_cons, if_pos (decide_eq_true (le_refl a)), hall,
    List.length_append, List.length_cons]
  omega

/-- **The middle of the answers lies between two honest ones**, if fewer than half of them are
lies. -/
theorem middle_between {liars : Finset (Fin answers.length)}
    (hminority : 2 * liars.card < answers.length)
    (h : (answers.insertionSort (· ≥ ·))[answers.length / 2]? = some a) :
    (∃ i ∉ liars, answers.get i ≤ a) ∧ ∃ i ∉ liars, a ≤ answers.get i := by
  have hsorted : (answers.insertionSort (· ≥ ·)).Pairwise (· ≥ ·) :=
    List.pairwise_insertionSort _ answers
  have hperm := List.perm_insertionSort (· ≥ ·) answers
  have hlow := le_countP_le hsorted h
  have hhigh := lt_countP_ge hsorted h
  rw [hperm.countP_eq] at hlow hhigh
  rw [List.length_insertionSort] at hlow
  exact ⟨exists_honest (p := fun b => b ≤ a) (by omega),
    exists_honest (p := fun b => a ≤ b) (by omega)⟩

end Order

end Votes
