import Mathlib.Algebra.BigOperators.Group.List.Basic
import Mathlib.Algebra.Ring.Nat
import Mathlib.Data.List.Nodup
import Mathlib.Tactic.Common

/-!
# Items that fall due and are met

Somebody holds funds for others: items, each under a name and of an amount, that come in one
by one and are met one by one. What the funds have to cover is `Dues.due`, the sum of the
items whose name is still open. It grows by an item that comes in open, and falls by the
amount of an item that is met – and by nothing else, as long as no two items share a name
(`Dues.due_close`).
-/

namespace Dues

variable {κ : Type*}

/-- **What is due** of some items: the sum of the open ones. -/
def due (items : List (κ × ℕ)) (isOpen : κ → Bool) : ℕ :=
  ((items.filter fun i => isOpen i.1).map Prod.snd).sum

variable {items items' : List (κ × ℕ)} {p q : κ → Bool} {k : κ} {n : ℕ}

@[simp] theorem due_nil : due [] p = 0 := rfl

theorem due_cons {i : κ × ℕ} : due (i :: items) p = (if p i.1 then i.2 else 0) + due items p := by
  rcases h : p i.1 with _ | _ <;> simp [due, h]

@[simp] theorem due_append : due (items ++ items') p = due items p + due items' p := by
  simp only [due, List.filter_append, List.map_append, List.sum_append]

/-- An item that comes in met. -/
theorem due_snoc_closed (h : p k = false) : due (items ++ [(k, n)]) p = due items p := by
  rw [due_append, due_cons, due_nil, if_neg (by rw [h]; exact Bool.false_ne_true), Nat.add_zero]

/-- Only the names of the items matter. -/
theorem due_congr (h : ∀ i ∈ items, p i.1 = q i.1) : due items p = due items q := by
  rw [due, due, List.filter_congr h]

/-- What is open for fewer names is due for less. -/
theorem due_mono (h : ∀ i ∈ items, p i.1 = true → q i.1 = true) : due items p ≤ due items q := by
  induction items with
  | nil => exact Nat.le_refl 0
  | cons i items ih =>
    have hrest := ih fun j hj => h j (List.mem_cons_of_mem _ hj)
    have hhead := h i List.mem_cons_self
    rw [due_cons, due_cons]
    rcases hp : p i.1 with _ | _
    · simp only [Bool.false_eq_true, if_false]
      omega
    · rw [hhead hp]
      simp only [if_true]
      omega

/-- **Splitting what is due** in two by the name. -/
theorem due_split (items : List (κ × ℕ)) (p q : κ → Bool) :
    due items p = due items (fun x => p x && q x) + due items (fun x => p x && !q x) := by
  induction items with
  | nil => rfl
  | cons i items ih =>
    simp only [due_cons, ih]
    rcases p i.1 with _ | _ <;> rcases q i.1 with _ | _ <;> simp <;> omega

/-- What is due includes every open item. -/
theorem le_due (hmem : (k, n) ∈ items) (hp : p k = true) : n ≤ due items p := by
  obtain ⟨before, after, rfl⟩ := List.append_of_mem hmem
  rw [due_append, due_cons, if_pos hp]
  omega

/-- Items that are read from events by name and amount are named as the events are. -/
theorem names_sublist {α : Type*} {f : α → Option (κ × ℕ)} {name : α → Option κ}
    (h : ∀ a i, f a = some i → name a = some i.1) (as : List α) :
    ((as.filterMap f).map Prod.fst).Sublist (as.filterMap name) := by
  induction as with
  | nil => exact List.Sublist.refl _
  | cons a as ih =>
    rcases hf : f a with _ | i
    · rw [List.filterMap_cons_none hf]
      rcases hn : name a with _ | k
      · rwa [List.filterMap_cons_none hn]
      · rw [List.filterMap_cons_some hn]
        exact ih.cons k
    · rw [List.filterMap_cons_some hf, List.filterMap_cons_some (h a i hf), List.map_cons]
      exact ih.cons_cons i.1

/-- **An item that is met** is due no more, and nothing else changes. -/
theorem due_close (hnodup : (items.map Prod.fst).Nodup) (hmem : (k, n) ∈ items) (hp : p k = true)
    (hq : q k = false) (hother : ∀ x, x ≠ k → q x = p x) : due items q + n = due items p := by
  induction items with
  | nil => exact absurd hmem (List.not_mem_nil)
  | cons i items ih =>
    rw [List.map_cons, List.nodup_cons] at hnodup
    rw [due_cons, due_cons]
    rcases List.mem_cons.mp hmem with rfl | hin
    · -- No other item has this name.
      have hsame : due items q = due items p := due_congr fun j hj => hother j.1 fun he =>
        hnodup.1 (List.mem_map.mpr ⟨j, hj, he⟩)
      rw [hsame, hp, hq]
      simp only [Bool.false_eq_true, if_true, if_false]
      omega
    · have hne : i.1 ≠ k := by
        rintro rfl
        exact hnodup.1 (List.mem_map.mpr ⟨_, hin, rfl⟩)
      have hrest := ih hnodup.2 hin
      rw [hother i.1 hne]
      omega

end Dues
