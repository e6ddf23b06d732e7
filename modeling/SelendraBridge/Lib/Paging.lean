import Mathlib.Data.List.Sort
import Mathlib.Order.Basic

/-!
# Pages of a sorted list

A list that is served page by page, each page starting after the last key that the one before
it ended with. What makes it work is that the list is sorted by its keys: then the rows up to
a key are a first part of it, the rows after the key are the rest, and a page moves the
boundary over exactly the rows it serves (`Paging.upTo_last`, `Paging.after_last`).
-/

namespace Paging

variable {ρ κ : Type*} [LinearOrder κ]

/-- The rows after a key, or all of them. -/
def after (key : ρ → κ) (rows : List ρ) (k : Option κ) : List ρ :=
  rows.filter fun r => k.all fun k => decide (k < key r)

/-- The rows up to a key, or none of them. -/
def upTo (key : ρ → κ) (rows : List ρ) (k : Option κ) : List ρ :=
  rows.filter fun r => k.any fun k => decide (key r ≤ k)

variable {key : ρ → κ} {rows pre post : List ρ} {k : Option κ} {x : ρ}

@[simp] theorem after_none : after key rows none = rows := List.filter_true rows

@[simp] theorem upTo_none : upTo key rows none = [] := List.filter_false rows

/-- The list is cut in two at any of its rows. -/
theorem cut_at (sorted : (pre ++ x :: post).Pairwise fun a b => key a < key b) :
    upTo key (pre ++ x :: post) (some (key x)) = pre ++ [x] ∧
      after key (pre ++ x :: post) (some (key x)) = post := by
  obtain ⟨-, hpost, hpre⟩ := List.pairwise_append.mp sorted
  obtain ⟨hx, -⟩ := List.pairwise_cons.mp hpost
  have hbefore : ∀ r ∈ pre, key r < key x := fun r hr => hpre r hr x (List.mem_cons_self)
  constructor
  · have h₁ : pre.filter (fun r => decide (key r ≤ key x)) = pre :=
      List.filter_eq_self.mpr fun r hr => decide_eq_true (hbefore r hr).le
    have h₂ : post.filter (fun r => decide (key r ≤ key x)) = [] :=
      List.filter_eq_nil_iff.mpr fun r hr => by
        rw [decide_eq_true_eq, not_le]
        exact hx r hr
    rw [upTo, List.filter_append, List.filter_cons_of_pos (by simp)]
    exact congrArg₂ _ h₁ (congrArg _ h₂)
  · have h₁ : pre.filter (fun r => decide (key x < key r)) = [] :=
      List.filter_eq_nil_iff.mpr fun r hr => by
        rw [decide_eq_true_eq, not_lt]
        exact (hbefore r hr).le
    have h₂ : post.filter (fun r => decide (key x < key r)) = post :=
      List.filter_eq_self.mpr fun r hr => decide_eq_true (hx r hr)
    rw [after, List.filter_append, List.filter_cons_of_neg (by simp)]
    exact (congrArg₂ _ h₁ h₂).trans (List.nil_append post)

/-- **The rows up to a key and the rows after it** are all the rows, in their order. -/
theorem upTo_append_after (sorted : rows.Pairwise fun a b => key a < key b) (k : Option κ) :
    upTo key rows k ++ after key rows k = rows := by
  rcases k with _ | k
  · rw [upTo_none, after_none, List.nil_append]
  · induction rows with
    | nil => rfl
    | cons r rows ih =>
      obtain ⟨hr, hrows⟩ := List.pairwise_cons.mp sorted
      have ih := ih hrows
      rcases le_or_gt (key r) k with hle | hlt
      · have h₁ : upTo key (r :: rows) (some k) = r :: upTo key rows (some k) :=
          List.filter_cons_of_pos (decide_eq_true hle)
        have h₂ : after key (r :: rows) (some k) = after key rows (some k) :=
          List.filter_cons_of_neg (by simpa using hle)
        rw [h₁, h₂, List.cons_append, ih]
      · -- Past the key there is no row up to it.
        have h₁ : upTo key (r :: rows) (some k) = [] := by
          refine List.filter_eq_nil_iff.mpr fun x hx => ?_
          rcases List.mem_cons.mp hx with rfl | hx
          · simpa using hlt
          · simpa using hlt.trans (hr x hx)
        have h₂ : after key (r :: rows) (some k) = r :: rows := by
          refine List.filter_eq_self.mpr fun x hx => ?_
          rcases List.mem_cons.mp hx with rfl | hx
          · simpa using hlt
          · simpa using hlt.trans (hr x hx)
        rw [h₁, h₂, List.nil_append]

section Page

variable {page rest : List ρ}

/-- **A page moves the boundary over what it serves.** -/
theorem upTo_last (sorted : rows.Pairwise fun a b => key a < key b)
    (hpage : after key rows k = page ++ x :: rest) :
    upTo key rows (some (key x)) = upTo key rows k ++ page ++ [x] := by
  have hrows : rows = upTo key rows k ++ page ++ x :: rest := by
    rw [List.append_assoc, ← hpage, upTo_append_after sorted k]
  have hsorted : (upTo key rows k ++ page ++ x :: rest).Pairwise fun a b => key a < key b :=
    hrows ▸ sorted
  have hcut := (cut_at hsorted).1
  rwa [← hrows] at hcut

/-- What comes after a page is the rest. -/
theorem after_last (sorted : rows.Pairwise fun a b => key a < key b)
    (hpage : after key rows k = page ++ x :: rest) :
    after key rows (some (key x)) = rest := by
  have hrows : rows = upTo key rows k ++ page ++ x :: rest := by
    rw [List.append_assoc, ← hpage, upTo_append_after sorted k]
  have hsorted : (upTo key rows k ++ page ++ x :: rest).Pairwise fun a b => key a < key b :=
    hrows ▸ sorted
  have hcut := (cut_at hsorted).2
  rwa [← hrows] at hcut

end Page

end Paging
