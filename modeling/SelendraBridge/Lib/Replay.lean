import Mathlib.Data.List.Pairwise
import Mathlib.Order.Lattice
import SelendraBridge.Lib.Roster

/-!
# Replaying a log that was read in pieces

A state is made from a log by a step for each entry, in the order of their keys. Who reads the
log piece by piece gets entries in any order, and an entry that was in two pieces twice. Sorting
puts the copies next to each other, and where a second copy changes nothing it does not matter:
what is replayed depends only on which entries were read (`Replay.foldl_sortByKey`).
-/

namespace Replay

variable {σ ε κ : Type} [LinearOrder κ] {step : σ → ε → σ} {key : ε → κ} {log es : List ε}

/-- A step that changes nothing the second time. -/
def Idempotent (step : σ → ε → σ) : Prop := ∀ s e, step (step s e) e = step s e

/-- **A strictly sorted list is known by its members.** -/
theorem eq_of_mem_iff {l l' : List ε} (hl : l.Pairwise fun a b => key a < key b)
    (hl' : l'.Pairwise fun a b => key a < key b) (hmem : ∀ e, e ∈ l ↔ e ∈ l') : l = l' := by
  have hnodup : ∀ {l : List ε}, (l.Pairwise fun a b => key a < key b) → l.Nodup := by
    rintro l h
    refine h.imp ?_
    rintro a b hlt rfl
    exact lt_irrefl _ hlt
  have hperm : l.Perm l' := (List.perm_ext_iff_of_nodup (hnodup hl) (hnodup hl')).mpr hmem
  refine List.Perm.eq_of_pairwise ?_ hl hl' hperm
  intro a b _ _ hab hba
  exact absurd hab (not_lt.mpr hba.le)

/-- **Two sorted lists of the same entries are replayed alike**, where one of them has none
twice. -/
theorem foldl_eq (hstep : Idempotent step) (hes : es.Pairwise fun a b => key a ≤ key b)
    (hlog : log.Pairwise fun a b => key a < key b) (hmem : ∀ e, e ∈ es ↔ e ∈ log) (s : σ) :
    es.foldl step s = log.foldl step s := by
  induction es generalizing log s with
  | nil =>
    obtain rfl : log = [] := List.eq_nil_iff_forall_not_mem.mpr fun e he =>
      List.not_mem_nil ((hmem e).mpr he)
    rfl
  | cons a es ih =>
    obtain ⟨ha, hes⟩ := List.pairwise_cons.mp hes
    rcases log with _ | ⟨b, log⟩
    · exact absurd ((hmem a).mp List.mem_cons_self) List.not_mem_nil
    obtain ⟨hb, hrest⟩ := List.pairwise_cons.mp hlog
    -- The first entries are the lowest of the same entries.
    obtain rfl : a = b := by
      rcases List.mem_cons.mp ((hmem a).mp List.mem_cons_self) with h | h
      · exact h
      · have hlt : key b < key a := hb a h
        rcases List.mem_cons.mp ((hmem b).mpr List.mem_cons_self) with h | h
        · exact h.symm
        · exact absurd (ha b h) (not_le.mpr hlt)
    have hne : ∀ e ∈ log, e ≠ a := by
      rintro e he rfl
      exact lt_irrefl _ (hb e he)
    by_cases hagain : a ∈ es
    · have hsame : ∀ e, e ∈ es ↔ e ∈ a :: log := by
        intro e
        rw [← hmem e, List.mem_cons]
        constructor
        · exact Or.inr
        · rintro (rfl | he)
          · exact hagain
          · exact he
      have hih := ih hes hlog hsame (step s a)
      rw [List.foldl_cons, hih, List.foldl_cons, List.foldl_cons, hstep]
    · have hsame : ∀ e, e ∈ es ↔ e ∈ log := by
        intro e
        constructor
        · intro he
          rcases List.mem_cons.mp ((hmem e).mp (List.mem_cons_of_mem _ he)) with rfl | h
          · exact absurd he hagain
          · exact h
        · intro he
          rcases List.mem_cons.mp ((hmem e).mpr (List.mem_cons_of_mem _ he)) with h | h
          · exact absurd h (hne e he)
          · exact h
      exact ih hes hrest hsame (step s a)

/-- **What is replayed depends only on which entries were read.** -/
theorem foldl_sortByKey (hstep : Idempotent step) (hlog : log.Pairwise fun a b => key a < key b)
    (hmem : ∀ e, e ∈ es ↔ e ∈ log) (s : σ) :
    (Roster.sortByKey key es).foldl step s = log.foldl step s :=
  foldl_eq hstep (Roster.sorted_sortByKey key es) hlog
    (fun e => (Roster.perm_sortByKey key es).mem_iff.trans (hmem e)) s

end Replay
