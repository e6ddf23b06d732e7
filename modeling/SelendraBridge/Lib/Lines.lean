import Mathlib.Data.List.Basic

/-!
# Streams that are cut into lines

A stream of letters, some of which end a line. `SelendraBridge.Lines.cut` gives the lines that are
ended, each with the letter that ends it, and what is left; `SelendraBridge.Lines.linesOf` all
lines, of which the last may be open.

A buffer that takes the stream in pieces and gives out the lines as they end gives out those of the
whole (`SelendraBridge.Lines.cut_append`), wherever the pieces begin and end.
-/

namespace SelendraBridge

namespace Lines

variable {α : Type*} (isEnd : α → Bool)

/-- The lines that are ended, and what is left. -/
def cut : List α → List (List α) × List α
  | [] => ([], [])
  | c :: s =>
    if isEnd c = true then ([c] :: (cut s).1, (cut s).2)
    else
      match (cut s).1 with
      | [] => ([], c :: (cut s).2)
      | line :: lines => ((c :: line) :: lines, (cut s).2)

/-- All lines: the last, if there is something of it, without an end. -/
def linesOf (s : List α) : List (List α) :=
  (cut isEnd s).1 ++ if (cut isEnd s).2 = [] then [] else [(cut isEnd s).2]

variable {isEnd : α → Bool}

theorem cut_cons_of_end {c : α} (hc : isEnd c = true) (s : List α) :
    cut isEnd (c :: s) = ([c] :: (cut isEnd s).1, (cut isEnd s).2) := if_pos hc

theorem cut_cons_of_open {c : α} (hc : ¬ isEnd c = true) {s : List α}
    (hs : (cut isEnd s).1 = []) : cut isEnd (c :: s) = ([], c :: (cut isEnd s).2) := by
  rw [cut, if_neg hc, hs]

theorem cut_cons_of_line {c : α} (hc : ¬ isEnd c = true) {s line : List α} {lines : List (List α)}
    (hs : (cut isEnd s).1 = line :: lines) :
    cut isEnd (c :: s) = ((c :: line) :: lines, (cut isEnd s).2) := by
  rw [cut, if_neg hc, hs]

/-- Each line ends where it first can. -/
theorem cut_ends {s line : List α} (hline : line ∈ (cut isEnd s).1) :
    ∃ q e, line = q ++ [e] ∧ isEnd e = true ∧ ∀ c ∈ q, ¬ isEnd c = true := by
  induction s generalizing line with
  | nil => simp [cut] at hline
  | cons c s ih =>
    by_cases hc : isEnd c = true
    · rw [cut_cons_of_end hc] at hline
      rcases List.mem_cons.mp hline with rfl | hmem
      · exact ⟨[], c, rfl, hc, by simp⟩
      · exact ih hmem
    · rcases hs : (cut isEnd s).1 with _ | ⟨first, lines⟩
      · rw [cut_cons_of_open hc hs] at hline
        simp at hline
      · rw [cut_cons_of_line hc hs] at hline
        rcases List.mem_cons.mp hline with rfl | hmem
        · obtain ⟨q, e, rfl, he, hq⟩ := ih (hs ▸ List.mem_cons_self)
          exact ⟨c :: q, e, rfl, he, List.forall_mem_cons.mpr ⟨hc, hq⟩⟩
        · exact ih (hs ▸ List.mem_cons_of_mem _ hmem)

/-- **What is cut in two pieces is cut as a whole**: the second piece after what the first left. -/
theorem cut_append (s t : List α) :
    cut isEnd (s ++ t) = ((cut isEnd s).1 ++ (cut isEnd ((cut isEnd s).2 ++ t)).1,
      (cut isEnd ((cut isEnd s).2 ++ t)).2) := by
  induction s with
  | nil => rfl
  | cons c s ih =>
    rw [List.cons_append]
    by_cases hc : isEnd c = true
    · rw [cut_cons_of_end hc, cut_cons_of_end hc, ih]
      rfl
    · rcases hs : (cut isEnd s).1 with _ | ⟨line, lines⟩
      · -- the line is still open: it goes on in the second piece
        rw [hs, List.nil_append] at ih
        rw [cut_cons_of_open hc hs, List.nil_append, List.cons_append]
        rcases ht : (cut isEnd ((cut isEnd s).2 ++ t)).1 with _ | ⟨line, lines⟩
        · rw [cut_cons_of_open hc ht, cut_cons_of_open hc (by rw [ih]; exact ht), ih]
        · rw [cut_cons_of_line hc ht, cut_cons_of_line hc (by rw [ih]; exact ht), ih]
      · rw [hs, List.cons_append] at ih
        rw [cut_cons_of_line hc hs, cut_cons_of_line hc (by rw [ih]), ih]
        rfl

/-- **The loop that takes line after line** from the first place where one ends. -/
theorem cut_of_findIdx {s : List α} {i : ℕ} (h : s.findIdx? isEnd = some i) :
    cut isEnd s = (s.take (i + 1) :: (cut isEnd (s.drop (i + 1))).1,
      (cut isEnd (s.drop (i + 1))).2) := by
  induction s generalizing i with
  | nil => simp at h
  | cons c s ih =>
    rw [List.findIdx?_cons] at h
    split_ifs at h with hc
    · obtain rfl := Option.some.inj h
      exact cut_cons_of_end hc s
    · obtain ⟨j, hj, rfl⟩ := Option.map_eq_some_iff.mp h
      rw [cut_cons_of_line hc (by rw [ih hj]), ih hj]
      rfl

theorem cut_of_no_end {s : List α} (h : s.findIdx? isEnd = none) : cut isEnd s = ([], s) := by
  induction s with
  | nil => rfl
  | cons c s ih =>
    rw [List.findIdx?_eq_none_iff, List.forall_mem_cons] at h
    have hs := ih (List.findIdx?_eq_none_iff.mpr h.2)
    rw [cut_cons_of_open (by simp [h.1]) (by rw [hs]), hs]

end Lines

end SelendraBridge
