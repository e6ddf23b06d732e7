import Mathlib.Data.List.Basic
import Mathlib.Tactic.Common

/-!
# Frames that a revert undoes

A machine whose calls call each other keeps, beside what it works on, the frames of the
calls under way, the innermost first. Each frame remembers what there was when its call
began, and a call that reverts puts that back, whatever was done in it. So an invariant of
such a machine has to hold not only now but of everything a revert may bring back
(`Frames.Sound`). The rules below are those of the five things that can happen: something
changes under the frames there are, a frame is pushed, replaced or popped, or reverts.

And a call that is under way stays so, above the calls there were when it began
(`Frames.Within`), until it is the innermost that ends: what it then finds saved is what there
was (`Frames.Within.pop`).
-/

namespace Frames

variable {κ φ : Type*}

/-- **An invariant, now and after every revert to come.** It may speak of the frames. -/
def Sound (inv : κ → List φ → Prop) : κ → List (φ × κ) → Prop
  | c, [] => inv c []
  | c, (f, saved) :: rest => inv c (f :: rest.map Prod.fst) ∧ Sound inv saved rest

variable {inv : κ → List φ → Prop} {c c' saved : κ} {f f' : φ} {rest frames : List (φ × κ)}

theorem Sound.now (h : Sound inv c frames) : inv c (frames.map Prod.fst) := by
  cases frames with
  | nil => exact h
  | cons top rest => exact h.1

/-- Something changes, and no frame. -/
theorem Sound.change (h : Sound inv c frames) (hinv : inv c' (frames.map Prod.fst)) :
    Sound inv c' frames := by
  cases frames with
  | nil => exact hinv
  | cons top rest => exact ⟨hinv, h.2⟩

/-- A call begins. -/
theorem Sound.push (h : Sound inv c frames) (hinv : inv c' (f :: frames.map Prod.fst)) :
    Sound inv c' ((f, c) :: frames) := ⟨hinv, h⟩

/-- A call goes on to another of its stages. -/
theorem Sound.replace (h : Sound inv c ((f, saved) :: rest))
    (hinv : inv c' (f' :: rest.map Prod.fst)) : Sound inv c' ((f', saved) :: rest) := ⟨hinv, h.2⟩

/-- A call returns. -/
theorem Sound.pop (h : Sound inv c ((f, saved) :: rest)) (hinv : inv c' (rest.map Prod.fst)) :
    Sound inv c' rest := h.2.change hinv

/-- A call reverts. -/
theorem Sound.revert (h : Sound inv c ((f, saved) :: rest)) : Sound inv saved rest := h.2

/-! ### The frames below -/

section Below

variable {P : φ → Prop} {upper : List (φ × κ)} {k : κ}

/-- **A call is under way**, at one of its stages, above the calls there were. -/
def Within (P : φ → Prop) (k : κ) (rest frames : List (φ × κ)) : Prop :=
  ∃ upper f, frames = upper ++ (f, k) :: rest ∧ P f

theorem Within.length_lt (h : Within P k rest frames) : rest.length < frames.length := by
  obtain ⟨upper, f, rfl, -⟩ := h
  simp only [List.length_append, List.length_cons]
  omega

/-- A call that has just begun. -/
theorem within_push (hf : P f) : Within P k rest ((f, k) :: rest) := ⟨[], f, rfl, hf⟩

/-- Another call begins in it. -/
theorem Within.push (h : Within P k rest frames) (top : φ × κ) :
    Within P k rest (top :: frames) := by
  obtain ⟨upper, f, rfl, hf⟩ := h
  exact ⟨top :: upper, f, rfl, hf⟩

/-- The innermost call goes on to another of its stages. -/
theorem Within.replace (h : Within P k rest ((f, saved) :: frames)) (hP : P f → P f') :
    Within P k rest ((f', saved) :: frames) := by
  obtain ⟨upper, g, heq, hg⟩ := h
  cases upper with
  | nil =>
    obtain ⟨hhead, htail⟩ := List.cons_eq_cons.mp heq
    obtain ⟨rfl, rfl⟩ := Prod.mk.inj hhead
    exact ⟨[], f', by rw [htail]; rfl, hP hg⟩
  | cons top upper =>
    obtain ⟨-, htail⟩ := List.cons_eq_cons.mp heq
    exact ⟨(f', saved) :: upper, g, by rw [htail]; rfl, hg⟩

/-- **The innermost call ends**: it was this one, or this one is still under way. -/
theorem Within.pop (h : Within P k rest ((f, saved) :: frames)) :
    (saved = k ∧ frames = rest ∧ P f) ∨ Within P k rest frames := by
  obtain ⟨upper, g, heq, hg⟩ := h
  cases upper with
  | nil =>
    obtain ⟨hhead, htail⟩ := List.cons_eq_cons.mp heq
    obtain ⟨rfl, rfl⟩ := Prod.mk.inj hhead
    exact .inl ⟨rfl, htail, hg⟩
  | cons top upper =>
    obtain ⟨-, htail⟩ := List.cons_eq_cons.mp heq
    exact .inr ⟨upper, g, htail, hg⟩

end Below

end Frames
