import Mathlib.Data.Int.Order.Basic
import Mathlib.Data.Nat.Dist
import Mathlib.Tactic.Linarith
import Mathlib.Tactic.Ring
import SelendraBridge.Lib.Transition

/-!
# How fast a value can drift

A value that is moved now and then, never twice within an interval and never by more than a share of
what it is, rounded down, is bounded in two ways (`Drift.Drifts`):

* **how often**: a window of length `T` holds at most `1 + T / I` moves, for an interval `I`
  (`Drift.Drifts.length_filter_le`);
* **how far**: after `k` moves by at most `cap` in `D` it lies between `(1 - cap / D) ^ k` and
  `(1 + cap / D) ^ k` of what it was (`Drift.Drifts.within`).

Times are integers, so that they may be before the epoch, and the bounds are stated with their
denominators cleared.
-/

namespace Drift

/-! ### Moments that keep their distance -/

variable {I a T : ℤ}

/-- **Moments of a window, each an interval after the one before, are few.** -/
theorem length_mul_le {times : List ℤ} (hspaced : times.Pairwise fun x y => x + I ≤ y)
    (hfrom : ∀ t ∈ times, a ≤ t) {b : ℤ} (hto : ∀ t ∈ times, t ≤ b) (hne : times ≠ []) :
    ((times.length : ℤ) - 1) * I ≤ b - a := by
  induction times generalizing a with
  | nil => exact absurd rfl hne
  | cons t rest ih =>
    obtain ⟨hhead, htail⟩ := List.pairwise_cons.mp hspaced
    have ha : a ≤ t := hfrom t List.mem_cons_self
    rcases eq_or_ne rest [] with rfl | hrest
    · have hb : t ≤ b := hto t List.mem_cons_self
      simp only [List.length_cons, List.length_nil]
      norm_num
      omega
    · have hle := ih htail (a := t + I) hhead
        (fun x hx => hto x (List.mem_cons_of_mem _ hx)) hrest
      rw [List.length_cons]
      push_cast
      linarith

/-- A window of length `T` holds at most `1 + T / I` of them. -/
theorem length_filter_le {times : List ℤ} (hI : 0 < I) (hT : 0 ≤ T)
    (hspaced : times.Pairwise fun x y => x + I ≤ y) :
    ((times.filter fun t => decide (a ≤ t ∧ t ≤ a + T)).length : ℤ) ≤ 1 + T / I := by
  set inside := times.filter fun t => decide (a ≤ t ∧ t ≤ a + T) with hinside
  rcases eq_or_ne inside [] with hnil | hne
  · rw [hnil]
    have hdiv : 0 ≤ T / I := Int.ediv_nonneg hT hI.le
    simpa using by omega
  · have hmem : ∀ t ∈ inside, a ≤ t ∧ t ≤ a + T := fun t ht => by
      simpa using (List.mem_filter.mp ht).2
    have hle := length_mul_le (hspaced.filter _) (fun t ht => (hmem t ht).1)
      (fun t ht => (hmem t ht).2) hne
    have hdiv : (inside.length : ℤ) - 1 ≤ T / I :=
      (Int.le_ediv_iff_mul_le hI).mpr (by linarith)
    omega

/-! ### A value that drifts -/

/-- **A value that drifts**: from `p`, last moved at `last`, by the moves listed with their moments
and what they lead to. -/
inductive Drifts (D cap : ℕ) (I : ℤ) (p : ℕ) (last : Option ℤ) :
    List (ℤ × ℕ) → ℕ → Option ℤ → Prop
  | nil : Drifts D cap I p last [] p last
  | snoc {moves : List (ℤ × ℕ)} {q r : ℕ} {last' : Option ℤ} {t : ℤ}
      (before : Drifts D cap I p last moves q last')
      (spaced : ∀ l, last' = some l → l + I ≤ t)
      (near : Nat.dist r q ≤ q * cap / D) (ne_zero : r ≠ 0) :
      Drifts D cap I p last (moves ++ [(t, r)]) r (some t)

variable {D cap p q : ℕ} {last last' : Option ℤ} {moves : List (ℤ × ℕ)}

namespace Drifts

/-- The last move, if there was one, is the last of the list. -/
theorem last_eq (h : Drifts D cap I p last moves q last') :
    last' = ((moves.map Prod.fst).getLast?).or last := by
  cases h with
  | nil => rfl
  | snoc => simp

/-- **No move comes within the interval of another.** -/
theorem pairwise (hI : 0 < I) (h : Drifts D cap I p last moves q last') :
    (moves.map Prod.fst).Pairwise fun x y => x + I ≤ y := by
  induction h with
  | nil => exact List.Pairwise.nil
  | @snoc moves q r last' t before spaced near ne_zero ih =>
    rw [List.map_append, List.pairwise_append]
    refine ⟨ih, List.pairwise_singleton _ _, fun x hx y hy => ?_⟩
    obtain rfl : y = t := by simpa using hy
    -- the last of the earlier moves is an interval before, and the others are before that one
    rcases hlast : (moves.map Prod.fst).getLast? with _ | l
    · rw [List.getLast?_eq_none_iff] at hlast
      rw [hlast] at hx
      exact absurd hx (by simp)
    · have hl : l + I ≤ y := spaced l (by rw [before.last_eq, hlast, Option.some_or])
      obtain ⟨front, hfront⟩ := List.getLast?_eq_some_iff.mp hlast
      rw [hfront] at hx ih
      rcases List.mem_append.mp hx with hx | hx
      · have hxl := (List.pairwise_append.mp ih).2.2 x hx l (List.mem_singleton_self _)
        omega
      · obtain rfl := List.mem_singleton.mp hx
        exact hl

/-- **How often.** -/
theorem length_filter_le (hI : 0 < I) (hT : 0 ≤ T) (h : Drifts D cap I p last moves q last') :
    ((moves.filter fun m => decide (a ≤ m.1 ∧ m.1 ≤ a + T)).length : ℤ) ≤ 1 + T / I := by
  have hle := Drift.length_filter_le (a := a) hI hT (h.pairwise hI)
  rwa [List.filter_map, List.length_map] at hle

/-- A move by a share of a value, rounded down, is one by the share. -/
theorem near_mul {r : ℕ} (hnear : Nat.dist r q ≤ q * cap / D) (hcap : cap ≤ D) :
    q * (D - cap) ≤ r * D ∧ r * D ≤ q * (D + cap) := by
  have hmul : Nat.dist r q * D ≤ q * cap :=
    (Nat.mul_le_mul_right D hnear).trans (Nat.div_mul_le_self _ _)
  have hsub : q * (D - cap) + q * cap = q * D := by
    rw [← Nat.mul_add, Nat.sub_add_cancel hcap]
  have hadd : q * (D + cap) = q * D + q * cap := Nat.mul_add _ _ _
  rw [Nat.dist] at hmul
  rcases le_total r q with hle | hle
  · rw [Nat.sub_eq_zero_of_le hle, Nat.zero_add] at hmul
    have hdist : (q - r) * D + r * D = q * D := by
      rw [← Nat.add_mul, Nat.sub_add_cancel hle]
    omega
  · rw [Nat.sub_eq_zero_of_le hle, Nat.add_zero] at hmul
    have hdist : (r - q) * D + q * D = r * D := by
      rw [← Nat.add_mul, Nat.sub_add_cancel hle]
    omega

/-- **How far.** -/
theorem within (hcap : cap ≤ D) (h : Drifts D cap I p last moves q last') :
    p * (D - cap) ^ moves.length ≤ q * D ^ moves.length ∧
      q * D ^ moves.length ≤ p * (D + cap) ^ moves.length := by
  induction h with
  | nil => simp
  | @snoc moves q r last' t before spaced near ne_zero ih =>
    obtain ⟨hlow, hhigh⟩ := ih
    obtain ⟨hdown, hup⟩ := near_mul near hcap
    rw [List.length_append, List.length_singleton, pow_succ, pow_succ, pow_succ]
    constructor
    · calc p * ((D - cap) ^ moves.length * (D - cap))
          = p * (D - cap) ^ moves.length * (D - cap) := by ring
        _ ≤ q * D ^ moves.length * (D - cap) := Nat.mul_le_mul_right _ hlow
        _ = q * (D - cap) * D ^ moves.length := by ring
        _ ≤ r * D * D ^ moves.length := Nat.mul_le_mul_right _ hdown
        _ = r * (D ^ moves.length * D) := by ring
    · calc r * (D ^ moves.length * D) = r * D * D ^ moves.length := by ring
        _ ≤ q * (D + cap) * D ^ moves.length := Nat.mul_le_mul_right _ hup
        _ = q * D ^ moves.length * (D + cap) := by ring
        _ ≤ p * (D + cap) ^ moves.length * (D + cap) := Nat.mul_le_mul_right _ hhigh
        _ = p * ((D + cap) ^ moves.length * (D + cap)) := by ring

/-- A value that is not zero drifts to none that is. -/
theorem ne_zero (hp : p ≠ 0) (h : Drifts D cap I p last moves q last') : q ≠ 0 := by
  cases h with
  | nil => exact hp
  | snoc _ _ _ ne_zero => exact ne_zero

end Drifts

/-! ### A machine with such a value -/

/-- **One step of a machine**: it leaves the value and the moment of its last move, or is a move. -/
inductive Step (D cap : ℕ) (I : ℤ) (p : ℕ) (last : Option ℤ) :
    Option (ℤ × ℕ) → ℕ → Option ℤ → Prop
  | stays : Step D cap I p last none p last
  | moves {r : ℕ} {t : ℤ} (spaced : ∀ l, last = some l → l + I ≤ t)
      (near : Nat.dist r p ≤ p * cap / D) (ne_zero : r ≠ 0) :
      Step D cap I p last (some (t, r)) r (some t)

/-- **What a limit on moves limits**: how often, and how far. -/
structure Limited (D cap : ℕ) (I : ℤ) (p q : ℕ) (moves : List (ℤ × ℕ)) : Prop where
  often : ∀ a T : ℤ, 0 ≤ T →
    ((moves.filter fun m => decide (a ≤ m.1 ∧ m.1 ≤ a + T)).length : ℤ) ≤ 1 + T / I
  far : p * (D - cap) ^ moves.length ≤ q * D ^ moves.length ∧
    q * D ^ moves.length ≤ p * (D + cap) ^ moves.length
  ne_zero : q ≠ 0

theorem Drifts.limited (hI : 0 < I) (hcap : cap ≤ D) (hp : p ≠ 0)
    (h : Drifts D cap I p last moves q last') : Limited D cap I p q moves :=
  ⟨fun _ _ hT => h.length_filter_le hI hT, h.within hcap, h.ne_zero hp⟩

/-- **A run of a machine drifts** as its steps do. -/
theorem drifts_of_run {σ α ω : Type*} {exec : σ → α → Option (σ × ω)} {s₀ s : σ}
    {tr : List (Transition.Entry σ α ω)} {price : σ → ℕ} {lastOf : σ → Option ℤ}
    {move : Transition.Entry σ α ω → Option (ℤ × ℕ)} (hrun : Transition.Run exec s₀ tr s)
    (hstep : ∀ e ∈ tr, Step D cap I (price e.pre) (lastOf e.pre) (move e) (price e.post)
      (lastOf e.post)) :
    Drifts D cap I (price s₀) (lastOf s₀) (tr.filterMap move) (price s) (lastOf s) := by
  induction hrun with
  | nil => exact .nil
  | @snoc tr s s' a o hr he ih =>
    have hbefore := ih fun e hmem => hstep e (List.mem_append_left _ hmem)
    have hlast := hstep ⟨s, a, o, s'⟩ (List.mem_append_right _ (List.mem_singleton_self _))
    rw [List.filterMap_append]
    dsimp only at hlast
    generalize hmove : move ⟨s, a, o, s'⟩ = m at hlast
    generalize price s' = q' at hlast
    generalize lastOf s' = l' at hlast
    cases hlast with
    | stays => simpa [hmove] using hbefore
    | moves spaced near ne_zero => simpa [hmove] using hbefore.snoc spaced near ne_zero

end Drift
