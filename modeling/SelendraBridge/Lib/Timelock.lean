import Mathlib.Logic.Function.Basic
import SelendraBridge.Lib.Transition

/-!
# Actions that wait

A timelock keeps, for each key, when the action of that name becomes ready, and what
was pinned when it was scheduled. Three things happen to a key: it is *scheduled*,
which sets its ready time a fixed delay ahead, it is *cleared* – by a cancellation or
because the action was taken – or it is left alone. Scheduling again overwrites.

The library says what a ready time *means*: along any run of a machine whose steps do
these three things to a table that starts empty (`Timelock.Clocked`), an entry of the
table is the trace of a step that scheduled it, and no step since then has touched its
key (`Timelock.Clocked.live`). A machine that checks the table before it takes an action
inherits the bounds on the time between the two (`Timelock.Clocked.matured`).
-/

namespace Timelock

open Transition

variable {κ π : Type*}

/-- What a step does to the table. -/
inductive Op (κ π : Type*)
  /-- Schedule the action of a key, with what is pinned for it. -/
  | schedule (k : κ) (p : π)
  /-- Cancel or take the action of a key. -/
  | clear (k : κ)

/-- The key an operation touches. -/
def Op.key : Op κ π → κ
  | .schedule k _ => k
  | .clear k => k

/-- A table: when each key is ready, and what was pinned for it. -/
abbrev Pending (κ π : Type*) := κ → Option (ℕ × π)

/-- The table after an operation at a time. -/
def Op.effect [DecidableEq κ] (delay now : ℕ) (pending : Pending κ π) : Op κ π → Pending κ π
  | .schedule k p => Function.update pending k (some (now + delay, p))
  | .clear k => Function.update pending k none

variable [DecidableEq κ] {σ α ω : Type*}

/-- **A machine with a timelock in it**: how its states show the table, what its steps
do to the table and when, in the states that meet an invariant. -/
structure Clocked (exec : σ → α → Option (σ × ω)) (inv : σ → Prop) (pending : σ → Pending κ π)
    (op : Entry σ α ω → Option (Op κ π)) (time : Entry σ α ω → ℕ) (delay : ℕ) : Prop where
  keeps : ∀ {s a s' o}, inv s → exec s a = some (s', o) → inv s'
  /-- Every step does to the table what its operation does. -/
  step : ∀ {s a s' o}, inv s → exec s a = some (s', o) →
    pending s' = ((op ⟨s, a, o, s'⟩).elim (pending s)
      (Op.effect delay (time ⟨s, a, o, s'⟩) (pending s)))

variable {exec : σ → α → Option (σ × ω)} {inv : σ → Prop} {pending : σ → Pending κ π}
  {op : Entry σ α ω → Option (Op κ π)} {time : Entry σ α ω → ℕ} {delay : ℕ}
  {s₀ s : σ} {tr : List (Entry σ α ω)}

/-- A step that does not touch a key leaves its entry alone. -/
theorem Clocked.step_of_untouched (C : Clocked exec inv pending op time delay) {a : α} {s' : σ}
    {o : ω} {k : κ} (hi : inv s) (h : exec s a = some (s', o))
    (hk : ∀ x, op ⟨s, a, o, s'⟩ = some x → x.key ≠ k) : pending s' k = pending s k := by
  rw [C.step hi h]
  rcases hop : op ⟨s, a, o, s'⟩ with _ | x
  · rfl
  · have hne := hk x hop
    rcases x with ⟨k', p⟩ | k'
    · exact Function.update_of_ne (Ne.symm hne) _ _
    · exact Function.update_of_ne (Ne.symm hne) _ _

/-- **An entry of the table is the trace of its schedule**: the step that scheduled it
is in the run, set the ready time the delay ahead, and pinned what is pinned; and no
step after it has touched the key. -/
theorem Clocked.live (C : Clocked exec inv pending op time delay) (hi : inv s₀)
    (h₀ : ∀ k, pending s₀ k = none) (h : Run exec s₀ tr s) {k : κ} {r : ℕ} {p : π}
    (hk : pending s k = some (r, p)) :
    ∃ tr₁ e tr₂, tr = tr₁ ++ e :: tr₂ ∧ op e = some (.schedule k p) ∧ r = time e + delay ∧
      ∀ e' ∈ tr₂, ∀ x, op e' = some x → x.key ≠ k := by
  induction h with
  | nil => exact absurd (hk.symm.trans (h₀ k)) (by simp)
  | @snoc tr s s' a o hr he ih =>
    have his : inv s := hr.invariant hi fun _ _ _ _ => C.keeps
    by_cases hop : ∃ x, op ⟨s, a, o, s'⟩ = some x ∧ x.key = k
    · -- The last step touches the key, so it is the schedule itself.
      obtain ⟨x, hx, rfl⟩ := hop
      rw [C.step his he, hx] at hk
      rcases x with ⟨k', p'⟩ | k'
      · rw [Option.elim_some, Op.effect, Op.key, Function.update_self, Option.some.injEq,
          Prod.mk.injEq] at hk
        obtain ⟨rfl, rfl⟩ := hk
        exact ⟨tr, _, [], rfl, hx, rfl, by simp⟩
      · rw [Option.elim_some, Op.effect, Op.key, Function.update_self] at hk
        exact absurd hk (by simp)
    · have hun : ∀ x, op ⟨s, a, o, s'⟩ = some x → x.key ≠ k := fun x hx hkey => hop ⟨x, hx, hkey⟩
      rw [C.step_of_untouched his he hun] at hk
      obtain ⟨tr₁, e, tr₂, rfl, he', hr', hlive⟩ := ih hk
      refine ⟨tr₁, e, tr₂ ++ [⟨s, a, o, s'⟩], by simp, he', hr', ?_⟩
      intro e' hmem
      rcases List.mem_append.mp hmem with hmem | hmem
      · exact hlive e' hmem
      · obtain rfl := List.mem_singleton.mp hmem
        exact hun

/-- **A step that found its action ready** was scheduled the delay before, and not
longer ago than the grace period allows. -/
theorem Clocked.matured (C : Clocked exec inv pending op time delay) (hi : inv s₀)
    (h₀ : ∀ k, pending s₀ k = none) {tr₁ tr₂ : List (Entry σ α ω)} {e : Entry σ α ω}
    (h : Run exec s₀ (tr₁ ++ e :: tr₂) s)
    {k : κ} {r grace : ℕ} {p : π} (hk : pending e.pre k = some (r, p)) (hready : r ≤ time e)
    (hgrace : time e ≤ r + grace) :
    ∃ before sched between, tr₁ = before ++ sched :: between ∧ op sched = some (.schedule k p) ∧
      time sched + delay ≤ time e ∧ time e ≤ time sched + delay + grace ∧
      ∀ e' ∈ between, ∀ x, op e' = some x → x.key ≠ k := by
  obtain ⟨before, sched, between, htr, hsched, rfl, hlive⟩ := C.live hi h₀ h.split.1 hk
  exact ⟨before, sched, between, htr, hsched, hready, hgrace, hlive⟩

end Timelock
