import Mathlib.Algebra.Group.Nat.Defs
import Mathlib.Data.Nat.Basic
import Mathlib.Logic.Basic
import Mathlib.Tactic.Common

/-!
# Computations that may revert

A contract call either goes through or reverts, and a revert carries a reason.
`Except` is that shape, and what a contract body does with it is always the same
three things: refuse under a condition (`Revert.revertIf`), read a value that may
be missing (`Revert.orRevert`), and do an addition that must fit a machine word
(`Revert.checked`).

What this file provides is the other direction. A proof about a call starts from
the hypothesis that it went through, and has to peel the guards off one by one.
Each of the three primitives comes with the equivalence that does it, stated for
a computation that *continues*, so that `simp only` with these lemmas turns “the
call returned `r`” into the conjunction of its guards in the order of the source.
-/

namespace Revert

variable {ε α β : Type}

/-- Refuse with the reason `e` when `c` holds, and carry on otherwise. -/
def revertIf (c : Prop) [Decidable c] (e : ε) : Except ε Unit :=
  if c then .error e else .ok ()

/-- The value of an option, or the reason `e` when there is none. -/
def orRevert (e : ε) : Option α → Except ε α
  | some a => .ok a
  | none => .error e

/-- An exact result that has to fit a machine word of `w` bits: the checked
arithmetic of the source. -/
def checked {w : ℕ} (e : ε) (n : ℕ) : Except ε (BitVec w) :=
  if n < 2 ^ w then .ok (BitVec.ofNat w n) else .error e

/-- A subtraction that must not go below zero. -/
def checkedSub {w : ℕ} (e : ε) (a b : BitVec w) : Except ε (BitVec w) :=
  if b ≤ a then .ok (a - b) else .error e

/-- The same computation, under another type of reasons. -/
def withReason {ε' : Type} (f : ε → ε') : Except ε α → Except ε' α
  | .ok a => .ok a
  | .error e => .error (f e)

/-- A guard returns nothing worth a name. -/
theorem exists_unit {p : Unit → Prop} : (∃ u, p u) ↔ p () :=
  ⟨fun ⟨_, h⟩ => h, fun h => ⟨(), h⟩⟩

/-- **Peeling one step**: a computation that goes through has a value after each of
its steps. -/
theorem bind_eq_ok {x : Except ε α} {f : α → Except ε β} {b : β} :
    (x >>= f) = .ok b ↔ ∃ a, x = .ok a ∧ f a = .ok b := by
  cases x with
  | error e => simp [bind, Except.bind]
  | ok a => simp [bind, Except.bind]

/-- Going on after a value. -/
theorem ok_bind {a : α} {f : α → Except ε β} : (Except.ok a >>= f) = f a := rfl

/-- Going on after a guard, as a branch. -/
theorem revertIf_bind {c : Prop} [Decidable c] {e : ε} {f : Unit → Except ε β} :
    (revertIf c e >>= f) = if c then .error e else f () := by
  by_cases h : c <;> simp [revertIf, h, bind, Except.bind]

theorem revertIf_eq_ok {c : Prop} [Decidable c] {e : ε} {u : Unit} :
    revertIf c e = .ok u ↔ ¬c := by
  by_cases h : c <;> simp [revertIf, h]

/-- **Peeling a guard**: a computation that refuses under `c` first goes through
exactly when `c` fails and the rest goes through. -/
theorem revertIf_bind_eq_ok {c : Prop} [Decidable c] {e : ε} {f : Unit → Except ε β} {b : β} :
    (revertIf c e >>= f) = .ok b ↔ ¬c ∧ f () = .ok b := by
  by_cases h : c <;> simp [revertIf, h, bind, Except.bind]

theorem orRevert_eq_ok {e : ε} {o : Option α} {a : α} : orRevert e o = .ok a ↔ o = some a := by
  cases o <;> simp [orRevert]

/-- **Peeling a lookup.** -/
theorem orRevert_bind_eq_ok {e : ε} {o : Option α} {f : α → Except ε β} {b : β} :
    (orRevert e o >>= f) = .ok b ↔ ∃ a, o = some a ∧ f a = .ok b := by
  simp only [bind_eq_ok, orRevert_eq_ok]

/-- The word a checked operation returns is its exact result. -/
theorem checked_eq_ok {w n : ℕ} {e : ε} {v : BitVec w} : checked e n = .ok v ↔ v.toNat = n := by
  by_cases h : n < 2 ^ w
  · simp only [checked, h, if_true, Except.ok.injEq]
    constructor
    · rintro rfl
      rw [BitVec.toNat_ofNat, Nat.mod_eq_of_lt h]
    · rintro rfl
      simp
  · simp only [checked, h, if_false, reduceCtorEq, false_iff]
    rintro rfl
    exact h v.isLt

theorem checkedSub_eq_ok {w : ℕ} {e : ε} {a b c : BitVec w} :
    checkedSub e a b = .ok c ↔ c.toNat + b.toNat = a.toNat := by
  by_cases h : b ≤ a
  · simp only [checkedSub, h, if_true, Except.ok.injEq]
    have hsub := BitVec.toNat_sub_of_le h
    have hle : b.toNat ≤ a.toNat := h
    constructor
    · rintro rfl
      omega
    · intro hc
      exact BitVec.eq_of_toNat_eq (by omega)
  · simp only [checkedSub, h, if_false, reduceCtorEq, false_iff]
    intro hc
    exact h (by rw [BitVec.le_def]; omega)

theorem withReason_eq_ok {ε' : Type} {f : ε → ε'} {x : Except ε α} {a : α} :
    withReason f x = .ok a ↔ x = .ok a := by
  cases x <;> simp [withReason]

theorem pure_eq_ok {a b : α} : (pure a : Except ε α) = .ok b ↔ a = b := by
  simp [pure, Except.pure]

/-- What a computation returned, as an option. -/
theorem toOption_eq_some {x : Except ε α} {a : α} : x.toOption = some a ↔ x = .ok a := by
  cases x <;> simp [Except.toOption]

/-- **An invariant of a loop** that stops at the first refusal: it holds of what the whole list
made of it. -/
theorem foldlM_invariant {f : β → α → Except ε β} {P : List α → β → Prop} {b b' : β} {as : List α}
    (h₀ : P [] b)
    (hstep : ∀ pre a b b', P pre b → f b a = .ok b' → P (pre ++ [a]) b')
    (h : as.foldlM f b = .ok b') : P as b' := by
  have hrun : ∀ (rest pre : List α) (b : β), P pre b → rest.foldlM f b = .ok b' →
      P (pre ++ rest) b' := by
    intro rest
    induction rest with
    | nil =>
      rintro pre b hb hrest
      rw [List.append_nil, ← Except.ok.inj hrest]
      exact hb
    | cons a rest ih =>
      intro pre b hb hrest
      rw [List.foldlM_cons, bind_eq_ok] at hrest
      obtain ⟨c, hc, hrest⟩ := hrest
      have hnext := ih (pre ++ [a]) c (hstep pre a b c hb hc) hrest
      rwa [List.append_assoc, List.singleton_append] at hnext
  exact hrun as [] b h₀ h

/-! ### Reasons that never come up -/

/-- A computation does not fail for this reason. -/
def Avoids (e : ε) (x : Except ε α) : Prop := x ≠ .error e

variable {e e' : ε}

@[simp] theorem avoids_ok {a : α} : Avoids e (Except.ok a : Except ε α) := by
  simp [Avoids]

@[simp] theorem avoids_pure {a : α} : Avoids e (pure a : Except ε α) := by
  simp [Avoids, pure, Except.pure]

@[simp] theorem avoids_error : Avoids e (Except.error e' : Except ε α) ↔ e' ≠ e := by
  rw [Avoids, ne_eq, Except.error.injEq]

/-- **One step after another**: neither fails for it, the second with what the first returned. -/
theorem avoids_bind {x : Except ε α} {f : α → Except ε β} :
    Avoids e (x >>= f) ↔ Avoids e x ∧ ∀ a, x = .ok a → Avoids e (f a) := by
  cases x with
  | error e' => simp [bind, Except.bind]
  | ok a => simp [bind, Except.bind]

@[simp] theorem avoids_map {x : Except ε α} {f : α → β} :
    Avoids e (f <$> x) ↔ Avoids e x := by
  cases x <;> simp [Functor.map, Except.map]

@[simp] theorem avoids_revertIf {c : Prop} [Decidable c] :
    Avoids e (revertIf c e') ↔ (c → e' ≠ e) := by
  unfold revertIf
  split_ifs with hc <;> simp [hc]

@[simp] theorem avoids_orRevert {o : Option α} :
    Avoids e (orRevert e' o) ↔ (o = none → e' ≠ e) := by
  cases o <;> simp [orRevert]

@[simp] theorem avoids_checked {w n : ℕ} :
    Avoids e (checked e' n : Except ε (BitVec w)) ↔ (¬ n < 2 ^ w → e' ≠ e) := by
  unfold checked
  split_ifs with hn <;> simp [hn]

end Revert
