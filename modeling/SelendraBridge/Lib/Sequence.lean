import Mathlib.Data.List.Basic
import Mathlib.Data.List.Induction
import Mathlib.Tactic.Common

/-!
# Numbered streams and the cursor that follows one

A stream of items, each of a channel and with a number in it, is
*consecutive* when every channel counts 0, 1, 2, … : an item's number is how many items
of its channel came before it. A *cursor* remembers, for every channel, the number
of the last item that was read; an item that cannot be read leaves it as it is.

What a reader wants of the two together is `Sequence.cursor_expects`: wherever in a
consecutive stream the reading began, the next item of a channel is either the first one
the cursor sees of it, or the one right after the last. Nothing has to be read of the
channels' names and numbers but what `Sequence.Reading` asks: reading does not confuse
channels or numbers, and does not fail on an item with a smaller number than one it
can read.
-/

namespace Sequence

variable {α κ ν κ' : Type*} [DecidableEq κ] [DecidableEq κ']

/-- **Every channel counts from zero**, item by item. -/
def Consecutive (channel : α → κ') (number : α → ℕ) (xs : List α) : Prop :=
  ∀ pre x rest, xs = pre ++ x :: rest →
    number x = pre.countP fun y => channel y = channel x

variable {channel : α → κ'} {number : α → ℕ}

/-- A beginning of a consecutive stream is one. -/
theorem Consecutive.of_append {xs ys : List α} (h : Consecutive channel number (xs ++ ys)) :
    Consecutive channel number xs := by
  intro pre x rest hxs
  exact h pre x (rest ++ ys) (by rw [hxs]; simp)

/-- A single item numbered zero is a consecutive stream. -/
theorem consecutive_singleton {x : α} (h : number x = 0) : Consecutive channel number [x] := by
  intro pre y rest hxs
  obtain ⟨rfl, hcons⟩ : pre = [] ∧ [x] = y :: rest := by
    cases pre with
    | nil => exact ⟨rfl, hxs⟩
    | cons z pre => simp at hxs
  obtain ⟨rfl, -⟩ := List.cons.inj hcons
  exact h

/-- What reading an item gives: the channel and the number, if it can be read. -/
structure Reading (channel : α → κ') (number : α → ℕ) (read : α → Option (κ × ν))
    (value : ν → ℕ) : Prop where
  /-- The number read is the number. -/
  number_eq : ∀ {x k n}, read x = some (k, n) → value n = number x
  /-- Items that can be read are of one channel exactly when they are read so. -/
  channel_iff : ∀ {x y k l m n}, read x = some (k, m) → read y = some (l, n) →
    (channel x = channel y ↔ k = l)
  /-- An item with no larger number in the channel of one that can be read can be read. -/
  isSome_of_le : ∀ {x y}, channel x = channel y → number x ≤ number y →
    (read y).isSome → (read x).isSome

/-- What one item does to the cursor. -/
def advance (read : α → Option (κ × ν)) (c : κ → Option ν) (x : α) : κ → Option ν :=
  match read x with
  | none => c
  | some (k, n) => Function.update c k (some n)

/-- **The cursor after a stream**, begun with nothing remembered. -/
def cursor (read : α → Option (κ × ν)) (xs : List α) : κ → Option ν :=
  xs.foldl (advance read) fun _ => none

variable {read : α → Option (κ × ν)} {value : ν → ℕ}

@[simp]
theorem cursor_nil : cursor read [] = fun _ => none := rfl

theorem cursor_append_singleton (xs : List α) (x : α) :
    cursor read (xs ++ [x]) = advance read (cursor read xs) x := by
  rw [cursor, List.foldl_append]
  rfl

theorem advance_of_none {c : κ → Option ν} {x : α} (h : read x = none) :
    advance read c x = c := by
  rw [advance, h]

theorem advance_of_some {c : κ → Option ν} {x : α} {k : κ} {n : ν} (h : read x = some (k, n)) :
    advance read c x = Function.update c k (some n) := by
  rw [advance, h]

/-- **What the cursor knows of a channel** whose items could all be read: nothing, if
none came, and otherwise the number before the next one. -/
theorem cursor_eq (hread : Reading channel number read value) {pre xs : List α} {x : α} {k : κ}
    {n : ν} (hcon : Consecutive channel number (pre ++ xs)) (hx : read x = some (k, n))
    (hle : (pre ++ xs).countP (fun y => channel y = channel x) ≤ number x) :
    (cursor read xs k = none ∧ xs.countP (fun y => channel y = channel x) = 0) ∨
      ∃ m, cursor read xs k = some m ∧
        value m + 1 = (pre ++ xs).countP fun y => channel y = channel x := by
  induction xs using List.reverseRecOn with
  | nil => exact .inl ⟨rfl, rfl⟩
  | append_singleton xs y ih =>
    rw [← List.append_assoc] at hcon hle ⊢
    rw [List.countP_append] at hle
    have hind := ih hcon.of_append (by omega)
    rw [cursor_append_singleton, List.countP_append,
      @List.countP_append _ _ (pre ++ xs)]
    by_cases hy : channel y = channel x
    · -- An item of the channel: it can be read, for its number is below that of `x`.
      have hone : [y].countP (fun z => channel z = channel x) = 1 := by simp [hy]
      have hnum : number y = (pre ++ xs).countP fun z => channel z = channel x := by
        rw [hcon (pre ++ xs) y [] rfl, hy]
      have hsome : (read y).isSome := by
        refine hread.isSome_of_le hy ?_ (by rw [hx]; rfl)
        rw [hone] at hle
        omega
      obtain ⟨⟨l, m⟩, hlm⟩ := Option.isSome_iff_exists.mp hsome
      obtain rfl : l = k := (hread.channel_iff hlm hx).mp hy
      refine .inr ⟨m, ?_, ?_⟩
      · rw [advance_of_some hlm, Function.update_self]
      · rw [hread.number_eq hlm, hnum, hone]
    · have hzero : [y].countP (fun z => channel z = channel x) = 0 := by simp [hy]
      rw [hzero, Nat.add_zero, Nat.add_zero]
      have hkeep : advance read (cursor read xs) y k = cursor read xs k := by
        rcases hr : read y with _ | ⟨l, m⟩
        · rw [advance_of_none hr]
        · have hne : k ≠ l := fun h => hy ((hread.channel_iff hr hx).mpr h.symm)
          rw [advance_of_some hr, Function.update_of_ne hne]
      rw [hkeep]
      exact hind

/-- **The next item is the expected one**: the first its channel has shown since the
reading began, or the one after the last. -/
theorem cursor_expects (hread : Reading channel number read value) {pre xs rest : List α}
    {x : α} {k : κ} {n : ν} (hcon : Consecutive channel number (pre ++ xs ++ x :: rest))
    (hx : read x = some (k, n)) :
    cursor read xs k = none ∨ ∃ m, cursor read xs k = some m ∧ value n = value m + 1 := by
  have hnum := hcon (pre ++ xs) x rest rfl
  rcases cursor_eq hread hcon.of_append hx (Nat.le_of_eq hnum.symm) with ⟨hnone, _⟩ | ⟨m, hm, hval⟩
  · exact .inl hnone
  · exact .inr ⟨m, hm, by rw [hval, hread.number_eq hx, hnum]⟩

end Sequence
