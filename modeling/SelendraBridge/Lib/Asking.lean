import Mathlib.Order.Basic
import Mathlib.Data.List.Basic
import Mathlib.Tactic.Common

/-!
# Programs that ask a world which moves on

A program that decides by what it reads elsewhere takes time: between two of its questions the
world goes on, and an answer says how the world was when the question was answered, not how it is
now. `Ask` is such a program, as a tree: it is done, or it gave up, or it asks one question and goes
on with the answer.

What can be relied on at the end is what stays true once it was read. `Ask.Ends p post w` says so:
whenever the program `p` gets its answers in worlds from `w` on, each later than the one before, it
ends with a value that has `post` in the world it ends in, and in all later ones. Worlds are any
preorder, and which answers a world gives is any relation.

| rule | for |
|---|---|
| `Ask.Ends.later` | a program that waits |
| `Ask.ends_bind` | one program after another |
| `Ask.ends_question` | one question |
| `Ask.ends_attempt` | a program that is allowed to fail |
| `Ask.ends_askAll` | the same question to many |
-/

/-- **A program that asks.** -/
inductive Ask (Q A α : Type) : Type
  | done (a : α)
  /-- It gave up. -/
  | fail
  | ask (question : Q) (next : A → Ask Q A α)

namespace Ask

variable {Q A α β ι : Type}

/-! ### Programs -/

/-- One program after another. -/
def bind : Ask Q A α → (α → Ask Q A β) → Ask Q A β
  | .done a, f => f a
  | .fail, _ => .fail
  | .ask q next, f => .ask q fun answer => (next answer).bind f

instance : Monad (Ask Q A) where
  pure := .done
  bind := Ask.bind

/-- The value of a program that is allowed to fail. -/
def attempt : Ask Q A α → Ask Q A (Option α)
  | .done a => .done (some a)
  | .fail => .done none
  | .ask q next => .ask q fun answer => (next answer).attempt

/-- The question that a program waits for the answer of. -/
def asked : Ask Q A α → Option Q
  | .ask q _ => some q
  | _ => none

/-- The value of an option, or nothing more. -/
def orFail : Option α → Ask Q A α
  | some a => .done a
  | none => .fail

/-- One question, whose answer has to be of the right kind. -/
def question (q : Q) (read : A → Option α) : Ask Q A α := .ask q fun answer => orFail (read answer)

/-- Go on only under a condition. -/
def ensure (p : Prop) [Decidable p] : Ask Q A Unit := if p then .done () else .fail

/-- **The same question to many**, one after the other: the answers of those who answered. -/
def askAll (read : ι → Ask Q A α) : List ι → Ask Q A (List (ι × α))
  | [] => pure []
  | i :: is => do
    let answer ← (read i).attempt
    let answers ← askAll read is
    return match answer with
      | some a => (i, a) :: answers
      | none => answers

/-! ### What they end with -/

section Ends

variable {W : Type} [Preorder W] (Answers : W → Q → A → Prop)

/-- **What a program ends with**, in a world that moves on while it asks. -/
def Ends : Ask Q A α → (W → α → Prop) → W → Prop
  | .done a, post, w => ∀ w', w ≤ w' → post w' a
  | .fail, _, _ => True
  | .ask q next, post, w => ∀ w', w ≤ w' → ∀ answer, Answers w' q answer →
    (next answer).Ends post w'

variable {Answers} {p : Ask Q A α} {post post' : W → α → Prop} {w w' : W}

/-- A program may wait. -/
theorem Ends.later (h : p.Ends Answers post w) (hw : w ≤ w') : p.Ends Answers post w' := by
  cases p with
  | done a => exact fun w'' hw' => h w'' (hw.trans hw')
  | fail => trivial
  | ask q next => exact fun w'' hw' => h w'' (hw.trans hw')

theorem ends_pure {a : α} (h : ∀ w', w ≤ w' → post w' a) :
    (pure a : Ask Q A α).Ends Answers post w := h

/-- A weaker end will do. -/
theorem Ends.mono (h : p.Ends Answers post w)
    (himp : ∀ w', w ≤ w' → ∀ a, post w' a → post' w' a) : p.Ends Answers post' w := by
  induction p generalizing w with
  | done a => exact fun w' hw => himp w' hw a (h w' hw)
  | fail => trivial
  | ask q next ih =>
    intro w' hw answer hanswer
    exact ih answer (h w' hw answer hanswer) fun w'' hw' => himp w'' (hw.trans hw')

/-- **One program after another**: the second starts in the world that the first ends in. -/
theorem ends_bind {f : α → Ask Q A β} {post : W → β → Prop}
    (h : p.Ends Answers (fun w a => (f a).Ends Answers post w) w) :
    (p >>= f).Ends Answers post w := by
  induction p generalizing w with
  | done a => exact h w le_rfl
  | fail => trivial
  | ask q next ih => exact fun w' hw answer hanswer => ih answer (h w' hw answer hanswer)

/-- The same, with what holds in between. -/
theorem ends_bind_of (mid : W → α → Prop) {f : α → Ask Q A β} {post : W → β → Prop}
    (h : p.Ends Answers mid w)
    (hf : ∀ w', w ≤ w' → ∀ a, mid w' a → (f a).Ends Answers post w') :
    (p >>= f).Ends Answers post w := ends_bind (h.mono hf)

/-- A failure is a value too. -/
theorem ends_attempt {post : W → Option α → Prop}
    (h : p.Ends Answers (fun w a => post w (some a)) w) (hnone : ∀ w', w ≤ w' → post w' none) :
    p.attempt.Ends Answers post w := by
  induction p generalizing w with
  | done a => exact h
  | fail => exact hnone
  | ask q next ih =>
    intro w' hw answer hanswer
    exact ih answer (h w' hw answer hanswer) fun w'' hw' => hnone w'' (hw.trans hw')

theorem ends_orFail {o : Option α} (h : ∀ a, o = some a → ∀ w', w ≤ w' → post w' a) :
    (orFail o : Ask Q A α).Ends Answers post w := by
  cases o with
  | some a => exact h a rfl
  | none => trivial

/-- **One question.** -/
theorem ends_question {q : Q} {read : A → Option α}
    (h : ∀ w', w ≤ w' → ∀ answer, Answers w' q answer → ∀ a, read answer = some a →
      ∀ w'', w' ≤ w'' → post w'' a) : (question q read).Ends Answers post w :=
  fun w' hw answer hanswer => ends_orFail (h w' hw answer hanswer)

theorem ends_ensure {c : Prop} [Decidable c] {post : W → Unit → Prop}
    (h : c → ∀ w', w ≤ w' → post w' ()) : (ensure c : Ask Q A Unit).Ends Answers post w := by
  by_cases hc : c
  · rw [ensure, if_pos hc]
    exact h hc
  · rw [ensure, if_neg hc]
    trivial

/-- **The same question to many**: what every answer has, if it stays true while the others are
asked, and who answered. -/
theorem ends_askAll {read : ι → Ask Q A α} (good : W → ι → α → Prop) {is : List ι}
    (hstable : ∀ w w' i a, w ≤ w' → good w i a → good w' i a)
    (h : ∀ i ∈ is, ∀ w', w ≤ w' → (read i).Ends Answers (fun w a => good w i a) w') :
    (askAll read is).Ends Answers (fun w answers => (answers.map Prod.fst).Sublist is ∧
      ∀ x ∈ answers, good w x.1 x.2) w := by
  induction is generalizing w with
  | nil => exact fun w' _ => ⟨List.Sublist.refl [], by simp⟩
  | cons i is ih =>
    have hfirst : (read i).attempt.Ends Answers
        (fun w answer => ∀ a, answer = some a → good w i a) w :=
      ends_attempt ((h i List.mem_cons_self w le_rfl).mono fun w' _ a ha a' heq =>
        Option.some.inj heq ▸ ha) fun _ _ _ heq => nomatch heq
    refine ends_bind (hfirst.mono fun w₁ hw₁ answer hanswer => ends_bind ?_)
    refine (ih fun j hj w' hw => h j (List.mem_cons_of_mem _ hj) w' (hw₁.trans hw)).mono ?_
    rintro w₂ hw₂ answers ⟨hsub, hgood⟩ w₃ hw₃
    cases answer with
    | none => exact ⟨hsub.cons i, fun x hx => hstable _ _ _ _ hw₃ (hgood x hx)⟩
    | some a =>
      refine ⟨hsub.cons_cons i, fun x hx => ?_⟩
      rcases List.mem_cons.mp hx with rfl | hx
      · exact hstable _ _ _ _ (hw₂.trans hw₃) (hanswer _ rfl)
      · exact hstable _ _ _ _ hw₃ (hgood x hx)

end Ends

end Ask
