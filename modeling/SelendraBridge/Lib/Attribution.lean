import Mathlib.Data.List.Basic
import Mathlib.Tactic.Common

/-!
# Whose words they are

A transcript of nested calls brackets what is said in a call by two events, one where the call
begins and one where it ends, and whoever reads it keeps a stack of the calls under way to tell
whose words are whose (`Attribution.run`). But what is said may look like a bracket itself, and then
the stack is not what it should be.

* Where nothing said looks like a bracket, the stack is right again after every call, and all is
  attributed as it should be (`Attribution.run_quiet`).
* For the words of one party, it is enough that this holds inside that party's calls, and that
  nobody can say that the party's call begins. What others say outside may unhinge the stack, and
  yet the party is never found on it (`Attribution.run_guarded`).

Calls that follow each other and calls within calls are one tree (`Attribution.Calls`), a call's
body beside what comes after it.
-/

namespace Attribution

variable {ι β : Type*}

/-- **What a line looks like**: the beginning of somebody's call, the end of one, something said,
or nothing of interest. -/
inductive Event (ι β : Type*)
  | push (i : ι)
  | pop
  | emit (b : β)
  | skip

/-- One event: the calls under way, the innermost first, and what the party is found to have
said. -/
def step [DecidableEq ι] (own : ι) (st : List ι × List β) : Event ι β → List ι × List β
  | .push i => (i :: st.1, st.2)
  | .pop => (st.1.tail, st.2)
  | .emit b => if st.1.head? = some own then (st.1, st.2 ++ [b]) else st
  | .skip => st

/-- A transcript, read from some point on. -/
def run [DecidableEq ι] (own : ι) (st : List ι × List β) (events : List (Event ι β)) :
    List ι × List β :=
  events.foldl (step own) st

/-- **Calls and what is said in them**, one thing after another. -/
inductive Calls (ι β : Type*)
  | done
  | say (e : Event ι β) (next : Calls ι β)
  | call (i : ι) (body next : Calls ι β)

namespace Calls

/-- The transcript. -/
def events : Calls ι β → List (Event ι β)
  | done => []
  | say e next => e :: next.events
  | call i body next => .push i :: (body.events ++ .pop :: next.events)

/-- One after the other. -/
def append : Calls ι β → Calls ι β → Calls ι β
  | done, t => t
  | say e next, t => say e (next.append t)
  | call i body next, t => call i body (next.append t)

/-- What a party said, if the calls are within one of its own or not. -/
def saidBy [DecidableEq ι] (own : ι) (mine : Bool) : Calls ι β → List β
  | done => []
  | say (.emit b) next => if mine = true then b :: next.saidBy own mine else next.saidBy own mine
  | say _ next => next.saidBy own mine
  | call i body next => body.saidBy own (decide (i = own)) ++ next.saidBy own mine

/-- Nothing said looks like a bracket. -/
def Quiet : Calls ι β → Prop
  | done => True
  | say e next => ((∀ i, e ≠ .push i) ∧ e ≠ .pop) ∧ next.Quiet
  | call _ body next => body.Quiet ∧ next.Quiet

/-- Nothing said looks like the beginning of a party's call, and nothing in its calls like a
bracket. -/
def Guarded (own : ι) : Calls ι β → Prop
  | done => True
  | say e next => e ≠ .push own ∧ next.Guarded own
  | call i body next => ((i = own → body.Quiet) ∧ (i ≠ own → body.Guarded own)) ∧ next.Guarded own

@[simp] theorem events_append (s t : Calls ι β) : (s.append t).events = s.events ++ t.events := by
  induction s with
  | done => rfl
  | say e next ih => simp only [append, events, ih, List.cons_append]
  | call i body next _ ih => simp only [append, events, ih, List.cons_append, List.append_assoc]

@[simp] theorem quiet_append {s t : Calls ι β} : (s.append t).Quiet ↔ s.Quiet ∧ t.Quiet := by
  induction s with
  | done => simp only [append, Quiet, true_and]
  | say e next ih => simp only [append, Quiet, ih, and_assoc]
  | call i body next _ ih => simp only [append, Quiet, ih, and_assoc]

@[simp] theorem guarded_append {own : ι} {s t : Calls ι β} :
    (s.append t).Guarded own ↔ s.Guarded own ∧ t.Guarded own := by
  induction s with
  | done => simp only [append, Guarded, true_and]
  | say e next ih => simp only [append, Guarded, ih, and_assoc]
  | call i body next _ ih => simp only [append, Guarded, ih, and_assoc]

@[simp] theorem saidBy_append [DecidableEq ι] (own : ι) (mine : Bool) (s t : Calls ι β) :
    (s.append t).saidBy own mine = s.saidBy own mine ++ t.saidBy own mine := by
  induction s with
  | done => rfl
  | say e next ih =>
    cases e with
    | emit b =>
      cases mine with
      | true => simp only [append, saidBy, ih, if_true, List.cons_append]
      | false => simp only [append, saidBy, ih, Bool.false_eq_true, if_false]
    | _ => simp only [append, saidBy, ih]
  | call i body next _ ih => simp only [append, saidBy, ih, List.append_assoc]

end Calls

variable [DecidableEq ι] {own top : ι} {stack : List ι} {out : List β}

theorem run_append (st : List ι × List β) (es fs : List (Event ι β)) :
    run own st (es ++ fs) = run own (run own st es) fs :=
  List.foldl_append

/-- **Where nothing said looks like a bracket** the stack is what it was, and all is attributed. -/
theorem run_quiet {t : Calls ι β} (h : t.Quiet) :
    run own (top :: stack, out) t.events =
      (top :: stack, out ++ t.saidBy own (decide (top = own))) := by
  induction t generalizing top stack out with
  | done => simp only [Calls.events, run, List.foldl_nil, Calls.saidBy, List.append_nil]
  | say e next ih =>
    obtain ⟨⟨hpush, hpop⟩, hnext⟩ := h
    rw [Calls.events, run, List.foldl_cons, ← run]
    cases e with
    | push i => exact absurd rfl (hpush i)
    | pop => exact absurd rfl hpop
    | skip => exact ih hnext
    | emit b =>
      rcases eq_or_ne top own with rfl | hne
      · rw [step, if_pos List.head?_cons, ih hnext]
        simp only [Calls.saidBy, decide_true, if_true, List.append_assoc, List.singleton_append]
      · have hhead : ¬(top :: stack).head? = some own := fun heq => hne (Option.some.inj heq)
        rw [step, if_neg hhead, ih hnext]
        simp only [Calls.saidBy, decide_eq_false hne, Bool.false_eq_true, if_false]
  | call i body next ihbody ihnext =>
    obtain ⟨hbody, hnext⟩ := h
    rw [Calls.events, run, List.foldl_cons, ← run, step, run_append, ihbody hbody, run,
      List.foldl_cons, ← run, step, List.tail_cons, ihnext hnext, Calls.saidBy, List.append_assoc]

/-- **Whatever others say outside its calls**, a party is found to have said what it said. -/
theorem run_guarded {t : Calls ι β} (h : t.Guarded own) (hstack : own ∉ stack) :
    ∃ stack', own ∉ stack' ∧
      run own (stack, out) t.events = (stack', out ++ t.saidBy own false) := by
  induction t generalizing stack out with
  | done => exact ⟨stack, hstack, by simp only [Calls.events, run, List.foldl_nil, Calls.saidBy,
      List.append_nil]⟩
  | say e next ih =>
    obtain ⟨hpush, hnext⟩ := h
    rw [Calls.events, run, List.foldl_cons, ← run]
    cases e with
    | push i =>
      have hi : own ≠ i := fun heq => hpush (by rw [heq])
      exact ih hnext (List.not_mem_cons_of_ne_of_not_mem hi hstack)
    | pop => exact ih hnext fun hmem => hstack (List.mem_of_mem_tail hmem)
    | skip => exact ih hnext hstack
    | emit b =>
      have hhead : ¬stack.head? = some own := fun heq => hstack (List.mem_of_head? heq)
      rw [step, if_neg hhead]
      obtain ⟨stack', hstack', hrun⟩ := @ih stack out hnext hstack
      exact ⟨stack', hstack', by rw [hrun]; simp only [Calls.saidBy, Bool.false_eq_true, if_false]⟩
  | call i body next ihbody ihnext =>
    obtain ⟨⟨hquiet, hguarded⟩, hnext⟩ := h
    rw [Calls.events, run, List.foldl_cons, ← run, step, run_append]
    rcases eq_or_ne i own with rfl | hne
    · -- the party's own call leaves the stack as it finds it
      rw [run_quiet (hquiet rfl), run, List.foldl_cons, ← run, step, List.tail_cons]
      obtain ⟨stack', hstack', hrun⟩ := @ihnext stack
        (out ++ body.saidBy i (decide (i = i))) hnext hstack
      exact ⟨stack', hstack', by rw [hrun, Calls.saidBy, List.append_assoc]⟩
    · -- somebody else's may not, but what it leaves is free of the party
      obtain ⟨stack₁, hstack₁, hbody⟩ := @ihbody (i :: stack) out (hguarded hne)
        (List.not_mem_cons_of_ne_of_not_mem hne.symm hstack)
      rw [hbody, run, List.foldl_cons, ← run, step]
      obtain ⟨stack', hstack', hrun⟩ := @ihnext stack₁.tail
        (out ++ body.saidBy own false) hnext fun hmem => hstack₁ (List.mem_of_mem_tail hmem)
      exact ⟨stack', hstack', by rw [hrun, Calls.saidBy, decide_eq_false hne, List.append_assoc]⟩

end Attribution
