import Mathlib.Data.List.Basic
import Mathlib.Data.List.Induction
import Mathlib.Tactic.Common

/-!
# Runs of a machine, with what every step did

A machine is a partial step function: in a state, a label either is refused or
leads to a next state and an output. A run is the list of the steps it took, each
kept as a `Transition.Entry` – the state before, the label, the output, the state
after – so that a statement about a run can quantify over its steps and compare
two of them. Refused labels leave no trace and no effect, so a run is made of the
steps that went through.

The induction every invariant needs is packaged once: `Transition.Run.invariant`
for a property of states and `Transition.Run.rec_trace` for one that also speaks
of the past. `Transition.Run.split` cuts a run at one of its steps, which is how
a statement about “every step” is reached from one about the run before it.
-/

namespace Transition

variable {σ α ω : Type*}

/-- One step a run took. -/
structure Entry (σ α ω : Type*) where
  /-- The state the step started from. -/
  pre : σ
  /-- What was asked. -/
  label : α
  /-- What came out. -/
  out : ω
  /-- The state it led to. -/
  post : σ

/-- **The runs of a machine** from `s₀`: the steps taken, and where they lead. -/
inductive Run (exec : σ → α → Option (σ × ω)) (s₀ : σ) : List (Entry σ α ω) → σ → Prop
  /-- The run that has not started. -/
  | nil : Run exec s₀ [] s₀
  /-- A run goes on by a step that is not refused. -/
  | snoc {tr : List (Entry σ α ω)} {s s' : σ} {a : α} {o : ω} :
      Run exec s₀ tr s → exec s a = some (s', o) → Run exec s₀ (tr ++ [⟨s, a, o, s'⟩]) s'

variable {exec : σ → α → Option (σ × ω)} {s₀ s : σ} {tr : List (Entry σ α ω)}

/-- **An invariant holds along every run**: at the start, and kept by each step. -/
theorem Run.invariant {P : σ → Prop} (h₀ : P s₀)
    (hstep : ∀ s a s' o, P s → exec s a = some (s', o) → P s') (h : Run exec s₀ tr s) : P s := by
  induction h with
  | nil => exact h₀
  | snoc _ he ih => exact hstep _ _ _ _ ih he

/-- The same for a property of the past and the present together. -/
theorem Run.rec_trace {P : List (Entry σ α ω) → σ → Prop} (h₀ : P [] s₀)
    (hstep : ∀ tr s a s' o, Run exec s₀ tr s → P tr s → exec s a = some (s', o) →
      P (tr ++ [⟨s, a, o, s'⟩]) s') (h : Run exec s₀ tr s) : P tr s := by
  induction h with
  | nil => exact h₀
  | snoc hr he ih => exact hstep _ _ _ _ _ hr ih he

/-- **Cutting a run at one of its steps**: the run before it, the step, and the
run that follows. -/
theorem Run.split {tr₁ tr₂ : List (Entry σ α ω)} {e : Entry σ α ω}
    (h : Run exec s₀ (tr₁ ++ e :: tr₂) s) :
    Run exec s₀ tr₁ e.pre ∧ exec e.pre e.label = some (e.post, e.out) ∧
      Run exec e.post tr₂ s := by
  induction tr₂ using List.reverseRecOn generalizing s with
  | nil =>
    generalize htr : tr₁ ++ [e] = tr at h
    cases h with
    | nil => simp at htr
    | snoc hr he =>
      obtain ⟨rfl, htail⟩ := List.append_inj' htr rfl
      obtain rfl : e = _ := List.head_eq_of_cons_eq htail
      exact ⟨hr, he, .nil⟩
  | append_singleton tr₂ e' ih =>
    generalize htr : tr₁ ++ e :: (tr₂ ++ [e']) = tr at h
    cases h with
    | nil => simp at htr
    | snoc hr he =>
      rw [← List.cons_append, ← List.append_assoc] at htr
      obtain ⟨rfl, htail⟩ := List.append_inj' htr rfl
      obtain rfl : e' = _ := List.head_eq_of_cons_eq htail
      obtain ⟨h₁, h₂, h₃⟩ := ih hr
      exact ⟨h₁, h₂, h₃.snoc he⟩

/-- A run of no steps stays where it is. -/
theorem Run.eq_of_nil (h : Run exec s₀ [] s) : s = s₀ := by
  generalize htr : ([] : List (Entry σ α ω)) = tr at h
  cases h with
  | nil => rfl
  | snoc => simp at htr

/-- **The last step of a run**, by its label. -/
theorem Run.exists_last (h : Run exec s₀ tr s) {as : List α} {a : α}
    (hlabels : tr.map Entry.label = as ++ [a]) :
    ∃ earlier e, tr = earlier ++ [e] ∧ e.label = a ∧ e.post = s := by
  obtain ⟨earlier, rest, rfl, -, hrest⟩ := List.map_eq_append_iff.mp hlabels
  obtain ⟨e, rfl, hlabel⟩ := List.map_eq_singleton_iff.mp hrest
  exact ⟨earlier, e, rfl, hlabel, h.split.2.2.eq_of_nil.symm⟩

/-- Every step of a run was one the machine takes. -/
theorem Run.exec_of_mem (h : Run exec s₀ tr s) {e : Entry σ α ω} (he : e ∈ tr) :
    exec e.pre e.label = some (e.post, e.out) := by
  obtain ⟨tr₁, tr₂, rfl⟩ := List.append_of_mem he
  exact h.split.2.1

/-- An invariant holds in the state before every step of a run. -/
theorem Run.invariant_pre {P : σ → Prop} (h₀ : P s₀)
    (hstep : ∀ s a s' o, P s → exec s a = some (s', o) → P s') (h : Run exec s₀ tr s)
    {e : Entry σ α ω} (he : e ∈ tr) : P e.pre := by
  obtain ⟨tr₁, tr₂, rfl⟩ := List.append_of_mem he
  exact h.split.1.invariant h₀ hstep

/-- A property of states that no step loses holds from the step that reached it
to the end of the run. -/
theorem Run.stable {P : σ → Prop} (hstep : ∀ s a s' o, P s → exec s a = some (s', o) → P s')
    {tr₁ tr₂ : List (Entry σ α ω)} {e : Entry σ α ω} (h : Run exec s₀ (tr₁ ++ e :: tr₂) s)
    (hP : P e.post) : P s :=
  h.split.2.2.invariant hP hstep

/-- **A machine that takes only some of its steps.** -/
def restrict (exec : σ → α → Option (σ × ω)) (p : Entry σ α ω → Prop) [DecidablePred p] (s : σ)
    (a : α) : Option (σ × ω) :=
  (exec s a).filter fun r => decide (p ⟨s, a, r.2, r.1⟩)

theorem restrict_eq_some {p : Entry σ α ω → Prop} [DecidablePred p] {a : α} {s' : σ} {o : ω} :
    restrict exec p s a = some (s', o) ↔ exec s a = some (s', o) ∧ p ⟨s, a, o, s'⟩ := by
  rw [restrict, Option.filter_eq_some_iff, decide_eq_true_iff]

/-- A run whose steps are all of the kind is a run of the restricted machine. -/
theorem Run.restrict {p : Entry σ α ω → Prop} [DecidablePred p] (h : Run exec s₀ tr s)
    (hp : ∀ e ∈ tr, p e) : Run (restrict exec p) s₀ tr s := by
  induction h with
  | nil => exact .nil
  | snoc _ he ih =>
    have hlast := hp _ (List.mem_append_right _ (List.mem_singleton_self _))
    exact (ih fun e hmem => hp e (List.mem_append_left _ hmem)).snoc
      (restrict_eq_some.mpr ⟨he, hlast⟩)

/-- **A part of a machine runs as well.** Where every step leaves the part alone or is a step of
the part's own machine, what a run leaves of the part is a run. -/
theorem Run.project {σ' α' ω' : Type*} {exec' : σ' → α' → Option (σ' × ω')} {f : σ → σ'}
    {part : Entry σ α ω → Option (Entry σ' α' ω')}
    (hstep : ∀ s a s' o, exec s a = some (s', o) →
      part ⟨s, a, o, s'⟩ = none ∧ f s' = f s ∨
        ∃ a' o', part ⟨s, a, o, s'⟩ = some ⟨f s, a', o', f s'⟩ ∧
          exec' (f s) a' = some (f s', o'))
    (h : Run exec s₀ tr s) : Run exec' (f s₀) (tr.filterMap part) (f s) := by
  induction h with
  | nil => exact .nil
  | @snoc tr s s' a o _ he ih =>
    rw [List.filterMap_append]
    rcases hstep s a s' o he with ⟨hnone, hsame⟩ | ⟨a', o', hpart, he'⟩
    · rw [List.filterMap_cons, hnone, hsame]
      simpa using ih
    · rw [List.filterMap_cons, hpart]
      exact ih.snoc he'

/-- **Keeping something along a run, exactly.** Where something is kept so far, a step ends in a
good state exactly if it is a step of some kind, and keeps it if it does: then every step of a
run ends in a good state exactly if every step is of that kind. -/
theorem Run.forall_post_iff {P C : σ → Prop} {Q : σ → α → Prop} (h₀ : P s₀)
    (hiff : ∀ s a s' o, P s → exec s a = some (s', o) → (C s' ↔ Q s a))
    (hkeep : ∀ s a s' o, P s → exec s a = some (s', o) → C s' → P s') (h : Run exec s₀ tr s) :
    (∀ e ∈ tr, C e.post) ↔ ∀ e ∈ tr, Q e.pre e.label := by
  refine (h.rec_trace (P := fun tr s => ((∀ e ∈ tr, C e.post) ↔ ∀ e ∈ tr, Q e.pre e.label) ∧
    ((∀ e ∈ tr, C e.post) → P s)) ?_ ?_).1
  · exact ⟨by simp, fun _ => h₀⟩
  · rintro tr s a s' o - ⟨hpast, hsofar⟩ he
    simp only [List.forall_mem_append, List.forall_mem_singleton]
    constructor
    · constructor
      · rintro ⟨hC, hlast⟩
        exact ⟨hpast.mp hC, (hiff s a s' o (hsofar hC) he).mp hlast⟩
      · rintro ⟨hQ, hlast⟩
        have hC := hpast.mpr hQ
        exact ⟨hC, (hiff s a s' o (hsofar hC) he).mpr hlast⟩
    · rintro ⟨hC, hlast⟩
      exact hkeep s a s' o (hsofar hC) he hlast

/-- **Marks are given once.** Where a step names something only if it was not marked yet,
and marks it, and no step takes a mark away, the names of a run do not repeat, and all of
them are marked in the end. -/
theorem Run.nodup_of_marks {β : Type*} {names : ω → List β} {Marked : σ → β → Prop}
    (hkeep : ∀ s a s' o b, exec s a = some (s', o) → Marked s b → Marked s' b)
    (hname : ∀ s a s' o, exec s a = some (s', o) →
      names o = [] ∨ ∃ b, names o = [b] ∧ ¬Marked s b ∧ Marked s' b)
    (h : Run exec s₀ tr s) :
    (tr.flatMap fun e => names e.out).Nodup ∧
      ∀ b ∈ tr.flatMap fun e => names e.out, Marked s b := by
  induction h with
  | nil => exact ⟨List.nodup_nil, by simp⟩
  | @snoc tr s s' a o _ he ih =>
    obtain ⟨hnodup, hmarked⟩ := ih
    have hkept : ∀ b ∈ tr.flatMap fun e => names e.out, Marked s' b :=
      fun b hb => hkeep s a s' o b he (hmarked b hb)
    rw [List.flatMap_append, List.flatMap_singleton]
    rcases hname s a s' o he with hnil | ⟨b, hb, hnew, hnow⟩
    · rw [hnil, List.append_nil]
      exact ⟨hnodup, hkept⟩
    · rw [hb]
      refine ⟨List.nodup_append.mpr ⟨hnodup, by simp, ?_⟩, ?_⟩
      · -- What was named before was marked, and the new name was not.
        rintro c hc d hd rfl
        obtain rfl := List.mem_singleton.mp hd
        exact hnew (hmarked c hc)
      · intro c hc
        rcases List.mem_append.mp hc with hc | hc
        · exact hkept c hc
        · obtain rfl := List.mem_singleton.mp hc
          exact hnow

/-- The same along an invariant of the runs. -/
theorem Run.nodup_of_marks_of {β : Type*} {names : ω → List β} {Marked : σ → β → Prop}
    {P : σ → Prop} (h₀ : P s₀) (hstep : ∀ s a s' o, P s → exec s a = some (s', o) → P s')
    (hkeep : ∀ s a s' o b, P s → exec s a = some (s', o) → Marked s b → Marked s' b)
    (hname : ∀ s a s' o, P s → exec s a = some (s', o) →
      names o = [] ∨ ∃ b, names o = [b] ∧ ¬Marked s b ∧ Marked s' b)
    (h : Run exec s₀ tr s) : (tr.flatMap fun e => names e.out).Nodup := by
  classical
  have hrun := h.restrict (p := fun e => P e.pre) fun e he => h.invariant_pre h₀ hstep he
  refine (@Run.nodup_of_marks _ _ _ _ _ _ _ _ names Marked ?_ ?_ hrun).1
  · intro s a s' o b he
    obtain ⟨he, hs⟩ := restrict_eq_some.mp he
    exact hkeep s a s' o b hs he
  · intro s a s' o he
    obtain ⟨he, hs⟩ := restrict_eq_some.mp he
    exact hname s a s' o hs he

/-- **Running a list of labels**, stopping at the first one refused. -/
def runFrom (exec : σ → α → Option (σ × ω)) : σ → List α → Option (List (Entry σ α ω) × σ)
  | s, [] => some ([], s)
  | s, a :: as =>
    match exec s a with
    | none => none
    | some (s', o) => (runFrom exec s' as).map fun r => (⟨s, a, o, s'⟩ :: r.1, r.2)

/-- The first label leads to a state that the rest goes on from. -/
theorem runFrom_cons {s s' t : σ} {a : α} {o : ω} {as : List α} {tr : List (Entry σ α ω)}
    (h : exec s a = some (s', o)) (hr : runFrom exec s' as = some (tr, t)) :
    runFrom exec s (a :: as) = some (⟨s, a, o, s'⟩ :: tr, t) := by
  simp only [runFrom, h, hr, Option.map_some]

/-- Two runs one after the other are a run. -/
theorem Run.append {tr₁ tr₂ : List (Entry σ α ω)} {s₁ s₂ : σ} (h₁ : Run exec s₀ tr₁ s₁)
    (h₂ : Run exec s₁ tr₂ s₂) : Run exec s₀ (tr₁ ++ tr₂) s₂ := by
  induction h₂ with
  | nil => simpa using h₁
  | snoc _ he ih =>
    rw [← List.append_assoc]
    exact ih.snoc he

/-- What `Transition.runFrom` computes is a run. -/
theorem run_of_runFrom {as : List α} {r : List (Entry σ α ω) × σ}
    (h : runFrom exec s₀ as = some r) : Run exec s₀ r.1 r.2 := by
  induction as generalizing s₀ r with
  | nil =>
    obtain rfl := Option.some.inj h
    exact .nil
  | cons a as ih =>
    rw [runFrom] at h
    rcases hx : exec s₀ a with _ | ⟨s', o⟩
    · rw [hx] at h
      exact absurd h (by simp)
    · rw [hx] at h
      obtain ⟨r', hr', rfl⟩ := Option.map_eq_some_iff.mp h
      exact (Run.nil.snoc hx).append (ih hr')

/-- The steps that a list of labels takes and where they lead, if none is refused. -/
def traceOf (exec : σ → α → Option (σ × ω)) (s : σ) (as : List α) : List (Entry σ α ω) × σ :=
  (runFrom exec s as).getD ([], s)

/-- Labels that are not refused make a run. -/
theorem run_traceOf {as : List α} (h : (runFrom exec s₀ as).isSome = true) :
    Run exec s₀ (traceOf exec s₀ as).1 (traceOf exec s₀ as).2 := by
  obtain ⟨r, hr⟩ := Option.isSome_iff_exists.mp h
  rw [traceOf, hr]
  exact run_of_runFrom hr

/-- Such a run took the labels it was given. -/
theorem label_runFrom {as : List α} {r : List (Entry σ α ω) × σ}
    (h : runFrom exec s₀ as = some r) : r.1.map Entry.label = as := by
  induction as generalizing s₀ r with
  | nil =>
    obtain rfl := Option.some.inj h
    rfl
  | cons a as ih =>
    rw [runFrom] at h
    rcases hx : exec s₀ a with _ | ⟨s', o⟩
    · rw [hx] at h
      exact absurd h (by simp)
    · rw [hx] at h
      obtain ⟨r', hr', rfl⟩ := Option.map_eq_some_iff.mp h
      rw [List.map_cons, ih hr']

theorem label_traceOf {as : List α} (h : (runFrom exec s₀ as).isSome = true) :
    (traceOf exec s₀ as).1.map Entry.label = as := by
  obtain ⟨r, hr⟩ := Option.isSome_iff_exists.mp h
  rw [traceOf, hr]
  exact label_runFrom hr

/-- **A machine that takes every label** keeps what it began with exactly if each step keeps to
what keeps it. -/
theorem foldl_forall_iff {step : σ → α → σ} {P : σ → Prop} {Q : σ → α → Prop} (h₀ : P s₀)
    (hstep : ∀ s a, P s → (P (step s a) ↔ Q s a)) (as : List α) :
    (∀ pre a rest, as = pre ++ a :: rest → P ((pre ++ [a]).foldl step s₀)) ↔
      ∀ pre a rest, as = pre ++ a :: rest → Q (pre.foldl step s₀) a := by
  constructor
  · intro hall pre a rest has
    have hpre : P (pre.foldl step s₀) := by
      rcases List.eq_nil_or_concat pre with rfl | ⟨pre', b, rfl⟩
      · exact h₀
      · rw [List.concat_eq_append] at has ⊢
        exact hall pre' b (a :: rest) (by rw [has, List.append_assoc, List.singleton_append])
    have hafter := hall pre a rest has
    rw [List.foldl_concat] at hafter
    exact (hstep _ a hpre).mp hafter
  · intro hall
    have hbefore : ∀ pre rest, as = pre ++ rest → P (pre.foldl step s₀) := by
      intro pre
      induction pre using List.reverseRecOn with
      | nil => exact fun _ _ => h₀
      | append_singleton pre a ih =>
        intro rest has
        rw [List.append_assoc, List.singleton_append] at has
        rw [List.foldl_concat]
        exact (hstep _ a (ih _ has)).mpr (hall pre a rest has)
    intro pre a rest has
    exact hbefore _ rest (by rw [has, List.append_assoc, List.singleton_append])

end Transition
