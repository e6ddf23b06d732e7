import Mathlib.Data.List.Basic
import Mathlib.Data.List.Sublists
import SelendraBridge.Lib.Transition

/-!
# Reports that may come before the row they are about

Two processes share a table of rows and a table of parked markers, and neither
takes a lock. The *reporter* updates the row; when there is none it parks what it
has to say as a marker, and then looks for the row once more. The *creator*
inserts the row, applies whatever marker is parked, and clears it. Every
statement is atomic, and nothing else is.

| reporter | creator |
|---|---|
| update the row, or find none | insert the row |
| check for the row: retry if it is there | touch it (for some creators) |
| park a marker otherwise | apply the marker |
| check again: apply and clear if it is there | clear the marker |

Applying and clearing are two statements on either side, and that is the one
place where a report can fall through: a marker parked between the creator's
apply and its clear is cleared unapplied, and the reporter that would still apply
it comes too late if its own apply runs after that clear
(`Parking.lostOrder`). `Parking.Lawful.carries_iff` says that this is the only
way, for every interleaving of the two to its end.
-/

namespace Parking

open Transition

/-! ### The two programs -/

/-- What the two tables are for one key, and what the statements do to them. -/
structure Scheme (ρ μ : Type*) where
  /-- The row as it is inserted. -/
  fresh : ρ
  /-- The reporter's update of the row; `none` when its guard declines. -/
  update : ρ → Option ρ
  /-- The marker after parking, from the marker there was. -/
  park : Option μ → μ
  /-- A marker folded into a row. -/
  apply : μ → ρ → ρ
  /-- What the creator does to the row before applying the marker, if anything. -/
  touch : Option (ρ → ρ)

/-- The statement the reporter is about to execute. -/
inductive ReporterPc
  | update
  | check
  | retry
  | park
  | recheck
  | apply
  | clear
  | done
  deriving DecidableEq, Repr

/-- The statement the creator is about to execute. -/
inductive CreatorPc
  | insert
  | touch
  | apply
  | clear
  | done
  deriving DecidableEq, Repr

/-- The statements, as a trace records them. -/
inductive Stmt
  | update
  | check
  | retry
  | park
  | recheck
  | reporterApply
  | reporterClear
  | insert
  | touch
  | creatorApply
  | creatorClear
  deriving DecidableEq, Repr

/-- Which of the two moves. -/
inductive Side
  | reporter
  | creator
  deriving DecidableEq, Repr

/-- The two tables at one key, and where the two programs are. -/
structure State (ρ μ : Type*) where
  /-- The row, once inserted. -/
  row : Option ρ
  /-- The parked marker, if there is one. -/
  marker : Option μ
  /-- The reporter's next statement. -/
  reporter : ReporterPc
  /-- The creator's next statement. -/
  creator : CreatorPc
  deriving DecidableEq, Repr

variable {ρ μ : Type*} (S : Scheme ρ μ)

/-- The row with the parked marker folded in, where both are there. -/
def applyMarker (row : Option ρ) (marker : Option μ) : Option ρ :=
  row.map fun r => marker.elim r fun m => S.apply m r

/-- One statement of the reporter. -/
def reporterStep (s : State ρ μ) : Option (State ρ μ × Stmt) :=
  match s.reporter with
  | .update =>
    match s.row.bind S.update with
    | some r => some ({ s with row := some r, reporter := .done }, .update)
    | none => some ({ s with reporter := .check }, .update)
  | .check => some ({ s with reporter := if s.row.isSome then .retry else .park }, .check)
  | .retry =>
    some ({ s with row := s.row.map fun r => (S.update r).getD r, reporter := .done }, .retry)
  | .park => some ({ s with marker := some (S.park s.marker), reporter := .recheck }, .park)
  | .recheck => some ({ s with reporter := if s.row.isSome then .apply else .done }, .recheck)
  | .apply =>
    some ({ s with row := applyMarker S s.row s.marker, reporter := .clear }, .reporterApply)
  | .clear => some ({ s with marker := none, reporter := .done }, .reporterClear)
  | .done => none

/-- One statement of the creator. -/
def creatorStep (s : State ρ μ) : Option (State ρ μ × Stmt) :=
  match s.creator with
  | .insert =>
    some ({ s with
      row := some (s.row.getD S.fresh)
      creator := if S.touch.isSome then .touch else .apply }, .insert)
  | .touch => some ({ s with row := s.row.map (S.touch.getD id), creator := .apply }, .touch)
  | .apply =>
    some ({ s with row := applyMarker S s.row s.marker, creator := .clear }, .creatorApply)
  | .clear => some ({ s with marker := none, creator := .done }, .creatorClear)
  | .done => none

/-- One statement of one of the two. -/
def exec (s : State ρ μ) : Side → Option (State ρ μ × Stmt)
  | .reporter => reporterStep S s
  | .creator => creatorStep S s

/-- Both about to start: no row yet, and perhaps a marker that was parked earlier. -/
def start (m : Option μ) : State ρ μ := ⟨none, m, .update, .insert⟩

/-- The statements a run executed, in order. -/
def stmts (tr : List (Entry (State ρ μ) Side Stmt)) : List Stmt := tr.map Entry.out

/-- **The order that loses a report**: parked after the creator applied, cleared
before the reporter applies. -/
def lostOrder : List Stmt := [.creatorApply, .park, .creatorClear, .reporterApply]

/-! ### What the two tables say -/

section Lawful

variable {S}

/-- **What makes a scheme carry reports.** A row is `plain` before the report is
in it and `carries` it afterwards; a marker is `silent` when it says nothing
about what is reported and `bears` the report once parked. -/
structure Lawful (S : Scheme ρ μ) (plain carries : ρ → Prop) (silent bears : μ → Prop) :
    Prop where
  plain_fresh : plain S.fresh
  not_carries : ∀ {r}, plain r → ¬carries r
  update : ∀ {r}, plain r → ∃ r', S.update r = some r' ∧ carries r'
  plain_touch : ∀ {r f}, S.touch = some f → plain r → plain (f r)
  carries_touch : ∀ {r f}, S.touch = some f → carries r → carries (f r)
  plain_apply : ∀ {m r}, silent m → plain r → plain (S.apply m r)
  carries_apply_silent : ∀ {m r}, silent m → carries r → carries (S.apply m r)
  carries_apply : ∀ {m r}, bears m → plain r ∨ carries r → carries (S.apply m r)
  park : ∀ {m : Option μ}, (∀ x ∈ m, silent x) → bears (S.park m)

variable {plain carries : ρ → Prop} {silent bears : μ → Prop}

/-- No marker, or one that says nothing about the report. -/
def Quiet (silent : μ → Prop) (m : Option μ) : Prop := ∀ x ∈ m, silent x

/-- A marker that has the report in it. -/
def Bearing (bears : μ → Prop) (m : Option μ) : Prop := ∃ x, m = some x ∧ bears x

theorem quiet_none : Quiet silent none := by
  simp [Quiet]

namespace Lawful

variable (L : Lawful S plain carries silent bears)
include L

theorem plain_applyMarker {r : ρ} {m : Option μ} (hm : Quiet silent m) (hr : plain r) :
    ∃ r', applyMarker S (some r) m = some r' ∧ plain r' := by
  cases m with
  | none => exact ⟨r, rfl, hr⟩
  | some x => exact ⟨S.apply x r, rfl, L.plain_apply (hm x rfl) hr⟩

theorem carries_applyMarker_quiet {r : ρ} {m : Option μ} (hm : Quiet silent m)
    (hr : carries r) : ∃ r', applyMarker S (some r) m = some r' ∧ carries r' := by
  cases m with
  | none => exact ⟨r, rfl, hr⟩
  | some x => exact ⟨S.apply x r, rfl, L.carries_apply_silent (hm x rfl) hr⟩

theorem carries_applyMarker {r : ρ} {m : Option μ} (hm : Bearing bears m)
    (hr : plain r ∨ carries r) : ∃ r', applyMarker S (some r) m = some r' ∧ carries r' := by
  obtain ⟨x, rfl, hx⟩ := hm
  exact ⟨S.apply x r, rfl, L.carries_apply hx hr⟩

theorem bearing_park {m : Option μ} (hm : Quiet silent m) : Bearing bears (some (S.park m)) :=
  ⟨S.park m, rfl, L.park hm⟩

end Lawful

/-! ### Where the report is, stage by stage

The creator's program counter cuts a run into four stages. In each, where the
reporter stands decides where its report is: in nobody's hands yet, in the
marker, or in the row. -/

/-- A list ending in `b` is a subsequence of one ending in `a` in one of two
ways. -/
theorem snoc_sublist_snoc {α : Type*} {l tr : List α} {a b : α} :
    (l ++ [b]).Sublist (tr ++ [a]) ↔ (l ++ [b]).Sublist tr ∨ b = a ∧ l.Sublist tr := by
  have hrev : ∀ xs ys : List α, xs.Sublist ys ↔ xs.reverse.Sublist ys.reverse :=
    fun xs ys => List.reverse_sublist.symm
  rw [hrev, hrev (l ++ [b]) tr, hrev l tr]
  simp only [List.reverse_append, List.reverse_singleton, List.singleton_append]
  exact List.cons_sublist_cons'

/-- The creator has applied the marker. -/
def Applied (l : List Stmt) : Prop := [Stmt.creatorApply].Sublist l

/-- The report was parked after that. -/
def ParkedLate (l : List Stmt) : Prop := [Stmt.creatorApply, .park].Sublist l

/-- And the marker was cleared after that. -/
def ClearedLate (l : List Stmt) : Prop :=
  [Stmt.creatorApply, .park, .creatorClear].Sublist l

/-- And the reporter applied after that: the report is lost. -/
def Lost (l : List Stmt) : Prop := lostOrder.Sublist l

theorem applied_snoc {l : List Stmt} {a : Stmt} :
    Applied (l ++ [a]) ↔ Applied l ∨ a = .creatorApply := by
  have h : ([] ++ [Stmt.creatorApply]).Sublist (l ++ [a]) ↔ _ := snoc_sublist_snoc
  simp only [Applied, List.nil_append, List.nil_sublist, and_true] at h ⊢
  rw [h, eq_comm (a := a)]

theorem parkedLate_snoc {l : List Stmt} {a : Stmt} :
    ParkedLate (l ++ [a]) ↔ ParkedLate l ∨ a = .park ∧ Applied l := by
  rw [eq_comm (a := a)]
  exact snoc_sublist_snoc (l := [Stmt.creatorApply])

theorem clearedLate_snoc {l : List Stmt} {a : Stmt} :
    ClearedLate (l ++ [a]) ↔ ClearedLate l ∨ a = .creatorClear ∧ ParkedLate l := by
  rw [eq_comm (a := a)]
  exact snoc_sublist_snoc (l := [Stmt.creatorApply, .park])

theorem lost_snoc {l : List Stmt} {a : Stmt} :
    Lost (l ++ [a]) ↔ Lost l ∨ a = .reporterApply ∧ ClearedLate l := by
  rw [eq_comm (a := a)]
  exact snoc_sublist_snoc (l := [Stmt.creatorApply, .park, .creatorClear])

/-- Before the insert: the report is in the marker once it was parked. -/
def Before (silent bears : μ → Prop) (l : List Stmt) (m : Option μ) : ReporterPc → Prop
  | .update | .check | .park => Quiet silent m ∧ ¬Applied l
  | .recheck | .done => Bearing bears m ∧ ¬Applied l
  | .retry | .apply | .clear => False

/-- Between the insert and the creator's apply: the report is in the row or still
in the marker, never nowhere once the reporter is past its own statements. -/
def Inserted (plain carries : ρ → Prop) (silent bears : μ → Prop) (l : List Stmt) (r : ρ)
    (m : Option μ) : ReporterPc → Prop
  | .update | .check | .retry | .park => plain r ∧ Quiet silent m ∧ ¬Applied l
  | .recheck | .apply => plain r ∧ Bearing bears m ∧ ¬Applied l
  | .clear => carries r ∧ Bearing bears m ∧ ¬Applied l
  | .done => (carries r ∧ Quiet silent m ∨ plain r ∧ Bearing bears m) ∧ ¬Applied l

/-- Between the creator's apply and its clear: a marker parked here is the one in
danger, since the clear will take it. -/
def AfterApply (plain carries : ρ → Prop) (silent bears : μ → Prop) (l : List Stmt) (r : ρ)
    (m : Option μ) : ReporterPc → Prop
  | .update | .check | .retry | .park => plain r ∧ Quiet silent m ∧ Applied l ∧ ¬ParkedLate l
  | .recheck | .apply =>
    (carries r ∧ ¬ParkedLate l ∨ plain r ∧ ParkedLate l) ∧ Bearing bears m ∧ ¬ClearedLate l
  | .clear | .done => carries r ∧ ¬Lost l

/-- After the clear: either the report is in the row or on its way there, or it
was parked late and is gone. -/
def AfterClear (plain carries : ρ → Prop) (bears : μ → Prop) (l : List Stmt) (r : ρ)
    (m : Option μ) : ReporterPc → Prop
  | .update | .check | .retry | .park => plain r ∧ m = none ∧ ¬ClearedLate l
  | .recheck | .apply =>
    (carries r ∧ m = none ∨ plain r ∧ Bearing bears m) ∧ ¬ClearedLate l ∨
      plain r ∧ m = none ∧ ClearedLate l ∧ ¬Lost l
  | .clear => carries r ∧ ¬Lost l ∨ plain r ∧ Lost l
  | .done => m = none ∧ (carries r ∧ ¬Lost l ∨ plain r ∧ Lost l)

/-- **Where the report is**, by where the creator is. -/
def Inv (S : Scheme ρ μ) (plain carries : ρ → Prop) (silent bears : μ → Prop) (l : List Stmt)
    (s : State ρ μ) : Prop :=
  match s.creator with
  | .insert => s.row = none ∧ Before silent bears l s.marker s.reporter
  | .touch =>
    S.touch.isSome ∧
      ∃ r, s.row = some r ∧ Inserted plain carries silent bears l r s.marker s.reporter
  | .apply => ∃ r, s.row = some r ∧ Inserted plain carries silent bears l r s.marker s.reporter
  | .clear => ∃ r, s.row = some r ∧ AfterApply plain carries silent bears l r s.marker s.reporter
  | .done => ∃ r, s.row = some r ∧ AfterClear plain carries bears l r s.marker s.reporter

theorem ParkedLate.applied {l : List Stmt} (h : ParkedLate l) : Applied l :=
  (List.sublist_append_left [Stmt.creatorApply] [.park]).trans h

theorem ClearedLate.parkedLate {l : List Stmt} (h : ClearedLate l) : ParkedLate l :=
  (List.sublist_append_left [Stmt.creatorApply, .park] [.creatorClear]).trans h

theorem Lost.clearedLate {l : List Stmt} (h : Lost l) : ClearedLate l :=
  (List.sublist_append_left [Stmt.creatorApply, .park, .creatorClear] [.reporterApply]).trans h

/-- The reporter leaves the creator where it is. -/
theorem reporterStep_creator {s s' : State ρ μ} {o : Stmt}
    (hs : reporterStep S s = some (s', o)) : s'.creator = s.creator := by
  obtain ⟨row, m, rp, cp⟩ := s
  cases rp with
  | update =>
    simp only [reporterStep] at hs
    split at hs <;> simp only [Option.some.injEq, Prod.mk.injEq] at hs <;> rw [← hs.1]
  | done => simp [reporterStep] at hs
  | check | retry | park | recheck | apply | clear =>
    simp only [reporterStep, Option.some.injEq, Prod.mk.injEq] at hs
    rw [← hs.1]

namespace Lawful

variable (L : Lawful S plain carries silent bears)
include L

/-- Parking makes the marker bear the report, before the row is there. -/
theorem reporter_before {l : List Stmt} {s s' : State ρ μ} {o : Stmt} (hrow : s.row = none)
    (h : Before silent bears l s.marker s.reporter) (hs : reporterStep S s = some (s', o)) :
    s'.row = none ∧ Before silent bears (l ++ [o]) s'.marker s'.reporter := by
  obtain ⟨row, m, rp, cp⟩ := s
  obtain rfl : row = none := hrow
  cases rp with
  | park =>
    obtain ⟨rfl, rfl⟩ : _ = s' ∧ Stmt.park = o := by simpa [reporterStep] using hs
    refine ⟨rfl, L.bearing_park h.1, ?_⟩
    simpa [applied_snoc] using h.2
  | done => simp [reporterStep] at hs
  | retry => exact h.elim
  | apply => exact h.elim
  | clear => exact h.elim
  | update | check | recheck =>
    simp only [reporterStep, Option.bind_none, Option.isSome_none, Option.some.injEq,
      Prod.mk.injEq, Bool.false_eq_true, if_false] at hs
    obtain ⟨rfl, rfl⟩ := hs
    refine ⟨rfl, h.1, ?_⟩
    simpa [applied_snoc] using h.2

/-- What the reporter's statement does once the row is there and still plain, or
already carries the report: it moves on, and the row carries the report as soon
as the reporter has written to it. -/
theorem reporter_row {r : ρ} {s s' : State ρ μ} {o : Stmt} (hrow : s.row = some r)
    (hs : reporterStep S s = some (s', o)) :
    match s.reporter with
    | .update => plain r → o = .update ∧ s'.reporter = .done ∧ s'.marker = s.marker ∧
        ∃ r', s'.row = some r' ∧ carries r'
    | .check => o = .check ∧ s'.reporter = .retry ∧ s'.marker = s.marker ∧ s'.row = some r
    | .retry => plain r → o = .retry ∧ s'.reporter = .done ∧ s'.marker = s.marker ∧
        ∃ r', s'.row = some r' ∧ carries r'
    | .park => o = .park ∧ s'.reporter = .recheck ∧ s'.row = some r ∧
        (Quiet silent s.marker → Bearing bears s'.marker)
    | .recheck => o = .recheck ∧ s'.reporter = .apply ∧ s'.marker = s.marker ∧ s'.row = some r
    | .apply => o = .reporterApply ∧ s'.reporter = .clear ∧ s'.marker = s.marker ∧
        s'.row = applyMarker S (some r) s.marker
    | .clear => o = .reporterClear ∧ s'.reporter = .done ∧ s'.marker = none ∧ s'.row = some r
    | .done => False := by
  obtain ⟨row, m, rp, cp⟩ := s
  obtain rfl : row = some r := hrow
  cases rp with
  | update =>
    intro hr
    obtain ⟨r', hu, hc⟩ := L.update hr
    simp only [reporterStep, Option.bind_some, hu, Option.some.injEq, Prod.mk.injEq] at hs
    obtain ⟨rfl, rfl⟩ := hs
    exact ⟨rfl, rfl, rfl, r', rfl, hc⟩
  | retry =>
    intro hr
    obtain ⟨r', hu, hc⟩ := L.update hr
    simp only [reporterStep, Option.map_some, hu, Option.getD_some, Option.some.injEq,
      Prod.mk.injEq] at hs
    obtain ⟨rfl, rfl⟩ := hs
    exact ⟨rfl, rfl, rfl, r', rfl, hc⟩
  | park =>
    obtain ⟨rfl, rfl⟩ : _ = s' ∧ Stmt.park = o := by simpa [reporterStep] using hs
    exact ⟨rfl, rfl, rfl, L.bearing_park⟩
  | done => simp [reporterStep] at hs
  | check | recheck | apply | clear =>
    simp only [reporterStep, Option.isSome_some, if_true, Option.some.injEq,
      Prod.mk.injEq] at hs
    obtain ⟨rfl, rfl⟩ := hs
    exact ⟨rfl, rfl, rfl, rfl⟩

theorem reporter_inserted {l : List Stmt} {r : ρ} {s s' : State ρ μ} {o : Stmt}
    (hrow : s.row = some r) (h : Inserted plain carries silent bears l r s.marker s.reporter)
    (hs : reporterStep S s = some (s', o)) :
    ∃ r', s'.row = some r' ∧
      Inserted plain carries silent bears (l ++ [o]) r' s'.marker s'.reporter := by
  have hr := L.reporter_row hrow hs
  cases hrp : s.reporter with
  | update | retry =>
    simp only [hrp] at hr h
    obtain ⟨rfl, hrp', hm, r', hrow', hc⟩ := hr h.1
    rw [hrow', hrp', hm]
    exact ⟨r', rfl, .inl ⟨hc, h.2.1⟩, by simpa [applied_snoc] using h.2.2⟩
  | check | recheck =>
    simp only [hrp] at hr h
    obtain ⟨rfl, hrp', hm, hrow'⟩ := hr
    rw [hrow', hrp', hm]
    exact ⟨r, rfl, h.1, h.2.1, by simpa [applied_snoc] using h.2.2⟩
  | park =>
    simp only [hrp] at hr h
    obtain ⟨rfl, hrp', hrow', hm⟩ := hr
    rw [hrow', hrp']
    exact ⟨r, rfl, h.1, hm h.2.1, by simpa [applied_snoc] using h.2.2⟩
  | apply =>
    simp only [hrp] at hr h
    obtain ⟨rfl, hrp', hm, hrow'⟩ := hr
    obtain ⟨r', hr', hc⟩ := L.carries_applyMarker h.2.1 (.inl h.1)
    rw [hrow', hr', hrp', hm]
    exact ⟨r', rfl, hc, h.2.1, by simpa [applied_snoc] using h.2.2⟩
  | clear =>
    simp only [hrp] at hr h
    obtain ⟨rfl, hrp', hm, hrow'⟩ := hr
    rw [hrow', hrp', hm]
    exact ⟨r, rfl, .inl ⟨h.1, quiet_none⟩, by simpa [applied_snoc] using h.2.2⟩
  | done =>
    rw [hrp] at hr
    exact hr.elim

/-- **The reporter in the danger zone**: a marker parked now is parked late. -/
theorem reporter_afterApply {l : List Stmt} {r : ρ} {s s' : State ρ μ} {o : Stmt}
    (hrow : s.row = some r) (h : AfterApply plain carries silent bears l r s.marker s.reporter)
    (hs : reporterStep S s = some (s', o)) :
    ∃ r', s'.row = some r' ∧
      AfterApply plain carries silent bears (l ++ [o]) r' s'.marker s'.reporter := by
  have hr := L.reporter_row hrow hs
  cases hrp : s.reporter with
  | update | retry =>
    simp only [hrp] at hr h
    obtain ⟨rfl, hrp', hm, r', hrow', hc⟩ := hr h.1
    rw [hrow', hrp']
    refine ⟨r', rfl, hc, fun hl => h.2.2.2 ?_⟩
    simpa [parkedLate_snoc] using hl.clearedLate.parkedLate
  | check =>
    simp only [hrp] at hr h
    obtain ⟨rfl, hrp', hm, hrow'⟩ := hr
    rw [hrow', hrp', hm]
    exact ⟨r, rfl, by simpa [AfterApply, applied_snoc, parkedLate_snoc] using h⟩
  | recheck =>
    simp only [hrp] at hr h
    obtain ⟨rfl, hrp', hm, hrow'⟩ := hr
    rw [hrow', hrp', hm]
    exact ⟨r, rfl, by simpa [AfterApply, parkedLate_snoc, clearedLate_snoc] using h⟩
  | park =>
    simp only [hrp] at hr h
    obtain ⟨rfl, hrp', hrow', hm⟩ := hr
    rw [hrow', hrp']
    refine ⟨r, rfl, .inr ⟨h.1, parkedLate_snoc.mpr (.inr ⟨rfl, h.2.2.1⟩)⟩, hm h.2.1, ?_⟩
    intro hl
    simp only [clearedLate_snoc, reduceCtorEq, false_and, or_false] at hl
    exact h.2.2.2 hl.parkedLate
  | apply =>
    simp only [hrp] at hr h
    obtain ⟨rfl, hrp', hm, hrow'⟩ := hr
    obtain ⟨r', hr', hc⟩ := L.carries_applyMarker h.2.1 (h.1.symm.imp And.left And.left)
    rw [hrow', hr', hrp']
    refine ⟨r', rfl, hc, fun hl => h.2.2 ?_⟩
    exact (lost_snoc.mp hl).elim Lost.clearedLate And.right
  | clear =>
    simp only [hrp] at hr h
    obtain ⟨rfl, hrp', hm, hrow'⟩ := hr
    rw [hrow', hrp']
    exact ⟨r, rfl, h.1, by simpa [lost_snoc] using h.2⟩
  | done =>
    rw [hrp] at hr
    exact hr.elim

/-- **The reporter after the clear**: its apply either finds the marker it parked,
or finds nothing, and then the trace has the losing order in it. -/
theorem reporter_afterClear {l : List Stmt} {r : ρ} {s s' : State ρ μ} {o : Stmt}
    (hrow : s.row = some r) (h : AfterClear plain carries bears l r s.marker s.reporter)
    (hs : reporterStep S s = some (s', o)) :
    ∃ r', s'.row = some r' ∧
      AfterClear plain carries bears (l ++ [o]) r' s'.marker s'.reporter := by
  have hr := L.reporter_row hrow hs
  cases hrp : s.reporter with
  | update | retry =>
    simp only [hrp] at hr h
    obtain ⟨rfl, hrp', hm, r', hrow', hc⟩ := hr h.1
    rw [hrow', hrp', hm]
    refine ⟨r', rfl, h.2.1, .inl ⟨hc, fun hl => h.2.2 ?_⟩⟩
    simpa [clearedLate_snoc] using hl.clearedLate
  | check =>
    simp only [hrp] at hr h
    obtain ⟨rfl, hrp', hm, hrow'⟩ := hr
    rw [hrow', hrp', hm]
    exact ⟨r, rfl, by simpa [AfterClear, clearedLate_snoc] using h⟩
  | recheck =>
    simp only [hrp] at hr h
    obtain ⟨rfl, hrp', hm, hrow'⟩ := hr
    rw [hrow', hrp', hm]
    exact ⟨r, rfl, by simpa [AfterClear, clearedLate_snoc, lost_snoc] using h⟩
  | park =>
    simp only [hrp] at hr h
    obtain ⟨rfl, hrp', hrow', hm⟩ := hr
    have hb : Bearing bears s'.marker := hm (h.2.1 ▸ quiet_none)
    rw [hrow', hrp']
    exact ⟨r, rfl, .inl ⟨.inr ⟨h.1, hb⟩, by simpa [clearedLate_snoc] using h.2.2⟩⟩
  | apply =>
    simp only [hrp] at hr h
    obtain ⟨rfl, hrp', hm, hrow'⟩ := hr
    rw [hrow', hrp']
    rcases h with ⟨hc, hcl⟩ | ⟨hp, hnone, hcl, hl⟩
    · have hnl : ¬Lost (l ++ [.reporterApply]) := fun hl =>
        hcl ((lost_snoc.mp hl).elim Lost.clearedLate And.right)
      rcases hc with ⟨hc, hnone⟩ | ⟨hp, hb⟩
      · obtain ⟨r', hr', hc'⟩ := L.carries_applyMarker_quiet (hnone ▸ quiet_none) hc
        exact ⟨r', hr', .inl ⟨hc', hnl⟩⟩
      · obtain ⟨r', hr', hc'⟩ := L.carries_applyMarker hb (.inl hp)
        exact ⟨r', hr', .inl ⟨hc', hnl⟩⟩
    · rw [hnone]
      exact ⟨r, rfl, .inr ⟨hp, lost_snoc.mpr (.inr ⟨rfl, hcl⟩)⟩⟩
  | clear =>
    simp only [hrp] at hr h
    obtain ⟨rfl, hrp', hm, hrow'⟩ := hr
    rw [hrow', hrp', hm]
    exact ⟨r, rfl, rfl, by simpa [AfterClear, lost_snoc] using h⟩
  | done =>
    rw [hrp] at hr
    exact hr.elim

/-- The insert makes the row, plain; a parked marker waits for it. -/
theorem creator_insert {l : List Stmt} {s s' : State ρ μ} {o : Stmt}
    (hcp : s.creator = .insert) (hrow : s.row = none)
    (h : Before silent bears l s.marker s.reporter) (hs : creatorStep S s = some (s', o)) :
    Inv S plain carries silent bears (l ++ [o]) s' := by
  obtain ⟨row, m, rp, cp⟩ := s
  obtain rfl : row = none := hrow
  obtain rfl : cp = .insert := hcp
  obtain ⟨rfl, rfl⟩ : _ = s' ∧ Stmt.insert = o := by simpa [creatorStep] using hs
  have hins : Inserted plain carries silent bears (l ++ [.insert]) S.fresh m rp := by
    cases rp with
    | update | check | park | recheck =>
      exact ⟨L.plain_fresh, h.1, by simpa [applied_snoc] using h.2⟩
    | done => exact ⟨.inr ⟨L.plain_fresh, h.1⟩, by simpa [applied_snoc] using h.2⟩
    | retry => exact h.elim
    | apply => exact h.elim
    | clear => exact h.elim
  by_cases ht : S.touch.isSome = true
  · simp only [Inv, ht, if_true]
    exact ⟨trivial, S.fresh, rfl, hins⟩
  · simp only [Inv, ht]
    exact ⟨S.fresh, rfl, hins⟩

/-- Touching the row changes nothing about the report. -/
theorem creator_touch {l : List Stmt} {r : ρ} {s s' : State ρ μ} {o : Stmt}
    (hcp : s.creator = .touch) (ht : S.touch.isSome) (hrow : s.row = some r)
    (h : Inserted plain carries silent bears l r s.marker s.reporter)
    (hs : creatorStep S s = some (s', o)) :
    Inv S plain carries silent bears (l ++ [o]) s' := by
  obtain ⟨row, m, rp, cp⟩ := s
  obtain rfl : row = some r := hrow
  obtain rfl : cp = .touch := hcp
  obtain ⟨f, hf⟩ := Option.isSome_iff_exists.mp ht
  obtain ⟨rfl, rfl⟩ : _ = s' ∧ Stmt.touch = o := by simpa [creatorStep] using hs
  refine ⟨f r, by simp [hf], ?_⟩
  have happ : ¬Applied l → ¬Applied (l ++ [.touch]) := by simp [applied_snoc]
  cases rp with
  | update | check | retry | park | recheck | apply =>
    exact ⟨L.plain_touch hf h.1, h.2.1, happ h.2.2⟩
  | clear => exact ⟨L.carries_touch hf h.1, h.2.1, happ h.2.2⟩
  | done =>
    exact ⟨h.1.imp (And.imp_left (L.carries_touch hf)) (And.imp_left (L.plain_touch hf)),
      happ h.2⟩

/-- The creator's apply puts a parked report into the row. -/
theorem creator_apply {l : List Stmt} {r : ρ} {s s' : State ρ μ} {o : Stmt}
    (hcp : s.creator = .apply) (hrow : s.row = some r)
    (h : Inserted plain carries silent bears l r s.marker s.reporter)
    (hs : creatorStep S s = some (s', o)) :
    Inv S plain carries silent bears (l ++ [o]) s' := by
  obtain ⟨row, m, rp, cp⟩ := s
  obtain rfl : row = some r := hrow
  obtain rfl : cp = .apply := hcp
  obtain ⟨rfl, rfl⟩ : _ = s' ∧ Stmt.creatorApply = o := by simpa [creatorStep] using hs
  have hparked : ¬Applied l → ¬ParkedLate (l ++ [.creatorApply]) := fun hl hp =>
    hl (by simpa [parkedLate_snoc] using hp : ParkedLate l).applied
  cases rp with
  | update | check | retry | park =>
    obtain ⟨r', hr', hp⟩ := L.plain_applyMarker h.2.1 h.1
    exact ⟨r', hr', hp, h.2.1, applied_snoc.mpr (.inr rfl), hparked h.2.2⟩
  | recheck | apply =>
    obtain ⟨r', hr', hc⟩ := L.carries_applyMarker h.2.1 (.inl h.1)
    exact ⟨r', hr', .inl ⟨hc, hparked h.2.2⟩, h.2.1, fun hl => hparked h.2.2 hl.parkedLate⟩
  | clear =>
    obtain ⟨r', hr', hc⟩ := L.carries_applyMarker h.2.1 (.inr h.1)
    exact ⟨r', hr', hc, fun hl => hparked h.2.2 hl.clearedLate.parkedLate⟩
  | done =>
    have hlost : ¬Lost (l ++ [.creatorApply]) := fun hl =>
      hparked h.2 hl.clearedLate.parkedLate
    rcases h.1 with ⟨hc, hq⟩ | ⟨hp, hb⟩
    · obtain ⟨r', hr', hc'⟩ := L.carries_applyMarker_quiet hq hc
      exact ⟨r', hr', hc', hlost⟩
    · obtain ⟨r', hr', hc'⟩ := L.carries_applyMarker hb (.inl hp)
      exact ⟨r', hr', hc', hlost⟩

omit L in
/-- **The clear**: it takes a marker that was parked late with it. -/
theorem creator_clear {l : List Stmt} {r : ρ} {s s' : State ρ μ} {o : Stmt}
    (hcp : s.creator = .clear) (hrow : s.row = some r)
    (h : AfterApply plain carries silent bears l r s.marker s.reporter)
    (hs : creatorStep S s = some (s', o)) :
    Inv S plain carries silent bears (l ++ [o]) s' := by
  obtain ⟨row, m, rp, cp⟩ := s
  obtain rfl : row = some r := hrow
  obtain rfl : cp = .clear := hcp
  obtain ⟨rfl, rfl⟩ : _ = s' ∧ Stmt.creatorClear = o := by simpa [creatorStep] using hs
  have hcleared : ClearedLate (l ++ [.creatorClear]) ↔ ClearedLate l ∨ ParkedLate l := by
    simp [clearedLate_snoc]
  have hlost : ¬Lost l → ¬Lost (l ++ [.creatorClear]) := by simp [lost_snoc]
  refine ⟨r, rfl, ?_⟩
  cases rp with
  | update | check | retry | park =>
    exact ⟨h.1, rfl, fun hl => h.2.2.2 ((hcleared.mp hl).elim ClearedLate.parkedLate id)⟩
  | recheck | apply =>
    rcases h.1 with ⟨hc, hp⟩ | ⟨hr, hp⟩
    · exact .inl ⟨.inl ⟨hc, rfl⟩, fun hl => (hcleared.mp hl).elim h.2.2 hp⟩
    · exact .inr ⟨hr, rfl, hcleared.mpr (.inr hp), hlost fun hl => h.2.2 hl.clearedLate⟩
  | clear => exact .inl ⟨h.1, hlost h.2⟩
  | done => exact ⟨rfl, .inl ⟨h.1, hlost h.2⟩⟩

theorem inv_reporter {l : List Stmt} {s s' : State ρ μ} {o : Stmt}
    (h : Inv S plain carries silent bears l s) (hs : reporterStep S s = some (s', o)) :
    Inv S plain carries silent bears (l ++ [o]) s' := by
  have hcr : s'.creator = s.creator := reporterStep_creator hs
  unfold Inv at h ⊢
  rw [hcr]
  cases hcp : s.creator with
  | insert =>
    rw [hcp] at h
    exact L.reporter_before h.1 h.2 hs
  | touch =>
    rw [hcp] at h
    obtain ⟨ht, r, hrow, hi⟩ := h
    exact ⟨ht, L.reporter_inserted hrow hi hs⟩
  | apply =>
    rw [hcp] at h
    obtain ⟨r, hrow, hi⟩ := h
    exact L.reporter_inserted hrow hi hs
  | clear =>
    rw [hcp] at h
    obtain ⟨r, hrow, ha⟩ := h
    exact L.reporter_afterApply hrow ha hs
  | done =>
    rw [hcp] at h
    obtain ⟨r, hrow, ha⟩ := h
    exact L.reporter_afterClear hrow ha hs

theorem inv_creator {l : List Stmt} {s s' : State ρ μ} {o : Stmt}
    (h : Inv S plain carries silent bears l s) (hs : creatorStep S s = some (s', o)) :
    Inv S plain carries silent bears (l ++ [o]) s' := by
  unfold Inv at h
  cases hcp : s.creator with
  | insert =>
    rw [hcp] at h
    exact L.creator_insert hcp h.1 h.2 hs
  | touch =>
    rw [hcp] at h
    obtain ⟨ht, r, hrow, hi⟩ := h
    exact L.creator_touch hcp ht hrow hi hs
  | apply =>
    rw [hcp] at h
    obtain ⟨r, hrow, hi⟩ := h
    exact L.creator_apply hcp hrow hi hs
  | clear =>
    rw [hcp] at h
    obtain ⟨r, hrow, ha⟩ := h
    exact creator_clear hcp hrow ha hs
  | done => simp [creatorStep, hcp] at hs

/-- **Every interleaving knows where the report is.** -/
theorem inv_of_run {m : Option μ} {tr : List (Entry (State ρ μ) Side Stmt)} {s : State ρ μ}
    (hm : Quiet silent m) (h : Run (exec S) (start m) tr s) :
    Inv S plain carries silent bears (stmts tr) s := by
  refine h.rec_trace (P := fun tr s => Inv S plain carries silent bears (stmts tr) s) ?_ ?_
  · exact ⟨rfl, hm, by simp [Applied, stmts]⟩
  · intro tr s a s' o _ hinv hs
    rw [stmts, List.map_append]
    cases a with
    | reporter => exact L.inv_reporter hinv hs
    | creator => exact L.inv_creator hinv hs

/-- **A report is lost in one order of the statements only**: when both sides are
done the marker is gone, and the row carries the report unless it was parked
between the creator's apply and its clear and the reporter's own apply came after
that clear. -/
theorem carries_iff {m : Option μ} {tr : List (Entry (State ρ μ) Side Stmt)} {s : State ρ μ}
    (hm : Quiet silent m) (h : Run (exec S) (start m) tr s) (hr : s.reporter = .done)
    (hc : s.creator = .done) :
    ((∃ r, s.row = some r ∧ carries r) ∧ s.marker = none) ↔ ¬lostOrder.Sublist (stmts tr) := by
  have hinv := L.inv_of_run hm h
  simp only [Inv, hc, hr] at hinv
  obtain ⟨r, hrow, hnone, ⟨hcar, hl⟩ | ⟨hp, hl⟩⟩ := hinv
  · exact iff_of_true ⟨⟨r, hrow, hcar⟩, hnone⟩ hl
  · refine iff_of_false ?_ (not_not_intro hl)
    rintro ⟨⟨r', hrow', hcar⟩, -⟩
    obtain rfl : r = r' := Option.some.inj (hrow.symm.trans hrow')
    exact L.not_carries hp hcar

end Lawful

end Lawful

/-! ### Each side on its own -/

/-- The reporter run to its end with nobody in between. -/
def report (row : Option ρ) (marker : Option μ) : Option ρ × Option μ :=
  match row with
  | some r => (some ((S.update r).getD r), marker)
  | none => (none, some (S.park marker))

/-- The creator run to its end with nobody in between. -/
def create (row : Option ρ) (marker : Option μ) : Option ρ × Option μ :=
  (applyMarker S (some ((S.touch.getD id) (row.getD S.fresh))) marker, none)

/-- **A reporter left alone** takes at most four statements to its end. -/
theorem report_run (row : Option ρ) (marker : Option μ) (cp : CreatorPc) :
    ∃ tr, Run (exec S) ⟨row, marker, .update, cp⟩ tr
      ⟨(report S row marker).1, (report S row marker).2, .done, cp⟩ := by
  cases row with
  | none =>
    exact ⟨_, (((Run.nil.snoc (a := Side.reporter) rfl).snoc (a := Side.reporter) rfl).snoc
      (a := Side.reporter) rfl).snoc (a := Side.reporter) rfl⟩
  | some r =>
    cases hu : S.update r with
    | some r' =>
      have hstep : exec S ⟨some r, marker, .update, cp⟩ .reporter =
          some (⟨some r', marker, .done, cp⟩, .update) := by
        simp [exec, reporterStep, hu]
      simp only [report, hu, Option.getD_some]
      exact ⟨_, Run.nil.snoc hstep⟩
    | none =>
      have hfirst : exec S ⟨some r, marker, .update, cp⟩ .reporter =
          some (⟨some r, marker, .check, cp⟩, .update) := by
        simp [exec, reporterStep, hu]
      have hlast : exec S ⟨some r, marker, .retry, cp⟩ .reporter =
          some (⟨some r, marker, .done, cp⟩, .retry) := by
        simp [exec, reporterStep, hu]
      simp only [report, hu, Option.getD_none]
      exact ⟨_, ((Run.nil.snoc hfirst).snoc (a := Side.reporter) rfl).snoc hlast⟩

/-- **A creator left alone**, on a key with or without a row. -/
theorem create_run (row : Option ρ) (marker : Option μ) (rp : ReporterPc) :
    ∃ tr, Run (exec S) ⟨row, marker, rp, .insert⟩ tr
      ⟨(create S row marker).1, (create S row marker).2, rp, .done⟩ := by
  cases ht : S.touch with
  | none =>
    have hins : exec S ⟨row, marker, rp, .insert⟩ .creator =
        some (⟨some (row.getD S.fresh), marker, rp, .apply⟩, .insert) := by
      simp [exec, creatorStep, ht]
    simp only [create, ht, Option.getD_none, id_eq]
    exact ⟨_, ((Run.nil.snoc hins).snoc (a := Side.creator) rfl).snoc (a := Side.creator) rfl⟩
  | some f =>
    have hins : exec S ⟨row, marker, rp, .insert⟩ .creator =
        some (⟨some (row.getD S.fresh), marker, rp, .touch⟩, .insert) := by
      simp [exec, creatorStep, ht]
    have htouch : exec S ⟨some (row.getD S.fresh), marker, rp, .touch⟩ .creator =
        some (⟨some (f (row.getD S.fresh)), marker, rp, .apply⟩, .touch) := by
      simp [exec, creatorStep, ht]
    simp only [create, ht, Option.getD_some]
    exact ⟨_, (((Run.nil.snoc hins).snoc htouch).snoc (a := Side.creator) rfl).snoc
      (a := Side.creator) rfl⟩

end Parking
