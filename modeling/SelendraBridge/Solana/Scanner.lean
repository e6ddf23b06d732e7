import SelendraBridge.Lib.Backlog
import SelendraBridge.Lib.Transition
import SelendraBridge.Solana.LogLines

/-!
# The relayer scans the gate's transactions

The endpoint serves the signatures of the transactions that mention the gate from the newest back,
and the relayer handles them from the oldest on. So every turn of its loop first walks back to the
cursor, page by page (`SelendraBridge.Solana.Scanner.collectPage`), and then handles what it found,
one transaction after the other, with the cursor behind it
(`SelendraBridge.Solana.Scanner.handleEntry`).

| what may happen at any point | what is left of the turn |
|---|---|
| new transactions | the walk goes on below them |
| an error, of a page, a transaction, a line or the state file | nothing; the cursor stays |
| a restart | nothing; the cursor is the saved one |

Wherever it stops, all that comes after the cursor it started with and not after the one it has was
handled, the oldest first (`SelendraBridge.Solana.Scanner.never_skips`). Only a relayer that has no
cursor yet may be told to begin at the tip, and then skips what is older
(`SelendraBridge.Solana.Scanner.skips_at_tip`).
-/

namespace SelendraBridge

namespace Solana

namespace Scanner

open Backlog Transition

variable {S : Type}

/-! ### Pages -/

/-- `MAX_PAGES`. -/
def MAX_PAGES : ℕ := 100

/-- `PageAction`. -/
inductive PageAction
  | complete
  | keepWalking
  | tooDeep
  deriving DecidableEq

/-- `walks_to_start`. -/
def walksToStart (hasCursor startAtTip : Bool) : Bool := hasCursor || !startAtTip

/-- `next_page_action`. -/
def nextPageAction (pageLen maxBatch : ℕ) (walkToStart : Bool) (pageIndex : ℕ) : PageAction :=
  if pageLen < maxBatch then .complete
  else if walkToStart = false then .complete
  else if MAX_PAGES ≤ pageIndex + 1 then .tooDeep
  else .keepWalking

/-- `SourceChain`: the program's name, the length of a page, and where to begin without a cursor. -/
structure SourceChain where
  programId : Text
  maxBatch : ℕ
  startAtTip : Bool

/-- A transaction that mentions the gate: whether it failed, and its log. -/
structure Transaction (S : Type) where
  signature : S
  err : Bool
  logs : List Text

/-- Where the relayer is in its turn. -/
inductive Phase (S : Type)
  | idle
  /-- In `collect_since_cursor`: the page that is next, where it begins, and what was found. -/
  | collecting (page : ℕ) (before : Option S) (newestFirst : List (Transaction S))
  /-- In the loop of `tick`: what is left to handle. -/
  | handling (entries : List (Transaction S))

/-- The chain, the state file, and the relayer. -/
structure World (S : Type) where
  /-- The transactions that mention the gate, the oldest first. -/
  history : List (Transaction S)
  saved : Option S
  cursor : Option S
  phase : Phase S

/-- What is left to handle, if anything. -/
def handlingOf : List (Transaction S) → Phase S
  | [] => .idle
  | entries => .handling entries

/-- One page of `collect_since_cursor`. -/
def collectPage [DecidableEq S] (cfg : SourceChain) (w : World S) (index : ℕ) (before : Option S)
    (newestFirst : List (Transaction S)) : Phase S :=
  let sigs := page Transaction.signature w.history before w.cursor cfg.maxBatch
  let walk := walksToStart w.cursor.isSome cfg.startAtTip
  let newestFirst := newestFirst ++ sigs
  match nextPageAction sigs.length cfg.maxBatch walk index with
  | .complete => handlingOf newestFirst.reverse
  | .tooDeep => .idle
  | .keepWalking =>
    match sigs.getLast? with
    | some oldest => .collecting (index + 1) (some oldest.signature) newestFirst
    | none => .idle

/-! ### Handling -/

/-- What `process_line` makes of a line. -/
inductive Processed
  | handled
  /-- Set aside, and written to the state file unless it was before; the file may not be
  written. -/
  | quarantined (save : Option Bool)
  | failed

/-- The lines of a transaction, one after the other: what is saved then, and whether all went
through. -/
def processLines (cursor saved : Option S) : List Processed → Option S × Bool
  | [] => (saved, true)
  | .handled :: rest => processLines cursor saved rest
  | .quarantined none :: rest => processLines cursor saved rest
  | .quarantined (some true) :: rest => processLines cursor cursor rest
  | .quarantined (some false) :: _ => (saved, false)
  | .failed :: _ => (saved, false)

/-- The cursor moves over a transaction, and is saved if that works. -/
def advance (w : World S) (t : Transaction S) (rest : List (Transaction S)) (saves : Bool) :
    World S × Option S :=
  if saves = true then
    ({ w with
        cursor := some t.signature
        saved := some t.signature
        phase := handlingOf rest }, some t.signature)
  else ({ w with cursor := some t.signature, phase := .idle }, some t.signature)

/-- One turn of the loop of `tick`: the transaction that was handled, if it was. -/
def handleEntry (cfg : SourceChain) (w : World S) (t : Transaction S)
    (rest : List (Transaction S)) (fetched : Bool) (process : ℕ → Text → Processed)
    (saves : Bool) : World S × Option S :=
  if t.err = true then advance w t rest saves
  else if fetched = false then ({ w with phase := .idle }, none)
  else
    let lines := Logs.gateProgramDataLines t.logs cfg.programId
    let r := processLines w.cursor w.saved (lines.mapIdx process)
    if r.2 = true then advance { w with saved := r.1 } t rest saves
    else ({ w with saved := r.1, phase := .idle }, none)

/-! ### The machine -/

/-- What can happen next. -/
inductive Label (S : Type)
  | arrive (txs : List (Transaction S))
  /-- A turn begins, with the allowlist at hand. -/
  | tick
  /-- A page comes back. -/
  | page
  /-- The next transaction: whether it comes back, what becomes of its lines, and whether the cursor
  can be saved after it. -/
  | entry (fetched : Bool) (process : ℕ → Text → Processed) (saves : Bool)
  /-- An error ends the turn. -/
  | fail
  | restart

/-- **One step**, with the transaction that was handled in it. No two transactions have the same
signature. -/
def exec [DecidableEq S] (cfg : SourceChain) (w : World S) : Label S → Option (World S × Option S)
  | .arrive txs =>
    if ((w.history ++ txs).map Transaction.signature).Nodup then
      some ({ w with history := w.history ++ txs }, none)
    else none
  | .tick =>
    match w.phase with
    | .idle => some ({ w with phase := .collecting 0 none [] }, none)
    | _ => none
  | .page =>
    match w.phase with
    | .collecting index before newestFirst =>
      some ({ w with phase := collectPage cfg w index before newestFirst }, none)
    | _ => none
  | .entry fetched process saves =>
    match w.phase with
    | .handling (t :: rest) => some (handleEntry cfg w t rest fetched process saves)
    | _ => none
  | .fail => some ({ w with phase := .idle }, none)
  | .restart => some ({ w with cursor := w.saved, phase := .idle }, none)

/-- A step of a run. -/
abbrev Step (S : Type) := Entry (World S) (Label S) (Option S)

/-- The transactions that were handled in a run, in their order. -/
def handledIn (tr : List (Step S)) : List S := tr.filterMap fun e => e.out

/-! ### What holds all along -/

variable {cfg : SourceChain} {w w' : World S} {pre₀ : List (Transaction S)} {done : List S}
  {t : Transaction S} {rest : List (Transaction S)}

/-- **A cursor with nothing skipped behind it**: all between where it started and where it is was
handled. -/
def Caught (pre₀ : List (Transaction S)) (done : List S) (history : List (Transaction S))
    (cursor : Option S) : Prop :=
  ∃ scanned ahead, history = pre₀ ++ scanned ++ ahead ∧
    EndsAt Transaction.signature cursor (pre₀ ++ scanned) ∧ ∀ t ∈ scanned, t.signature ∈ done

/-- New transactions, and more that was handled, leave it so. -/
theorem Caught.mono {history : List (Transaction S)} {cursor : Option S}
    (h : Caught pre₀ done history cursor) (txs : List (Transaction S)) (more : List S) :
    Caught pre₀ (done ++ more) (history ++ txs) cursor := by
  obtain ⟨scanned, ahead, rfl, hends, hdone⟩ := h
  exact ⟨scanned, ahead ++ txs, by simp only [List.append_assoc], hends,
    fun t ht => List.mem_append_left _ (hdone t ht)⟩

/-- **What the relayer is about** in its phase: a walk without a hole, or what comes right after the
cursor. -/
def Phase.Sound (w : World S) : Phase S → Prop
  | .idle => True
  | .collecting _ before newestFirst =>
    Walked Transaction.signature w.cursor w.history before newestFirst
  | .handling entries => ∃ pre newer, w.history = pre ++ (entries ++ newer) ∧
    EndsAt Transaction.signature w.cursor pre

/-- **What holds all along.** -/
structure Sound (cfg : SourceChain) (pre₀ : List (Transaction S)) (done : List S) (w : World S) :
    Prop where
  nodup : (w.history.map Transaction.signature).Nodup
  walks : cfg.startAtTip = false ∨ (w.cursor.isSome = true ∧ w.saved.isSome = true)
  saved : Caught pre₀ done w.history w.saved
  cursor : Caught pre₀ done w.history w.cursor
  phase : w.phase.Sound w

/-- **What a step may handle**: the next one after all that were handled. -/
def Next (pre₀ : List (Transaction S)) (done : List S) (history : List (Transaction S)) (s : S) :
    Prop :=
  ∃ scanned t ahead, history = pre₀ ++ scanned ++ t :: ahead ∧ t.signature = s ∧
    ∀ t' ∈ scanned, t'.signature ∈ done

/-- A turn that ends leaves it all. -/
theorem Sound.idle (h : Sound cfg pre₀ done w) : Sound cfg pre₀ done { w with phase := .idle } :=
  ⟨h.nodup, h.walks, h.saved, h.cursor, trivial⟩

theorem sound_handlingOf {entries pre newer : List (Transaction S)}
    (hhistory : w.history = pre ++ (entries ++ newer))
    (hends : EndsAt Transaction.signature w.cursor pre) : (handlingOf entries).Sound w := by
  cases entries with
  | nil => trivial
  | cons t rest => exact ⟨pre, newer, hhistory, hends⟩

/-- **A page is a step of the walk, or the end of it.** -/
theorem Sound.collectPage [DecidableEq S] (h : Sound cfg pre₀ done w) {index : ℕ}
    {before : Option S} {newestFirst : List (Transaction S)}
    (hwalked : Walked Transaction.signature w.cursor w.history before newestFirst) :
    (collectPage cfg w index before newestFirst).Sound w := by
  have hwalk : walksToStart w.cursor.isSome cfg.startAtTip = true := by
    rcases h.walks with htip | ⟨hcursor, -⟩
    · rw [walksToStart, htip, Bool.not_false, Bool.or_true]
    · rw [walksToStart, hcursor, Bool.true_or]
  rw [Scanner.collectPage]
  rcases haction : nextPageAction (page Transaction.signature w.history before w.cursor
    cfg.maxBatch).length cfg.maxBatch (walksToStart w.cursor.isSome cfg.startAtTip) index
  · -- it is not the operator's choice, so the page was not full
    have hlt : (page Transaction.signature w.history before w.cursor cfg.maxBatch).length <
        cfg.maxBatch := by
      by_contra hle
      rw [nextPageAction, if_neg hle, hwalk, if_neg (by decide)] at haction
      split at haction <;> cases haction
    obtain ⟨pre, newer, hhistory, hends⟩ := hwalked.complete h.nodup hlt
    exact sound_handlingOf hhistory hends
  · dsimp only
    rcases hlast : (page Transaction.signature w.history before w.cursor
      cfg.maxBatch).getLast? with _ | oldest
    · trivial
    · have hne : page Transaction.signature w.history before w.cursor cfg.maxBatch ≠ [] := by
        rintro hnil
        rw [hnil] at hlast
        cases hlast
      have hfurther := hwalked.further h.nodup hne
      rw [hlast, Option.map_some] at hfurther
      exact hfurther
  · trivial

/-- What is next to be handled comes after all that were. -/
theorem Sound.next (h : Sound cfg pre₀ done w) (hphase : w.phase = .handling (t :: rest)) :
    ∃ scanned newer, w.history = pre₀ ++ scanned ++ t :: (rest ++ newer) ∧
      ∀ t' ∈ scanned, t'.signature ∈ done := by
  have hsound := h.phase
  rw [hphase] at hsound
  obtain ⟨pre, newer, hhistory, hends⟩ := hsound
  obtain ⟨scanned, ahead, hcaught, hends', hdone⟩ := h.cursor
  obtain rfl := hends.eq h.nodup hhistory hcaught hends'
  exact ⟨scanned, newer, hhistory, hdone⟩

/-- **The cursor moves over what was handled.** -/
theorem Sound.advance (h : Sound cfg pre₀ done w) {saves : Bool} {scanned newer}
    (hhistory : w.history = pre₀ ++ scanned ++ t :: (rest ++ newer))
    (hdone : ∀ t' ∈ scanned, t'.signature ∈ done) :
    Sound cfg pre₀ (done ++ [t.signature]) (advance w t rest saves).1 := by
  have hhistory' : w.history = pre₀ ++ (scanned ++ [t]) ++ (rest ++ newer) := by
    rw [hhistory]
    simp only [List.append_assoc, List.singleton_append]
  have hcursor : Caught pre₀ (done ++ [t.signature]) w.history (some t.signature) := by
    refine ⟨scanned ++ [t], rest ++ newer, hhistory', ?_, fun t' ht' => ?_⟩
    · rw [← List.append_assoc]
      exact EndsAt.snoc t
    · rcases List.mem_append.mp ht' with ht' | ht'
      · exact List.mem_append_left _ (hdone t' ht')
      · rw [List.mem_singleton.mp ht']
        exact List.mem_append_right _ (List.mem_singleton_self _)
  have hsaved := h.saved.mono [] [t.signature]
  rw [List.append_nil] at hsaved
  unfold Scanner.advance
  split
  · refine ⟨h.nodup, h.walks.imp_right fun _ => ⟨rfl, rfl⟩, hcursor, hcursor, ?_⟩
    have hends : EndsAt Transaction.signature (some t.signature) (pre₀ ++ (scanned ++ [t])) := by
      rw [← List.append_assoc]
      exact EndsAt.snoc t
    exact sound_handlingOf hhistory' hends
  · exact ⟨h.nodup, h.walks.imp_right fun hsome => ⟨rfl, hsome.2⟩, hsaved, hcursor, trivial⟩

/-- The lines of a transaction leave what is saved, or save the cursor. -/
theorem processLines_saved (cursor saved : Option S) (lines : List Processed) :
    (processLines cursor saved lines).1 = saved ∨ (processLines cursor saved lines).1 = cursor := by
  induction lines generalizing saved with
  | nil => exact .inl rfl
  | cons line rest ih =>
    rcases line with _ | (_ | (_ | _)) | _
    · exact ih saved
    · exact ih saved
    · exact .inl rfl
    · exact .inr (by simpa only [processLines, or_self] using ih cursor)
    · exact .inl rfl

/-- With what its lines have saved it is sound, too. -/
theorem Sound.lines (h : Sound cfg pre₀ done w) (lines : List Processed) :
    Sound cfg pre₀ done { w with saved := (processLines w.cursor w.saved lines).1 } := by
  rcases processLines_saved w.cursor w.saved lines with heq | heq
  · rw [heq]
    exact h
  · rw [heq]
    exact ⟨h.nodup, h.walks.imp_right fun hsome => ⟨hsome.1, hsome.1⟩, h.cursor, h.cursor, h.phase⟩

/-- **One step keeps it all**, and handles nothing but what is next. -/
theorem Sound.step [DecidableEq S] (h : Sound cfg pre₀ done w) {l : Label S} {out : Option S}
    (he : exec cfg w l = some (w', out)) :
    Sound cfg pre₀ (done ++ out.toList) w' ∧ ∀ s ∈ out, Next pre₀ done w.history s := by
  have hnone : ∀ s ∈ (none : Option S), Next pre₀ done w.history s := fun s hs => by cases hs
  cases l with
  | arrive txs =>
    obtain ⟨hnodup, he⟩ := Option.ite_none_right_eq_some.mp he
    obtain ⟨rfl, rfl⟩ := Prod.mk.inj (Option.some.inj he)
    refine ⟨⟨hnodup, h.walks, h.saved.mono txs [], h.cursor.mono txs [], ?_⟩, hnone⟩
    have hphase := h.phase
    dsimp only
    rcases hcase : w.phase with _ | ⟨index, before, newestFirst⟩ | entries
    · trivial
    · rw [hcase] at hphase
      exact Walked.append hphase txs
    · rw [hcase] at hphase
      obtain ⟨pre, newer, hhistory, hends⟩ := hphase
      exact ⟨pre, newer ++ txs, by rw [hhistory]; simp only [List.append_assoc], hends⟩
  | tick =>
    simp only [exec] at he
    split at he
    · obtain ⟨rfl, rfl⟩ := Prod.mk.inj (Option.some.inj he)
      rw [Option.toList_none, List.append_nil]
      obtain ⟨scanned, ahead, hhistory, hends, -⟩ := h.cursor
      exact ⟨⟨h.nodup, h.walks, h.saved, h.cursor, Walked.start hhistory hends⟩, hnone⟩
    · cases he
  | page =>
    simp only [exec] at he
    split at he
    · next index before newestFirst hcase =>
      obtain ⟨rfl, rfl⟩ := Prod.mk.inj (Option.some.inj he)
      rw [Option.toList_none, List.append_nil]
      have hphase := h.phase
      rw [hcase] at hphase
      exact ⟨⟨h.nodup, h.walks, h.saved, h.cursor, h.collectPage hphase⟩, hnone⟩
    · cases he
  | entry fetched process saves =>
    simp only [exec] at he
    split at he
    · next t rest hcase =>
      obtain ⟨scanned, newer, hhistory, hdone⟩ := h.next hcase
      have hnext : Next pre₀ done w.history t.signature :=
        ⟨scanned, t, rest ++ newer, hhistory, rfl, hdone⟩
      have hadvance : ∀ {w₁ : World S}, Sound cfg pre₀ done w₁ → w₁.history = w.history →
          Scanner.advance w₁ t rest saves = (w', out) →
          Sound cfg pre₀ (done ++ out.toList) w' ∧ ∀ s ∈ out, Next pre₀ done w.history s := by
        intro w₁ h₁ heq hadv
        have hsound : Sound cfg pre₀ (done ++ [t.signature])
            (Scanner.advance w₁ t rest saves).1 := h₁.advance (heq.trans hhistory) hdone
        have hout : (Scanner.advance w₁ t rest saves).2 = some t.signature := by
          unfold Scanner.advance
          split <;> rfl
        rw [hadv] at hsound hout
        obtain rfl : out = some t.signature := hout
        refine ⟨hsound, fun s hs => ?_⟩
        obtain rfl : t.signature = s := Option.some.inj hs
        exact hnext
      have he := Option.some.inj he
      unfold handleEntry at he
      split at he
      · exact hadvance h rfl he
      split at he
      · obtain ⟨rfl, rfl⟩ := Prod.mk.inj he
        rw [Option.toList_none, List.append_nil]
        exact ⟨h.idle, hnone⟩
      · dsimp only at he
        split at he
        · exact hadvance (h.lines _) rfl he
        · obtain ⟨rfl, rfl⟩ := Prod.mk.inj he
          rw [Option.toList_none, List.append_nil]
          exact ⟨(h.lines _).idle, hnone⟩
    · cases he
  | fail =>
    obtain ⟨rfl, rfl⟩ := Prod.mk.inj (Option.some.inj he)
    rw [Option.toList_none, List.append_nil]
    exact ⟨h.idle, hnone⟩
  | restart =>
    obtain ⟨rfl, rfl⟩ := Prod.mk.inj (Option.some.inj he)
    rw [Option.toList_none, List.append_nil]
    exact ⟨⟨h.nodup, h.walks.imp_right fun hsome => ⟨hsome.2, hsome.2⟩, h.saved, h.saved, trivial⟩,
      hnone⟩

/-! ### Over a run -/

/-- **Where a run starts**: the relayer comes up, with the cursor of the state file. -/
structure Starts (pre₀ : List (Transaction S)) (w : World S) : Prop where
  nodup : (w.history.map Transaction.signature).Nodup
  history : ∃ post, w.history = pre₀ ++ post
  saved : EndsAt Transaction.signature w.saved pre₀
  cursor : w.cursor = w.saved
  idle : w.phase = .idle

theorem Starts.sound (h : Starts pre₀ w)
    (hbegins : w.saved.isSome = true ∨ cfg.startAtTip = false) : Sound cfg pre₀ [] w := by
  obtain ⟨post, hhistory⟩ := h.history
  have hsaved : Caught pre₀ [] w.history w.saved :=
    ⟨[], post, by rw [List.append_nil, hhistory], by rw [List.append_nil]; exact h.saved,
      fun t ht => by cases ht⟩
  refine ⟨h.nodup, ?_, hsaved, by rw [h.cursor]; exact hsaved, by rw [h.idle]; trivial⟩
  rw [h.cursor, and_self]
  exact hbegins.symm

/-- Did a line go through? -/
def Processed.passed : Processed → Bool
  | .handled => true
  | .quarantined save => save.getD true
  | .failed => false

/-- **What it is to handle a transaction**: it failed, or it was fetched and every line that is the
gate's went through. -/
def Handles (cfg : SourceChain) (e : Step S) (s : S) : Prop :=
  ∃ t rest fetched process saves, e.pre.phase = .handling (t :: rest) ∧
    e.label = .entry fetched process saves ∧ t.signature = s ∧
    (t.err = true ∨ (fetched = true ∧ ((Logs.gateProgramDataLines t.logs cfg.programId).mapIdx
      process).all Processed.passed = true))

theorem all_passed_of_processLines {cursor saved : Option S} {lines : List Processed}
    (h : (processLines cursor saved lines).2 = true) : lines.all Processed.passed = true := by
  induction lines generalizing saved with
  | nil => rfl
  | cons line rest ih =>
    rw [List.all_cons, Bool.and_eq_true]
    rcases line with _ | (_ | (_ | _)) | _
    · exact ⟨rfl, ih h⟩
    · exact ⟨rfl, ih h⟩
    · cases h
    · exact ⟨rfl, ih h⟩
    · cases h

/-- Nothing is passed over that was not handled. -/
theorem handles_of_exec [DecidableEq S] {l : Label S} {out : Option S}
    (he : exec cfg w l = some (w', out)) : ∀ s ∈ out, Handles cfg ⟨w, l, out, w'⟩ s := by
  intro s hs
  obtain rfl : out = some s := hs
  have hadvance : ∀ {w₁ : World S} {t rest saves}, advance w₁ t rest saves = (w', some s) →
      t.signature = s := by
    intro w₁ t rest saves hadv
    unfold advance at hadv
    split at hadv <;> exact Option.some.inj (Prod.mk.inj hadv).2
  cases l with
  | arrive txs => cases (Prod.mk.inj (Option.some.inj (Option.ite_none_right_eq_some.mp he).2)).2
  | fail => cases (Prod.mk.inj (Option.some.inj he)).2
  | restart => cases (Prod.mk.inj (Option.some.inj he)).2
  | tick =>
    simp only [exec] at he
    split at he
    · cases (Prod.mk.inj (Option.some.inj he)).2
    · cases he
  | page =>
    simp only [exec] at he
    split at he
    · cases (Prod.mk.inj (Option.some.inj he)).2
    · cases he
  | entry fetched process saves =>
    simp only [exec] at he
    split at he
    · next t rest hcase =>
      have he := Option.some.inj he
      unfold handleEntry at he
      split at he
      · next herr => exact ⟨t, rest, fetched, process, saves, hcase, rfl, hadvance he, .inl herr⟩
      split at he
      · cases (Prod.mk.inj he).2
      next hfetched =>
        dsimp only at he
        split at he
        · next hlines =>
          exact ⟨t, rest, fetched, process, saves, hcase, rfl, hadvance he,
            .inr ⟨Bool.eq_true_of_not_eq_false hfetched, all_passed_of_processLines hlines⟩⟩
        · cases (Prod.mk.inj he).2
    · cases he

/-- A run keeps it all. -/
theorem Sound.run [DecidableEq S] {w₀ : World S} {tr : List (Step S)} (h : Sound cfg pre₀ [] w₀)
    (hrun : Run (exec cfg) w₀ tr w) : Sound cfg pre₀ (handledIn tr) w ∧
      ∀ tr₁ e tr₂, tr = tr₁ ++ e :: tr₂ → ∀ s ∈ e.out,
        Next pre₀ (handledIn tr₁) e.pre.history s ∧ Handles cfg e s := by
  induction hrun with
  | nil => exact ⟨h, fun tr₁ e tr₂ heq => absurd heq (by simp)⟩
  | @snoc tr w w' l out hr he ih =>
    obtain ⟨hsound, hnext⟩ := ih
    obtain ⟨hsound', hlast⟩ := hsound.step he
    have hhandled : handledIn (tr ++ [⟨w, l, out, w'⟩]) = handledIn tr ++ out.toList := by
      rw [handledIn, List.filterMap_append, ← handledIn]
      cases out <;> rfl
    refine ⟨by rw [hhandled]; exact hsound', fun tr₁ e tr₂ heq s hs => ?_⟩
    rcases List.eq_nil_or_concat tr₂ with rfl | ⟨tr₂', last, rfl⟩
    · obtain ⟨rfl, hlasteq⟩ := List.append_inj' heq rfl
      obtain rfl := (List.cons.inj hlasteq).1
      exact ⟨hlast s hs, handles_of_exec he s hs⟩
    · have hinner : tr ++ [⟨w, l, out, w'⟩] = (tr₁ ++ e :: tr₂') ++ [last] := by
        rw [heq]
        simp only [List.append_assoc, List.cons_append, List.concat_eq_append]
      exact hnext tr₁ e tr₂' (List.append_inj' hinner rfl).1 s hs

/-- **The relayer skips nothing**: if it had a cursor at its start, or was not told to begin at the
tip, then at any time all the transactions after that cursor and up to the one it has, saved or not,
were handled; and each was handled only after all the ones before it. -/
theorem never_skips [DecidableEq S] {w₀ : World S} {tr : List (Step S)} (hstarts : Starts pre₀ w₀)
    (hbegins : w₀.saved.isSome = true ∨ cfg.startAtTip = false)
    (hrun : Run (exec cfg) w₀ tr w) :
    (Caught pre₀ (handledIn tr) w.history w.saved ∧ Caught pre₀ (handledIn tr) w.history w.cursor) ∧
      ∀ tr₁ e tr₂, tr = tr₁ ++ e :: tr₂ → ∀ s ∈ e.out,
        Next pre₀ (handledIn tr₁) e.pre.history s ∧ Handles cfg e s := by
  obtain ⟨hsound, hnext⟩ := (hstarts.sound hbegins).run hrun
  exact ⟨⟨hsound.saved, hsound.cursor⟩, hnext⟩

/-- Transactions without a line of the gate. -/
def silent (n : ℕ) : Transaction ℕ := ⟨n, false, []⟩

/-- A relayer that comes up over some transactions, with some cursor. -/
def waking (n : ℕ) (cursor : Option ℕ) : World ℕ :=
  ⟨(List.range n).map silent, cursor, cursor, .idle⟩

/-- Pages of two, from the tip on if there is no cursor. -/
def pairs : SourceChain := ⟨[], 2, true⟩

/-- The next transaction, that comes back or does not. -/
def next (fetched : Bool) : Label ℕ := .entry fetched (fun _ _ => .handled) true

/-- Four transactions after the cursor are two pages, with another that arrives in between. One does
not come back, and the relayer is restarted. -/
def catchingUp : List (Step ℕ) × World ℕ :=
  traceOf (exec pairs) (waking 5 (some 0))
    ([.tick, .page, .arrive [silent 5], .page, .page, next true, next false] ++
      [.restart, .tick, .page, .page, .page, next true])

theorem never_skips_catchingUp : catchingUp.2.saved = some 2 ∧
    Caught [silent 0] (handledIn catchingUp.1) catchingUp.2.history catchingUp.2.saved := by
  have hsome : (runFrom (exec pairs) (waking 5 (some 0))
      ([.tick, .page, .arrive [silent 5], .page, .page, next true, next false] ++
        [.restart, .tick, .page, .page, .page, next true])).isSome = true := by decide
  have hstarts : Starts [silent 0] (waking 5 (some 0)) :=
    ⟨by decide, ⟨_, rfl⟩, rfl, rfl, rfl⟩
  exact ⟨by decide, (never_skips hstarts (.inl rfl) (run_traceOf hsome)).1.1⟩

/-- **Without a cursor and told to begin at the tip** it takes one page of the newest, and its
cursor moves past all that is older. -/
theorem skips_at_tip : ¬∀ (pre₀ : List (Transaction ℕ)) (w₀ w : World ℕ) (tr : List (Step ℕ)),
    Starts pre₀ w₀ → Run (exec pairs) w₀ tr w →
      Caught pre₀ (handledIn tr) w.history w.saved := by
  intro h
  have hsome : (runFrom (exec pairs) (waking 3 none) [.tick, .page, next true]).isSome = true := by
    decide
  have hstarts : Starts [] (waking 3 none) := ⟨by decide, ⟨_, rfl⟩, rfl, rfl, rfl⟩
  obtain ⟨scanned, ahead, hhistory, hends, hdone⟩ := h _ _ _ _ hstarts (run_traceOf hsome)
  cases scanned with
  | nil =>
    rw [EndsAt, List.nil_append, List.getLast?_nil, Option.map_none] at hends
    exact absurd hends (by decide)
  | cons t rest =>
    obtain rfl : silent 0 = t := (List.cons.inj hhistory).1
    exact absurd (hdone _ List.mem_cons_self) (by decide)

end Scanner

end Solana

end SelendraBridge
