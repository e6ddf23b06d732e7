import Mathlib.Data.List.Basic
import Mathlib.Data.List.Nodup
import Mathlib.Tactic.Common

/-!
# A backlog that is served backwards

A list that grows at its end is served from its end, page by page: what is older than the oldest
that was served before, down to a mark, and no more than a limit at a time (`Backlog.page`). Whoever
works the list off forwards walks back to the mark first, and has to know when it is reached.

A walk that starts at the end and takes each page whole has read one stretch of the list without a
hole (`Backlog.Walked`), whatever is added to the list meanwhile
(`Backlog.Walked.append`). A page that is not full ends at the mark
(`Backlog.Walked.complete`), and a full one may be followed by another (`Backlog.Walked.further`).
Entries are told apart by their keys, so no two may have the same.
-/

namespace Backlog

variable {τ κ : Type*} (key : τ → κ)

/-- A stretch of the list that ends with the mark, or is empty if there is no mark. -/
def EndsAt (mark : Option κ) (pre : List τ) : Prop := pre.getLast?.map key = mark

/-- **A walk without a hole**: what was found so far is one stretch of the list, somewhere after the
mark, and the next page is asked for from its oldest entry. -/
def Walked (mark : Option κ) (l : List τ) (before : Option κ) (found : List τ) : Prop :=
  ∃ pre mid newer, l = pre ++ mid ++ (found.reverse ++ newer) ∧ EndsAt key mark pre ∧
    before = found.getLast?.map key ∧ (found = [] → newer = [])

variable {key} {l pre mid newer found : List τ} {mark before : Option κ} {limit : ℕ}

/-- The mark is in one place. -/
theorem EndsAt.eq_nil_of_append {mid : List τ} (hnodup : ((pre ++ mid ++ newer).map key).Nodup)
    (hpre : EndsAt key mark pre) (hmid : EndsAt key mark (pre ++ mid)) : mid = [] := by
  by_contra hne
  rw [EndsAt, List.getLast?_append_of_ne_nil _ hne] at hmid
  rw [List.map_append, List.map_append, List.nodup_append, List.nodup_append] at hnodup
  cases mark with
  | none =>
    rw [Option.map_eq_none_iff, List.getLast?_eq_none_iff] at hmid
    exact hne hmid
  | some k =>
    obtain ⟨x, hx, hxk⟩ := Option.map_eq_some_iff.mp hpre
    obtain ⟨y, hy, hyk⟩ := Option.map_eq_some_iff.mp hmid
    exact hnodup.1.2.2 _ (List.mem_map_of_mem (List.mem_of_getLast? hx)) _
      (List.mem_map_of_mem (List.mem_of_getLast? hy)) (hxk.trans hyk.symm)

theorem EndsAt.eq {pre' post post' : List τ} (hnodup : (l.map key).Nodup)
    (hl : l = pre ++ post) (hl' : l = pre' ++ post') (h : EndsAt key mark pre)
    (h' : EndsAt key mark pre') : pre = pre' := by
  rcases List.append_eq_append_iff.mp (hl.symm.trans hl') with ⟨m, rfl, rfl⟩ | ⟨m, rfl, rfl⟩
  · rw [hl', List.append_assoc] at hnodup
    rw [(h.eq_nil_of_append (by rwa [List.append_assoc]) h'), List.append_nil]
  · rw [hl, List.append_assoc] at hnodup
    rw [(h'.eq_nil_of_append (by rwa [List.append_assoc]) h), List.append_nil]

/-- The mark moves on to the next entry. -/
theorem EndsAt.snoc (x : τ) : EndsAt key (some (key x)) (pre ++ [x]) := by
  rw [EndsAt, List.getLast?_append_of_ne_nil _ (List.cons_ne_nil _ _)]
  rfl

namespace Walked

/-- It starts at the end of the list. -/
theorem start (hl : l = pre ++ mid) (hmark : EndsAt key mark pre) : Walked key mark l none [] :=
  ⟨pre, mid, [], by rw [hl, List.reverse_nil, List.append_nil, List.append_nil], hmark, rfl,
    fun _ => rfl⟩

/-- **What is added to the list does not matter.** -/
theorem append (h : Walked key mark l before found) (new : List τ) :
    Walked key mark (l ++ new) before found := by
  obtain ⟨pre, mid, newer, rfl, hmark, hbefore, hempty⟩ := h
  rcases eq_or_ne found [] with rfl | hne
  · refine ⟨pre, mid ++ new, [], ?_, hmark, hbefore, fun _ => rfl⟩
    rw [hempty rfl]
    simp only [List.reverse_nil, List.append_nil, List.append_assoc]
  · refine ⟨pre, mid, newer ++ new, ?_, hmark, hbefore, fun heq => absurd heq hne⟩
    simp only [List.append_assoc]

end Walked

/-! ### Pages -/

variable [DecidableEq κ]

variable (key) in
/-- What is older than an entry, or everything. -/
def older (before : Option κ) (l : List τ) : List τ :=
  match before with
  | none => l
  | some k => l.takeWhile fun t => decide (key t ≠ k)

variable (key) in
/-- **A page**, the newest first: older than an entry, newer than a mark, and no more than so
many. -/
def page (l : List τ) (before mark : Option κ) (limit : ℕ) : List τ :=
  ((older key before l).reverse.takeWhile fun t => decide (some (key t) ≠ mark)).take limit

theorem takeWhile_eq_left {p : τ → Bool} {s t : List τ} (hs : ∀ x ∈ s, p x = true)
    (ht : ∀ x ∈ t.head?, p x = false) : (s ++ t).takeWhile p = s := by
  rw [List.takeWhile_append_of_pos hs]
  cases t with
  | nil => simp
  | cons x t =>
    have hx : p x = false := ht x rfl
    rw [List.takeWhile_cons_of_neg (by rw [hx]; exact Bool.false_ne_true), List.append_nil]

/-- Up to what was served before, and down to the mark, there is what is in between. -/
theorem page_eq (hnodup : ((pre ++ mid ++ newer).map key).Nodup) (hmark : EndsAt key mark pre)
    (hbefore : before = newer.head?.map key) :
    page key (pre ++ mid ++ newer) before mark limit = mid.reverse.take limit := by
  rw [List.map_append, List.nodup_append] at hnodup
  obtain ⟨hfront, -, hapart⟩ := hnodup
  have holder : older key before (pre ++ mid ++ newer) = pre ++ mid := by
    cases newer with
    | nil => rw [hbefore, List.append_nil]; rfl
    | cons x newer =>
      rw [hbefore, List.head?_cons, Option.map_some, older]
      refine takeWhile_eq_left (fun t ht => decide_eq_true ?_) fun y hy => ?_
      · exact hapart _ (List.mem_map_of_mem ht) _ (List.mem_map_of_mem List.mem_cons_self)
      · obtain rfl : x = y := Option.some.inj hy
        exact decide_eq_false fun hne => hne rfl
  have hstop : ((pre ++ mid).reverse.takeWhile fun t => decide (some (key t) ≠ mark)) =
      mid.reverse := by
    rw [List.reverse_append]
    refine takeWhile_eq_left (fun t ht => decide_eq_true ?_) fun y hy => ?_
    · -- what is in between is not the mark, which comes before it
      rw [List.map_append, List.nodup_append] at hfront
      rintro heq
      rw [← heq, EndsAt, Option.map_eq_some_iff] at hmark
      obtain ⟨m, hm, hkey⟩ := hmark
      exact hfront.2.2 _ (List.mem_map_of_mem (List.mem_of_getLast? hm)) _
        (List.mem_map_of_mem (List.mem_reverse.mp ht)) hkey
    · rw [List.head?_reverse] at hy
      rw [EndsAt, hy, Option.map_some] at hmark
      exact decide_eq_false fun hne => hne hmark
  rw [page, holder, hstop]

namespace Walked

/-- What the next page holds: the newest of what is between the mark and the walk. -/
theorem exists_page (h : Walked key mark l before found) (hnodup : (l.map key).Nodup)
    (limit : ℕ) : ∃ pre mid newer, l = pre ++ mid ++ (found.reverse ++ newer) ∧
      EndsAt key mark pre ∧ (found = [] → newer = []) ∧
      page key l before mark limit = mid.reverse.take limit := by
  obtain ⟨pre, mid, newer, rfl, hmark, hbefore, hempty⟩ := h
  refine ⟨pre, mid, newer, rfl, hmark, hempty, page_eq hnodup hmark ?_⟩
  rw [hbefore]
  rcases eq_or_ne found [] with rfl | hne
  · rw [hempty rfl]
    rfl
  · rw [List.head?_append_of_ne_nil _ (by simpa using hne), List.head?_reverse]

/-- **A page that is not full ends at the mark**: what was found is all that comes after it, but for
what was added since the walk began. -/
theorem complete (h : Walked key mark l before found) (hnodup : (l.map key).Nodup)
    (hpage : (page key l before mark limit).length < limit) :
    ∃ pre newer, l = pre ++ ((found ++ page key l before mark limit).reverse ++ newer) ∧
      EndsAt key mark pre := by
  obtain ⟨pre, mid, newer, hl, hmark, -, heq⟩ := h.exists_page hnodup limit
  rw [heq, List.length_take] at hpage
  have hall : mid.reverse.take limit = mid.reverse := List.take_of_length_le (by omega)
  refine ⟨pre, newer, ?_, hmark⟩
  rw [heq, hall, hl]
  simp only [List.reverse_append, List.reverse_reverse, List.append_assoc]

/-- **A page that holds something is a step of the walk.** -/
theorem further (h : Walked key mark l before found) (hnodup : (l.map key).Nodup)
    (hpage : page key l before mark limit ≠ []) :
    Walked key mark l ((page key l before mark limit).getLast?.map key)
      (found ++ page key l before mark limit) := by
  obtain ⟨pre, mid, newer, hl, hmark, -, heq⟩ := h.exists_page hnodup limit
  set p := page key l before mark limit with hp
  refine ⟨pre, (mid.reverse.drop limit).reverse, newer, ?_, hmark, ?_, fun hempty => ?_⟩
  · have hmid : mid = (mid.reverse.drop limit).reverse ++ (mid.reverse.take limit).reverse := by
      rw [← List.reverse_append, List.take_append_drop, List.reverse_reverse]
    rw [heq, List.reverse_append, hl]
    conv_lhs => rw [hmid]
    simp only [List.append_assoc]
  · rw [List.getLast?_append_of_ne_nil _ hpage]
  · exact absurd (List.append_eq_nil_iff.mp hempty).2 hpage

end Walked

end Backlog
