import Mathlib.Data.List.Infix
import Mathlib.Data.List.TakeWhile

/-!
# Words that stand in other words

When one word stands in another (`<:+:`), and how to take it out.

* A word without a letter `x` stands on one side of every `x`
  (`SelendraBridge.Words.infix_append_cons`).
* `SelendraBridge.Words.replace` puts a marker where a word stood, from the left and without
  overlap. If the marker is a word between two letters that the words in question do not have, then
  what is replaced stands nowhere after it, and what stood nowhere before it stands nowhere after it
  (`SelendraBridge.Words.not_infix_replace`): so one replacement after the other takes out all of
  them, in whatever way they overlap (`SelendraBridge.Words.not_infix_redact`).
* A code that tells the first letter of each codeword from the others
  (`SelendraBridge.Words.SelfSync`) has the code of a word in the code of another only where the
  word stands in the other (`SelendraBridge.Words.SelfSync.infix_of_code`).
-/

namespace SelendraBridge

namespace Words

variable {α β : Type*}

/-! ### Barriers -/

/-- **A word without a letter stands on one side of it.** -/
theorem infix_append_cons {t a b : List α} {x : α} (hx : x ∉ t) (h : t <:+: a ++ x :: b) :
    t <:+: a ∨ t <:+: b := by
  rcases List.infix_append_iff.mp h with ha | hb | ⟨t₁, t₂, rfl, ha, hb⟩
  · exact .inl ha
  · rcases List.infix_cons_iff.mp hb with hfront | hinside
    · cases t with
      | nil => exact .inl (List.nil_infix ..)
      | cons c t =>
        rw [List.cons_prefix_cons] at hfront
        exact absurd (hfront.1 ▸ List.mem_cons_self) hx
    · exact .inr hinside
  · cases t₂ with
    | nil => exact .inl (by simpa using ha.isInfix)
    | cons c t₂ =>
      rw [List.cons_prefix_cons] at hb
      exact absurd (by simp [hb.1]) hx

/-- **A word without a letter stands in one of the pieces**, if each but the last ends with it. -/
theorem exists_infix_of_flatten {t : List α} {x : α} (hx : x ∉ t) (ht : t ≠ []) {last : List α} :
    ∀ {pieces : List (List α)}, (∀ p ∈ pieces, ∃ q, p = q ++ [x]) →
      t <:+: pieces.flatten ++ last → (∃ p ∈ pieces, t <:+: p) ∨ t <:+: last
  | [], _, h => .inr h
  | p :: pieces, hends, h => by
    obtain ⟨q, rfl⟩ := hends p (List.mem_cons_self ..)
    have hcut : t <:+: q ++ x :: (pieces.flatten ++ last) := by simpa using h
    rcases infix_append_cons hx hcut with hq | hrest
    · exact .inl ⟨q ++ [x], List.mem_cons_self .., hq.trans List.infix_append_left⟩
    · have hends' : ∀ p ∈ pieces, ∃ q, p = q ++ [x] := fun p hp =>
        hends p (List.mem_cons_of_mem _ hp)
      rcases exists_infix_of_flatten hx ht hends' hrest with ⟨p, hp, hstands⟩ | hlast
      · exact .inl ⟨p, List.mem_cons_of_mem _ hp, hstands⟩
      · exact .inr hlast

/-! ### Replacing -/

/-- A marker between two letters, for words that have neither and do not stand in it. -/
structure Marks (marker t : List α) (lo hi : α) : Prop where
  shape : ∃ inner, marker = lo :: (inner ++ [hi])
  lo_not_mem : lo ∉ t
  hi_not_mem : hi ∉ t
  not_infix : ¬ t <:+: marker

theorem Marks.ne_nil {marker t : List α} {lo hi : α} (h : Marks marker t lo hi) : t ≠ [] :=
  fun hnil => h.not_infix (hnil ▸ List.nil_infix ..)

/-- A word without a letter begins another with it only where it begins the other. -/
theorem prefix_concat_of_not_mem {x : α} {t s : List α} (hx : x ∉ t) :
    t <+: s ++ [x] ↔ t <+: s := by
  rw [List.prefix_concat_iff]
  constructor
  · rintro (rfl | hfront)
    · exact absurd (by simp) hx
    · exact hfront
  · exact .inr

section

variable [DecidableEq α]

/-- The replacement, with so many letters still to pass over of the word that was replaced last. -/
def replaceFrom (needle marker : List α) : ℕ → List α → List α
  | _, [] => []
  | skip + 1, _ :: s => replaceFrom needle marker skip s
  | 0, c :: s =>
    if needle.isPrefixOf (c :: s) = true then
      marker ++ replaceFrom needle marker (needle.length - 1) s
    else c :: replaceFrom needle marker 0 s

/-- A word replaced by a marker: from the left, and without overlap. -/
def replace (needle marker s : List α) : List α := replaceFrom needle marker 0 s

variable {needle marker t : List α} {lo hi : α}

/-- A word at the beginning after a replacement was at the beginning before it. -/
theorem Marks.prefix_of_replaceFrom (h : Marks marker t lo hi) :
    ∀ {u s : List α}, lo ∉ u → u <+: replaceFrom needle marker 0 s → u <+: s := by
  obtain ⟨inner, rfl⟩ := h.shape
  intro u s hu hfront
  induction s generalizing u with
  | nil => simpa [replaceFrom] using hfront
  | cons c s ih =>
    cases u with
    | nil => exact List.nil_prefix
    | cons d u =>
      unfold replaceFrom at hfront
      split_ifs at hfront with hmatch
      · rw [List.cons_append, List.cons_prefix_cons] at hfront
        exact absurd (by simp [hfront.1]) hu
      · rw [List.cons_prefix_cons] at hfront ⊢
        exact ⟨hfront.1, ih (fun hmem => hu (List.mem_cons_of_mem _ hmem)) hfront.2⟩

theorem Marks.not_infix_replaceFrom (h : Marks marker t lo hi) :
    ∀ {skip : ℕ} {s : List α}, t = needle ∨ ¬ t <:+: s →
      ¬ t <:+: replaceFrom needle marker skip s := by
  obtain ⟨inner, hshape⟩ := h.shape
  intro skip s hfree
  induction s generalizing skip with
  | nil =>
    have hnil : replaceFrom needle marker skip ([] : List α) = [] := by
      cases skip <;> rfl
    rw [hnil, List.infix_nil]
    exact h.ne_nil
  | cons c s ih =>
    have hrest : t = needle ∨ ¬ t <:+: s := hfree.imp id fun hnot hs =>
      hnot (hs.trans (List.suffix_cons c s).isInfix)
    cases skip with
    | succ skip => exact ih hrest
    | zero =>
      unfold replaceFrom
      split_ifs with hmatch
      · -- within the marker, or after it
        intro hstands
        have hcut : t <:+: [] ++ lo :: (inner ++ hi ::
            replaceFrom needle marker (needle.length - 1) s) := by
          simpa [hshape] using hstands
        rcases infix_append_cons h.lo_not_mem hcut with hnil | hafter
        · exact h.ne_nil (List.infix_nil.mp hnil)
        · rcases infix_append_cons h.hi_not_mem hafter with hinner | hs
          · refine h.not_infix (hinner.trans ?_)
            rw [hshape]
            exact ⟨[lo], [hi], rfl⟩
          · exact ih hrest hs
      · intro hstands
        rcases List.infix_cons_iff.mp hstands with hfront | hs
        · -- at the beginning: it stood there before, and is not what is replaced
          have hout : replaceFrom needle marker 0 (c :: s) =
              c :: replaceFrom needle marker 0 s := by
            rw [replaceFrom, if_neg hmatch]
          rw [← hout] at hfront
          have hbefore := h.prefix_of_replaceFrom h.lo_not_mem hfront
          rcases hfree with rfl | hnot
          · exact hmatch (List.isPrefixOf_iff_prefix.mpr hbefore)
          · exact hnot hbefore.isInfix
        · exact ih hrest hs

/-- **A replacement takes out the word, and brings back none.** -/
theorem Marks.not_infix_replace (h : Marks marker t lo hi) {s : List α}
    (hfree : t = needle ∨ ¬ t <:+: s) : ¬ t <:+: replace needle marker s :=
  h.not_infix_replaceFrom hfree

theorem replaceFrom_concat {x : α} (hx : x ∉ needle) (hsome : needle ≠ []) :
    ∀ {skip : ℕ} {s : List α}, skip ≤ s.length →
      replaceFrom needle marker skip (s ++ [x]) = replaceFrom needle marker skip s ++ [x] := by
  intro skip s hskip
  induction s generalizing skip with
  | nil =>
    obtain rfl : skip = 0 := by simpa using hskip
    have hnot : ¬ needle.isPrefixOf ([] ++ [x]) = true := by
      rw [List.isPrefixOf_iff_prefix, prefix_concat_of_not_mem hx, List.prefix_nil]
      exact hsome
    exact if_neg hnot
  | cons c s ih =>
    cases skip with
    | succ skip => exact ih (by simpa using hskip)
    | zero =>
      have hsame : needle.isPrefixOf (c :: (s ++ [x])) = true ↔
          needle.isPrefixOf (c :: s) = true := by
        rw [List.isPrefixOf_iff_prefix, List.isPrefixOf_iff_prefix, ← List.cons_append,
          prefix_concat_of_not_mem hx]
      rw [List.cons_append]
      unfold replaceFrom
      by_cases hmatch : needle.isPrefixOf (c :: s) = true
      · have hlength := (List.isPrefixOf_iff_prefix.mp hmatch).length_le
        rw [if_pos (hsame.mpr hmatch), if_pos hmatch, List.append_assoc,
          ih (by simp at hlength; omega)]
      · rw [if_neg fun h => hmatch (hsame.mp h), if_neg hmatch, List.cons_append,
          ih (Nat.zero_le _)]

/-- **What comes last, and is in no word that is replaced, stays last.** -/
theorem replace_concat {x : α} (hx : x ∉ needle) (hsome : needle ≠ []) (s : List α) :
    replace needle marker (s ++ [x]) = replace needle marker s ++ [x] :=
  replaceFrom_concat hx hsome (Nat.zero_le _)

/-! ### One replacement after the other -/

/-- All the words of a list replaced, in its order. -/
def redact (needles : List (List α)) (marker s : List α) : List α :=
  needles.foldl (fun s needle => replace needle marker s) s

/-- **None of the words is left**, and none that was not there comes. -/
theorem not_infix_redact {needles : List (List α)} {s : List α} (h : Marks marker t lo hi)
    (hfree : t ∈ needles ∨ ¬ t <:+: s) : ¬ t <:+: redact needles marker s := by
  induction needles generalizing s with
  | nil => exact hfree.resolve_left (by simp)
  | cons needle needles ih =>
    refine ih ?_
    rcases hfree with hmem | hnot
    · rcases List.mem_cons.mp hmem with heq | hrest
      · exact .inr (h.not_infix_replace (.inl heq))
      · exact .inl hrest
    · exact .inr (h.not_infix_replace (.inr hnot))

theorem redact_concat {x : α} {needles : List (List α)}
    (hneedles : ∀ needle ∈ needles, x ∉ needle ∧ needle ≠ []) (s : List α) :
    redact needles marker (s ++ [x]) = redact needles marker s ++ [x] := by
  induction needles generalizing s with
  | nil => rfl
  | cons needle needles ih =>
    obtain ⟨⟨hx, hsome⟩, hrest⟩ := List.forall_mem_cons.mp hneedles
    rw [redact, List.foldl_cons, replace_concat hx hsome]
    exact ih hrest _

end

/-! ### Codes -/

/-- A code of letters by words: none is empty, their first letters are of a kind that the others
are not of, and none begins another. -/
structure SelfSync (enc : α → List β) (first : β → Prop) : Prop where
  shape (a : α) : ∃ b rest, enc a = b :: rest ∧ first b ∧ ∀ r ∈ rest, ¬ first r
  prefix_free {a b : α} : enc a <+: enc b → a = b

namespace SelfSync

variable {enc : α → List β} {first : β → Prop}

/-- The code of a word begins with a first letter, or is empty. -/
theorem head_of_code (h : SelfSync enc first) {t : List α} {b : β} {rest : List β}
    (hcode : t.flatMap enc = b :: rest) : first b := by
  cases t with
  | nil => simp at hcode
  | cons a t =>
    obtain ⟨c, tail, henc, hfirst, -⟩ := h.shape a
    rw [List.flatMap_cons, henc, List.cons_append, List.cons.injEq] at hcode
    exact hcode.1 ▸ hfirst

theorem code_ne_nil (h : SelfSync enc first) {t : List α} (ht : t ≠ []) : t.flatMap enc ≠ [] := by
  obtain ⟨a, t, rfl⟩ := List.exists_cons_of_ne_nil ht
  obtain ⟨b, rest, henc, -⟩ := h.shape a
  simp [henc]

/-- **A code that begins another is that of a word that begins the other.** -/
theorem prefix_of_code (h : SelfSync enc first) {t s : List α}
    (hfront : t.flatMap enc <+: s.flatMap enc) : t <+: s := by
  induction t generalizing s with
  | nil => exact List.nil_prefix
  | cons a t ih =>
    cases s with
    | nil =>
      rw [List.flatMap_nil, List.prefix_nil] at hfront
      exact absurd hfront (h.code_ne_nil (List.cons_ne_nil a t))
    | cons b s =>
      rw [List.flatMap_cons, List.flatMap_cons] at hfront
      have ha : enc a <+: enc b ++ s.flatMap enc := (List.prefix_append ..).trans hfront
      have hsame : a = b := by
        rcases List.prefix_or_prefix_of_prefix ha (List.prefix_append ..) with hab | hba
        · exact h.prefix_free hab
        · exact (h.prefix_free hba).symm
      subst hsame
      rw [List.prefix_append_right_inj] at hfront
      rw [List.cons_prefix_cons]
      exact ⟨rfl, ih hfront⟩

/-- A code does not begin within a codeword. -/
theorem infix_of_rest (h : SelfSync enc first) {t : List α} (ht : t ≠ []) {rest s : List β}
    (hrest : ∀ r ∈ rest, ¬ first r) (hinside : t.flatMap enc <:+: rest ++ s) :
    t.flatMap enc <:+: s := by
  induction rest with
  | nil => exact hinside
  | cons r rest ih =>
    obtain ⟨hr, hrest⟩ := List.forall_mem_cons.mp hrest
    rcases List.infix_cons_iff.mp hinside with hfront | hlater
    · obtain ⟨b, code, hcode⟩ := List.exists_cons_of_ne_nil (h.code_ne_nil ht)
      rw [hcode, List.cons_prefix_cons] at hfront
      exact absurd (hfront.1 ▸ h.head_of_code hcode) hr
    · exact ih hrest hlater

/-- **A code stands in another only where the word stands in the other.** -/
theorem infix_of_code (h : SelfSync enc first) {t s : List α} (ht : t ≠ [])
    (hinside : t.flatMap enc <:+: s.flatMap enc) : t <:+: s := by
  induction s with
  | nil =>
    rw [List.flatMap_nil, List.infix_nil] at hinside
    exact absurd hinside (h.code_ne_nil ht)
  | cons b s ih =>
    obtain ⟨c, rest, henc, -, hrest⟩ := h.shape b
    have hwhole : (b :: s).flatMap enc = c :: (rest ++ s.flatMap enc) := by
      rw [List.flatMap_cons, henc, List.cons_append]
    rw [hwhole] at hinside
    rcases List.infix_cons_iff.mp hinside with hfront | hlater
    · rw [← hwhole] at hfront
      exact (h.prefix_of_code hfront).isInfix
    · exact (ih (h.infix_of_rest ht hrest hlater)).trans (List.suffix_cons b s).isInfix

/-- **Words with one code are one word.** -/
theorem code_injective (h : SelfSync enc first) {s t : List α}
    (heq : s.flatMap enc = t.flatMap enc) : s = t := by
  have hst := h.prefix_of_code (heq ▸ List.prefix_rfl : s.flatMap enc <+: t.flatMap enc)
  have hts := h.prefix_of_code (heq ▸ List.prefix_rfl : t.flatMap enc <+: s.flatMap enc)
  exact hst.eq_of_length_le hts.length_le

end SelfSync

end Words

end SelendraBridge
