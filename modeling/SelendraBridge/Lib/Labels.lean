import Mathlib.Data.Finset.Dedup
import Mathlib.Data.Fintype.Basic
import Mathlib.Data.List.Basic

/-!
# Lists with one entry for each label

Entries are put into a list one after the other, each under a label, and one whose label is
there already is left out (`Labels.insert`), as is one that comes when the list is full
(`Labels.insertCapped`). That makes one entry for each *label*. Where what counts is the
*owner* of an entry, and an owner may have several labels, it makes one for each owner exactly
as long as the owners stick to theirs (`Labels.nodup_insert_iff`).
-/

namespace Labels

variable {α β γ : Type*} [DecidableEq β] (label : α → β) (owner : α → γ) (cap : ℕ)

/-- An entry goes in if its label is not there. -/
def insert (l : List α) (x : α) : List α :=
  if l.any fun s => label s == label x then l else l ++ [x]

/-- There is room for an entry: its label is there, or the list is not full. -/
def HasRoom (l : List α) (x : α) : Prop := (∃ s ∈ l, label s = label x) ∨ l.length < cap

/-- **An owner sticks to its label.** -/
def Sticks (l : List α) (x : α) : Prop := ∀ s ∈ l, owner s = owner x → label s = label x

/-- An entry goes in if there is room. -/
def insertCapped (l : List α) (x : α) : Option (List α) :=
  if l.any fun s => label s == label x then some l
  else if l.length ≥ cap then none
  else some (l ++ [x])

variable {label owner cap} {l l' : List α} {x : α}

theorem any_label_iff :
    (l.any fun s => label s == label x) = true ↔ ∃ s ∈ l, label s = label x := by
  simp [List.any_eq_true]

theorem insert_of_mem (h : ∃ s ∈ l, label s = label x) : insert label l x = l :=
  if_pos (any_label_iff.mpr h)

theorem insert_of_not_mem (h : ¬∃ s ∈ l, label s = label x) : insert label l x = l ++ [x] :=
  if_neg (mt any_label_iff.mp h)

/-- **What goes in, goes in as `insert` says**, if there is room. -/
theorem insertCapped_eq_some :
    insertCapped label cap l x = some l' ↔ HasRoom label cap l x ∧ l' = insert label l x := by
  by_cases hmem : ∃ s ∈ l, label s = label x
  · rw [insertCapped, if_pos (any_label_iff.mpr hmem), insert_of_mem hmem]
    constructor
    · rintro h
      exact ⟨.inl hmem, (Option.some.inj h).symm⟩
    · rintro ⟨-, rfl⟩
      rfl
  · rw [insertCapped, if_neg (mt any_label_iff.mp hmem), insert_of_not_mem hmem]
    by_cases hfull : l.length ≥ cap
    · rw [if_pos hfull]
      refine iff_of_false (by simp) ?_
      rintro ⟨hroom | hroom, -⟩
      · exact hmem hroom
      · omega
    · rw [if_neg hfull]
      constructor
      · rintro h
        exact ⟨.inr (by omega), (Option.some.inj h).symm⟩
      · rintro ⟨-, rfl⟩
        rfl

/-- Nothing that is there goes. -/
theorem isPrefix_insert (l : List α) (x : α) : l <+: insert label l x := by
  by_cases hmem : ∃ s ∈ l, label s = label x
  · rw [insert_of_mem hmem]
  · rw [insert_of_not_mem hmem]
    exact List.prefix_append _ _

/-- What is there now was there, or is the entry. -/
theorem mem_insert {s : α} (h : s ∈ insert label l x) : s ∈ l ∨ s = x := by
  by_cases hmem : ∃ s ∈ l, label s = label x
  · rw [insert_of_mem hmem] at h
    exact .inl h
  · rw [insert_of_not_mem hmem] at h
    exact (List.mem_append.mp h).imp_right List.mem_singleton.mp

/-- **One entry for each owner stays one** exactly when the owner of the new one sticks to its
label. -/
theorem nodup_insert_iff (h : (l.map owner).Nodup)
    (hlabel : ∀ s ∈ l, label s = label x → owner s = owner x) :
    ((insert label l x).map owner).Nodup ↔ Sticks label owner l x := by
  by_cases hmem : ∃ s ∈ l, label s = label x
  · rw [insert_of_mem hmem]
    refine iff_of_true h fun s hs howner => ?_
    -- The entry of the label is the owner's only one.
    obtain ⟨t, ht, heq⟩ := hmem
    rw [List.inj_on_of_nodup_map h hs ht (howner.trans (hlabel t ht heq).symm), heq]
  · rw [insert_of_not_mem hmem, List.map_append, List.map_singleton, List.nodup_append]
    constructor
    · rintro ⟨-, -, hne⟩ s hs howner
      exact absurd howner (hne _ (List.mem_map_of_mem hs) _ List.mem_cons_self)
    · intro hsticks
      refine ⟨h, List.nodup_singleton _, fun a ha b hb => ?_⟩
      obtain ⟨s, hs, rfl⟩ := List.mem_map.mp ha
      rw [List.mem_singleton.mp hb]
      exact fun howner => hmem ⟨s, hs, hsticks s hs howner⟩

end Labels
