import SelendraBridge.Lib.BigEndian

/-!
# Borsh

Borsh writes the fields of a value one after another: numbers in little-endian bytes of
a fixed width, fixed arrays as they are, a vector as its length and its elements. Reading
is the same walk, and leaves the bytes that follow.

A codec is the two walks with the proof that the second undoes the first
(`Borsh.Codec.get_put`), so that a type whose codec is put together from those of its
fields is read back from what was written, by construction.

A codec is strict if there is one way to write a value (`Borsh.Codec.Strict`): what is read is
what would have been written. The codecs here are strict as long as what they are put together
from is.
-/

namespace Borsh

/-- **A way to write values and to read them back.** -/
structure Codec (α : Type) where
  put : α → List UInt8
  get : List UInt8 → Option (α × List UInt8)
  /-- The values that can be written. -/
  Valid : α → Prop
  /-- What was written is read back, and what follows is left. -/
  get_put : ∀ {a : α} (rest : List UInt8), Valid a → get (put a ++ rest) = some (a, rest)

namespace Codec

variable {α β : Type}

/-- The next `n` bytes. -/
def takeBytes (n : ℕ) (bs : List UInt8) : Option (List UInt8 × List UInt8) :=
  if n ≤ bs.length then some (bs.take n, bs.drop n) else none

theorem takeBytes_append {n : ℕ} {bs : List UInt8} (h : bs.length = n) (rest : List UInt8) :
    takeBytes n (bs ++ rest) = some (bs, rest) := by
  subst h
  rw [takeBytes, if_pos (by simp), List.take_left, List.drop_left]

/-- One byte. -/
def u8 : Codec UInt8 where
  put b := [b]
  get
    | [] => none
    | b :: rest => some (b, rest)
  Valid _ := True
  get_put _ _ := rfl

/-- A flag: one byte, zero or one. -/
def bool : Codec Bool where
  put b := [if b then 1 else 0]
  get
    | 0 :: rest => some (false, rest)
    | 1 :: rest => some (true, rest)
    | _ => none
  Valid _ := True
  get_put {b} _ _ := by cases b <;> rfl

/-- A number of `n` bytes, the least significant first. -/
def uint (n : ℕ) : Codec (BitVec (8 * n)) where
  put v := (BigEndian.ofWord n v).reverse
  get bs := (takeBytes n bs).map fun r =>
    (BitVec.ofNat (8 * n) (BigEndian.ofBytes r.1.reverse), r.2)
  Valid _ := True
  get_put {v} rest _ := by
    rw [takeBytes_append (by simp), Option.map_some, List.reverse_reverse]
    have hv := (BigEndian.toWord_eq_some_iff (w := v)).mpr rfl
    rw [BigEndian.toWord, if_pos (BigEndian.length_ofWord v)] at hv
    rw [Option.some.inj hv]

/-- An array of `n` bytes, as the number it spells. -/
def array (n : ℕ) : Codec (BitVec (8 * n)) where
  put v := BigEndian.ofWord n v
  get bs := (takeBytes n bs).map fun r => (BitVec.ofNat (8 * n) (BigEndian.ofBytes r.1), r.2)
  Valid _ := True
  get_put {v} rest _ := by
    rw [takeBytes_append (by simp), Option.map_some]
    have hv := (BigEndian.toWord_eq_some_iff (w := v)).mpr rfl
    rw [BigEndian.toWord, if_pos (BigEndian.length_ofWord v)] at hv
    rw [Option.some.inj hv]

/-- One value after another. -/
def pair (A : Codec α) (B : Codec β) : Codec (α × β) where
  put p := A.put p.1 ++ B.put p.2
  get bs := (A.get bs).bind fun r => (B.get r.2).map fun r' => ((r.1, r'.1), r'.2)
  Valid p := A.Valid p.1 ∧ B.Valid p.2
  get_put {p} rest h := by
    rw [List.append_assoc, A.get_put _ h.1, Option.bind_some, B.get_put _ h.2]
    rfl

/-- The same bytes for another type of values. -/
def iso (A : Codec α) (f : α → β) (g : β → α) (h : ∀ b, f (g b) = b) : Codec β where
  put b := A.put (g b)
  get bs := (A.get bs).map fun r => (f r.1, r.2)
  Valid b := A.Valid (g b)
  get_put {b} rest hb := by
    rw [A.get_put _ hb, Option.map_some, h]

/-- The elements of a vector whose length is known. -/
def getMany (A : Codec α) : ℕ → List UInt8 → Option (List α × List UInt8)
  | 0, bs => some ([], bs)
  | n + 1, bs => (A.get bs).bind fun r => (getMany A n r.2).map fun r' => (r.1 :: r'.1, r'.2)

theorem getMany_put (A : Codec α) (as : List α) (rest : List UInt8) (h : ∀ a ∈ as, A.Valid a) :
    getMany A as.length (as.flatMap A.put ++ rest) = some (as, rest) := by
  induction as with
  | nil => rfl
  | cons a as ih =>
    have ha : A.Valid a := h a List.mem_cons_self
    rw [List.flatMap_cons, List.append_assoc, List.length_cons, getMany, A.get_put _ ha,
      Option.bind_some, ih fun b hb => h b (List.mem_cons_of_mem _ hb)]
    rfl

/-- A vector: how many elements, in four bytes, and the elements. -/
def vec (A : Codec α) : Codec (List α) where
  put as := (uint 4).put (BitVec.ofNat 32 as.length) ++ as.flatMap A.put
  get bs := ((uint 4).get bs).bind fun r => getMany A r.1.toNat r.2
  Valid as := as.length < 2 ^ 32 ∧ ∀ a ∈ as, A.Valid a
  get_put {as} rest h := by
    rw [List.append_assoc, (uint 4).get_put _ trivial, Option.bind_some]
    show getMany A (BitVec.ofNat 32 as.length).toNat _ = _
    rw [BitVec.toNat_ofNat, Nat.mod_eq_of_lt h.1]
    exact getMany_put A as rest h.2

/-- Some bytes, their number first. -/
def bytes : Codec (List UInt8) := u8.vec

/-- A value that may be missing: a byte that says so, and the value. -/
def option (A : Codec α) : Codec (Option α) where
  put
    | none => [0]
    | some a => 1 :: A.put a
  get
    | 0 :: rest => some (none, rest)
    | 1 :: rest => (A.get rest).map fun r => (some r.1, r.2)
    | _ => none
  Valid o := ∀ a, o = some a → A.Valid a
  get_put {o} rest h := by
    cases o with
    | none => rfl
    | some a =>
      show (A.get (A.put a ++ rest)).map _ = _
      rw [A.get_put rest (h a rfl)]
      rfl

/-- The same bytes for a type of fewer values. -/
def restrict (A : Codec α) (f : α → Option β) (g : β → α) (h : ∀ b, f (g b) = some b) :
    Codec β where
  put b := A.put (g b)
  get bs := (A.get bs).bind fun r => (f r.1).map fun b => (b, r.2)
  Valid b := A.Valid (g b)
  get_put {b} rest hb := by
    rw [A.get_put _ hb, Option.bind_some, h]
    rfl

/-- All of some bytes, as one value. -/
def fromSlice (A : Codec α) (bs : List UInt8) : Option α :=
  match A.get bs with
  | some (a, []) => some a
  | _ => none

theorem fromSlice_eq_some {A : Codec α} {bs : List UInt8} {a : α} :
    A.fromSlice bs = some a ↔ A.get bs = some (a, []) := by
  rw [fromSlice]
  split
  · next h => rw [h, Option.some.injEq, Option.some.injEq, Prod.mk.injEq, and_iff_left rfl]
  · next hne =>
    refine iff_of_false (by simp) fun h => hne a h

/-- What was written is read back from just that. -/
theorem fromSlice_put (A : Codec α) {a : α} (h : A.Valid a) : A.fromSlice (A.put a) = some a := by
  rw [fromSlice_eq_some, ← List.append_nil (A.put a)]
  exact A.get_put [] h

/-! ### How long it gets -/

theorem length_put_uint {n : ℕ} (v : BitVec (8 * n)) : ((uint n).put v).length = n := by
  rw [uint, List.length_reverse, BigEndian.length_ofWord]

theorem length_put_array {n : ℕ} (v : BitVec (8 * n)) : ((array n).put v).length = n := by
  rw [array, BigEndian.length_ofWord]

theorem length_put_bool (b : Bool) : (bool.put b).length = 1 := by
  cases b <;> rfl

/-- A vector of elements of one length. -/
theorem length_put_vec (A : Codec α) {k : ℕ} (hk : ∀ a, (A.put a).length = k) (as : List α) :
    (A.vec.put as).length = 4 + k * as.length := by
  have hall : (as.flatMap A.put).length = k * as.length := by
    induction as with
    | nil => rfl
    | cons a as ih =>
      rw [List.flatMap_cons, List.length_append, hk, ih, List.length_cons, Nat.mul_succ,
        Nat.add_comm]
  rw [vec, List.length_append, hall, length_put_uint]

/-! ### One way to write -/

/-- **What is read is what would have been written.** -/
def Strict (A : Codec α) : Prop :=
  ∀ bs a rest, A.get bs = some (a, rest) → A.Valid a ∧ A.put a ++ rest = bs

theorem takeBytes_eq_some {n : ℕ} {bs taken rest : List UInt8}
    (h : takeBytes n bs = some (taken, rest)) : taken.length = n ∧ taken ++ rest = bs := by
  rw [takeBytes, Option.ite_none_right_eq_some] at h
  obtain ⟨hle, h⟩ := h
  obtain ⟨rfl, rfl⟩ := Prod.mk.inj (Option.some.inj h)
  exact ⟨List.length_take_of_le hle, List.take_append_drop n bs⟩

theorem strict_u8 : u8.Strict := by
  rintro bs a rest h
  cases bs with
  | nil => cases h
  | cons b bs =>
    obtain ⟨rfl, rfl⟩ := Prod.mk.inj (Option.some.inj h)
    exact ⟨trivial, rfl⟩

theorem strict_bool : bool.Strict := by
  rintro bs b rest h
  simp only [bool] at h
  split at h
  · obtain ⟨rfl, rfl⟩ := Prod.mk.inj (Option.some.inj h)
    exact ⟨trivial, rfl⟩
  · obtain ⟨rfl, rfl⟩ := Prod.mk.inj (Option.some.inj h)
    exact ⟨trivial, rfl⟩
  · cases h

/-- A number is spelled by its bytes. -/
theorem ofWord_ofBytes {n : ℕ} {bs : List UInt8} (h : bs.length = n) :
    BigEndian.ofWord n (BitVec.ofNat (8 * n) (BigEndian.ofBytes bs)) = bs := by
  refine (BigEndian.toWord_eq_some_iff.mp ?_).symm
  rw [BigEndian.toWord, if_pos h]

theorem strict_uint (n : ℕ) : (uint n).Strict := by
  rintro bs v rest h
  obtain ⟨⟨taken, rest'⟩, htake, heq⟩ := Option.map_eq_some_iff.mp h
  obtain ⟨rfl, rfl⟩ := Prod.mk.inj heq
  obtain ⟨hlen, rfl⟩ := takeBytes_eq_some htake
  refine ⟨trivial, ?_⟩
  show (BigEndian.ofWord n _).reverse ++ rest' = _
  rw [ofWord_ofBytes (by rw [List.length_reverse, hlen]), List.reverse_reverse]

theorem strict_array (n : ℕ) : (array n).Strict := by
  rintro bs v rest h
  obtain ⟨⟨taken, rest'⟩, htake, heq⟩ := Option.map_eq_some_iff.mp h
  obtain ⟨rfl, rfl⟩ := Prod.mk.inj heq
  obtain ⟨hlen, rfl⟩ := takeBytes_eq_some htake
  refine ⟨trivial, ?_⟩
  show BigEndian.ofWord n _ ++ rest' = _
  rw [ofWord_ofBytes hlen]

theorem Strict.pair {A : Codec α} {B : Codec β} (hA : A.Strict) (hB : B.Strict) :
    (A.pair B).Strict := by
  rintro bs ⟨a, b⟩ rest h
  obtain ⟨⟨a', bs'⟩, ha, h⟩ := Option.bind_eq_some_iff.mp h
  obtain ⟨⟨b', rest'⟩, hb, heq⟩ := Option.map_eq_some_iff.mp h
  obtain ⟨hab, rfl⟩ := Prod.mk.inj heq
  obtain ⟨rfl, rfl⟩ := Prod.mk.inj hab
  obtain ⟨hva, rfl⟩ := hA bs a' bs' ha
  obtain ⟨hvb, rfl⟩ := hB bs' b' rest' hb
  exact ⟨⟨hva, hvb⟩, List.append_assoc ..⟩

theorem Strict.iso {A : Codec α} {f : α → β} {g : β → α} {h : ∀ b, f (g b) = b} (hA : A.Strict)
    (hback : ∀ a, g (f a) = a) : (A.iso f g h).Strict := by
  rintro bs b rest hget
  obtain ⟨⟨a, rest'⟩, ha, heq⟩ := Option.map_eq_some_iff.mp hget
  obtain ⟨rfl, rfl⟩ := Prod.mk.inj heq
  obtain ⟨hvalid, hput⟩ := hA bs a rest' ha
  refine ⟨?_, ?_⟩
  · show A.Valid (g (f a))
    rw [hback]
    exact hvalid
  · show A.put (g (f a)) ++ rest' = bs
    rw [hback]
    exact hput

theorem Strict.restrict {A : Codec α} {f : α → Option β} {g : β → α} {h : ∀ b, f (g b) = some b}
    (hA : A.Strict) (hback : ∀ a b, f a = some b → g b = a) : (A.restrict f g h).Strict := by
  rintro bs b rest hget
  obtain ⟨⟨a, rest'⟩, ha, hget⟩ := Option.bind_eq_some_iff.mp hget
  obtain ⟨b', hb, heq⟩ := Option.map_eq_some_iff.mp hget
  obtain ⟨rfl, rfl⟩ := Prod.mk.inj heq
  obtain ⟨hvalid, hput⟩ := hA bs a rest' ha
  have hga := hback a b' hb
  refine ⟨?_, ?_⟩
  · show A.Valid (g b')
    rw [hga]
    exact hvalid
  · show A.put (g b') ++ rest' = bs
    rw [hga]
    exact hput

theorem Strict.option {A : Codec α} (hA : A.Strict) : A.option.Strict := by
  rintro bs o rest h
  simp only [Codec.option] at h
  split at h
  · obtain ⟨rfl, rfl⟩ := Prod.mk.inj (Option.some.inj h)
    refine ⟨?_, rfl⟩
    rintro a ha
    cases ha
  · next bs' =>
    obtain ⟨⟨a, rest'⟩, ha, heq⟩ := Option.map_eq_some_iff.mp h
    obtain ⟨rfl, rfl⟩ := Prod.mk.inj heq
    obtain ⟨hvalid, rfl⟩ := hA bs' a rest' ha
    refine ⟨?_, rfl⟩
    rintro a' heq
    obtain rfl := Option.some.inj heq
    exact hvalid
  · cases h

theorem strict_getMany {A : Codec α} (hA : A.Strict) {n : ℕ} {bs rest : List UInt8} {as : List α}
    (h : getMany A n bs = some (as, rest)) :
    as.length = n ∧ (∀ a ∈ as, A.Valid a) ∧ as.flatMap A.put ++ rest = bs := by
  induction n generalizing bs as with
  | zero =>
    obtain ⟨rfl, rfl⟩ := Prod.mk.inj (Option.some.inj h)
    exact ⟨rfl, fun _ h => absurd h List.not_mem_nil, rfl⟩
  | succ n ih =>
    obtain ⟨⟨a, bs'⟩, ha, h⟩ := Option.bind_eq_some_iff.mp h
    obtain ⟨⟨as', rest'⟩, has, heq⟩ := Option.map_eq_some_iff.mp h
    obtain ⟨rfl, rfl⟩ := Prod.mk.inj heq
    obtain ⟨hvalid, rfl⟩ := hA bs a bs' ha
    obtain ⟨rfl, hall, rfl⟩ := ih has
    refine ⟨rfl, ?_, ?_⟩
    · intro b hb
      rcases List.mem_cons.mp hb with rfl | hb
      · exact hvalid
      · exact hall b hb
    · rw [List.flatMap_cons, List.append_assoc]

theorem Strict.vec {A : Codec α} (hA : A.Strict) : A.vec.Strict := by
  rintro bs as rest h
  obtain ⟨⟨n, bs'⟩, hn, h⟩ := Option.bind_eq_some_iff.mp h
  obtain ⟨-, hput⟩ := strict_uint 4 bs n bs' hn
  obtain ⟨hlen, hall, rfl⟩ := strict_getMany hA h
  refine ⟨⟨?_, hall⟩, ?_⟩
  · rw [hlen]
    exact n.isLt
  · show (uint 4).put (BitVec.ofNat (8 * 4) as.length) ++ as.flatMap A.put ++ rest = bs
    rw [hlen, List.append_assoc, BitVec.ofNat_toNat, BitVec.setWidth_eq, hput]

theorem strict_bytes : bytes.Strict := strict_u8.vec

/-- **What is read as a whole is written as it was.** -/
theorem Strict.put_of_fromSlice {A : Codec α} (hA : A.Strict) {bs : List UInt8} {a : α}
    (h : A.fromSlice bs = some a) : A.Valid a ∧ A.put a = bs := by
  obtain ⟨hvalid, hput⟩ := hA bs a [] (fromSlice_eq_some.mp h)
  exact ⟨hvalid, by rwa [List.append_nil] at hput⟩

/-! ### Codecs of one width -/

/-- **A codec of `n` bytes**: it reads whenever there are as many, and then takes those. -/
def Wide (A : Codec α) (n : ℕ) : Prop :=
  ∀ bs, (n ≤ bs.length → ∃ a, A.get bs = some (a, bs.drop n)) ∧ (bs.length < n → A.get bs = none)

theorem wide_u8 : u8.Wide 1 := by
  intro bs
  cases bs with
  | nil => exact ⟨fun h => absurd h (by simp), fun _ => rfl⟩
  | cons b bs => exact ⟨fun _ => ⟨b, rfl⟩, fun h => absurd h (by simp)⟩

theorem get_array {n : ℕ} (bs : List UInt8) : (array n).get bs = (takeBytes n bs).map fun r =>
    (BitVec.ofNat (8 * n) (BigEndian.ofBytes r.1), r.2) := rfl

theorem get_pair (A : Codec α) (B : Codec β) (bs : List UInt8) : (A.pair B).get bs =
    (A.get bs).bind fun r => (B.get r.2).map fun r' => ((r.1, r'.1), r'.2) := rfl

theorem get_iso (A : Codec α) {f : α → β} {g : β → α} {h : ∀ b, f (g b) = b} (bs : List UInt8) :
    (A.iso f g h).get bs = (A.get bs).map fun r => (f r.1, r.2) := rfl

theorem wide_array (n : ℕ) : (array n).Wide n := by
  intro bs
  constructor
  · intro h
    rw [get_array, takeBytes, if_pos h]
    exact ⟨_, rfl⟩
  · intro h
    rw [get_array, takeBytes, if_neg (by omega), Option.map_none]

theorem Wide.pair {A : Codec α} {B : Codec β} {m n : ℕ} (hA : A.Wide m) (hB : B.Wide n) :
    (A.pair B).Wide (m + n) := by
  intro bs
  constructor
  · intro h
    obtain ⟨a, ha⟩ := (hA bs).1 (by omega)
    obtain ⟨b, hb⟩ := (hB (bs.drop m)).1 (by rw [List.length_drop]; omega)
    exact ⟨(a, b), by rw [get_pair, ha, Option.bind_some, hb, Option.map_some, List.drop_drop]⟩
  · intro h
    rw [get_pair]
    rcases Nat.lt_or_ge bs.length m with hlt | hge
    · rw [(hA bs).2 hlt, Option.bind_none]
    · obtain ⟨a, ha⟩ := (hA bs).1 hge
      rw [ha, Option.bind_some, (hB (bs.drop m)).2 (by rw [List.length_drop]; omega),
        Option.map_none]

theorem Wide.iso {A : Codec α} {f : α → β} {g : β → α} {h : ∀ b, f (g b) = b} {n : ℕ}
    (hA : A.Wide n) : (A.iso f g h).Wide n := by
  intro bs
  constructor
  · intro hle
    obtain ⟨a, ha⟩ := (hA bs).1 hle
    exact ⟨f a, by rw [get_iso, ha, Option.map_some]⟩
  · intro hlt
    rw [get_iso, (hA bs).2 hlt, Option.map_none]

/-! ### Variants

A value of an enumeration is the number of its variant, in one byte, and the fields of that. -/

/-- The fields of a variant, read as a value of the enumeration. -/
def via (A : Codec α) (f : α → β) (bs : List UInt8) : Option (β × List UInt8) :=
  (A.get bs).map fun r => (f r.1, r.2)

theorem via_put (A : Codec α) (f : α → β) {a : α} (h : A.Valid a) (rest : List UInt8) :
    A.via f (A.put a ++ rest) = some (f a, rest) := by
  rw [via, A.get_put rest h, Option.map_some]

theorem Strict.of_via {A : Codec α} (hA : A.Strict) {f : α → β} {bs rest : List UInt8} {b : β}
    (h : A.via f bs = some (b, rest)) : ∃ a, f a = b ∧ A.Valid a ∧ A.put a ++ rest = bs := by
  obtain ⟨⟨a, rest'⟩, ha, heq⟩ := Option.map_eq_some_iff.mp h
  obtain ⟨rfl, rfl⟩ := Prod.mk.inj heq
  exact ⟨a, rfl, hA bs a rest' ha⟩

/-- A variant without fields. -/
def unit : Codec Unit where
  put _ := []
  get bs := some ((), bs)
  Valid _ := True
  get_put _ _ := rfl

theorem strict_unit : unit.Strict := by
  rintro bs u rest h
  obtain ⟨-, rfl⟩ := Prod.mk.inj (Option.some.inj h)
  exact ⟨trivial, rfl⟩

/-- The byte of a number is that number. -/
theorem tag_eq {tag k : UInt8} (h : tag.toNat = k.toNat) : tag = k := UInt8.toNat_inj.mp h

end Codec

end Borsh
