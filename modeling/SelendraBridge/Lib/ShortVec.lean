import SelendraBridge.Lib.Borsh

/-!
# Short vectors

A length of 16 bits in one to three bytes, seven bits in each, the lowest first; a byte with its
highest bit set is followed by another. A reader insists on the shortest form and on 16 bits.

| value | bytes |
|---|---|
| below 2⁷ | one |
| below 2¹⁴ | two |
| below 2¹⁶ | three, the last below 4 |

Both the length and a vector behind it are codecs, and strict (`ShortVec.strict_length`,
`ShortVec.strict_vec`): what is read has at most 65535 elements.
-/

namespace ShortVec

open Borsh Codec

/-- The bytes of a length. -/
def putLength (n : ℕ) : List UInt8 :=
  if n < 2 ^ 7 then [UInt8.ofNat n]
  else if n < 2 ^ 14 then [UInt8.ofNat (n % 128 + 128), UInt8.ofNat (n / 128)]
  else [UInt8.ofNat (n % 128 + 128), UInt8.ofNat (n / 128 % 128 + 128), UInt8.ofNat (n / 16384)]

/-- The third byte of a length: no other follows it. -/
def getThird (a b : ℕ) : List UInt8 → Option (ℕ × List UInt8)
  | [] => none
  | c :: rest =>
    if c.toNat = 0 ∨ 4 ≤ c.toNat then none
    else some (a - 128 + 128 * (b - 128) + 16384 * c.toNat, rest)

/-- The second byte of a length. -/
def getSecond (a : ℕ) : List UInt8 → Option (ℕ × List UInt8)
  | [] => none
  | b :: rest =>
    if b.toNat = 0 then none
    else if b.toNat < 128 then some (a - 128 + 128 * b.toNat, rest)
    else getThird a b.toNat rest

/-- A length, and what follows it. -/
def getLength : List UInt8 → Option (ℕ × List UInt8)
  | [] => none
  | a :: rest => if a.toNat < 128 then some (a.toNat, rest) else getSecond a.toNat rest

theorem toNat_ofNat {n : ℕ} (h : n < 256) : (UInt8.ofNat n).toNat = n := by
  rw [UInt8.toNat_ofNat', Nat.mod_eq_of_lt h]

/-- **A length of 16 bits is read back.** -/
theorem getLength_putLength {n : ℕ} (rest : List UInt8) (h : n < 2 ^ 16) :
    getLength (putLength n ++ rest) = some (n, rest) := by
  rw [putLength]
  split
  · next h7 =>
    rw [List.singleton_append, getLength, toNat_ofNat (by omega), if_pos (by omega)]
  · next h7 =>
    split
    · next h14 =>
      rw [List.cons_append, List.singleton_append, getLength, toNat_ofNat (by omega),
        if_neg (by omega), getSecond, toNat_ofNat (by omega), if_neg (by omega), if_pos (by omega)]
      congr 2
      omega
    · next h14 =>
      rw [List.cons_append, List.cons_append, List.singleton_append, getLength,
        toNat_ofNat (by omega), if_neg (by omega), getSecond, toNat_ofNat (by omega),
        if_neg (by omega), if_neg (by omega), getThird, toNat_ofNat (by omega), if_neg (by omega)]
      congr 2
      omega

/-- A byte is spelled by its value. -/
theorem ofNat_eq {n : ℕ} {b : UInt8} (h : n = b.toNat) : UInt8.ofNat n = b := by
  rw [h, UInt8.ofNat_toNat]

/-- **What is read is the shortest form.** -/
theorem putLength_of_getLength {bs rest : List UInt8} {n : ℕ} (h : getLength bs = some (n, rest)) :
    n < 2 ^ 16 ∧ putLength n ++ rest = bs := by
  cases bs with
  | nil => cases h
  | cons a bs =>
    have ha := a.toNat_lt
    rw [getLength] at h
    split at h
    · next h7 =>
      obtain ⟨rfl, rfl⟩ := Prod.mk.inj (Option.some.inj h)
      rw [putLength, if_pos (by omega), UInt8.ofNat_toNat]
      exact ⟨by omega, rfl⟩
    · next h7 =>
      cases bs with
      | nil => cases h
      | cons b bs =>
        have hb := b.toNat_lt
        rw [getSecond, Option.ite_none_left_eq_some] at h
        obtain ⟨hzero, h⟩ := h
        split at h
        · next h14 =>
          obtain ⟨rfl, rfl⟩ := Prod.mk.inj (Option.some.inj h)
          rw [putLength, if_neg (by omega), if_pos (by omega), ofNat_eq (b := a) (by omega),
            ofNat_eq (b := b) (by omega)]
          exact ⟨by omega, rfl⟩
        · next h14 =>
          cases bs with
          | nil => cases h
          | cons c bs =>
            rw [getThird, Option.ite_none_left_eq_some, not_or] at h
            obtain ⟨⟨hc, hc'⟩, h⟩ := h
            obtain ⟨rfl, rfl⟩ := Prod.mk.inj (Option.some.inj h)
            rw [putLength, if_neg (by omega), if_neg (by omega), ofNat_eq (b := a) (by omega),
              ofNat_eq (b := b) (by omega), ofNat_eq (b := c) (by omega)]
            exact ⟨by omega, rfl⟩

/-! ### Codecs -/

/-- A length. -/
def length : Codec ℕ where
  put := putLength
  get := getLength
  Valid n := n < 2 ^ 16
  get_put := getLength_putLength

theorem strict_length : length.Strict := fun _ _ _ => putLength_of_getLength

variable {α : Type}

/-- A vector: its length, and its elements. -/
def vec (A : Codec α) : Codec (List α) where
  put as := length.put as.length ++ as.flatMap A.put
  get bs := (length.get bs).bind fun r => getMany A r.1 r.2
  Valid as := as.length < 2 ^ 16 ∧ ∀ a ∈ as, A.Valid a
  get_put {as} rest h := by
    rw [List.append_assoc, length.get_put _ h.1, Option.bind_some]
    exact getMany_put A as rest h.2

theorem strict_vec {A : Codec α} (hA : A.Strict) : (vec A).Strict := by
  rintro bs as rest h
  obtain ⟨⟨n, bs'⟩, hn, hmany⟩ := Option.bind_eq_some_iff.mp h
  obtain ⟨hlt, rfl⟩ := strict_length bs n bs' hn
  obtain ⟨rfl, hall, rfl⟩ := strict_getMany hA hmany
  exact ⟨⟨hlt, hall⟩, List.append_assoc ..⟩

end ShortVec
