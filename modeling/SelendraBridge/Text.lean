import SelendraBridge.Basic
import SelendraBridge.Lib.Hex

/-!
# Text as the store handles it

Every field of a stored record is text, and the store reads it in two ways: it
*parses* it, to recompute an identifier, and it *compares* it, to decide whether
two records are the same. Parsing drops an optional `0x` and the case of the
digits; comparing drops the case and keeps the `0x`. The lemma that ties the two
together is `SelendraBridge.lower_eq_iff`: two texts whose digits are hexadecimal
compare equal exactly when they agree on having the prefix and on their digits.
-/

namespace SelendraBridge

/-- A string, as its characters. -/
abbrev Text := List Char

/-- `s.strip_prefix("0x").unwrap_or(s)`. -/
def stripHexPrefix : Text → Text
  | '0' :: 'x' :: s => s
  | s => s

/-- Whether there is a prefix to strip. -/
def hasHexPrefix : Text → Bool
  | '0' :: 'x' :: _ => true
  | _ => false

/-- `to_ascii_lowercase`. -/
def lower (s : Text) : Text := s.map Char.toLower

/-- `eq_ignore_ascii_case`. -/
def eqIgnoreCase (s t : Text) : Bool := lower s == lower t

/-- `is_ascii_hexdigit`. -/
def isHexDigit (c : Char) : Bool := c.toLower ∈ Hex.digits

/-- `is_ascii_digit`. -/
def isDigit (c : Char) : Bool := c.isDigit

/-- `is_ascii_alphanumeric`. -/
def isAlphanumeric (c : Char) : Bool := c.isAlphanum

/-- The bytes of a value as the formatters of the store write them: `0x` and
lowercase digits. -/
def hexText (bs : Bytes) : Text := '0' :: 'x' :: Hex.encode bs

/-- A number in decimal. -/
def decimalText (n : ℕ) : Text := Nat.toDigits 10 n

theorem eqIgnoreCase_iff {s t : Text} : eqIgnoreCase s t = true ↔ lower s = lower t := by
  simp [eqIgnoreCase]

@[simp] theorem hasHexPrefix_hexText (bs : Bytes) : hasHexPrefix (hexText bs) = true := rfl

@[simp] theorem stripHexPrefix_hexText (bs : Bytes) :
    stripHexPrefix (hexText bs) = Hex.encode bs := rfl

/-- A text is its prefix and what is left of it. -/
theorem eq_of_hasHexPrefix {s : Text} (h : hasHexPrefix s = true) :
    s = '0' :: 'x' :: stripHexPrefix s := by
  unfold hasHexPrefix at h
  split at h
  · rfl
  · exact absurd h (by decide)

theorem stripHexPrefix_of_not {s : Text} (h : hasHexPrefix s = false) : stripHexPrefix s = s := by
  unfold hasHexPrefix at h
  split at h
  · exact absurd h (by decide)
  · next hne => exact stripHexPrefix.eq_2 s hne

theorem lower_of_hasHexPrefix {s : Text} (h : hasHexPrefix s = true) :
    lower s = '0' :: 'x' :: lower (stripHexPrefix s) := by
  conv_lhs => rw [eq_of_hasHexPrefix h]
  rfl

@[simp] theorem lower_hexEncode (bs : Bytes) : lower (Hex.encode bs) = Hex.encode bs :=
  Hex.map_toLower_encode bs

/-- A lowercase letter is no uppercase letter, so lowering twice lowers once. -/
theorem toLower_toLower (c : Char) : c.toLower.toLower = c.toLower := by
  delta Char.toLower
  split
  · next h =>
    have hlow : ¬((c.val + ('a'.val - 'A'.val)) ≥ 'A'.val ∧
        (c.val + ('a'.val - 'A'.val)) ≤ 'Z'.val) := by
      simp only [ge_iff_le, UInt32.le_iff_toNat_le, UInt32.toNat_add] at h ⊢
      rintro ⟨-, hz⟩
      have hA : 'A'.val.toNat = 65 := rfl
      have hZ : 'Z'.val.toNat = 90 := rfl
      have hd : ('a'.val - 'A'.val).toNat = 32 := rfl
      omega
    rw [dif_neg hlow]
  · rfl

@[simp] theorem lower_lower (s : Text) : lower (lower s) = lower s := by
  simp only [lower, List.map_map]
  exact List.map_congr_left fun c _ => toLower_toLower c

/-- The letter of the prefix is not a digit. -/
theorem ne_hexText_of_hexEncode {bs : Bytes} {s : Text} : Hex.encode bs ≠ '0' :: 'x' :: s := by
  intro h
  have hmem : 'x' ∈ Hex.encode bs := by simp [h]
  have hx : 'x' ∈ Hex.digits := Hex.mem_digits_of_mem_encode hmem
  exact absurd hx (by decide)

/-- **When two hexadecimal texts compare equal**: they agree on the prefix, and
they spell the same bytes. -/
theorem lower_eq_iff {s t : Text} {bs cs : Bytes} (hs : lower (stripHexPrefix s) = Hex.encode bs)
    (ht : lower (stripHexPrefix t) = Hex.encode cs) :
    lower s = lower t ↔ hasHexPrefix s = hasHexPrefix t ∧ bs = cs := by
  cases hps : hasHexPrefix s <;> cases hpt : hasHexPrefix t
  · rw [stripHexPrefix_of_not hps] at hs
    rw [stripHexPrefix_of_not hpt] at ht
    rw [hs, ht]
    exact ⟨fun h => ⟨rfl, Hex.encode_inj h⟩, fun h => h.2 ▸ rfl⟩
  · rw [stripHexPrefix_of_not hps] at hs
    rw [hs, lower_of_hasHexPrefix hpt]
    exact iff_of_false ne_hexText_of_hexEncode (by simp)
  · rw [stripHexPrefix_of_not hpt] at ht
    rw [ht, lower_of_hasHexPrefix hps]
    exact iff_of_false ne_hexText_of_hexEncode.symm (by simp)
  · rw [lower_of_hasHexPrefix hps, lower_of_hasHexPrefix hpt, hs, ht]
    simp only [List.cons.injEq, true_and]
    exact ⟨Hex.encode_inj, fun h => h ▸ rfl⟩

end SelendraBridge
