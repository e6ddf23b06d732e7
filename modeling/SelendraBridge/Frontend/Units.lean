import SelendraBridge.Clients.Encoders
import SelendraBridge.Lib.Decimal

/-!
# Typed amounts

An amount is typed as a decimal and sent as an integer of base units. Both ways go through text:

| | text | what happens to it |
|---|---|---|
| `parseUnits` | `12.34` | the point goes, the fraction is cut or filled up to `decimals` digits |
| `formatUnitsRaw` | the digits of the integer | a point before the last `decimals`, no zeros last |

Cutting rounds down (`SelendraBridge.Frontend.parseUnits_of_denotes`), and what is written is
read back (`SelendraBridge.Frontend.parseUnits_formatUnitsRaw`).
-/

namespace SelendraBridge

namespace Frontend

open Decimal

/-- `String.prototype.trim`. -/
def trim (s : Text) : Text := (s.dropWhile isStrWhiteSpace).rdropWhile isStrWhiteSpace

/-- `String.prototype.padStart`. -/
def padStart (n : ℕ) (c : Char) (s : Text) : Text := List.replicate (n - s.length) c ++ s

/-- Whether a text matches `^\d*\.?\d*$`. -/
def isDecimal (s : Text) : Bool :=
  match s.dropWhile Char.isDigit with
  | [] => true
  | '.' :: rest => rest.all Char.isDigit
  | _ => false

/-- `BigInt`, of a text of digits; it throws at a text of another kind, none of which come up. -/
def bigIntOfDigits (s : Text) : Option ℕ := if s.all Char.isDigit then some (value s) else none

/-- The two sides of the point; a side that is missing is empty. -/
def splitPoint (s : Text) : Text × Text :=
  match s.splitOn '.' with
  | wholeRaw :: fracRaw :: _ => (wholeRaw, fracRaw)
  | [wholeRaw] => (wholeRaw, [])
  | [] => ([], [])

/-- **`parseUnits`.** -/
def parseUnits (text : Text) (decimals : ℕ) : ℕ :=
  let s := trim text
  if s = [] ∨ isDecimal s = false then 0
  else
    let (wholeRaw, fracRaw) := splitPoint s
    let whole := if wholeRaw = [] then ['0'] else wholeRaw
    let frac := (fracRaw ++ List.replicate decimals '0').take decimals
    let digits := stripZeros (whole ++ frac)
    (bigIntOfDigits (if digits = [] then ['0'] else digits)).getD 0

/-- **`formatUnitsRaw`.** -/
def formatUnitsRaw (raw : ℤ) (decimals : ℕ) : Text :=
  let s := padStart (decimals + 1) '0' (decimalText raw.natAbs)
  let whole := s.take (s.length - decimals)
  let frac := if decimals ≠ 0 then (s.drop (s.length - decimals)).rdropWhile (· == '0') else []
  (if raw < 0 then ['-'] else []) ++ if frac ≠ [] then whole ++ '.' :: frac else whole

/-! ### The grammar -/

/-- There is no point among digits. -/
theorem notMem_of_allDigits {s : Text} (h : AllDigits s) : '.' ∉ s := fun hmem =>
  absurd (h '.' hmem) (by decide)

theorem splitPoint_digits {s : Text} (h : AllDigits s) : splitPoint s = (s, []) := by
  rw [splitPoint, List.splitOn_eq_singleton (notMem_of_allDigits h)]

theorem splitPoint_point {w f : Text} (hw : AllDigits w) (hf : AllDigits f) :
    splitPoint (w ++ '.' :: f) = (w, f) := by
  rw [splitPoint, List.splitOn_append_cons_self_of_not_mem (notMem_of_allDigits hw),
    List.splitOn_eq_singleton (notMem_of_allDigits hf)]

theorem dropWhile_digits {w : Text} (hw : AllDigits w) (s : Text) :
    (w ++ s).dropWhile Char.isDigit = s.dropWhile Char.isDigit := by
  rw [List.dropWhile_append, List.dropWhile_eq_nil_iff.mpr hw]
  rfl

/-- **The expression matches what denotes a fraction.** -/
theorem isDecimal_iff {s : Text} : isDecimal s = true ↔ ∃ v, Denotes s v := by
  constructor
  · intro h
    have hdigits : AllDigits (s.takeWhile Char.isDigit) := fun c hc => List.mem_takeWhile_imp hc
    have hsplit := List.takeWhile_append_dropWhile (p := Char.isDigit) (l := s)
    unfold isDecimal at h
    split at h
    · next hnil =>
      rw [hnil, List.append_nil] at hsplit
      rw [hsplit] at hdigits
      exact ⟨_, .inl ⟨hdigits, rfl⟩⟩
    · next rest hrest =>
      rw [hrest] at hsplit
      exact ⟨_, .inr ⟨_, rest, hsplit.symm, hdigits, List.all_eq_true.mp h, rfl⟩⟩
    · cases h
  · rintro ⟨v, ⟨hs, -⟩ | ⟨w, f, rfl, hw, hf, -⟩⟩
    · rw [isDecimal, List.dropWhile_eq_nil_iff.mpr hs]
    · rw [isDecimal, dropWhile_digits hw]
      exact List.all_eq_true.mpr hf

/-! ### Reading -/

/-- **What is read** between the trimming and the parsing: the digits before the point, and as
many behind it as there are decimals. -/
theorem parseUnits_of_split {text w f : Text} (d : ℕ) (hne : trim text ≠ [])
    (hdecimal : isDecimal (trim text) = true) (hsplit : splitPoint (trim text) = (w, f))
    (hw : AllDigits w) (hf : AllDigits f) :
    parseUnits text d = value (w ++ (f ++ List.replicate d '0').take d) := by
  have hfrac : AllDigits ((f ++ List.replicate d '0').take d) :=
    (hf.append (allDigits_replicate d)).of_subset (List.take_subset _ _)
  -- The whole part is never empty, and a zero in front of it says nothing.
  have hwhole : ∃ whole, (if w = [] then ['0'] else w) = whole ∧ whole ≠ [] ∧ AllDigits whole ∧
      ∀ s, value (whole ++ s) = value (w ++ s) := by
    split
    · next hnil =>
      refine ⟨['0'], rfl, List.cons_ne_nil _ _, allDigits_replicate 1, fun s => ?_⟩
      rw [hnil, List.singleton_append, value_cons, Nat.sub_self, Nat.mul_zero, Nat.zero_add]
      rfl
    · next hne => exact ⟨w, rfl, hne, hw, fun _ => rfl⟩
  obtain ⟨whole, heq, hne', hdigits, hvalue⟩ := hwhole
  have hall := (hdigits.append hfrac).stripZeros
  have hstrip : stripZeros (whole ++ (f ++ List.replicate d '0').take d) ≠ [] :=
    stripZeros_ne_nil (by simp [hne'])
  rw [parseUnits]
  dsimp only
  rw [if_neg (by simp [hne, hdecimal]), hsplit]
  dsimp only
  rw [heq, if_neg hstrip, bigIntOfDigits, if_pos (List.all_eq_true.mpr hall), Option.getD_some,
    value_stripZeros, hvalue]

/-- **A typed amount is rounded down.** -/
theorem parseUnits_of_denotes {text : Text} {v : ℚ} (d : ℕ) (h : Denotes (trim text) v) :
    parseUnits text d = ⌊v * 10 ^ d⌋₊ := by
  have hdecimal : isDecimal (trim text) = true := isDecimal_iff.mpr ⟨v, h⟩
  rcases h with ⟨hs, rfl⟩ | ⟨w, f, hs, hw, hf, rfl⟩
  · have hfloor := floor_eq (w := trim text) (f := []) (fun c hc => by cases hc) d
    rw [value_nil, Nat.cast_zero, zero_div, add_zero] at hfloor
    by_cases hne : trim text = []
    · rw [parseUnits, if_pos (.inl hne), hne]
      simp
    · rw [hfloor]
      exact parseUnits_of_split d hne hdecimal (splitPoint_digits hs) hs fun c hc => by cases hc
  · rw [floor_eq hf]
    refine parseUnits_of_split d (by rw [hs]; simp) hdecimal ?_ hw hf
    rw [hs, splitPoint_point hw hf]

/-- **Any other text is no amount.** -/
theorem parseUnits_of_not {text : Text} (d : ℕ) (h : ¬∃ v, Denotes (trim text) v) :
    parseUnits text d = 0 := by
  rw [← isDecimal_iff, Bool.not_eq_true] at h
  rw [parseUnits, if_pos (.inr h)]

/-! ### Writing -/

/-- A text between two characters that are no white space stays as it is. -/
theorem trim_eq_self {s : Text} (h : ∀ c ∈ s, isStrWhiteSpace c = false) : trim s = s := by
  rw [trim, List.dropWhile_eq_self_iff.mpr fun hpos => by simp [h _ (List.getElem_mem hpos)],
    List.rdropWhile_eq_self_iff.mpr fun hne => by simp [h _ (List.getLast_mem hne)]]

/-- Digits are no white space. -/
theorem isStrWhiteSpace_digit {c : Char} (h : c.isDigit = true) : isStrWhiteSpace c = false := by
  simp only [Char.isDigit, Bool.and_eq_true, decide_eq_true_eq, UInt32.le_iff_toNat_le, ge_iff_le,
    Char.toNat_val] at h
  have hzero : '0'.toNat = 48 := rfl
  have hnine : '9'.toNat = 57 := rfl
  simp only [isStrWhiteSpace, Bool.or_eq_false_iff, Bool.and_eq_false_iff, decide_eq_false_iff_not,
    beq_eq_false_iff_ne]
  omega

/-- The digits of an integer, filled up: they spell it, and one of them is before the point. -/
theorem padStart_spec (x d : ℕ) :
    AllDigits (padStart (d + 1) '0' (decimalText x)) ∧
      value (padStart (d + 1) '0' (decimalText x)) = x ∧
      d + 1 ≤ (padStart (d + 1) '0' (decimalText x)).length := by
  refine ⟨(allDigits_replicate _).append (allDigits_toDigits x), ?_, ?_⟩
  · rw [padStart, value_append, value_replicate_zero, Nat.mul_zero, Nat.zero_add]
    exact value_toDigits x
  · rw [padStart, List.length_append, List.length_replicate]
    omega

/-- **What is written denotes the integer, with its point shifted.** -/
theorem denotes_formatUnitsRaw (x d : ℕ) :
    (∀ c ∈ formatUnitsRaw x d, isStrWhiteSpace c = false) ∧
      Denotes (formatUnitsRaw x d) ((x : ℚ) / 10 ^ d) := by
  obtain ⟨hdigits, hvalue, hlen⟩ := padStart_spec x d
  set s := padStart (d + 1) '0' (decimalText x) with hs
  have hformat : formatUnitsRaw x d =
      if (if d ≠ 0 then (s.drop (s.length - d)).rdropWhile (· == '0') else []) ≠ [] then
        s.take (s.length - d) ++ '.' ::
          (if d ≠ 0 then (s.drop (s.length - d)).rdropWhile (· == '0') else [])
      else s.take (s.length - d) := by
    rw [formatUnitsRaw, Int.natAbs_natCast, if_neg (by omega), List.nil_append, ← hs]
  -- The digits behind the point, with and without the zeros at their end.
  have htake : AllDigits (s.take (s.length - d)) := hdigits.of_subset (List.take_subset _ _)
  have hdrop : AllDigits (s.drop (s.length - d)) := hdigits.of_subset (List.drop_subset _ _)
  have hdroplen : (s.drop (s.length - d)).length = d := by
    rw [List.length_drop]
    omega
  have hsplit : 10 ^ d * value (s.take (s.length - d)) + value (s.drop (s.length - d)) = x := by
    have happend := value_append (s.take (s.length - d)) (s.drop (s.length - d))
    rw [List.take_append_drop, hdroplen, hvalue] at happend
    exact happend.symm
  have hzeros := rdropWhile_append_replicate (s.drop (s.length - d))
  set kept := (s.drop (s.length - d)).rdropWhile (· == '0') with hkept
  have hfront : kept <+: s.drop (s.length - d) := List.rdropWhile_prefix ..
  have hkeptDigits : AllDigits kept := hdrop.of_subset hfront.subset
  have hkeptLen : kept.length ≤ d := by
    rw [← hdroplen]
    exact hfront.length_le
  have hfrac : value (s.drop (s.length - d)) = 10 ^ (d - kept.length) * value kept := by
    rw [hzeros, value_append, List.length_replicate, value_replicate_zero, Nat.add_zero, hdroplen]
  have hpow : (10 : ℚ) ^ (d - kept.length) * 10 ^ kept.length = 10 ^ d := by
    rw [← pow_add, Nat.sub_add_cancel hkeptLen]
  have hx : (x : ℚ) / 10 ^ d =
      value (s.take (s.length - d)) + (value kept : ℚ) / 10 ^ kept.length := by
    rw [← hsplit, hfrac, ← hpow]
    push_cast
    rw [← hpow]
    field_simp
  by_cases hnil : kept = []
  · have hwhole : formatUnitsRaw x d = s.take (s.length - d) := by
      rw [hformat, if_neg]
      rw [hnil, ite_self]
      simp
    rw [hwhole]
    refine ⟨fun c hc => isStrWhiteSpace_digit (htake c hc), .inl ⟨htake, ?_⟩⟩
    rw [hx, hnil, value_nil, Nat.cast_zero, zero_div, add_zero]
  · have hd : d ≠ 0 := by
      rintro rfl
      exact hnil (List.length_eq_zero_iff.mp (by omega))
    have hpoint : formatUnitsRaw x d = s.take (s.length - d) ++ '.' :: kept := by
      rw [hformat, if_pos hd, if_pos hnil]
    rw [hpoint]
    refine ⟨?_, .inr ⟨_, kept, rfl, htake, hkeptDigits, hx⟩⟩
    intro c hc
    rcases List.mem_append.mp hc with hc | hc
    · exact isStrWhiteSpace_digit (htake c hc)
    · rcases List.mem_cons.mp hc with rfl | hc
      · decide
      · exact isStrWhiteSpace_digit (hkeptDigits c hc)

/-- **What is written is read back.** -/
theorem parseUnits_formatUnitsRaw (x d : ℕ) : parseUnits (formatUnitsRaw x d) d = x := by
  obtain ⟨hspace, hdenotes⟩ := denotes_formatUnitsRaw x d
  rw [← trim_eq_self hspace] at hdenotes
  rw [parseUnits_of_denotes d hdenotes, div_mul_cancel₀ _ (by positivity), Nat.floor_natCast]

/-! ### The result -/

/-- **Typed amounts are never rounded up or misplaced.** -/
theorem typed_amounts :
    (∀ text d v, Denotes (trim text) v → parseUnits text d = ⌊v * 10 ^ d⌋₊) ∧
    (∀ text d, (¬∃ v, Denotes (trim text) v) → parseUnits text d = 0) ∧
    (∀ s t d v w, Denotes (trim s) v → Denotes (trim t) w → v ≤ w →
      parseUnits s d ≤ parseUnits t d) ∧
    ∀ x d, parseUnits (formatUnitsRaw (x : ℕ) d) d = x := by
  refine ⟨fun text d v => parseUnits_of_denotes d, fun text d => parseUnits_of_not d, ?_,
    parseUnits_formatUnitsRaw⟩
  intro s t d v w hs ht hle
  rw [parseUnits_of_denotes d hs, parseUnits_of_denotes d ht]
  exact Nat.floor_le_floor (mul_le_mul_of_nonneg_right hle (by positivity))

end Frontend

end SelendraBridge
