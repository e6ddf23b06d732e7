import SelendraBridge.Basic
import SelendraBridge.Lib.Radix
import SelendraBridge.Lib.Revert
import SelendraBridge.Text

/-!
# Base58

The keys of the other machine are written in base 58: a string of bytes is a string of digits in
base 256, and its text is the same string in base 58, in the sense of `Radix.recode` – a zero
byte in front is a `1` in front (`SelendraBridge.Frontend.base58`).

The browser converts digit by digit, both ways. What it decodes are the bytes that have the text
(`SelendraBridge.Frontend.b58decode_eq_ok`), and what it encodes is their text, if there are any
(`SelendraBridge.Frontend.b58encode_eq`).
-/

namespace SelendraBridge

namespace Frontend

open Revert

/-- The digits. -/
def B58 : Text :=
  ['1', '2', '3', '4', '5', '6', '7', '8', '9', 'A', 'B', 'C', 'D', 'E', 'F', 'G', 'H', 'J', 'K',
   'L', 'M', 'N', 'P', 'Q', 'R', 'S', 'T', 'U', 'V', 'W', 'X', 'Y', 'Z', 'a', 'b', 'c', 'd', 'e',
   'f', 'g', 'h', 'i', 'j', 'k', 'm', 'n', 'o', 'p', 'q', 'r', 's', 't', 'u', 'v', 'w', 'x', 'y',
   'z']

/-- `b58encode`. -/
def b58encode (bytes : Bytes) : Text :=
  let digits := Radix.convert 58 256 (bytes.map UInt8.toNat)
  let out := List.replicate (bytes.takeWhile (· == 0)).length '1'
  let out := out ++ digits.reverse.map fun d => B58.getD d '1'
  if out = [] then ['1'] else out

/-- The value of a digit; what is thrown is the character. -/
def b58digit (ch : Char) : Except Char ℕ :=
  match B58.idxOf? ch with
  | some v => .ok v
  | none => .error ch

/-- `b58decode`. -/
def b58decode (s : Text) : Except Char Bytes := do
  let values ← s.mapM b58digit
  let bytes := Radix.convert 256 58 values
  let zeros := (s.takeWhile (· == '1')).length
  return List.replicate zeros 0 ++ bytes.reverse.map UInt8.ofNat

/-- **The base58 text of some bytes.** -/
def base58 (bytes : Bytes) : Text :=
  (Radix.recode 256 58 (bytes.map UInt8.toNat)).map fun d => B58.getD d '1'

/-- **The bytes of a base58 text.** -/
def base58Bytes (s : Text) : Bytes :=
  (Radix.recode 58 256 (s.map fun ch => B58.idxOf ch)).map UInt8.ofNat

/-! ### Digits -/

theorem b58digit_eq_ok {ch : Char} {v : ℕ} :
    b58digit ch = .ok v ↔ v < 58 ∧ B58.getD v '1' = ch := by
  have hlen : B58.length = 58 := rfl
  have hcases : b58digit ch = .ok v ↔ B58.idxOf? ch = some v := by
    unfold b58digit
    split
    · next w hw => rw [hw, Except.ok.injEq, Option.some.injEq]
    · next hnone => simp [hnone]
  rw [hcases, List.idxOf?_eq_some_iff]
  constructor
  · rintro ⟨hv, hch, -⟩
    rw [hlen] at hv
    refine ⟨hv, ?_⟩
    rw [List.getD_eq_getElem _ _ (by omega)]
    simpa using hch
  · rintro ⟨hv, rfl⟩
    have hnodup : B58.Nodup := by decide
    refine ⟨by omega, ?_, fun j hj => ?_⟩
    · rw [List.getD_eq_getElem _ _ (by omega)]
    · rw [List.getD_eq_getElem _ _ (by omega)]
      intro heq
      exact absurd (hnodup.getElem_inj_iff.mp heq) (by omega)

/-- The values of a text are digits that spell it. -/
theorem mapM_b58digit {s : Text} {values : List ℕ} : s.mapM b58digit = .ok values ↔
    (∀ v ∈ values, v < 58) ∧ values.map (fun d => B58.getD d '1') = s := by
  induction s generalizing values with
  | nil =>
    rw [List.mapM_nil, pure_eq_ok, List.map_eq_nil_iff]
    constructor
    · rintro rfl
      exact ⟨by simp, rfl⟩
    · rintro ⟨-, rfl⟩
      rfl
  | cons ch s ih =>
    simp only [List.mapM_cons, bind_eq_ok, pure_eq_ok, b58digit_eq_ok, ih]
    constructor
    · rintro ⟨v, ⟨hv, hch⟩, vs, ⟨hvs, hs⟩, rfl⟩
      rw [List.map_cons, hch, hs]
      exact ⟨List.forall_mem_cons.mpr ⟨hv, hvs⟩, rfl⟩
    · rintro ⟨hall, hmap⟩
      obtain ⟨v, vs, rfl, hch, hs⟩ := List.map_eq_cons_iff.mp hmap
      obtain ⟨hv, hvs⟩ := List.forall_mem_cons.mp hall
      exact ⟨v, ⟨hv, hch⟩, vs, ⟨hvs, hs⟩, rfl⟩

/-- Only the zero is written as a `1`. -/
theorem takeWhile_one {values : List ℕ} (h : ∀ v ∈ values, v < 58) :
    ((values.map fun d => B58.getD d '1').takeWhile (· == '1')).length = Radix.zeros values := by
  have hone : ∀ d < 58, (B58.getD d '1' == '1') = (d == 0) := by decide
  induction values with
  | nil => rfl
  | cons v values ih =>
    obtain ⟨hv, hvs⟩ := List.forall_mem_cons.mp h
    rw [Radix.zeros, List.map_cons, List.takeWhile_cons, List.takeWhile_cons, hone v hv]
    split
    · rw [List.length_cons, List.length_cons, ih hvs, Radix.zeros]
    · rfl

/-- Only the zero byte is a zero. -/
theorem takeWhile_zero (bytes : Bytes) :
    (bytes.takeWhile (· == 0)).length = Radix.zeros (bytes.map UInt8.toNat) := by
  have hzero : ∀ b : UInt8, (b == 0) = (b.toNat == 0) := fun b => by
    rw [Bool.eq_iff_iff, beq_iff_eq, beq_iff_eq, ← UInt8.toNat_inj]
    rfl
  rw [Radix.zeros, List.takeWhile_map, List.length_map]
  congr 2
  funext b
  exact hzero b

/-- The numbers of bytes are bytes. -/
theorem toNat_lt_of_mem {bytes : Bytes} : ∀ d ∈ bytes.map UInt8.toNat, d < 256 := by
  intro d hd
  obtain ⟨b, -, rfl⟩ := List.mem_map.mp hd
  exact b.toNat_lt

theorem map_ofNat_map_toNat (bytes : Bytes) : (bytes.map UInt8.toNat).map UInt8.ofNat = bytes := by
  rw [List.map_map]
  exact (List.map_congr_left fun b _ => UInt8.ofNat_toNat).trans (List.map_id _)

theorem map_toNat_map_ofNat {ds : List ℕ} (h : ∀ d ∈ ds, d < 256) :
    (ds.map UInt8.ofNat).map UInt8.toNat = ds := by
  rw [List.map_map]
  refine (List.map_congr_left fun d hd => ?_).trans (List.map_id _)
  exact UInt8.toNat_ofNat_of_lt' (h d hd)

/-! ### Both ways -/

/-- What is decoded, from the values of the digits. -/
theorem b58decode_values {s : Text} {values : List ℕ} (h : s.mapM b58digit = .ok values) :
    b58decode s = .ok ((Radix.recode 58 256 values).map UInt8.ofNat) := by
  obtain ⟨hlt, hs⟩ := mapM_b58digit.mp h
  have hzeros : (s.takeWhile (· == '1')).length = Radix.zeros values := by
    rw [← hs]
    exact takeWhile_one hlt
  have hconvert := Radix.convert_eq (b := 256) (r := 58) (by omega) (by omega) values
  rw [b58decode, h, ok_bind]
  dsimp only
  rw [hconvert, hzeros, Radix.recode, Radix.ofPair, Radix.toPair, List.map_append,
    List.map_replicate]
  rfl

/-- **The bytes that are decoded are those that have the text.** -/
theorem b58decode_eq_ok {s : Text} {bytes : Bytes} :
    b58decode s = .ok bytes ↔ s = base58 bytes := by
  constructor
  · intro h
    obtain ⟨values, hvalues, -⟩ := bind_eq_ok.mp h
    obtain ⟨hlt, hs⟩ := mapM_b58digit.mp hvalues
    rw [b58decode_values hvalues, Except.ok.injEq] at h
    have hrecode : ∀ d ∈ Radix.recode 58 256 values, d < 256 := fun d hd =>
      Radix.lt_of_mem_recode (by omega) hd
    rw [base58, ← h, map_toNat_map_ofNat hrecode, Radix.recode_recode (by omega) hlt, hs]
  · rintro rfl
    have hvalues : (base58 bytes).mapM b58digit =
        .ok (Radix.recode 256 58 (bytes.map UInt8.toNat)) :=
      mapM_b58digit.mpr ⟨fun d hd => Radix.lt_of_mem_recode (by omega) hd, rfl⟩
    rw [b58decode_values hvalues, Radix.recode_recode (by omega) toNat_lt_of_mem,
      map_ofNat_map_toNat]

/-- **What is encoded is the text**, if there are any bytes; no bytes are written as a `1`. -/
theorem b58encode_eq {bytes : Bytes} (h : bytes ≠ []) : b58encode bytes = base58 bytes := by
  have hconvert := Radix.convert_eq (b := 58) (r := 256) (by omega) (by omega)
    (bytes.map UInt8.toNat)
  have hbase : base58 bytes = List.replicate (bytes.takeWhile (· == 0)).length '1' ++
      (Radix.convert 58 256 (bytes.map UInt8.toNat)).reverse.map fun d => B58.getD d '1' := by
    rw [base58, Radix.recode, Radix.ofPair, Radix.toPair, hconvert, takeWhile_zero,
      List.map_append, List.map_replicate]
    rfl
  have hne : base58 bytes ≠ [] := by
    intro hnil
    have hdecode := b58decode_eq_ok.mpr (rfl : base58 bytes = base58 bytes)
    rw [hnil] at hdecode
    exact h (Except.ok.inj hdecode).symm
  rw [b58encode, ← hbase, if_neg hne]

/-- Different bytes have different texts. -/
theorem base58_inj {as bs : Bytes} (h : base58 as = base58 bs) : as = bs :=
  Except.ok.inj ((b58decode_eq_ok.mpr rfl).symm.trans (b58decode_eq_ok.mpr h))

/-- The text of some bytes is the text of those. -/
theorem base58Bytes_base58 (bytes : Bytes) : base58Bytes (base58 bytes) = bytes := by
  have hindex : ∀ d < 58, B58.idxOf (B58.getD d '1') = d := by decide
  have hvalues : (base58 bytes).map (fun ch => B58.idxOf ch) =
      Radix.recode 256 58 (bytes.map UInt8.toNat) := by
    rw [base58, List.map_map]
    refine (List.map_congr_left fun d hd => ?_).trans (List.map_id _)
    exact hindex d (Radix.lt_of_mem_recode (by omega) hd)
  rw [base58Bytes, hvalues, Radix.recode_recode (by omega) toNat_lt_of_mem, map_ofNat_map_toNat]

end Frontend

end SelendraBridge
