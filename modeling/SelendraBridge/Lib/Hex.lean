import Mathlib.Data.List.Basic
import Mathlib.Data.List.GetD
import Mathlib.Tactic.Common
import Mathlib.Tactic.IntervalCases

/-!
# Hexadecimal text

Two lowercase digits per byte one way, and digits of either case back. Decoding
is characterized by encoding (`Hex.decode_eq_some_iff`): a text decodes to some
bytes exactly when it is their encoding up to the case of its letters.
-/

namespace Hex

/-- The digits, in the order of their values. -/
def digits : List Char :=
  ['0', '1', '2', '3', '4', '5', '6', '7', '8', '9', 'a', 'b', 'c', 'd', 'e', 'f']

/-- The digit of a value below 16. -/
def digit (n : ℕ) : Char := digits.getD n '0'

/-- The value of a digit, of either case. -/
def value (c : Char) : Option ℕ := digits.idxOf? c.toLower

/-- Two lowercase digits per byte. -/
def encode (bs : List UInt8) : List Char :=
  bs.flatMap fun b => [digit (b.toNat / 16), digit (b.toNat % 16)]

/-- Two digits of either case per byte; `none` on an odd length or another
character. -/
def decode : List Char → Option (List UInt8)
  | [] => some []
  | [_] => none
  | h :: l :: s => do
    let a ← value h
    let b ← value l
    let bs ← decode s
    return UInt8.ofNat (16 * a + b) :: bs

theorem value_eq_some_iff {c : Char} {n : ℕ} :
    value c = some n ↔ n < 16 ∧ c.toLower = digit n := by
  unfold value
  generalize c.toLower = d
  constructor
  · intro h
    rw [List.idxOf?_eq_some_iff] at h
    obtain ⟨hn, hd, -⟩ := h
    refine ⟨hn, ?_⟩
    rw [digit, List.getD_eq_getElem _ _ hn]
    simpa using hd.symm
  · rintro ⟨hn, rfl⟩
    interval_cases n <;> rfl

@[simp] theorem encode_nil : encode [] = [] := rfl

@[simp] theorem encode_cons (b : UInt8) (bs : List UInt8) :
    encode (b :: bs) = digit (b.toNat / 16) :: digit (b.toNat % 16) :: encode bs := rfl

@[simp] theorem encode_append (as bs : List UInt8) : encode (as ++ bs) = encode as ++ encode bs :=
  List.flatMap_append

@[simp] theorem encode_replicate_zero (n : ℕ) :
    encode (List.replicate n 0) = List.replicate (2 * n) '0' := by
  induction n with
  | zero => rfl
  | succ n ih =>
    rw [List.replicate_succ, encode_cons, ih, Nat.mul_succ, List.replicate_succ,
      List.replicate_succ]
    rfl

theorem length_encode (bs : List UInt8) : (encode bs).length = 2 * bs.length := by
  induction bs with
  | nil => rfl
  | cons b bs ih => simp only [encode_cons, List.length_cons, ih]; omega

/-- An encoding has lowercase digits only. -/
theorem mem_digits_of_mem_encode {bs : List UInt8} {c : Char} (h : c ∈ encode bs) :
    c ∈ digits := by
  have hdigit : ∀ n : ℕ, n < 16 → digit n ∈ digits := by
    intro n hn
    rw [digit, List.getD_eq_getElem _ _ hn]
    exact List.getElem_mem hn
  rw [encode, List.mem_flatMap] at h
  obtain ⟨b, -, hc⟩ := h
  have hb := b.toNat_lt
  simp only [List.mem_cons, List.not_mem_nil, or_false] at hc
  rcases hc with rfl | rfl
  · exact hdigit _ (by omega)
  · exact hdigit _ (by omega)

/-- **Decoding is encoding up to case.** -/
theorem decode_eq_some_iff {s : List Char} {bs : List UInt8} :
    decode s = some bs ↔ s.map Char.toLower = encode bs := by
  induction s using decode.induct generalizing bs with
  | case1 =>
    cases bs with
    | nil => simp [decode]
    | cons b bs => simp [decode]
  | case2 c =>
    cases bs with
    | nil => simp [decode]
    | cons b bs => simp [decode]
  | case3 h l s ih =>
    simp only [decode, Option.bind_eq_bind, Option.bind_eq_some_iff, Option.pure_def,
      Option.some.injEq, List.map_cons, value_eq_some_iff]
    constructor
    · rintro ⟨a, ⟨ha, hh⟩, b, ⟨hb, hl⟩, bs', hs, rfl⟩
      have hval : (UInt8.ofNat (16 * a + b)).toNat = 16 * a + b := by
        rw [UInt8.toNat_ofNat', Nat.mod_eq_of_lt (by omega)]
      rw [encode_cons, hval, hh, hl, ih.mp hs]
      rw [show (16 * a + b) / 16 = a by omega, show (16 * a + b) % 16 = b by omega]
    · intro heq
      cases bs with
      | nil => simp at heq
      | cons b bs =>
        rw [encode_cons, List.cons.injEq, List.cons.injEq] at heq
        obtain ⟨hh, hl, hs⟩ := heq
        have hb := b.toNat_lt
        refine ⟨b.toNat / 16, ⟨by omega, hh⟩, b.toNat % 16, ⟨by omega, hl⟩, bs, ih.mpr hs, ?_⟩
        congr 1
        rw [show 16 * (b.toNat / 16) + b.toNat % 16 = b.toNat by omega, UInt8.ofNat_toNat]

@[simp] theorem map_toLower_encode (bs : List UInt8) :
    (encode bs).map Char.toLower = encode bs := by
  have hall : (digits.all fun c => c.toLower == c) = true := by decide
  have hlow : ∀ c ∈ digits, c.toLower = c := fun c hc => eq_of_beq (List.all_eq_true.mp hall c hc)
  exact (List.map_congr_left fun c hc => hlow c (mem_digits_of_mem_encode hc)).trans
    (List.map_id _)

theorem decode_encode (bs : List UInt8) : decode (encode bs) = some bs :=
  decode_eq_some_iff.mpr (map_toLower_encode bs)

/-- **Lowercase digits, two by two, are an encoding.** -/
theorem exists_encode {s : List Char} (hdigits : ∀ c ∈ s, c ∈ digits) (heven : s.length % 2 = 0) :
    ∃ bs, encode bs = s := by
  have hall : (digits.all fun c => (value c).isSome && c.toLower == c) = true := by decide
  have hvalue : ∀ c ∈ digits, (value c).isSome = true ∧ c.toLower = c := fun c hc => by
    have h := List.all_eq_true.mp hall c hc
    rw [Bool.and_eq_true, beq_iff_eq] at h
    exact h
  have hsome : (decode s).isSome = true := by
    induction s using decode.induct with
    | case1 => rfl
    | case2 c => simp at heven
    | case3 h l s ih =>
      rw [List.length_cons, List.length_cons] at heven
      obtain ⟨a, ha⟩ := Option.isSome_iff_exists.mp (hvalue h (hdigits h (by simp))).1
      obtain ⟨b, hb⟩ := Option.isSome_iff_exists.mp (hvalue l (hdigits l (by simp))).1
      obtain ⟨bs, hbs⟩ := Option.isSome_iff_exists.mp
        (ih (fun c hc => hdigits c (by simp [hc])) (by omega))
      rw [decode, ha, hb, hbs]
      rfl
  obtain ⟨bs, hbs⟩ := Option.isSome_iff_exists.mp hsome
  refine ⟨bs, ?_⟩
  rw [← decode_eq_some_iff.mp hbs]
  exact (List.map_congr_left fun c hc => (hvalue c (hdigits c hc)).2).trans (List.map_id _)

/-- **An encoding determines its bytes.** -/
theorem encode_inj {bs cs : List UInt8} (h : encode bs = encode cs) : bs = cs := by
  have h' := congrArg decode h
  rwa [decode_encode, decode_encode, Option.some.injEq] at h'

end Hex
