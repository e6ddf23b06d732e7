import Mathlib.Data.Int.Bitwise
import SelendraBridge.Frontend.Base58

/-!
# The loops of base58, in the numbers of the browser

The browser's operators on bits first make a 32-bit integer of whatever number they get, so they
compute something else once a number is too large. Both loops of base58 use them for what is
carried from digit to digit:

| | `b58encode` | `b58decode` |
|:--|:--|:--|
| what a digit adds | `digits[i] << 8` | `bytes[i] * 58` |
| the digit that stays | `carry % 58` | `carry & 0xff` |
| what is carried | `(carry / 58) \| 0` | `carry >>= 8` |

What is carried is less than 256 in one and less than 58 in the other, however long the input is.
So no number in the loops is ever too large
(`SelendraBridge.Frontend.Base58Loops.Digits.Exact.sweep`), they compute what they would without a
width (`SelendraBridge.Frontend.Base58Loops.b58encode_eq`,
`SelendraBridge.Frontend.Base58Loops.b58decode_eq_ok`), and undo each other
(`SelendraBridge.Frontend.Base58Loops.base58_bijective`).
-/

namespace SelendraBridge

namespace Frontend

namespace Base58Loops

open Revert

/-- A number as an integer of 32 bits. -/
def toInt32 (x : ℤ) : ℤ := x.bmod 4294967296

theorem toInt32_le {x : ℤ} (h : 0 ≤ x) : toInt32 x ≤ x := by
  have hmod : x % 4294967296 ≤ x := by omega
  rw [toInt32, Int.bmod_def]
  split <;> omega

theorem toInt32_eq {x : ℤ} (h₀ : 0 ≤ x) (h : x < 2147483648) : toInt32 x = x :=
  Int.bmod_eq_of_le (by omega) (by omega)

/-! ### The loops -/

/-- **How a loop treats a digit**: what it adds to the carry, what stays, and what is carried on. -/
structure Digits where
  add : ℤ → ℤ
  stay : ℤ → ℤ
  carry : ℤ → ℤ
  /-- What is carried on is less each time. -/
  carry_lt : ∀ {x}, 0 < x → carry x < x

/-- What a loop leaves: the digits, lowest first, and all numbers that it came upon. -/
structure Trace where
  digits : List ℤ
  numbers : List ℤ

namespace Digits

variable (D : Digits)

/-- The loop over the digits there are, and the carry behind it. -/
def sweep : List ℤ → ℤ → Trace × ℤ
  | [], carry => (⟨[], []⟩, carry)
  | d :: ds, carry =>
    let sum := carry + D.add d
    let rest := sweep ds (D.carry sum)
    (⟨D.stay sum :: rest.1.digits, carry :: d :: sum :: rest.1.numbers⟩, rest.2)

/-- The loop that makes new digits of the carry, as long as there is one. -/
def push (carry : ℤ) : Trace :=
  if 0 < carry then
    let rest := push (D.carry carry)
    ⟨D.stay carry :: rest.digits, carry :: rest.numbers⟩
  else ⟨[], [carry]⟩
termination_by carry.toNat
decreasing_by
  have hlt := D.carry_lt ‹0 < carry›
  omega

/-- What comes of one digit of the input. -/
def step (t : Trace) (digit : ℤ) : Trace :=
  let swept := D.sweep t.digits digit
  let pushed := D.push swept.2
  ⟨swept.1.digits ++ pushed.digits, t.numbers ++ (swept.1.numbers ++ pushed.numbers)⟩

/-- The whole input. -/
def run (input : List ℤ) : Trace := input.foldl D.step ⟨[], []⟩

end Digits

/-- The loops of `b58encode`. -/
def encoding : Digits where
  add d := toInt32 (toInt32 d * 256)
  stay sum := sum.tmod 58
  carry sum := toInt32 (sum.tdiv 58)
  carry_lt {x} h := by
    have hdiv : x.tdiv 58 = x / 58 := Int.tdiv_eq_ediv_of_nonneg (by omega)
    have hle := toInt32_le (x := x.tdiv 58) (by omega)
    omega

/-- The loops of `b58decode`. -/
def decoding : Digits where
  add d := d * 58
  stay sum := toInt32 sum % 256
  carry sum := toInt32 sum / 256
  carry_lt {x} h := by
    have hle := toInt32_le (x := x) (by omega)
    omega

/-- `b58encode`, and the numbers that it came upon. -/
def b58encode (bytes : Bytes) : Text × List ℤ :=
  let t := encoding.run (bytes.map fun byte => (byte.toNat : ℤ))
  let out := List.replicate (bytes.takeWhile (· == 0)).length '1'
  let out := out ++ t.digits.reverse.map fun d => B58.getD d.toNat '1'
  (if out = [] then ['1'] else out, t.numbers)

/-- `b58decode`, and the numbers that it came upon. -/
def b58decode (s : Text) : Except Char (Bytes × List ℤ) := do
  let t ← s.foldlM (fun t ch => (b58digit ch).map fun v : ℕ => decoding.step t v) ⟨[], []⟩
  let zeros := (s.takeWhile (· == '1')).length
  return (List.replicate zeros 0 ++ t.digits.reverse.map fun d => UInt8.ofNat (d % 256).toNat,
    t.numbers)

/-! ### No number is too large -/

/-- In the range of the operators on bits. -/
def InRange (x : ℤ) : Prop := 0 ≤ x ∧ x < 2147483648

/-- **Digits in base `b`, times `r`**: this is what a loop computes with numbers that are not too
large. -/
structure Digits.Exact (D : Digits) (b r : ℕ) : Prop where
  base : 1 < b
  factor : 0 < r
  room : b * r ≤ 2147483648
  add : ∀ d : ℕ, d < b → D.add d = (d * r : ℕ)
  stay : ∀ n : ℕ, n < 2147483648 → D.stay n = (n % b : ℕ)
  carry : ∀ n : ℕ, n < 2147483648 → D.carry n = (n / b : ℕ)

theorem encoding_exact : encoding.Exact 58 256 where
  base := by omega
  factor := by omega
  room := by omega
  add d hd := by
    have hdigit : toInt32 (d : ℤ) = d := toInt32_eq (by omega) (by omega)
    have hshift : toInt32 ((d : ℤ) * 256) = d * 256 := toInt32_eq (by omega) (by omega)
    simp only [encoding, hdigit, hshift, Nat.cast_mul, Nat.cast_ofNat]
  stay n _ := by
    have hmod : (n : ℤ).tmod 58 = (n : ℤ) % 58 := Int.tmod_eq_emod_of_nonneg (by omega)
    simp only [encoding, hmod, Int.natCast_mod, Nat.cast_ofNat]
  carry n hn := by
    have hdiv : (n : ℤ).tdiv 58 = (n : ℤ) / 58 := Int.tdiv_eq_ediv_of_nonneg (by omega)
    have hquot : toInt32 ((n : ℤ) / 58) = (n : ℤ) / 58 := toInt32_eq (by omega) (by omega)
    simp only [encoding, hdiv, hquot, Int.natCast_ediv, Nat.cast_ofNat]

theorem decoding_exact : decoding.Exact 256 58 where
  base := by omega
  factor := by omega
  room := by omega
  add d _ := by simp only [decoding, Nat.cast_mul, Nat.cast_ofNat]
  stay n hn := by
    have hsum : toInt32 (n : ℤ) = n := toInt32_eq (by omega) (by omega)
    simp only [decoding, hsum, Int.natCast_mod, Nat.cast_ofNat]
  carry n hn := by
    have hsum : toInt32 (n : ℤ) = n := toInt32_eq (by omega) (by omega)
    simp only [decoding, hsum, Int.natCast_ediv, Nat.cast_ofNat]

namespace Digits.Exact

variable {D : Digits} {b r : ℕ}

/-- The digits of a carry. -/
theorem push (h : D.Exact b r) {n : ℕ} (hn : n < 2147483648) :
    (D.push n).digits = (Nat.digits b n).map Nat.cast ∧ ∀ x ∈ (D.push n).numbers, InRange x := by
  induction n using Nat.strongRecOn with
  | ind n ih =>
    rw [Digits.push]
    rcases Nat.eq_zero_or_pos n with rfl | hpos
    · rw [if_neg (by omega), Nat.digits_zero]
      exact ⟨rfl, by simp [InRange]⟩
    · have hdiv : n / b < n := Nat.div_lt_self hpos h.base
      obtain ⟨hdigits, hrange⟩ := ih (n / b) hdiv (hdiv.trans hn)
      rw [if_pos (by omega), h.stay n hn, h.carry n hn, Nat.digits_def' h.base hpos, List.map_cons]
      dsimp only
      rw [hdigits]
      exact ⟨rfl, List.forall_mem_cons.mpr ⟨⟨by omega, by omega⟩, hrange⟩⟩

/-- **One digit of the input**: the digits so far times `r`, plus that digit. What is carried stays
below `r`. -/
theorem sweep (h : D.Exact b r) {ds : List ℕ} (hds : ∀ d ∈ ds, d < b) {n : ℕ} (hn : n < r) :
    (D.sweep (ds.map Nat.cast) n).1.digits ++ (D.push (D.sweep (ds.map Nat.cast) n).2).digits =
        (Radix.mulAdd b r ds n).map Nat.cast ∧
      ∀ x ∈ (D.sweep (ds.map Nat.cast) n).1.numbers ++
        (D.push (D.sweep (ds.map Nat.cast) n).2).numbers, InRange x := by
  have hroom := h.room
  have hbase := h.base
  induction ds generalizing n with
  | nil =>
    have hle : r ≤ b * r := Nat.le_mul_of_pos_left r (by omega)
    exact h.push (by omega)
  | cons d ds ih =>
    obtain ⟨hd, hrest⟩ := List.forall_mem_cons.mp hds
    have hmul : (d + 1) * r ≤ b * r := Nat.mul_le_mul_right r hd
    rw [Nat.succ_mul] at hmul
    have hsum : n + d * r < b * r := by omega
    have hcarry : (n + d * r) / b < r := Nat.div_lt_of_lt_mul hsum
    obtain ⟨hdigits, hrange⟩ := ih hrest hcarry
    have hcast : (n : ℤ) + ((d * r : ℕ) : ℤ) = ((n + d * r : ℕ) : ℤ) := by push_cast; rfl
    simp only [List.map_cons, Digits.sweep, Radix.mulAdd, h.add d hd, hcast,
      h.stay _ (hsum.trans_le hroom), h.carry _ (hsum.trans_le hroom), List.cons_append, hdigits]
    have hle : d ≤ d * r := Nat.le_mul_of_pos_right d h.factor
    refine ⟨trivial, ?_⟩
    rintro x (_ | ⟨_, _ | ⟨_, _ | ⟨_, hx⟩⟩⟩)
    · exact ⟨by omega, by omega⟩
    · exact ⟨by omega, by omega⟩
    · exact ⟨by omega, by omega⟩
    · exact hrange x hx

/-- **The whole input**: the digits of the number that it is in base `r`. -/
theorem run (h : D.Exact b r) {input : List ℕ} (hin : ∀ d ∈ input, d < r) :
    (D.run (input.map Nat.cast)).digits = (Radix.convert b r input).map Nat.cast ∧
      ∀ x ∈ (D.run (input.map Nat.cast)).numbers, InRange x := by
  induction input using List.reverseRecOn with
  | nil => exact ⟨rfl, by simp [Digits.run]⟩
  | append_singleton input d ih =>
    obtain ⟨hinput, hd⟩ := List.forall_mem_append.mp hin
    obtain ⟨hdigits, hrange⟩ := ih hinput
    have hlt : ∀ c ∈ Radix.convert b r input, c < b := fun c hc => by
      rw [Radix.convert_eq h.base h.factor] at hc
      exact Nat.digits_lt_base h.base hc
    obtain ⟨hstep, hstepRange⟩ := h.sweep hlt (hd d (List.mem_singleton_self d))
    have hrun : D.run ((input ++ [d]).map Nat.cast) = D.step (D.run (input.map Nat.cast)) d := by
      rw [Digits.run, List.map_append, List.foldl_append, ← Digits.run]
      rfl
    have hconvert : Radix.convert b r (input ++ [d]) =
        Radix.mulAdd b r (Radix.convert b r input) d := by
      rw [Radix.convert, List.foldl_append]
      rfl
    rw [hrun, hconvert, Digits.step, hdigits]
    exact ⟨hstep, List.forall_mem_append.mpr ⟨hrange, hstepRange⟩⟩

end Digits.Exact

/-! ### What the loops compute -/

/-- **The browser writes what it would without a width**, and no number is too large. -/
theorem b58encode_eq (bytes : Bytes) : (b58encode bytes).1 = Frontend.b58encode bytes ∧
    ∀ x ∈ (b58encode bytes).2, InRange x := by
  have hcast : bytes.map (fun byte => (byte.toNat : ℤ)) =
      (bytes.map UInt8.toNat).map Nat.cast := by
    rw [List.map_map]
    rfl
  have hlt : ∀ d ∈ bytes.map UInt8.toNat, d < 256 := toNat_lt_of_mem
  obtain ⟨hdigits, hrange⟩ := encoding_exact.run hlt
  rw [b58encode, Frontend.b58encode, hcast, hdigits, ← List.map_reverse, List.map_map]
  exact ⟨rfl, hrange⟩

theorem foldlM_map {ε α β τ : Type} {f : α → Except ε β} {g : τ → β → τ} {as : List α} {t : τ} :
    as.foldlM (fun t a => (f a).map fun b => g t b) t = (as.mapM f).map fun bs => bs.foldl g t := by
  induction as generalizing t with
  | nil => rfl
  | cons a as ih =>
    rw [List.foldlM_cons, List.mapM_cons]
    rcases f a with e | b
    · rfl
    · refine (ih (t := g t b)).trans ?_
      rw [ok_bind]
      rcases as.mapM f with e | bs <;> rfl

/-- **The browser reads what it would without a width**, and no number is too large. -/
theorem b58decode_eq (s : Text) : (b58decode s).map Prod.fst = Frontend.b58decode s ∧
    ∀ r, b58decode s = .ok r → ∀ x ∈ r.2, InRange x := by
  rcases hvalues : s.mapM b58digit with ch | values
  · rw [Frontend.b58decode, b58decode, foldlM_map, hvalues]
    refine ⟨rfl, ?_⟩
    rintro r ⟨⟩
  · have hlt := (mapM_b58digit.mp hvalues).1
    obtain ⟨hdigits, hrange⟩ := decoding_exact.run hlt
    have hsmall : ∀ d ∈ (Radix.convert 256 58 values).reverse,
        UInt8.ofNat ((d : ℤ) % 256).toNat = UInt8.ofNat d := fun d hd => by
      rw [List.mem_reverse, Radix.convert_eq (by omega) (by omega)] at hd
      have hbyte := Nat.digits_lt_base (by omega) hd
      have hmod : ((d : ℤ) % 256).toNat = d := by omega
      rw [hmod]
    have hloop : s.foldlM (fun t ch => (b58digit ch).map fun v : ℕ => decoding.step t v) ⟨[], []⟩ =
        .ok (decoding.run (values.map Nat.cast)) := by
      rw [foldlM_map, hvalues, Digits.run, List.foldl_map]
      rfl
    rw [Frontend.b58decode, b58decode, hvalues, hloop, ok_bind, ok_bind]
    dsimp only
    rw [hdigits, ← List.map_reverse, List.map_map]
    constructor
    · refine congrArg Except.ok (congrArg (List.replicate _ 0 ++ ·) ?_)
      exact List.map_congr_left hsmall
    · rintro r ⟨⟩
      exact hrange

/-! ### Both ways -/

/-- The zeros in front are the ones in front. -/
theorem takeWhile_base58 (bytes : Bytes) :
    ((base58 bytes).takeWhile (· == '1')).length = (bytes.takeWhile (· == 0)).length := by
  have hlt : ∀ d ∈ Radix.recode 256 58 (bytes.map UInt8.toNat), d < 58 := fun d hd =>
    Radix.lt_of_mem_recode (by omega) hd
  have hpair := Radix.toPair_ofPair 58 (Radix.toPair 256 (bytes.map UInt8.toNat))
  rw [base58, takeWhile_one hlt, takeWhile_zero]
  exact congrArg Prod.fst hpair

/-- Every text over the alphabet is that of some bytes. -/
theorem exists_base58 {s : Text} (h : ∀ ch ∈ s, ch ∈ B58) : ∃ bytes, s = base58 bytes := by
  have hdigit : ∀ ch ∈ s, B58.idxOf ch < 58 ∧ B58.getD (B58.idxOf ch) '1' = ch := fun ch hch => by
    have hlt : B58.idxOf ch < B58.length := List.idxOf_lt_length_iff.mpr (h ch hch)
    refine ⟨hlt, ?_⟩
    rw [List.getD_eq_getElem _ _ hlt]
    exact List.getElem_idxOf hlt
  have hvalues : s.mapM b58digit = .ok (s.map fun ch => B58.idxOf ch) := by
    rw [mapM_b58digit, List.forall_mem_map, List.map_map]
    refine ⟨fun ch hch => (hdigit ch hch).1, ?_⟩
    exact (List.map_congr_left fun ch hch => (hdigit ch hch).2).trans (List.map_id _)
  exact ⟨_, Frontend.b58decode_eq_ok.mp (b58decode_values hvalues)⟩

/-- **Base58 is a bijection** between the strings of bytes and the texts over the alphabet that
are not empty. The zero bytes in front are as many as the `1`s in front, no two texts stand for
the same bytes, and in both loops no number is too large for the operators on bits. -/
theorem base58_bijective :
    (∀ bytes : Bytes, bytes ≠ [] →
      ∃ numbers, b58decode (b58encode bytes).1 = .ok (bytes, numbers)) ∧
    (∀ s : Text, s ≠ [] → (∀ ch ∈ s, ch ∈ B58) →
      ∃ bytes numbers, b58decode s = .ok (bytes, numbers) ∧ (b58encode bytes).1 = s) ∧
    (∀ bytes : Bytes, bytes ≠ [] → ((b58encode bytes).1.takeWhile (· == '1')).length =
      (bytes.takeWhile (· == 0)).length) ∧
    (∀ (s : Text) (bytes : Bytes) (numbers : List ℤ), b58decode s = .ok (bytes, numbers) →
      (s.takeWhile (· == '1')).length = (bytes.takeWhile (· == 0)).length) ∧
    (∀ (s t : Text) (bytes : Bytes) (ms ns : List ℤ), b58decode s = .ok (bytes, ms) →
      b58decode t = .ok (bytes, ns) → s = t) ∧
    (∀ bytes : Bytes, ∀ x ∈ (b58encode bytes).2, InRange x) ∧
    ∀ (s : Text) (bytes : Bytes) (numbers : List ℤ), b58decode s = .ok (bytes, numbers) →
      ∀ x ∈ numbers, InRange x := by
  have hencode : ∀ bytes : Bytes, bytes ≠ [] → (b58encode bytes).1 = base58 bytes := fun bytes h =>
    (b58encode_eq bytes).1.trans (Frontend.b58encode_eq h)
  have hdecode : ∀ bytes : Bytes, ∃ numbers, b58decode (base58 bytes) = .ok (bytes, numbers) := by
    intro bytes
    have hread := Frontend.b58decode_eq_ok.mpr (Eq.refl (base58 bytes))
    rw [← (b58decode_eq (base58 bytes)).1] at hread
    rcases h : b58decode (base58 bytes) with ch | ⟨bs, numbers⟩
    · rw [h] at hread
      cases hread
    · rw [h] at hread
      cases hread
      exact ⟨numbers, rfl⟩
  have hbase : ∀ s bytes numbers, b58decode s = .ok (bytes, numbers) → s = base58 bytes := by
    intro s bytes numbers h
    rw [← Frontend.b58decode_eq_ok, ← (b58decode_eq s).1, h]
    rfl
  refine ⟨fun bytes hne => ?_, fun s hne halphabet => ?_, fun bytes hne => ?_,
    fun s bytes numbers h => ?_, fun s t bytes ms ns hs ht => ?_,
    fun bytes => (b58encode_eq bytes).2, fun s bytes numbers h => (b58decode_eq s).2 _ h⟩
  · rw [hencode bytes hne]
    exact hdecode bytes
  · obtain ⟨bytes, rfl⟩ := exists_base58 halphabet
    obtain ⟨numbers, h⟩ := hdecode bytes
    refine ⟨bytes, numbers, h, hencode bytes ?_⟩
    rintro rfl
    exact hne rfl
  · rw [hencode bytes hne]
    exact takeWhile_base58 bytes
  · rw [hbase s bytes numbers h]
    exact takeWhile_base58 bytes
  · exact (hbase s bytes ms hs).trans (hbase t bytes ns ht).symm

end Base58Loops

end Frontend

end SelendraBridge
