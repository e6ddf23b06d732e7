import Mathlib.Data.List.Basic
import Mathlib.Data.List.Induction
import Mathlib.Data.Nat.Basic
import Mathlib.Tactic.NormNum
import Mathlib.Tactic.Ring

/-!
# Big-endian words and packed layouts

A packed layout is a concatenation of byte strings with no length in it. Whether
two values can share one layout is then a question about the lengths of the
pieces, and this file has the two facts such an argument rests on: a word of a
fixed number of bytes is read back from its encoding
(`BigEndian.ofBytes_toBytes`), and a concatenation whose first pieces have the
same length splits (`List.append_inj`, which the core library has).
-/

namespace BigEndian

/-- The number a byte string spells, most significant byte first. -/
def ofBytes (bs : List UInt8) : ℕ := bs.foldl (fun n b => 256 * n + b.toNat) 0

/-- The `n` lowest bytes of `v`, most significant byte first. -/
def toBytes : ℕ → ℕ → List UInt8
  | 0, _ => []
  | n + 1, v => toBytes n (v / 256) ++ [UInt8.ofNat v]

@[simp] theorem length_toBytes (n v : ℕ) : (toBytes n v).length = n := by
  induction n generalizing v with
  | zero => rfl
  | succ n ih => simp [toBytes, ih]

theorem ofBytes_append_singleton (bs : List UInt8) (b : UInt8) :
    ofBytes (bs ++ [b]) = 256 * ofBytes bs + b.toNat := by
  simp [ofBytes]

/-- **A word is read back from its bytes**, up to what its width holds. -/
theorem ofBytes_toBytes (n v : ℕ) : ofBytes (toBytes n v) = v % 256 ^ n := by
  induction n generalizing v with
  | zero => simp [toBytes, ofBytes, Nat.mod_one]
  | succ n ih =>
    have hb : (UInt8.ofNat v).toNat = v % 256 := by simp
    rw [toBytes, ofBytes_append_singleton, ih, hb, pow_succ', Nat.mod_mul]
    ring

/-- **Widening a number writes zeros in front of it.** -/
theorem toBytes_add (m : ℕ) {n v : ℕ} (hv : v < 256 ^ n) :
    toBytes (m + n) v = List.replicate m 0 ++ toBytes n v := by
  induction n generalizing v with
  | zero =>
    obtain rfl : v = 0 := by simpa using hv
    rw [toBytes, List.append_nil, Nat.add_zero]
    induction m with
    | zero => rfl
    | succ m ih => rw [toBytes, Nat.zero_div, ih, List.replicate_succ']; rfl
  | succ n ih =>
    have hdiv : v / 256 < 256 ^ n := Nat.div_lt_of_lt_mul (by rwa [pow_succ'] at hv)
    rw [← Nat.add_assoc, toBytes, ih hdiv, toBytes, List.append_assoc]

/-- **A fixed-width word is injective** on the numbers that fit it. -/
theorem toBytes_inj {n v w : ℕ} (hv : v < 256 ^ n) (hw : w < 256 ^ n)
    (h : toBytes n v = toBytes n w) : v = w := by
  have h' := congrArg ofBytes h
  rwa [ofBytes_toBytes, ofBytes_toBytes, Nat.mod_eq_of_lt hv, Nat.mod_eq_of_lt hw] at h'

/-- **Bytes are read back from their number**, given how many there are. -/
theorem toBytes_ofBytes (bs : List UInt8) : toBytes bs.length (ofBytes bs) = bs := by
  induction bs using List.reverseRecOn with
  | nil => rfl
  | append_singleton bs b ih =>
    have hb := b.toNat_lt
    rw [List.length_append, List.length_singleton, toBytes, ofBytes_append_singleton,
      show (256 * ofBytes bs + b.toNat) / 256 = ofBytes bs by omega, ih]
    congr 2
    apply UInt8.toNat_inj.mp
    rw [UInt8.toNat_ofNat']
    omega

theorem ofBytes_lt (bs : List UInt8) : ofBytes bs < 256 ^ bs.length := by
  induction bs using List.reverseRecOn with
  | nil => simp [ofBytes]
  | append_singleton bs b ih =>
    have hb := b.toNat_lt
    rw [ofBytes_append_singleton, List.length_append, List.length_singleton, pow_succ]
    omega

/-- Bytes in front are worth a power more for each byte behind them. -/
theorem ofBytes_append (as bs : List UInt8) :
    ofBytes (as ++ bs) = ofBytes as * 256 ^ bs.length + ofBytes bs := by
  induction bs using List.reverseRecOn with
  | nil => simp [ofBytes]
  | append_singleton bs b ih =>
    rw [← List.append_assoc, ofBytes_append_singleton, ofBytes_append_singleton, ih,
      List.length_append, List.length_singleton, pow_succ]
    ring

/-- The first byte is worth the most. -/
theorem ofBytes_cons (b : UInt8) (bs : List UInt8) :
    ofBytes (b :: bs) = b.toNat * 256 ^ bs.length + ofBytes bs := by
  have h := ofBytes_append [b] bs
  have hb : ofBytes [b] = b.toNat := by simp [ofBytes]
  rwa [List.singleton_append, hb] at h

/-- **Byte strings of one length compare as their numbers do**, byte by byte from the
front. -/
theorem lt_iff_ofBytes_lt {as bs : List UInt8} (h : as.length = bs.length) :
    as < bs ↔ ofBytes as < ofBytes bs := by
  induction as generalizing bs with
  | nil =>
    obtain rfl := List.length_eq_zero_iff.mp h.symm
    simp
  | cons a as ih =>
    rcases bs with _ | ⟨b, bs⟩
    · simp at h
    have hlen : as.length = bs.length := Nat.succ.inj h
    have ha := ofBytes_lt as
    have hb := ofBytes_lt bs
    rw [List.cons_lt_cons_iff, ih hlen, ofBytes_cons, ofBytes_cons, hlen, UInt8.lt_iff_toNat_lt]
    rw [hlen] at ha
    constructor
    · rintro (hlt | ⟨rfl, hlt⟩)
      · have hmul : (a.toNat + 1) * 256 ^ bs.length ≤ b.toNat * 256 ^ bs.length :=
          Nat.mul_le_mul_right _ hlt
        rw [Nat.add_mul] at hmul
        omega
      · omega
    · intro hlt
      rcases lt_trichotomy a.toNat b.toNat with hab | hab | hab
      · exact .inl hab
      · obtain rfl := UInt8.toNat_inj.mp hab
        exact .inr ⟨rfl, by omega⟩
      · have hmul : (b.toNat + 1) * 256 ^ bs.length ≤ a.toNat * 256 ^ bs.length :=
          Nat.mul_le_mul_right _ hab
        rw [Nat.add_mul] at hmul
        omega

/-- **Behind the same number, a number says its length**: only zeros in front are lost. -/
theorem length_le_of_ofBytes_eq {as xs ys : List UInt8} (ha : ofBytes as ≠ 0)
    (h : ofBytes (as ++ xs) = ofBytes (as ++ ys)) : ys.length ≤ xs.length := by
  by_contra hlt
  obtain ⟨k, hk⟩ := Nat.exists_eq_add_of_lt (not_le.mp hlt)
  have hx := ofBytes_lt xs
  have hpos : 0 < 256 ^ xs.length := by positivity
  have hpow : 256 * 256 ^ xs.length ≤ 256 ^ ys.length := by
    rw [← pow_succ']
    exact Nat.pow_le_pow_right (by norm_num) (by omega)
  have hle : ofBytes as * (256 * 256 ^ xs.length) ≤ ofBytes as * 256 ^ ys.length :=
    Nat.mul_le_mul_left _ hpow
  have hone : 1 * 256 ^ xs.length ≤ ofBytes as * 256 ^ xs.length :=
    Nat.mul_le_mul_right _ (Nat.one_le_iff_ne_zero.mpr ha)
  rw [ofBytes_append, ofBytes_append] at h
  have hassoc : ofBytes as * (256 * 256 ^ xs.length) = 256 * (ofBytes as * 256 ^ xs.length) := by
    ring
  omega

section Word

variable {n : ℕ}

/-- A bit vector of `8 * n` bits as its `n` bytes. -/
def ofWord (n : ℕ) (w : BitVec (8 * n)) : List UInt8 := toBytes n w.toNat

@[simp] theorem length_ofWord (w : BitVec (8 * n)) : (ofWord n w).length = n :=
  length_toBytes n w.toNat

/-- The word some bytes spell, when there are as many as it has. -/
def toWord (n : ℕ) (bs : List UInt8) : Option (BitVec (8 * n)) :=
  if bs.length = n then some (BitVec.ofNat (8 * n) (ofBytes bs)) else none

theorem two_pow_eq (n : ℕ) : (2 : ℕ) ^ (8 * n) = 256 ^ n := by
  rw [pow_mul]
  norm_num

theorem toWord_eq_some_iff {bs : List UInt8} {w : BitVec (8 * n)} :
    toWord n bs = some w ↔ bs = ofWord n w := by
  constructor
  · intro h
    rw [toWord, Option.ite_none_right_eq_some] at h
    obtain ⟨rfl, h⟩ := h
    rw [← Option.some.inj h, ofWord, BitVec.toNat_ofNat, two_pow_eq,
      Nat.mod_eq_of_lt (ofBytes_lt bs), toBytes_ofBytes]
  · rintro rfl
    have hw : w.toNat < 256 ^ n := two_pow_eq n ▸ w.isLt
    rw [toWord, if_pos (length_ofWord w), ofWord, ofBytes_toBytes, Nat.mod_eq_of_lt hw]
    simp

theorem ofWord_inj {v w : BitVec (8 * n)} (h : ofWord n v = ofWord n w) : v = w := by
  refine BitVec.eq_of_toNat_eq (toBytes_inj ?_ ?_ h)
  · exact two_pow_eq n ▸ v.isLt
  · exact two_pow_eq n ▸ w.isLt

@[simp] theorem ofWord_eq_iff {v w : BitVec (8 * n)} : ofWord n v = ofWord n w ↔ v = w :=
  ⟨ofWord_inj, fun h => h ▸ rfl⟩

end Word

end BigEndian
