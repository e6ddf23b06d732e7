import Mathlib.Data.List.Basic
import Mathlib.Data.Nat.Bitwise

/-!
# Keccak

A sponge absorbs a string of bits block by block into a state of 1600 bits, which a permutation
stirs after every block, and the digest is read off the state. This is the definition by bits. A
state is five columns by five rows of lanes of 64 bits, and the permutation is 24 rounds of five
steps:

| step | what it does to a bit |
|:-----|:----------------------|
| `Keccak.theta` | adds the parities of two columns near it |
| `Keccak.rho` | moves it along its lane, by a triangular number |
| `Keccak.pi` | moves its lane |
| `Keccak.chi` | adds a product of the next two bits of its row |
| `Keccak.iota` | adds a constant of the round to the first lane |

The offsets of `Keccak.rho` are found on a walk through the lanes, and the constants of
`Keccak.iota` come out of a shift register, so nothing here is a table. A message is padded by a
one, zeros, and a one, up to whole blocks (`Keccak.pad`). What is said about the bits of a state is
said about the numbers that its lanes spell by `Nat.ofBits`, and the few facts on such numbers that
this takes are at the end.
-/

namespace Keccak

/-- **A state**: a bit for every column, row, and place in the lane. -/
abbrev State := Fin 5 → Fin 5 → Fin 64 → Bool

/-! ### The permutation -/

/-- The parity of a column, at one place. -/
def parity (A : State) (x : Fin 5) (z : Fin 64) : Bool :=
  A x 0 z ^^ A x 1 z ^^ A x 2 z ^^ A x 3 z ^^ A x 4 z

/-- θ. -/
def theta (A : State) : State := fun x y z =>
  A x y z ^^ (parity A (x - 1) z ^^ parity A (x + 1) (z - 1))

/-- Where the walk of ρ is after so many steps. -/
def walk : ℕ → Fin 5 × Fin 5
  | 0 => (1, 0)
  | t + 1 => ((walk t).2, 2 * (walk t).1 + 3 * (walk t).2)

/-- How far ρ moves a lane: the triangular number of the step at which the walk comes by. It does
not come by the first lane. -/
def offset (x y : Fin 5) : ℕ :=
  match (List.range 24).find? fun t => walk t == (x, y) with
  | some t => (t + 1) * (t + 2) / 2
  | none => 0

/-- ρ. -/
def rho (A : State) : State := fun x y z => A x y (z - Fin.ofNat 64 (offset x y))

/-- π. -/
def pi (A : State) : State := fun x y => A (x + 3 * y) x

/-- χ. -/
def chi (A : State) : State := fun x y z => A x y z ^^ (!A (x + 1) y z && A (x + 2) y z)

/-- The shift register of ι, with the polynomial `x⁸ + x⁶ + x⁵ + x⁴ + 1`. -/
def register : ℕ → BitVec 8
  | 0 => 1
  | t + 1 => (register t <<< 1) ^^^ (if (register t).msb then 0x71 else 0)

/-- The constant of a round: the register gives the bits at the places `2 ^ j - 1`. -/
def roundConstant (i : ℕ) (z : Fin 64) : Bool :=
  match (List.range 7).find? fun j => 2 ^ j - 1 == z.val with
  | some j => (register (j + 7 * i)).getLsbD 0
  | none => false

/-- ι. -/
def iota (i : ℕ) (A : State) : State := fun x y z =>
  if x = 0 ∧ y = 0 then A x y z ^^ roundConstant i z else A x y z

/-- A round. -/
def round (A : State) (i : ℕ) : State := iota i (chi (pi (rho (theta A))))

/-- **The permutation.** -/
def permute (A : State) : State := (List.range 24).foldl round A

/-! ### The sponge -/

/-- The bits of some bytes, each from its lowest. -/
def bits (m : List UInt8) : List Bool := m.flatMap fun b => (List.range 8).map b.toNat.testBit

/-- The padding of a message of `len` bits to whole blocks. -/
def pad (rate len : ℕ) : List Bool :=
  true :: (List.replicate ((rate - (len + 2) % rate) % rate) false ++ [true])

/-- A block of bits, added to a state. -/
def addBlock (A : State) (P : List Bool) : State := fun x y z =>
  A x y z ^^ P.getD (64 * (5 * y.val + x.val) + z.val) false

/-- The blocks of a string, absorbed. -/
def absorb (rate : ℕ) (P : List Bool) (A : State) : State :=
  (List.range (P.length / rate)).foldl
    (fun A i => permute (addBlock A ((P.drop (rate * i)).take rate))) A

/-- A bit of a state, by its place in the string that the state is. -/
def bitAt (A : State) (k : ℕ) : Bool :=
  A (Fin.ofNat 5 (k / 64)) (Fin.ofNat 5 (k / 320)) (Fin.ofNat 64 k)

/-- The first `n` bytes of a state. -/
def squeeze (n : ℕ) (A : State) : List UInt8 :=
  (List.range n).map fun i => UInt8.ofNat (Nat.ofBits fun j : Fin 8 => bitAt A (8 * i + j.val))

/-- The sponge: the digest of so many bytes, of a message absorbed in blocks of `rate` bits. -/
def sponge (rate n : ℕ) (m : List UInt8) : List UInt8 :=
  squeeze n (absorb rate (bits m ++ pad rate (bits m).length) fun _ _ _ => false)

/-- **Keccak-256**: blocks of 1088 bits and a digest of 32 bytes. -/
def keccak256 (m : List UInt8) : List UInt8 := sponge 1088 32 m

/-! ### Bits of bytes -/

theorem testBit_eq_false (b : UInt8) {i : ℕ} (h : 8 ≤ i) : b.toNat.testBit i = false :=
  Nat.testBit_eq_false_of_lt (b.toNat_lt.trans_le (Nat.pow_le_pow_right (by omega) h))

@[simp] theorem length_bits (m : List UInt8) : (bits m).length = 8 * m.length := by
  induction m with
  | nil => rfl
  | cons b m ih =>
    rw [bits, List.flatMap_cons, List.length_append, ← bits, ih]
    simp only [List.length_map, List.length_range, List.length_cons]
    omega

/-- A bit of some bytes is a bit of one of them. -/
theorem getD_bits (m : List UInt8) (k : ℕ) :
    (bits m).getD k false = (m.getD (k / 8) 0).toNat.testBit (k % 8) := by
  induction m generalizing k with
  | nil => simp [bits]
  | cons b m ih =>
    rw [bits, List.flatMap_cons, ← bits]
    by_cases hk : k < 8
    · rw [List.getD_append _ _ _ _ (by simpa using hk), Nat.div_eq_of_lt hk, Nat.mod_eq_of_lt hk]
      simp [List.getD_eq_getElem?_getD, hk]
    · have hdiv : k / 8 = (k - 8) / 8 + 1 := by omega
      have hmod : k % 8 = (k - 8) % 8 := by omega
      rw [List.getD_append_right _ _ _ _ (by simpa using hk), hdiv, hmod, List.getD_cons_succ, ← ih]
      simp

theorem length_sponge (rate n : ℕ) (m : List UInt8) : (sponge rate n m).length = n := by
  rw [sponge, squeeze, List.length_map, List.length_range]

/-! ### Numbers of bits -/

variable {n : ℕ}

/-- Numbers of as many bits are the same if their bits are. -/
theorem eq_ofBits {f : Fin n → Bool} {v : ℕ} (hv : v < 2 ^ n) (h : ∀ i : Fin n, v.testBit i = f i) :
    v = Nat.ofBits f := by
  refine Nat.eq_of_testBit_eq fun i => ?_
  rw [Nat.testBit_ofBits]
  split
  · next hi => exact h ⟨i, hi⟩
  · next hi =>
    exact Nat.testBit_eq_false_of_lt (hv.trans_le (Nat.pow_le_pow_right (by omega) (by omega)))

theorem ofBits_xor (f g : Fin n → Bool) :
    Nat.ofBits f ^^^ Nat.ofBits g = Nat.ofBits fun i => f i ^^ g i := by
  refine Nat.eq_of_testBit_eq fun i => ?_
  rw [Nat.testBit_xor, Nat.testBit_ofBits, Nat.testBit_ofBits, Nat.testBit_ofBits]
  split <;> rfl

theorem ofBits_and (f g : Fin n → Bool) :
    Nat.ofBits f &&& Nat.ofBits g = Nat.ofBits fun i => f i && g i := by
  refine Nat.eq_of_testBit_eq fun i => ?_
  rw [Nat.testBit_and, Nat.testBit_ofBits, Nat.testBit_ofBits, Nat.testBit_ofBits]
  split <;> rfl

end Keccak
