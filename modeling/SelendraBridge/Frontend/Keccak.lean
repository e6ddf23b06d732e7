import Mathlib.Data.Fintype.Basic
import Mathlib.Tactic.FinCases
import SelendraBridge.Basic
import SelendraBridge.Lib.Keccak

/-!
# The hash in the browser

The page computes the id of a transfer itself, so it hashes itself, with lanes that are numbers of
64 bits and a table for everything that the definition of Keccak computes. Its digests are those of
the definition, at every length (`SelendraBridge.Frontend.keccak256_eq`).

| the page | the definition |
|:---------|:---------------|
| five lists of five numbers | a bit for every column, row and place (`Keccak.State`) |
| `ROT`, `RC` | a walk, a shift register |
| bytes `0x01`, zeros, and `0x80` in the last | a one, zeros, and a one |

Where the message is a byte short of a block, the first and the last byte of the padding are one,
`0x81`; where it fills its blocks, the padding is a block.
-/

namespace SelendraBridge

namespace Frontend

/-! ### The permutation -/

/-- `RC`. -/
def RC : List ℕ :=
  [0x0000000000000001, 0x0000000000008082, 0x800000000000808a, 0x8000000080008000,
   0x000000000000808b, 0x0000000080000001, 0x8000000080008081, 0x8000000000008009,
   0x000000000000008a, 0x0000000000000088, 0x0000000080008009, 0x000000008000000a,
   0x000000008000808b, 0x800000000000008b, 0x8000000000008089, 0x8000000000008003,
   0x8000000000008002, 0x8000000000000080, 0x000000000000800a, 0x800000008000000a,
   0x8000000080008081, 0x8000000000008080, 0x0000000080000001, 0x8000000080008008]

local instance neZeroFive : NeZero 5 := ⟨by decide⟩

/-- Lanes, as the page has them. -/
abbrev Lanes := Vector (Vector ℕ 5) 5

/-- `ROT`. -/
def ROT : Lanes :=
  #v[#v[0, 36, 3, 41, 18],
     #v[1, 44, 10, 45, 2],
     #v[62, 6, 43, 15, 61],
     #v[28, 55, 25, 21, 56],
     #v[27, 20, 39, 8, 14]]

/-- `MASK`. -/
def MASK : ℕ := 1 <<< 64 - 1

/-- `rotl`. -/
def rotl (x n : ℕ) : ℕ := if n = 0 then x else (x <<< n ||| x >>> (64 - n)) &&& MASK

/-- `~x & MASK`. -/
def complement (x : ℕ) : ℕ := MASK ^^^ (x &&& MASK)

/-- The lanes that a loop over columns and rows writes, each once. -/
def lanes (f : Fin 5 → Fin 5 → ℕ) : Lanes := Vector.ofFn fun x => Vector.ofFn fun y => f x y

/-- `a[x][y] = v`. -/
def put (a : Lanes) (x y : Fin 5) (v : ℕ) : Lanes := a.set x (a[x].set y v)

/-- The step θ. -/
def thetaStep (a : Lanes) : Lanes :=
  let parity : Vector ℕ 5 := Vector.ofFn fun x : Fin 5 =>
    a[x][0] ^^^ a[x][1] ^^^ a[x][2] ^^^ a[x][3] ^^^ a[x][4]
  lanes fun x y => a[x][y] ^^^ (parity[x + 4] ^^^ rotl parity[x + 1] 1)

/-- The steps ρ and π. -/
def rhoPiStep (a : Lanes) : Lanes :=
  (List.finRange 5).foldl (fun b x => (List.finRange 5).foldl (fun b y =>
    put b y (2 * x + 3 * y) (rotl a[x][y] ROT[x][y])) b) (lanes fun _ _ => 0)

/-- The step χ. -/
def chiStep (b : Lanes) : Lanes :=
  lanes fun x y => b[x][y] ^^^ (complement b[x + 1][y] &&& b[x + 2][y])

/-- A round of `keccakF`. -/
def roundStep (a : Lanes) (round : ℕ) : Lanes :=
  let a := chiStep (rhoPiStep (thetaStep a))
  put a 0 0 (a[0][0] ^^^ RC.getD round 0)

/-- `keccakF`. -/
def keccakF (a : Lanes) : Lanes := (List.range 24).foldl roundStep a

/-! ### The sponge -/

/-- `RATE`. -/
def RATE : ℕ := 136

/-- `padded`: `Math.ceil((input.length + 1) / RATE) * RATE` bytes. -/
def padded (input : Bytes) : Bytes :=
  let length := (input.length + 1 + (RATE - 1)) / RATE * RATE
  let padded := input ++ List.replicate (length - input.length) 0
  let padded := padded.set input.length 0x01
  padded.modify (length - 1) (· ||| 0x80)

/-- `lane`: eight bytes from `at`, the last first. -/
def lane (padded : Bytes) (start : ℕ) : ℕ :=
  (List.range 8).reverse.foldl (fun lane j => lane <<< 8 ||| (padded.getD (start + j) 0).toNat) 0

/-- A block, added to the lanes. -/
def addBlock (padded : Bytes) (off : ℕ) (a : Lanes) : Lanes :=
  (List.range (RATE / 8)).foldl (fun a i =>
    let x : Fin 5 := Fin.ofNat 5 i
    let y : Fin 5 := Fin.ofNat 5 (i / 5)
    put a x y (a[x][y] ^^^ lane padded (off + i * 8))) a

/-- `keccak256`. -/
def keccak256 (input : Bytes) : Bytes :=
  let padded := padded input
  let a := (List.range (padded.length / RATE)).foldl
    (fun a k => keccakF (addBlock padded (k * RATE) a)) (lanes fun _ _ => 0)
  (List.range 4).flatMap fun i =>
    let lane := a[Fin.ofNat 5 i][Fin.ofNat 5 (i / 5)]
    (List.range 8).map fun j => UInt8.ofNat ((lane >>> (8 * j)) &&& 0xff)

/-! ### Lanes -/

@[simp] theorem getElem_lanes (f : Fin 5 → Fin 5 → ℕ) (x y : Fin 5) : (lanes f)[x][y] = f x y := by
  simp [lanes]

theorem getElem_put (a : Lanes) (x y x' y' : Fin 5) (v : ℕ) :
    (put a x y v)[x'][y'] = if x' = x ∧ y' = y then v else a[x'][y'] := by
  by_cases hx : x' = x
  · subst hx
    have hcolumn : (put a x' y v)[x'] = a[x'].set y v := Vector.getElem_set_self _
    rw [hcolumn]
    by_cases hy : y' = y
    · subst hy
      rw [if_pos ⟨rfl, rfl⟩]
      exact Vector.getElem_set_self _
    · rw [if_neg fun h => hy h.2]
      exact Vector.getElem_set_ne _ _ fun h => hy (Fin.ext h.symm)
  · have hcolumn : (put a x y v)[x'] = a[x'] :=
      Vector.getElem_set_ne _ _ fun h => hx (Fin.ext h.symm)
    rw [hcolumn, if_neg fun h => hx h.1]

theorem lanes_ext {a b : Lanes} (h : ∀ x y : Fin 5, a[x][y] = b[x][y]) : a = b := by
  refine Vector.ext fun i hi => Vector.ext fun j hj => ?_
  exact h ⟨i, hi⟩ ⟨j, hj⟩

/-- **The lanes that a state spells.** -/
def spread (A : Keccak.State) : Lanes := lanes fun x y => Nat.ofBits (A x y)

@[simp] theorem getElem_spread (A : Keccak.State) (x y : Fin 5) :
    (spread A)[x][y] = Nat.ofBits (A x y) :=
  getElem_lanes _ x y

theorem testBit_MASK (i : ℕ) : MASK.testBit i = decide (i < 64) :=
  Nat.testBit_two_pow_sub_one 64 i

/-- To rotate a lane is to move its bits along. -/
theorem rotl_ofBits (f : Fin 64 → Bool) {n : ℕ} (hn : n < 64) :
    rotl (Nat.ofBits f) n = Nat.ofBits fun z => f (z - Fin.ofNat 64 n) := by
  rw [rotl]
  split
  · next h =>
    subst h
    congr 1
    funext z
    refine congrArg f (Fin.ext ?_)
    simp only [Fin.sub_def, Fin.ofNat_zero, Fin.val_zero]
    omega
  · next h =>
    have hmask : (Nat.ofBits f <<< n ||| Nat.ofBits f >>> (64 - n)) &&& MASK < 2 ^ 64 :=
      Nat.and_le_right.trans_lt (by decide)
    refine Keccak.eq_ofBits hmask fun z => ?_
    rw [Nat.testBit_and, Nat.testBit_or, Nat.testBit_shiftLeft, Nat.testBit_shiftRight,
      testBit_MASK, decide_eq_true z.isLt, Bool.and_true]
    have hof : (Fin.ofNat 64 n).val = n := Nat.mod_eq_of_lt hn
    have hval : (z - Fin.ofNat 64 n).val = (64 - n + z.val) % 64 := by
      rw [Fin.sub_def, hof]
    by_cases hz : n ≤ z.val
    · -- the part that was shifted up
      rw [Nat.testBit_ofBits_ge f (64 - n + z.val) (by omega), decide_eq_true hz, Bool.true_and,
        Bool.or_false, Nat.testBit_ofBits_lt f (z.val - n) (by omega)]
      congr 1
      exact Fin.ext (by rw [hval]; dsimp only; omega)
    · -- the part that came round
      rw [decide_eq_false hz, Bool.false_and, Bool.false_or,
        Nat.testBit_ofBits_lt f (64 - n + z.val) (by omega)]
      congr 1
      exact Fin.ext (by rw [hval]; dsimp only; omega)

theorem complement_ofBits (f : Fin 64 → Bool) :
    complement (Nat.ofBits f) = Nat.ofBits fun z => !f z := by
  refine Nat.eq_of_testBit_eq fun i => ?_
  rw [complement, Nat.testBit_xor, Nat.testBit_and, testBit_MASK, Nat.testBit_ofBits,
    Nat.testBit_ofBits]
  by_cases hi : i < 64
  · simp [hi]
  · simp [hi]

/-! ### The permutation is the permutation -/

theorem thetaStep_spread (A : Keccak.State) :
    thetaStep (spread A) = spread (Keccak.theta A) := by
  have hparity : (Vector.ofFn fun x : Fin 5 => (spread A)[x][0] ^^^ (spread A)[x][1] ^^^
      (spread A)[x][2] ^^^ (spread A)[x][3] ^^^ (spread A)[x][4]) =
      Vector.ofFn fun x => Nat.ofBits (Keccak.parity A x) := by
    congr 1
    funext x
    have h0 : (spread A)[x][0] = Nat.ofBits (A x 0) := getElem_spread A x 0
    have h1 : (spread A)[x][1] = Nat.ofBits (A x 1) := getElem_spread A x 1
    have h2 : (spread A)[x][2] = Nat.ofBits (A x 2) := getElem_spread A x 2
    have h3 : (spread A)[x][3] = Nat.ofBits (A x 3) := getElem_spread A x 3
    have h4 : (spread A)[x][4] = Nat.ofBits (A x 4) := getElem_spread A x 4
    rw [h0, h1, h2, h3, h4, Keccak.ofBits_xor, Keccak.ofBits_xor, Keccak.ofBits_xor,
      Keccak.ofBits_xor]
    rfl
  have hcolumn : ∀ x : Fin 5, (Vector.ofFn fun x => Nat.ofBits (Keccak.parity A x))[x] =
      Nat.ofBits (Keccak.parity A x) := fun x => Vector.getElem_ofFn _
  refine lanes_ext fun x y => ?_
  have hprev : ∀ x : Fin 5, x + 4 = x - 1 := by decide
  rw [thetaStep, hparity, getElem_lanes, getElem_spread, getElem_spread, hcolumn, hcolumn, hprev,
    rotl_ofBits _ (by omega), Keccak.ofBits_xor, Keccak.ofBits_xor]
  rfl

/-- The inner loop of ρ and π writes one lane of every column. -/
theorem getElem_writes (x : Fin 5) (w : Fin 5 → ℕ) (ys : List (Fin 5)) (b : Lanes) (x' y' : Fin 5) :
    (ys.foldl (fun b y => put b y (2 * x + 3 * y) (w y)) b)[x'][y'] =
      if x' ∈ ys ∧ y' = 2 * x + 3 * x' then w x' else b[x'][y'] := by
  induction ys generalizing b with
  | nil => simp
  | cons y ys ih =>
    rw [List.foldl_cons, ih, getElem_put]
    by_cases hx : x' = y
    · subst hx
      by_cases hy : y' = 2 * x + 3 * x' <;> simp [hy]
    · simp [hx]

theorem rhoPiStep_eq (a : Lanes) (x y : Fin 5) :
    (rhoPiStep a)[x][y] = rotl a[x + 3 * y][x] ROT[x + 3 * y][x] := by
  have hturn : ∀ x y x' : Fin 5, y = 2 * x' + 3 * x ↔ x' = x + 3 * y := by decide
  have hloop : ∀ (xs : List (Fin 5)) (b : Lanes), (xs.foldl (fun b x =>
      (List.finRange 5).foldl (fun b y => put b y (2 * x + 3 * y) (rotl a[x][y] ROT[x][y])) b)
      b)[x][y] =
      if x + 3 * y ∈ xs then rotl a[x + 3 * y][x] ROT[x + 3 * y][x] else b[x][y] := by
    intro xs
    induction xs with
    | nil => exact fun b => rfl
    | cons x' xs ih =>
      intro b
      rw [List.foldl_cons, ih, getElem_writes]
      simp only [List.mem_finRange, true_and, hturn, List.mem_cons]
      by_cases hx : x' = x + 3 * y
      · subst hx
        simp
      · simp [hx, Ne.symm hx]
  exact (hloop _ _).trans (if_pos (List.mem_finRange _))

theorem ROT_eq : ∀ x y : Fin 5, ROT[x][y] < 64 ∧
    Fin.ofNat 64 ROT[x][y] = Fin.ofNat 64 (Keccak.offset x y) := by
  decide +kernel

theorem rhoPiStep_spread (A : Keccak.State) :
    rhoPiStep (spread A) = spread (Keccak.pi (Keccak.rho A)) := by
  refine lanes_ext fun x y => ?_
  obtain ⟨hlt, hoff⟩ := ROT_eq (x + 3 * y) x
  rw [rhoPiStep_eq, getElem_spread, getElem_spread, rotl_ofBits _ hlt, hoff]
  rfl

theorem chiStep_spread (A : Keccak.State) : chiStep (spread A) = spread (Keccak.chi A) := by
  refine lanes_ext fun x y => ?_
  rw [chiStep, getElem_lanes, getElem_spread, getElem_spread, getElem_spread, getElem_spread,
    complement_ofBits, Keccak.ofBits_and, Keccak.ofBits_xor]
  rfl

theorem RC_eq : ∀ i < 24, RC.getD i 0 = Nat.ofBits (Keccak.roundConstant i) := by
  decide +kernel

theorem roundStep_spread (A : Keccak.State) {i : ℕ} (hi : i < 24) :
    roundStep (spread A) i = spread (Keccak.round A i) := by
  rw [roundStep, thetaStep_spread, rhoPiStep_spread, chiStep_spread]
  refine lanes_ext fun x y => ?_
  have hfirst : (spread (Keccak.chi (Keccak.pi (Keccak.rho (Keccak.theta A)))))[0][0] =
    Nat.ofBits (Keccak.chi (Keccak.pi (Keccak.rho (Keccak.theta A))) 0 0) := getElem_spread _ 0 0
  rw [getElem_put, getElem_spread, getElem_spread, hfirst, RC_eq i hi, Keccak.ofBits_xor]
  split
  · next h =>
    obtain ⟨rfl, rfl⟩ := h
    rfl
  · next h =>
    congr 1
    funext z
    rw [Keccak.round, Keccak.iota, if_neg h]

/-- **The permutation of the page is the permutation.** -/
theorem keccakF_spread (A : Keccak.State) : keccakF (spread A) = spread (Keccak.permute A) := by
  have hsteps : ∀ is : List ℕ, (∀ i ∈ is, i < 24) → ∀ A : Keccak.State,
      is.foldl roundStep (spread A) = spread (is.foldl Keccak.round A) := by
    intro is
    induction is with
    | nil => exact fun _ _ => rfl
    | cons i is ih =>
      intro his A
      obtain ⟨hi, his⟩ := List.forall_mem_cons.mp his
      rw [List.foldl_cons, roundStep_spread A hi, ih his]
      rfl
  exact hsteps _ (fun i hi => List.mem_range.mp hi) A

/-! ### The padding is the padding -/

/-- How long the padded message is. -/
def paddedLength (input : Bytes) : ℕ := (input.length + 1 + (RATE - 1)) / RATE * RATE

theorem paddedLength_eq (input : Bytes) : ∃ q, paddedLength input = 136 * q ∧
    input.length + 1 ≤ 136 * q ∧ 136 * q ≤ input.length + 136 := by
  refine ⟨(input.length + 1 + (RATE - 1)) / RATE, Nat.mul_comm _ _, ?_, ?_⟩
  · rw [RATE]
    omega
  · rw [RATE]
    omega

theorem length_padded (input : Bytes) : (padded input).length = paddedLength input := by
  obtain ⟨q, hq, hle, -⟩ := paddedLength_eq input
  rw [padded, List.length_modify, List.length_set, List.length_append, List.length_replicate,
    ← paddedLength]
  omega

/-- The bytes of a padded message. -/
theorem getD_padded (input : Bytes) {i : ℕ} (hi : i < paddedLength input) :
    (padded input).getD i 0 =
      (if i = paddedLength input - 1 then
        (if i = input.length then 0x01 else input.getD i 0) ||| 0x80
      else if i = input.length then 0x01 else input.getD i 0) := by
  obtain ⟨q, hq, hle, -⟩ := paddedLength_eq input
  have hzeros : (input ++ List.replicate (paddedLength input - input.length) 0)[i]? =
      some (input.getD i 0) := by
    by_cases h : i < input.length
    · rw [List.getElem?_append_left h, List.getD_eq_getElem _ _ h, List.getElem?_eq_getElem h]
    · rw [List.getElem?_append_right (by omega), List.getD_eq_default _ _ (by omega),
        List.getElem?_replicate, if_pos (by omega)]
  have hone : ((input ++ List.replicate (paddedLength input - input.length) 0).set input.length
      0x01)[i]? = some (if i = input.length then 0x01 else input.getD i 0) := by
    rw [List.getElem?_set]
    by_cases h : input.length = i
    · rw [if_pos h, if_pos h.symm, if_pos]
      rw [List.length_append, List.length_replicate]
      omega
    · rw [if_neg h, if_neg (Ne.symm h), hzeros]
  rw [padded, ← paddedLength, List.getD_eq_getElem?_getD, List.getElem?_modify, hone]
  by_cases h : paddedLength input - 1 = i
  · rw [if_pos h.symm]
    simp [h]
  · rw [if_neg (Ne.symm h)]
    simp [h]

/-- The padding as bits: a one, zeros, and a one. -/
theorem getD_pad (rate len k : ℕ) : (Keccak.pad rate len).getD k false =
    (decide (k = 0) || decide (k = (rate - (len + 2) % rate) % rate + 1)) := by
  rw [Keccak.pad]
  generalize (rate - (len + 2) % rate) % rate = j
  rcases k with _ | k
  · rfl
  · rw [List.getD_cons_succ, decide_eq_false (Nat.succ_ne_zero k), Bool.false_or]
    rcases lt_trichotomy k j with h | h | h
    · rw [List.getD_append _ _ _ _ (by simpa using h), List.getD_replicate _ h,
        decide_eq_false (by omega)]
    · rw [List.getD_append_right _ _ _ _ (by simp [h]), List.length_replicate, h, Nat.sub_self,
        decide_eq_true rfl]
      rfl
    · rw [List.getD_eq_default _ _ (by simp; omega), decide_eq_false (by omega)]

theorem length_pad (rate len : ℕ) :
    (Keccak.pad rate len).length = (rate - (len + 2) % rate) % rate + 2 := by
  rw [Keccak.pad, List.length_cons, List.length_append, List.length_replicate,
    List.length_singleton]

/-- **The padded bytes are the padded bits.** -/
theorem bits_padded (input : Bytes) : Keccak.bits (padded input) =
    Keccak.bits input ++ Keccak.pad 1088 (Keccak.bits input).length := by
  obtain ⟨q, hq, hle, hge⟩ := paddedLength_eq input
  have hzeros : (1088 - (8 * input.length + 2) % 1088) % 1088 =
      8 * paddedLength input - 8 * input.length - 2 := by omega
  have hlength : (Keccak.bits (padded input)).length =
      (Keccak.bits input ++ Keccak.pad 1088 (Keccak.bits input).length).length := by
    rw [List.length_append, length_pad, Keccak.length_bits, Keccak.length_bits, length_padded]
    omega
  refine List.ext_getElem hlength fun k hk hk' => ?_
  rw [← List.getD_eq_getElem _ false hk, ← List.getD_eq_getElem _ false hk', Keccak.getD_bits]
  rw [Keccak.length_bits, length_padded] at hk
  rw [getD_padded input (by omega)]
  by_cases hmessage : k < 8 * input.length
  · rw [List.getD_append _ _ _ _ (by rwa [Keccak.length_bits]), Keccak.getD_bits,
      if_neg (by omega), if_neg (by omega)]
  · rw [List.getD_append_right _ _ _ _ (by rw [Keccak.length_bits]; omega), getD_pad,
      Keccak.length_bits, hzeros]
    -- the two ones of the padding, as bits of the bytes they are in
    have hfirst : ∀ t < 8, (0x01 : UInt8).toNat.testBit t = decide (t = 0) := by decide
    have hlast : ∀ t < 8, (0x00 ||| 0x80 : UInt8).toNat.testBit t = decide (t = 7) := by decide
    have hboth : ∀ t < 8, (0x01 ||| 0x80 : UInt8).toNat.testBit t =
      (decide (t = 0) || decide (t = 7)) := by decide
    have hnone : ∀ t < 8, (0x00 : UInt8).toNat.testBit t = false := by decide
    have ht : k % 8 < 8 := Nat.mod_lt _ (by omega)
    by_cases h1 : k / 8 = paddedLength input - 1
    · rw [if_pos h1]
      by_cases h2 : k / 8 = input.length
      · rw [if_pos h2, hboth _ ht]
        congr 1 <;> exact decide_eq_decide.mpr (by omega)
      · have hnot : ¬k - 8 * input.length = 0 := by omega
        rw [if_neg h2, List.getD_eq_default _ _ (by omega), hlast _ ht, decide_eq_false hnot,
          Bool.false_or]
        exact decide_eq_decide.mpr (by omega)
    · have hnot : ¬k - 8 * input.length = 8 * paddedLength input - 8 * input.length - 2 + 1 := by
        omega
      rw [if_neg h1, decide_eq_false hnot, Bool.or_false]
      by_cases h2 : k / 8 = input.length
      · rw [if_pos h2, hfirst _ ht]
        exact decide_eq_decide.mpr (by omega)
      · rw [if_neg h2, List.getD_eq_default _ _ (by omega), hnone _ ht, decide_eq_false (by omega)]

/-! ### The sponge is the sponge -/

theorem testBit_foldr (bs : Bytes) (z : ℕ) :
    (bs.foldr (fun b lane => lane <<< 8 ||| b.toNat) 0).testBit z =
      (bs.getD (z / 8) 0).toNat.testBit (z % 8) := by
  induction bs generalizing z with
  | nil => simp
  | cons b bs ih =>
    rw [List.foldr_cons, Nat.testBit_or, Nat.testBit_shiftLeft, ih]
    by_cases hz : z < 8
    · rw [decide_eq_false (by omega), Bool.false_and, Bool.false_or, Nat.div_eq_of_lt hz,
        Nat.mod_eq_of_lt hz, List.getD_cons_zero]
    · have hdiv : z / 8 = (z - 8) / 8 + 1 := by omega
      have hmod : z % 8 = (z - 8) % 8 := by omega
      rw [decide_eq_true (by omega), Bool.true_and, Keccak.testBit_eq_false b (by omega),
        Bool.or_false, hdiv, hmod, List.getD_cons_succ]

/-- A lane of the padded message spells 64 of its bits. -/
theorem lane_eq (q : Bytes) (start : ℕ) : lane q start =
    Nat.ofBits fun z : Fin 64 => (Keccak.bits q).getD (8 * start + z.val) false := by
  have hfold : lane q start = ((List.range 8).map fun j => q.getD (start + j) 0).foldr
      (fun b lane => lane <<< 8 ||| b.toNat) 0 := by
    rw [lane, List.foldl_reverse, List.foldr_map]
  have hlt : lane q start < 2 ^ 64 := by
    refine Nat.lt_pow_two_of_testBit _ fun i hi => ?_
    rw [hfold, testBit_foldr, List.getD_eq_default _ _ (by simp; omega)]
    exact Nat.zero_testBit _
  refine Keccak.eq_ofBits hlt fun z => ?_
  have hz := z.isLt
  have hdiv : (8 * start + z.val) / 8 = start + z.val / 8 := by omega
  have hmod : (8 * start + z.val) % 8 = z.val % 8 := by omega
  rw [hfold, testBit_foldr, Keccak.getD_bits, hdiv, hmod]
  congr 2
  rw [List.getD_eq_getElem?_getD, List.getElem?_map, List.getElem?_range (by omega)]
  rfl

theorem getElem_addBlock (q : Bytes) (off : ℕ) (a : Lanes) (x y : Fin 5) :
    (addBlock q off a)[x][y] = if 5 * y.val + x.val < 17 then
      a[x][y] ^^^ lane q (off + (5 * y.val + x.val) * 8) else a[x][y] := by
  have hloop : ∀ n ≤ 25, ((List.range n).foldl (fun a i => put a (Fin.ofNat 5 i)
      (Fin.ofNat 5 (i / 5)) (a[Fin.ofNat 5 i][Fin.ofNat 5 (i / 5)] ^^^ lane q (off + i * 8)))
      a)[x][y] = if 5 * y.val + x.val < n then
        a[x][y] ^^^ lane q (off + (5 * y.val + x.val) * 8) else a[x][y] := by
    intro n
    induction n with
    | zero => exact fun _ => rfl
    | succ n ih =>
      intro hn
      have hx := x.isLt
      have hy := y.isLt
      have hcell : x = Fin.ofNat 5 n ∧ y = Fin.ofNat 5 (n / 5) ↔ 5 * y.val + x.val = n := by
        rw [Fin.ext_iff, Fin.ext_iff]
        change x.val = n % 5 ∧ y.val = n / 5 % 5 ↔ _
        omega
      rw [List.range_succ, List.foldl_append, List.foldl_cons, List.foldl_nil, getElem_put]
      by_cases heq : 5 * y.val + x.val = n
      · obtain ⟨rfl, rfl⟩ := hcell.mpr heq
        rw [if_pos ⟨rfl, rfl⟩, ih (by omega), if_neg (by omega), if_pos (by omega), heq]
      · rw [if_neg (fun h => heq (hcell.mp h)), ih (by omega)]
        by_cases hlt : 5 * y.val + x.val < n
        · rw [if_pos hlt, if_pos (by omega)]
        · rw [if_neg hlt, if_neg (by omega)]
  exact hloop 17 (by omega)

theorem addBlock_spread (q : Bytes) (k : ℕ) (A : Keccak.State) :
    addBlock q (k * RATE) (spread A) =
      spread (Keccak.addBlock A (((Keccak.bits q).drop (1088 * k)).take 1088)) := by
  refine lanes_ext fun x y => ?_
  rw [getElem_addBlock, getElem_spread, getElem_spread, lane_eq]
  split
  · next hin =>
    rw [Keccak.ofBits_xor]
    congr 1
    funext z
    have hz := z.isLt
    have hplace : 8 * (k * RATE + (5 * y.val + x.val) * 8) + z.val =
        1088 * k + (64 * (5 * y.val + x.val) + z.val) := by
      rw [RATE]
      omega
    rw [Keccak.addBlock, hplace]
    congr 1
    simp only [List.getD_eq_getElem?_getD]
    rw [List.getElem?_take_of_lt (by omega), List.getElem?_drop]
  · next hout =>
    congr 1
    funext z
    rw [Keccak.addBlock, List.getD_eq_default _ _ (by simp; omega), Bool.xor_false]

/-- The blocks are absorbed as the blocks. -/
theorem absorb_spread (q : Bytes) : (List.range (q.length / RATE)).foldl
    (fun a k => keccakF (addBlock q (k * RATE) a)) (lanes fun _ _ => 0) =
      spread (Keccak.absorb 1088 (Keccak.bits q) fun _ _ _ => false) := by
  have hblocks : (Keccak.bits q).length / 1088 = q.length / RATE := by
    rw [Keccak.length_bits, RATE]
    omega
  have hzero : (lanes fun _ _ => 0) = spread fun _ _ _ => false := by
    refine lanes_ext fun x y => ?_
    rw [getElem_lanes, getElem_spread]
    exact Keccak.eq_ofBits (by decide) fun i => Nat.zero_testBit i
  rw [Keccak.absorb, hblocks, hzero]
  induction List.range (q.length / RATE) using List.reverseRecOn with
  | nil => rfl
  | append_singleton ks k ih =>
    rw [List.foldl_append, List.foldl_append, ih, List.foldl_cons, List.foldl_nil, List.foldl_cons,
      List.foldl_nil, addBlock_spread, keccakF_spread]

/-- The bytes of the first lanes are the bytes of the state. -/
theorem squeeze_spread (A : Keccak.State) : ((List.range 4).flatMap fun i =>
    (List.range 8).map fun j => UInt8.ofNat
      (((spread A)[Fin.ofNat 5 i][Fin.ofNat 5 (i / 5)] >>> (8 * j)) &&& 0xff)) =
    Keccak.squeeze 32 A := by
  have hrange : List.range 32 = (List.range 4).flatMap fun i => (List.range 8).map (8 * i + ·) := by
    decide
  rw [Keccak.squeeze, hrange, List.map_flatMap]
  refine List.flatMap_congr fun i hi => ?_
  rw [List.map_map]
  refine List.map_congr_left fun j hj => ?_
  rw [List.mem_range] at hi hj
  rw [Function.comp_apply, getElem_spread]
  congr 1
  refine Keccak.eq_ofBits (Nat.and_le_right.trans_lt (by decide)) fun t => ?_
  have ht := t.isLt
  have hmask : ∀ t < 8, Nat.testBit 0xff t = true := by decide
  rw [Nat.testBit_and, hmask _ ht, Bool.and_true, Nat.testBit_shiftRight,
    Nat.testBit_ofBits_lt _ (8 * j + t.val) (by omega), Keccak.bitAt]
  have hcolumn : Fin.ofNat 5 ((8 * (8 * i + j) + t.val) / 64) = Fin.ofNat 5 i := by
    congr 1
    omega
  have hrow : Fin.ofNat 5 ((8 * (8 * i + j) + t.val) / 320) = Fin.ofNat 5 (i / 5) := by
    congr 1
    omega
  rw [hcolumn, hrow]
  congr 1
  refine Fin.ext ?_
  change 8 * j + t.val = (8 * (8 * i + j) + t.val) % 64
  omega

/-- **The page hashes with Keccak-256**, whatever the length of the message. -/
theorem keccak256_eq (input : Bytes) : keccak256 input = Keccak.keccak256 input := by
  rw [Keccak.keccak256, Keccak.sponge, ← bits_padded, ← squeeze_spread, ← absorb_spread]
  rfl

/-- The digest of no bytes. -/
example : keccak256 [] =
    [0xc5, 0xd2, 0x46, 0x01, 0x86, 0xf7, 0x23, 0x3c, 0x92, 0x7e, 0x7d, 0xb2, 0xdc, 0xc7, 0x03, 0xc0,
     0xe5, 0x00, 0xb6, 0x53, 0xca, 0x82, 0x27, 0x3b, 0x7b, 0xfa, 0xd8, 0x04, 0x5d, 0x85, 0xa4,
     0x70] := by
  decide +kernel

end Frontend

end SelendraBridge
