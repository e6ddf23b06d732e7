import SelendraBridge.Lib.BigEndian

/-!
# Words, addresses and byte strings

The scalar types the contracts, the Solana program and the off-chain store share,
and the two ways a fixed-width value becomes bytes: on its own width
(`abi.encodePacked`, `SelendraBridge.wordBytes` and `SelendraBridge.addressBytes`)
or widened to a word (`abi.encode`, `SelendraBridge.addressWord`).
-/

namespace SelendraBridge

/-- A byte string: `bytes` in Solidity, `Vec<u8>` in Rust. -/
abbrev Bytes := List UInt8

/-- A `bytes32`: a hash, an identifier. -/
abbrev Bytes32 := BitVec 256

/-- A `uint256`. -/
abbrev U256 := BitVec 256

/-- A `uint64`, the width of an SPL amount. -/
abbrev U64 := BitVec 64

/-- An EVM address. -/
abbrev Address := BitVec 160

/-- The bytes of an ASCII literal of the source. -/
def ascii (s : String) : Bytes := s.toList.map fun c => UInt8.ofNat c.toNat

/-- A 32-byte word, packed. -/
def wordBytes (w : BitVec 256) : Bytes := BigEndian.ofWord 32 w

/-- A 20-byte address, packed. -/
def addressBytes (a : Address) : Bytes := BigEndian.ofWord 20 a

/-- An address widened to a word, as `abi.encode` and the event topics have it. -/
def addressWord (a : Address) : BitVec 256 := a.setWidth 256

/-- The `n` bytes from position `i`, when they are all there. -/
def sliceAt (bs : Bytes) (i n : ℕ) : Bytes := (bs.drop i).take n

/-- The word at position `i`. -/
def wordAt (bs : Bytes) (i : ℕ) : ℕ := BigEndian.ofBytes (sliceAt bs i 32)

/-- What stands at a position that is known. -/
theorem sliceAt_append {pre x post : Bytes} {i n : ℕ} (hi : pre.length = i) (hn : x.length = n) :
    sliceAt (pre ++ (x ++ post)) i n = x := by
  subst hi hn
  rw [sliceAt, List.drop_left, List.take_left]

/-- And the word there, when it is one. -/
theorem wordAt_append {pre x post : Bytes} {i : ℕ} (hi : pre.length = i) (hx : x.length = 32) :
    wordAt (pre ++ (x ++ post)) i = BigEndian.ofBytes x := by
  rw [wordAt, sliceAt_append hi hx]

@[simp] theorem length_wordBytes (w : BitVec 256) : (wordBytes w).length = 32 :=
  BigEndian.length_ofWord (n := 32) w

@[simp] theorem length_addressBytes (a : Address) : (addressBytes a).length = 20 :=
  BigEndian.length_ofWord (n := 20) a

@[simp] theorem wordBytes_inj {v w : BitVec 256} : wordBytes v = wordBytes w ↔ v = w :=
  BigEndian.ofWord_eq_iff (n := 32)

@[simp] theorem addressBytes_inj {a b : Address} : addressBytes a = addressBytes b ↔ a = b :=
  BigEndian.ofWord_eq_iff (n := 20)

@[simp] theorem addressWord_inj {a b : Address} : addressWord a = addressWord b ↔ a = b := by
  constructor
  · intro h
    have h' := congrArg BitVec.toNat h
    simp only [addressWord, BitVec.toNat_setWidth] at h'
    have ha := a.isLt
    have hb := b.isLt
    exact BitVec.eq_of_toNat_eq (by omega)
  · rintro rfl
    rfl

/-- Words at the front of two equal byte strings are equal, and so are the rests. -/
theorem wordBytes_append_inj {v w : BitVec 256} {xs ys : Bytes} :
    wordBytes v ++ xs = wordBytes w ++ ys ↔ v = w ∧ xs = ys := by
  constructor
  · intro h
    obtain ⟨hv, hxs⟩ := List.append_inj h (by simp)
    exact ⟨wordBytes_inj.mp hv, hxs⟩
  · rintro ⟨rfl, rfl⟩
    rfl

/-- **A hash without collisions among some strings.** Every result that needs ids to
differ assumes this of the strings that were hashed, and of no others. -/
def CollisionFree (keccak256 : Bytes → Bytes32) (strings : List Bytes) : Prop :=
  ∀ x ∈ strings, ∀ y ∈ strings, keccak256 x = keccak256 y → x = y

instance (keccak256 : Bytes → Bytes32) (strings : List Bytes) :
    Decidable (CollisionFree keccak256 strings) :=
  inferInstanceAs (Decidable (∀ x ∈ strings, ∀ y ∈ strings, keccak256 x = keccak256 y → x = y))

/-- Of two strings. -/
theorem collisionFree_pair {keccak256 : Bytes → Bytes32} {x y : Bytes} :
    CollisionFree keccak256 [x, y] ↔ (keccak256 x = keccak256 y → x = y) := by
  constructor
  · intro h
    exact h x (by simp) y (by simp)
  · intro h u hu v hv
    simp only [List.mem_cons, List.not_mem_nil, or_false] at hu hv
    rcases hu with rfl | rfl <;> rcases hv with rfl | rfl
    · exact fun _ => rfl
    · exact h
    · exact fun he => (h he.symm).symm
    · exact fun _ => rfl

end SelendraBridge
