import Mathlib.Data.List.Forall2
import SelendraBridge.Abi

/-!
# Arguments under the standard coder

The arguments of a call are one tuple. Its *head* has a word for each of them – the value of a
static one, and for a string of bytes the place where it is found, counted from the start of the
tuple – and its *tail* has the strings, each behind its length and padded to words.

| | |
|---|---|
| `SelendraBridge.Abi.encodeTuple` | head and tail |
| `SelendraBridge.Abi.decodeArgs` | the checks of the compiler: narrow words fit, offsets and lengths have 64 bits and stay inside |

What is encoded is decoded (`SelendraBridge.Abi.decodeArgs_encodeTuple`). A structure with a
string in it is itself a string to the coder: encoded on its own, it is a tuple of one member,
which stands behind the word `0x20` (`SelendraBridge.Abi.encodeAutoParamsTo`).
-/

namespace SelendraBridge

namespace Abi

/-- The types of the arguments. -/
inductive Ty
  | address
  | bytes32
  | uint8
  | uint256
  | bytes
  deriving DecidableEq, Repr

/-- An argument: a word, or a string of bytes. -/
inductive Arg
  | word (n : ℕ)
  | bytes (bs : Bytes)
  deriving DecidableEq, Repr

/-- The first number that a static type has no room for. -/
def Ty.bound : Ty → ℕ
  | .address => 2 ^ 160
  | .uint8 => 2 ^ 8
  | _ => 2 ^ 256

/-- An argument of a type. -/
inductive Arg.Of : Ty → Arg → Prop
  | word {t : Ty} {n : ℕ} (static : t ≠ .bytes) (lt : n < t.bound) : Of t (.word n)
  | bytes (bs : Bytes) : Of .bytes (.bytes bs)

theorem Ty.bound_le (t : Ty) : t.bound ≤ 2 ^ 256 := by
  cases t with
  | address => exact Nat.pow_le_pow_right (by omega) (by omega)
  | uint8 => exact Nat.pow_le_pow_right (by omega) (by omega)
  | _ => exact le_rfl

/-! ### Decoding -/

/-- The `i`-th argument. -/
def decodeArg (bs : Bytes) (i : ℕ) (t : Ty) : Option Arg :=
  if t = .bytes then (decodeMember bs 0 (32 * i)).map .bytes
  else if wordAt bs (32 * i) < t.bound then some (.word (wordAt bs (32 * i)))
  else none

/-- The arguments from the `i`-th on. -/
def decodeFrom (bs : Bytes) : ℕ → List Ty → Option (List Arg)
  | _, [] => some []
  | i, t :: ts => do
    let a ← decodeArg bs i t
    let as ← decodeFrom bs (i + 1) ts
    return a :: as

/-- **The arguments of a call**; `none` is a revert. -/
def decodeArgs (ts : List Ty) (bs : Bytes) : Option (List Arg) :=
  if bs.length < 32 * ts.length then none else decodeFrom bs 0 ts

/-- **Whatever is decoded is of its type.** -/
theorem of_decodeFrom {bs : Bytes} {i : ℕ} {ts : List Ty} {as : List Arg}
    (h : decodeFrom bs i ts = some as) : List.Forall₂ Arg.Of ts as := by
  induction ts generalizing i as with
  | nil =>
    obtain rfl := Option.some.inj h
    exact .nil
  | cons t ts ih =>
    obtain ⟨a, ha, h⟩ := Option.bind_eq_some_iff.mp h
    obtain ⟨as, has, h⟩ := Option.bind_eq_some_iff.mp h
    obtain rfl := Option.some.inj h
    refine .cons ?_ (ih has)
    rw [decodeArg] at ha
    split at ha
    · next ht =>
      obtain ⟨b, -, rfl⟩ := Option.map_eq_some_iff.mp ha
      rw [ht]
      exact .bytes b
    · next ht =>
      rw [Option.ite_none_right_eq_some] at ha
      obtain ⟨hlt, ha⟩ := ha
      rw [← Option.some.inj ha]
      exact .word ht hlt

theorem of_decodeArgs {ts : List Ty} {bs : Bytes} {as : List Arg}
    (h : decodeArgs ts bs = some as) : List.Forall₂ Arg.Of ts as := by
  rw [decodeArgs, Option.ite_none_left_eq_some] at h
  exact of_decodeFrom h.2

/-! ### Encoding -/

/-- A string: its length, and its bytes padded to words. -/
def encodeBytes (b : Bytes) : Bytes :=
  natWord b.length ++ (b ++ List.replicate ((b.length + 31) / 32 * 32 - b.length) 0)

/-- What an argument has in the tail. -/
def Arg.tail : Arg → Bytes
  | .word _ => []
  | .bytes bs => encodeBytes bs

/-- The head, with the tail of the first argument at an offset. -/
def encodeHead : ℕ → List Arg → Bytes
  | _, [] => []
  | off, .word n :: as => natWord n ++ encodeHead off as
  | off, .bytes bs :: as => natWord off ++ encodeHead (off + (encodeBytes bs).length) as

/-- The tail. -/
def encodeTail (as : List Arg) : Bytes := as.flatMap Arg.tail

/-- **The encoding of a tuple.** -/
def encodeTuple (as : List Arg) : Bytes := encodeHead (32 * as.length) as ++ encodeTail as

/-- `abi.encode(AutoParamsTo)`. -/
def encodeAutoParamsTo (p : AutoParamsTo) : Bytes :=
  natWord 32 ++ (wordBytes p.executionFee ++ (wordBytes p.flags ++ (natWord 128 ++
    (natWord (128 + (encodeBytes p.fallbackAddress).length) ++
      (encodeBytes p.fallbackAddress ++ encodeBytes p.data)))))

/-- The members of a payload. -/
def members (ap : AutoParamsTo) : List Arg :=
  [.word ap.executionFee.toNat, .word ap.flags.toNat, .bytes ap.fallbackAddress, .bytes ap.data]

@[simp] theorem length_natWord (n : ℕ) : (natWord n).length = 32 := length_wordBytes _

theorem ofBytes_natWord {n : ℕ} (h : n < 2 ^ 256) : BigEndian.ofBytes (natWord n) = n := by
  have hlt : n < 256 ^ 32 := lt_of_lt_of_le h (by norm_num)
  rw [natWord, wordBytes, BigEndian.ofWord, BigEndian.ofBytes_toBytes, BitVec.toNat_ofNat,
    Nat.mod_eq_of_lt h, Nat.mod_eq_of_lt hlt]

@[simp] theorem length_encodeHead (off : ℕ) (as : List Arg) :
    (encodeHead off as).length = 32 * as.length := by
  induction as generalizing off with
  | nil => rfl
  | cons a as ih =>
    cases a with
    | word n =>
      rw [encodeHead, List.length_append, length_natWord, ih, List.length_cons]
      omega
    | bytes bs =>
      rw [encodeHead, List.length_append, length_natWord, ih, List.length_cons]
      omega

theorem length_encodeBytes (b : Bytes) :
    (encodeBytes b).length = 32 + (b.length + 31) / 32 * 32 := by
  simp only [encodeBytes, List.length_append, length_natWord, List.length_replicate]
  omega

/-- A payload on its own is a tuple of one member. -/
theorem encodeAutoParamsTo_eq (ap : AutoParamsTo) :
    encodeAutoParamsTo ap = natWord 32 ++ encodeTuple (members ap) := by
  have hword : ∀ w : U256, natWord w.toNat = wordBytes w := by
    intro w
    rw [natWord, BitVec.ofNat_toNat, BitVec.setWidth_eq]
  simp only [encodeAutoParamsTo, members, encodeTuple, encodeHead, encodeTail, Arg.tail,
    List.flatMap_cons, List.flatMap_nil, List.append_nil, List.nil_append, List.append_assoc,
    List.length_cons, List.length_nil, hword]

/-- A string in its place. -/
theorem decodeBytes_encodeBytes {p q b : Bytes} {i : ℕ} (hi : p.length = i)
    (hb : b.length < 2 ^ 64) : decodeBytes (p ++ (encodeBytes b ++ q)) i = some b := by
  have hword : wordAt (p ++ (encodeBytes b ++ q)) i = b.length := by
    rw [encodeBytes, List.append_assoc, wordAt_append hi (length_natWord _),
      ofBytes_natWord (by omega)]
  have hslice : sliceAt (p ++ (encodeBytes b ++ q)) (i + 32) b.length = b := by
    rw [encodeBytes, List.append_assoc, List.append_assoc, ← List.append_assoc]
    exact sliceAt_append (by rw [List.length_append, hi, length_natWord]) rfl
  have hlen := length_encodeBytes b
  simp only [decodeBytes, Option.ite_none_left_eq_some, hword, hslice, maxOffset,
    List.length_append, hlen, hi]
  exact ⟨by omega, by omega, by omega, trivial⟩

/-- **A payload is decoded from its encoding.** -/
theorem decodeAutoParamsTo_encodeAutoParamsTo {ap : AutoParamsTo}
    (hlen : (encodeAutoParamsTo ap).length < 2 ^ 64) :
    decodeAutoParamsTo (encodeAutoParamsTo ap) = some ap := by
  obtain ⟨bs, e⟩ : ∃ bs, bs = encodeAutoParamsTo ap := ⟨_, rfl⟩
  have htotal : bs.length = 160 + ((encodeBytes ap.fallbackAddress).length +
      (encodeBytes ap.data).length) := by
    simp only [e, encodeAutoParamsTo, List.length_append, length_natWord, length_wordBytes]
    omega
  have hfbLen := length_encodeBytes ap.fallbackAddress
  have hdLen := length_encodeBytes ap.data
  rw [← e] at hlen ⊢
  rw [encodeAutoParamsTo] at e
  have hword : ∀ w : U256, BitVec.ofNat 256 (BigEndian.ofBytes (wordBytes w)) = w := by
    intro w
    have hw := ofBytes_natWord w.isLt
    rw [natWord, BitVec.ofNat_toNat, BitVec.setWidth_eq] at hw
    rw [hw, BitVec.ofNat_toNat, BitVec.setWidth_eq]
  -- Each piece is found behind the pieces before it.
  have h0 : wordAt bs 0 = 32 := by
    rw [e, ← List.nil_append (natWord 32 ++ _)]
    rw [wordAt_append List.length_nil (length_natWord _), ofBytes_natWord (by omega)]
  have h32 : BitVec.ofNat 256 (wordAt bs 32) = ap.executionFee := by
    rw [e, wordAt_append (length_natWord _) (length_wordBytes _), hword]
  have h64 : BitVec.ofNat 256 (wordAt bs 64) = ap.flags := by
    rw [e, ← List.append_assoc, wordAt_append (by simp) (length_wordBytes _), hword]
  have h96 : wordAt bs 96 = 128 := by
    rw [e, ← List.append_assoc, ← List.append_assoc, wordAt_append (by simp) (length_natWord _),
      ofBytes_natWord (by omega)]
  have h128 : wordAt bs 128 = 128 + (encodeBytes ap.fallbackAddress).length := by
    rw [e, ← List.append_assoc, ← List.append_assoc, ← List.append_assoc,
      wordAt_append (by simp) (length_natWord _), ofBytes_natWord (by omega)]
  have hfb : decodeBytes bs 160 = some ap.fallbackAddress := by
    rw [e, ← List.append_assoc, ← List.append_assoc, ← List.append_assoc, ← List.append_assoc]
    exact decodeBytes_encodeBytes (by simp) (by omega)
  have hd : decodeBytes bs (160 + (encodeBytes ap.fallbackAddress).length) = some ap.data := by
    rw [e, ← List.append_nil (encodeBytes ap.data), ← List.append_assoc, ← List.append_assoc,
      ← List.append_assoc, ← List.append_assoc, ← List.append_assoc]
    refine decodeBytes_encodeBytes ?_ (by omega)
    simp only [List.length_append, length_natWord, length_wordBytes]
  have hfb' : decodeMember bs 32 64 = some ap.fallbackAddress := by
    rw [decodeMember, h96, if_neg (by decide)]
    exact hfb
  have hd' : decodeMember bs 32 96 = some ap.data := by
    rw [decodeMember, h128, if_neg (by rw [maxOffset]; omega), ← Nat.add_assoc]
    exact hd
  rw [decodeAutoParamsTo, h0, if_neg (by omega), if_neg (by decide), if_neg (by omega), hfb', hd',
    h32, h64]
  rfl

/-- **What is encoded is decoded**, from any argument on: with the heads of the arguments before
it in front, and their tails between the heads and its own. -/
theorem decodeFrom_encodeTuple {ts : List Ty} {as : List Arg} (h : List.Forall₂ Arg.Of ts as)
    {i off : ℕ} {pre mid : Bytes} (hi : pre.length = 32 * i)
    (hoff : off = pre.length + 32 * as.length + mid.length)
    (hlen : off + (encodeTail as).length < 2 ^ 64) :
    decodeFrom (pre ++ (encodeHead off as ++ (mid ++ encodeTail as))) i ts = some as := by
  induction h generalizing i off pre mid with
  | nil => rfl
  | @cons t a ts as ha has ih =>
    cases ha with
    | word static lt =>
      rename_i n
      have hword : wordAt (pre ++ (encodeHead off (.word n :: as) ++
          (mid ++ encodeTail (.word n :: as)))) (32 * i) = n := by
        rw [encodeHead, List.append_assoc, wordAt_append hi (length_natWord n),
          ofBytes_natWord (lt_of_lt_of_le lt t.bound_le)]
      have hrest := @ih (i + 1) off (pre ++ natWord n) mid
        (by rw [List.length_append, hi, length_natWord]; omega)
        (by rw [hoff, List.length_append, length_natWord, List.length_cons]; omega)
        hlen
      rw [List.append_assoc, ← List.append_assoc (natWord n)] at hrest
      rw [decodeFrom, decodeArg, if_neg static, hword, if_pos lt]
      exact Option.bind_eq_some_iff.mpr ⟨_, rfl, Option.bind_eq_some_iff.mpr ⟨as, hrest, rfl⟩⟩
    | bytes bs =>
      have htail : encodeTail (.bytes bs :: as) = encodeBytes bs ++ encodeTail as := rfl
      have hb := length_encodeBytes bs
      rw [htail, List.length_append] at hlen
      rw [List.length_cons] at hoff
      have hword : wordAt (pre ++ (encodeHead off (.bytes bs :: as) ++
          (mid ++ encodeTail (.bytes bs :: as)))) (32 * i) = off := by
        rw [encodeHead, List.append_assoc, wordAt_append hi (length_natWord off),
          ofBytes_natWord (by omega)]
      have hmember : decodeMember (pre ++ (encodeHead off (.bytes bs :: as) ++
          (mid ++ encodeTail (.bytes bs :: as)))) 0 (32 * i) = some bs := by
        have hmax : maxOffset = 2 ^ 64 := rfl
        rw [decodeMember, Nat.zero_add, hword, if_neg (by omega), Nat.zero_add, htail, ← List.append_assoc,
          ← List.append_assoc]
        refine decodeBytes_encodeBytes ?_ (by omega)
        rw [List.length_append, List.length_append, length_encodeHead, List.length_cons]
        omega
      have hrest := @ih (i + 1) (off + (encodeBytes bs).length) (pre ++ natWord off)
        (mid ++ encodeBytes bs)
        (by rw [List.length_append, hi, length_natWord]; omega)
        (by rw [hoff, List.length_append, List.length_append, length_natWord]; omega)
        (by omega)
      rw [List.append_assoc, ← List.append_assoc (natWord off), List.append_assoc mid] at hrest
      rw [decodeFrom, decodeArg, if_pos rfl, hmember]
      exact Option.bind_eq_some_iff.mpr ⟨_, rfl, Option.bind_eq_some_iff.mpr ⟨as, hrest, rfl⟩⟩

/-- **Encoded arguments are decoded.** -/
theorem decodeArgs_encodeTuple {ts : List Ty} {as : List Arg} (h : List.Forall₂ Arg.Of ts as)
    (hlen : (encodeTuple as).length < 2 ^ 64) : decodeArgs ts (encodeTuple as) = some as := by
  have hts := h.length_eq
  rw [encodeTuple, List.length_append, length_encodeHead] at hlen
  rw [decodeArgs, if_neg, encodeTuple]
  · exact @decodeFrom_encodeTuple ts as h 0 (32 * as.length) [] [] rfl (by simp) hlen
  · rw [encodeTuple, List.length_append, length_encodeHead, hts]
    omega

end Abi

end SelendraBridge
