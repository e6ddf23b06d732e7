import Mathlib.Tactic.NormNum
import SelendraBridge.AbiTuples

/-!
# The intent that rides in a transfer

A router that bridges the stable writes what is to become of it – the token, who gets it,
the least amount – into the data of the execution payload, and the router at the other end
reads it back (`SelendraBridge.SwapRouter.decodeIntent_encode`). The payload is encoded in
the one layout of the compiler's coder,

| at | word |
|---|---|
| 0 | `0x20`, the offset of the tuple |
| 32, 64 | fee and flags |
| 96, 128 | the offsets of the two strings, from the tuple on |
| 160 | the fallback address: its length, and its bytes padded to a word |
| 224 | the data: its length, and the three words of the intent |

and decoded as leniently as the gate decodes it.
-/

namespace SelendraBridge

namespace SwapRouter

/-- What is to become of the stable. -/
structure Intent where
  finalToken : Address
  finalReceiver : Address
  finalMinOut : U256
  deriving DecidableEq, Repr

/-- The first number that is no address. -/
def addressBound : ℕ := 1461501637330902918203684832716283019655932542976

/-- `abi.encode(finalToken, finalReceiver, finalMinOut)`. -/
def encodeWords (i : Intent) : Bytes :=
  wordBytes (addressWord i.finalToken) ++ (wordBytes (addressWord i.finalReceiver) ++
    wordBytes i.finalMinOut)

/-- `abi.decode(data, (address, address, uint256))`. -/
def decodeWords (data : Bytes) : Option Intent :=
  if data.length < 96 then none
  else if addressBound ≤ wordAt data 0 then none
  else if addressBound ≤ wordAt data 32 then none
  else some ⟨BitVec.ofNat 160 (wordAt data 0), BitVec.ofNat 160 (wordAt data 32),
    BitVec.ofNat 256 (wordAt data 64)⟩

/-- The execution payload of a transfer to another router. -/
def intentParams (i : Intent) : AutoParamsTo where
  executionFee := 0
  flags := 0
  fallbackAddress := addressBytes i.finalReceiver
  data := encodeWords i

/-- `_decodeIntent`; `none` is a revert. -/
def decodeIntent (autoParams : Bytes) : Option Intent :=
  (Abi.decodeAutoParamsTo autoParams).bind fun ap => decodeWords ap.data

/-! ### The intent arrives -/

/-- What stands behind a prefix of known length. -/
theorem wordAt_append {p q : Bytes} {w : BitVec 256} {i : ℕ} (hi : p.length = i) :
    wordAt (p ++ (wordBytes w ++ q)) i = w.toNat := by
  subst hi
  have hlt : w.toNat < 256 ^ 32 := lt_of_lt_of_le w.isLt (by norm_num)
  rw [wordAt, sliceAt, List.drop_left, List.take_left' (length_wordBytes w), wordBytes,
    BigEndian.ofWord, BigEndian.ofBytes_toBytes, Nat.mod_eq_of_lt hlt]

theorem wordAt_natWord {p q : Bytes} {n i : ℕ} (hn : n < 2 ^ 256) (hi : p.length = i) :
    wordAt (p ++ (Abi.natWord n ++ q)) i = n := by
  rw [Abi.natWord, wordAt_append hi, BitVec.toNat_ofNat, Nat.mod_eq_of_lt hn]

@[simp] theorem length_encodeWords (i : Intent) : (encodeWords i).length = 96 := by
  simp only [encodeWords, List.length_append, length_wordBytes]

/-- The words of an intent read back. -/
theorem decodeWords_encode (i : Intent) : decodeWords (encodeWords i) = some i := by
  have hword : ∀ a : Address, (addressWord a).toNat = a.toNat := fun a =>
    BitVec.toNat_setWidth_of_le (by omega)
  have h0 : wordAt (encodeWords i) 0 = i.finalToken.toNat := by
    have h := wordAt_append (p := []) (q := wordBytes (addressWord i.finalReceiver) ++
      wordBytes i.finalMinOut) (w := addressWord i.finalToken) (i := 0) rfl
    rwa [List.nil_append, hword] at h
  have h1 : wordAt (encodeWords i) 32 = i.finalReceiver.toNat := by
    have h := wordAt_append (p := wordBytes (addressWord i.finalToken))
      (q := wordBytes i.finalMinOut) (w := addressWord i.finalReceiver) (i := 32)
      (length_wordBytes _)
    rwa [hword] at h
  have h2 : wordAt (encodeWords i) 64 = i.finalMinOut.toNat := by
    have h := wordAt_append (p := wordBytes (addressWord i.finalToken) ++
      wordBytes (addressWord i.finalReceiver)) (q := []) (w := i.finalMinOut) (i := 64)
      (by simp only [List.length_append, length_wordBytes])
    rwa [List.append_nil, List.append_assoc] at h
  have hlt : ∀ a : Address, ¬addressBound ≤ a.toNat := fun a =>
    not_le.mpr (lt_of_lt_of_le a.isLt (by norm_num [addressBound]))
  simp only [decodeWords, length_encodeWords, h0, h1, h2, hlt, if_false, lt_irrefl,
    BitVec.ofNat_toNat, BitVec.setWidth_eq]

/-- The words of the payload, and its two strings. -/
theorem encodeAutoParamsTo_eq (i : Intent) : Abi.encodeAutoParamsTo (intentParams i) =
    Abi.natWord 32 ++ (wordBytes 0 ++ (wordBytes 0 ++ (Abi.natWord 128 ++ (Abi.natWord 192 ++
      (Abi.encodeBytes (addressBytes i.finalReceiver) ++ Abi.encodeBytes (encodeWords i)))))) := by
  have hlen : 128 + (Abi.encodeBytes (addressBytes i.finalReceiver)).length = 192 := by
    rw [Abi.length_encodeBytes, length_addressBytes]
  simp only [Abi.encodeAutoParamsTo, intentParams, hlen]

theorem length_encodeAutoParamsTo (i : Intent) :
    (Abi.encodeAutoParamsTo (intentParams i)).length = 352 := by
  simp only [encodeAutoParamsTo_eq, List.length_append, Abi.length_natWord, length_wordBytes,
    Abi.length_encodeBytes, length_addressBytes, length_encodeWords]

/-- **The layout of the payload**: each word is found behind the words before it, and each
string where its offset says. -/
theorem layout (i : Intent) :
    wordAt (Abi.encodeAutoParamsTo (intentParams i)) 0 = 32 ∧
      Abi.decodeMember (Abi.encodeAutoParamsTo (intentParams i)) 32 64 =
        some (addressBytes i.finalReceiver) ∧
      Abi.decodeMember (Abi.encodeAutoParamsTo (intentParams i)) 32 96 =
        some (encodeWords i) := by
  rw [encodeAutoParamsTo_eq]
  generalize hf : Abi.encodeBytes (addressBytes i.finalReceiver) = fallback
  generalize hd : Abi.encodeBytes (encodeWords i) = data
  have hfallback : fallback.length = 64 := by
    rw [← hf, Abi.length_encodeBytes, length_addressBytes]
  have hbase := wordAt_natWord (p := []) (n := 32) (i := 0) (q := wordBytes 0 ++
    (wordBytes 0 ++ (Abi.natWord 128 ++ (Abi.natWord 192 ++ (fallback ++ data)))))
    (by norm_num) rfl
  have hoffset₁ := wordAt_natWord (p := Abi.natWord 32 ++ (wordBytes 0 ++ wordBytes 0))
    (n := 128) (i := 96) (q := Abi.natWord 192 ++ (fallback ++ data)) (by norm_num)
    (by simp only [List.length_append, Abi.length_natWord, length_wordBytes])
  have hoffset₂ := wordAt_natWord (p := Abi.natWord 32 ++ (wordBytes 0 ++ (wordBytes 0 ++
    Abi.natWord 128))) (n := 192) (i := 128) (q := fallback ++ data) (by norm_num)
    (by simp only [List.length_append, Abi.length_natWord, length_wordBytes])
  have hbytes₁ := Abi.decodeBytes_encodeBytes (p := Abi.natWord 32 ++ (wordBytes 0 ++ (wordBytes 0 ++
    (Abi.natWord 128 ++ Abi.natWord 192)))) (q := data) (b := addressBytes i.finalReceiver)
    (i := 160) (by simp only [List.length_append, Abi.length_natWord, length_wordBytes])
    (by rw [length_addressBytes]; norm_num)
  have hbytes₂ := Abi.decodeBytes_encodeBytes (p := Abi.natWord 32 ++ (wordBytes 0 ++ (wordBytes 0 ++
    (Abi.natWord 128 ++ (Abi.natWord 192 ++ fallback))))) (q := []) (b := encodeWords i)
    (i := 224) (by simp only [List.length_append, Abi.length_natWord, length_wordBytes, hfallback])
    (by rw [length_encodeWords]; norm_num)
  rw [hf] at hbytes₁
  rw [hd] at hbytes₂
  simp only [List.append_assoc, List.nil_append] at hbase hoffset₁ hoffset₂
  simp only [List.append_assoc, List.append_nil] at hbytes₁ hbytes₂
  refine ⟨hbase, ?_, ?_⟩
  · rw [Abi.decodeMember, hoffset₁, if_neg (by norm_num [Abi.maxOffset]), hbytes₁]
  · rw [Abi.decodeMember, hoffset₂, if_neg (by norm_num [Abi.maxOffset]), hbytes₂]

/-- **The intent arrives** as it was written. -/
theorem decodeIntent_encode (i : Intent) :
    decodeIntent (Abi.encodeAutoParamsTo (intentParams i)) = some i := by
  obtain ⟨hbase, hfallback, hdata⟩ := layout i
  have hlen := length_encodeAutoParamsTo i
  generalize Abi.encodeAutoParamsTo (intentParams i) = bs at hbase hfallback hdata hlen ⊢
  rw [decodeIntent, Abi.decodeAutoParamsTo, hlen, hbase, if_neg (by norm_num),
    if_neg (by norm_num [Abi.maxOffset]), if_neg (by norm_num), hfallback, hdata]
  simp only [Option.bind_eq_bind, Option.pure_def, Option.bind_some, decodeWords_encode]

end SwapRouter

end SelendraBridge
