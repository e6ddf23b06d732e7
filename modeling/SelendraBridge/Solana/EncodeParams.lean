import SelendraBridge.Solana.AutoParams

/-!
# The payload of the program's transfer, as a contract takes it

The other way round from `SelendraBridge.Solana.decodeEvmAutoParams`: the relayer spells the
payload of an event as the compiler's coder would, and stores that. The encoding has one
layout,

| at | word |
|---|---|
| 0 | `0x20`, the offset of the tuple |
| 32, 64 | fee and flags |
| 96, 128 | the offsets of the two strings, from the tuple on |
| 160 | the first string: its length, and its bytes padded to words |
| after it | the second string, likewise |

so the compiler's decoder finds the payload in it
(`SelendraBridge.Solana.decodeAutoParamsTo_encode`), and the relayer's own finds the payload
it came from (`SelendraBridge.Solana.decodeEvmAutoParams_encode`).
-/

namespace SelendraBridge

namespace Solana

/-- `word`. -/
def encodeWord (v : BitVec 128) : Bytes := List.replicate 16 0 ++ BigEndian.ofWord 16 v

/-- `Vec::resize`, with zeros. -/
def resize (bs : Bytes) (n : ℕ) : Bytes := bs.take n ++ List.replicate (n - bs.length) 0

/-- `padded`. -/
def padded (b : Bytes) : Bytes :=
  let out := encodeWord (BitVec.ofNat 128 b.length)
  let out := out ++ b
  resize out (32 + (b.length + 31) / 32 * 32)

/-- `encode_evm_auto_params`. -/
def encodeEvmAutoParams (w : AutoParamsWire) : Bytes :=
  let fallback := padded w.fallbackAddress
  let data := padded w.data
  let out : Bytes := []
  let out := out ++ encodeWord 32
  let out := out ++ encodeWord w.executionFee
  let out := out ++ encodeWord (w.flags.setWidth 128)
  let out := out ++ encodeWord 128
  let out := out ++ encodeWord (BitVec.ofNat 128 (128 + fallback.length))
  let out := out ++ fallback
  out ++ data

/-- A payload as the contract decodes it. -/
def AutoParamsWire.decoded (w : AutoParamsWire) : AutoParamsTo where
  executionFee := w.executionFee.setWidth 256
  flags := w.flags.setWidth 256
  fallbackAddress := w.fallbackAddress
  data := w.data

/-! ### The layout -/

@[simp] theorem length_encodeWord (v : BitVec 128) : (encodeWord v).length = 32 := by
  rw [encodeWord, List.length_append, List.length_replicate, BigEndian.length_ofWord]

/-- A word read back. -/
theorem wordAt_encodeWord {pre post : Bytes} {i : ℕ} (hi : pre.length = i) (v : BitVec 128) :
    wordAt (pre ++ (encodeWord v ++ post)) i = v.toNat := by
  have hword : encodeWord v = wordBytes (v.setWidth 256) := feeWord_eq v
  have hv : (v.setWidth 256).toNat = v.toNat := BitVec.toNat_setWidth_of_le (by omega)
  have hlt : v.toNat < 256 ^ 32 := lt_of_lt_of_le v.isLt (by norm_num)
  rw [wordAt, sliceAt_append hi (length_encodeWord v), hword, wordBytes, BigEndian.ofWord, hv,
    BigEndian.ofBytes_toBytes, Nat.mod_eq_of_lt hlt]

/-- The zeros after a string. -/
def padding (b : Bytes) : Bytes := List.replicate ((b.length + 31) / 32 * 32 - b.length) 0

/-- A string is padded at its end. -/
theorem padded_eq (b : Bytes) :
    padded b = encodeWord (BitVec.ofNat 128 b.length) ++ (b ++ padding b) := by
  have hlen : (encodeWord (BitVec.ofNat 128 b.length) ++ b).length = 32 + b.length := by
    rw [List.length_append, length_encodeWord]
  rw [padded, resize, hlen, List.take_of_length_le (by omega), List.append_assoc]
  congr 3
  omega

theorem length_padded (b : Bytes) : (padded b).length = 32 + (b.length + 31) / 32 * 32 := by
  rw [padded_eq, List.length_append, List.length_append, length_encodeWord, padding,
    List.length_replicate]
  omega

/-- **The layout of an encoding.** -/
theorem encodeEvmAutoParams_eq (w : AutoParamsWire) : encodeEvmAutoParams w =
    encodeWord 32 ++ (encodeWord w.executionFee ++ (encodeWord (w.flags.setWidth 128) ++
      (encodeWord 128 ++ (encodeWord (BitVec.ofNat 128 (128 + (padded w.fallbackAddress).length)) ++
        (padded w.fallbackAddress ++ padded w.data))))) := by
  simp only [encodeEvmAutoParams, List.nil_append, List.append_assoc]

theorem length_encodeEvmAutoParams (w : AutoParamsWire) : (encodeEvmAutoParams w).length =
    160 + (padded w.fallbackAddress).length + (padded w.data).length := by
  simp only [encodeEvmAutoParams_eq, List.length_append, length_encodeWord]
  omega

theorem encodeEvmAutoParams_ne_nil (w : AutoParamsWire) : encodeEvmAutoParams w ≠ [] := by
  intro h
  have htotal := length_encodeEvmAutoParams w
  rw [h, List.length_nil] at htotal
  omega

/-- A padded string read back. -/
theorem decodeBytes_padded {pre post b : Bytes} {i : ℕ} (hi : pre.length = i)
    (hb : b.length < 2 ^ 64) : Abi.decodeBytes (pre ++ (padded b ++ post)) i = some b := by
  have hnat : (BitVec.ofNat 128 b.length).toNat = b.length := by
    rw [BitVec.toNat_ofNat, Nat.mod_eq_of_lt (by omega)]
  rw [padded_eq]
  simp only [List.append_assoc]
  have hword : wordAt (pre ++ (encodeWord (BitVec.ofNat 128 b.length) ++
      (b ++ (padding b ++ post)))) i = _ := wordAt_encodeWord hi _
  have hslice : sliceAt (pre ++ encodeWord (BitVec.ofNat 128 b.length) ++
      (b ++ (padding b ++ post))) (i + 32) b.length = b :=
    sliceAt_append (by rw [List.length_append, hi, length_encodeWord]) rfl
  rw [List.append_assoc] at hslice
  rw [hnat] at hword
  simp only [Abi.decodeBytes, Option.ite_none_left_eq_some, hword, hslice, Abi.maxOffset,
    List.length_append, length_encodeWord, hi]
  exact ⟨by omega, by omega, by omega, trivial⟩

/-- **The words of an encoding**, and its two strings. -/
theorem encode_layout (w : AutoParamsWire) (hlen : (encodeEvmAutoParams w).length < 2 ^ 64) :
    wordAt (encodeEvmAutoParams w) 0 = 32 ∧
      wordAt (encodeEvmAutoParams w) 32 = w.executionFee.toNat ∧
      wordAt (encodeEvmAutoParams w) 64 = w.flags.toNat ∧
      Abi.decodeMember (encodeEvmAutoParams w) 32 64 = some w.fallbackAddress ∧
      Abi.decodeMember (encodeEvmAutoParams w) 32 96 = some w.data := by
  have htotal := length_encodeEvmAutoParams w
  have hfb := length_padded w.fallbackAddress
  have hd := length_padded w.data
  have hoffset : (BitVec.ofNat 128 (128 + (padded w.fallbackAddress).length)).toNat =
      128 + (padded w.fallbackAddress).length := by
    rw [BitVec.toNat_ofNat, Nat.mod_eq_of_lt (by omega)]
  have hflags : (w.flags.setWidth 128).toNat = w.flags.toNat :=
    BitVec.toNat_setWidth_of_le (by omega)
  have e := encodeEvmAutoParams_eq w
  -- Each piece is found behind the pieces before it.
  have h0 : wordAt (encodeEvmAutoParams w) 0 = 32 := by
    rw [e]
    exact @wordAt_encodeWord [] _ 0 rfl 32
  have h32 : wordAt (encodeEvmAutoParams w) 32 = w.executionFee.toNat := by
    rw [e]
    exact wordAt_encodeWord (length_encodeWord 32) w.executionFee
  have h64 : wordAt (encodeEvmAutoParams w) 64 = w.flags.toNat := by
    rw [e, ← List.append_assoc, ← hflags]
    exact wordAt_encodeWord (by simp) (w.flags.setWidth 128)
  have h96 : wordAt (encodeEvmAutoParams w) 96 = 128 := by
    rw [e, ← List.append_assoc, ← List.append_assoc]
    exact wordAt_encodeWord (by simp) 128
  have h128 : wordAt (encodeEvmAutoParams w) 128 = 128 + (padded w.fallbackAddress).length := by
    rw [e, ← List.append_assoc, ← List.append_assoc, ← List.append_assoc]
    exact (wordAt_encodeWord (by simp) _).trans hoffset
  have hfirst : Abi.decodeBytes (encodeEvmAutoParams w) 160 = some w.fallbackAddress := by
    rw [e, ← List.append_assoc, ← List.append_assoc, ← List.append_assoc, ← List.append_assoc]
    exact decodeBytes_padded (by simp) (by omega)
  have hsecond : Abi.decodeBytes (encodeEvmAutoParams w)
      (160 + (padded w.fallbackAddress).length) = some w.data := by
    rw [e, ← List.append_nil (padded w.data), ← List.append_assoc, ← List.append_assoc,
      ← List.append_assoc, ← List.append_assoc, ← List.append_assoc]
    refine decodeBytes_padded ?_ (by omega)
    simp only [List.length_append, length_encodeWord]
  refine ⟨h0, h32, h64, ?_, ?_⟩
  · have hsmall : ¬Abi.maxOffset ≤ 128 := by decide
    simp only [Abi.decodeMember, h96, if_neg hsmall]
    exact hfirst
  · have hsmall : ¬Abi.maxOffset ≤ 128 + (padded w.fallbackAddress).length := by
      rw [Abi.maxOffset]
      omega
    have hpos : 32 + (128 + (padded w.fallbackAddress).length) =
        160 + (padded w.fallbackAddress).length := by omega
    simp only [Abi.decodeMember, h128, if_neg hsmall, hpos]
    exact hsecond

/-- **The compiler's coder finds the payload.** -/
theorem decodeAutoParamsTo_encode (w : AutoParamsWire)
    (hlen : (encodeEvmAutoParams w).length < 2 ^ 64) :
    Abi.decodeAutoParamsTo (encodeEvmAutoParams w) = some w.decoded := by
  obtain ⟨h0, h32, h64, hfb, hd⟩ := encode_layout w hlen
  have htotal := length_encodeEvmAutoParams w
  have hfbl := length_padded w.fallbackAddress
  have hdl := length_padded w.data
  have hwide : ∀ {n : ℕ} (v : BitVec n), n ≤ 256 → BitVec.ofNat 256 v.toNat = v.setWidth 256 :=
    fun v hn => BitVec.eq_of_toNat_eq (by
      have hv : v.toNat < 2 ^ 256 := lt_of_lt_of_le v.isLt (Nat.pow_le_pow_right (by omega) hn)
      rw [BitVec.toNat_ofNat, BitVec.toNat_setWidth])
  simp only [Abi.decodeAutoParamsTo, Option.ite_none_left_eq_some, h0, h32, h64, hfb, hd,
    Abi.maxOffset]
  refine ⟨by omega, by omega, by omega, ?_⟩
  rw [hwide _ (by omega), hwide _ (by omega)]
  rfl

/-- **And so does the relayer's own decoder.** -/
theorem decodeEvmAutoParams_encode (w : AutoParamsWire)
    (hlen : (encodeEvmAutoParams w).length < 2 ^ 64) :
    decodeEvmAutoParams (encodeEvmAutoParams w) = .ok (some w) := by
  obtain ⟨h0, h32, h64, -, -⟩ := encode_layout w hlen
  have hnarrow : Narrow (encodeEvmAutoParams w) :=
    ⟨h0, h32 ▸ w.executionFee.isLt, h64 ▸ w.flags.isLt⟩
  refine (decodeEvmAutoParams_eq_ok (encodeEvmAutoParams_ne_nil w) hlen
    (decodeAutoParamsTo_encode w hlen)).mpr ⟨hnarrow, ?_⟩
  rw [AutoParamsWire.decoded, BitVec.setWidth_setWidth_of_le _ (by omega), BitVec.setWidth_eq,
    BitVec.setWidth_setWidth_of_le _ (by omega), BitVec.setWidth_eq]

end Solana

end SelendraBridge
