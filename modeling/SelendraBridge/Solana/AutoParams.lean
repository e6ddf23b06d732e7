import SelendraBridge.Abi
import SelendraBridge.Solana.Ids

/-!
# The payload of a contract's transfer, as the program takes it

A contract hashes what the compiler's coder decodes, the program what the relayer decodes
for it. The relayer's decoder is written by hand: it insists on the one tuple offset that an
encoder writes, `0x20`, and on a fee of 128 bits and flags of 64, since the program has no
room for more. On everything else it agrees with the compiler's
(`SelendraBridge.Solana.decodeEvmAutoParams_eq_ok`).
-/

namespace SelendraBridge

namespace Solana

open Revert

/-- `AutoParamsError`. -/
inductive AutoParamsError
  | malformed (reason : String)
  | unrepresentable (field : String)
  deriving DecidableEq, Repr

/-- `abi_word`. -/
def abiWord (data : Bytes) (pos : ℕ) : Except AutoParamsError U256 :=
  orRevert (.malformed "truncated word") (BigEndian.toWord 32 (sliceAt data pos 32))

/-- `abi_usize`. -/
def abiUsize (data : Bytes) (pos : ℕ) : Except AutoParamsError ℕ := do
  let w ← abiWord data pos
  revertIf (2 ^ 64 ≤ w.toNat) (.malformed "offset/length too large")
  return w.toNat

/-- `abi_bytes`. -/
def abiBytes (data : Bytes) (base head : ℕ) : Except AutoParamsError Bytes := do
  let offset ← abiUsize data head
  revertIf (2 ^ 64 ≤ base + offset) (.malformed "offset overflow")
  let len ← abiUsize data (base + offset)
  let start := base + offset + 32
  revertIf (2 ^ 64 ≤ start + len) (.malformed "length overflow")
  revertIf (data.length < start + len) (.malformed "bytes run past the blob")
  return sliceAt data start len

/-- `decode_evm_auto_params`. -/
def decodeEvmAutoParams (blob : Bytes) : Except AutoParamsError (Option AutoParamsWire) :=
  if blob = [] then .ok none
  else do
    let base ← abiUsize blob 0
    revertIf (base ≠ 32) (.malformed "tuple offset is not 0x20")
    let fee ← abiWord blob base
    let flags ← abiWord blob (base + 32)
    revertIf (2 ^ 128 ≤ fee.toNat) (.unrepresentable "executionFee")
    revertIf (2 ^ 64 ≤ flags.toNat) (.unrepresentable "flags")
    let fallbackAddress ← abiBytes blob base (base + 64)
    let data ← abiBytes blob base (base + 96)
    return some
      { executionFee := fee.setWidth 128, flags := flags.setWidth 64, fallbackAddress, data }

/-- **A payload that the program has room for**, by its first three words. -/
structure Narrow (blob : Bytes) : Prop where
  base : wordAt blob 0 = 32
  executionFee : wordAt blob 32 < 2 ^ 128
  flags : wordAt blob 64 < 2 ^ 64

variable {data blob : Bytes}

theorem abiWord_eq_ok {pos : ℕ} {w : U256} :
    abiWord data pos = .ok w ↔ pos + 32 ≤ data.length ∧ w.toNat = wordAt data pos := by
  rw [abiWord, orRevert_eq_ok]
  refine BigEndian.toWord_eq_some_iff.trans ⟨?_, ?_⟩
  · intro h
    have hlen := congrArg List.length h
    rw [BigEndian.length_ofWord, sliceAt, List.length_take, List.length_drop] at hlen
    have hw : w.toNat < 256 ^ 32 := w.isLt
    refine ⟨by omega, ?_⟩
    rw [wordAt, h, BigEndian.ofWord, BigEndian.ofBytes_toBytes, Nat.mod_eq_of_lt hw]
  · rintro ⟨hlen, hw⟩
    have hslice : (sliceAt data pos 32).length = 32 := by
      rw [sliceAt, List.length_take, List.length_drop]
      omega
    have h := BigEndian.toBytes_ofBytes (sliceAt data pos 32)
    rw [hslice] at h
    rw [BigEndian.ofWord, hw]
    exact h.symm

theorem abiUsize_eq_ok {pos n : ℕ} : abiUsize data pos = .ok n ↔
    pos + 32 ≤ data.length ∧ n = wordAt data pos ∧ n < 2 ^ 64 := by
  simp only [abiUsize, bind_eq_ok, exists_unit, abiWord_eq_ok, revertIf_eq_ok, pure_eq_ok, not_le]
  constructor
  · rintro ⟨w, ⟨hlen, hw⟩, hlt, rfl⟩
    exact ⟨hlen, hw, hlt⟩
  · rintro ⟨hlen, hn, hlt⟩
    have hw : (BitVec.ofNat 256 n).toNat = n := by
      rw [BitVec.toNat_ofNat, Nat.mod_eq_of_lt (by omega)]
    exact ⟨BitVec.ofNat 256 n, ⟨hlen, hw.trans hn⟩, by rw [hw]; exact hlt, hw⟩

/-- **A dynamic member is the compiler's**, on data of any length a machine can have. -/
theorem abiBytes_eq_ok (hlen : data.length < 2 ^ 64) {base i : ℕ} {b : Bytes} :
    abiBytes data base (base + i) = .ok b ↔
      base + i + 32 ≤ data.length ∧ Abi.decodeMember data base i = some b := by
  have hmax : Abi.maxOffset = 2 ^ 64 := rfl
  simp only [abiBytes, bind_eq_ok, exists_unit, abiUsize_eq_ok, revertIf_eq_ok, pure_eq_ok, not_le,
    not_lt, Abi.decodeMember_eq_some, hmax]
  constructor
  · rintro ⟨offset, ⟨hhead, rfl, hoff⟩, -, len, ⟨hword, rfl, hlt⟩, -, hend, rfl⟩
    exact ⟨hhead, hoff, hword, hlt, hend, rfl⟩
  · rintro ⟨hhead, hoff, hword, hlt, hend, rfl⟩
    exact ⟨_, ⟨hhead, rfl, hoff⟩, by omega, _, ⟨hword, rfl, hlt⟩, by omega, hend, rfl⟩

/-- **Where the compiler decodes, so does the relayer, if there is room**: the same two
strings, and the same two numbers. -/
theorem decodeEvmAutoParams_eq_ok {ap : AutoParamsTo} (hne : blob ≠ [])
    (hlen : blob.length < 2 ^ 64) (h : Abi.decodeAutoParamsTo blob = some ap)
    {o : Option AutoParamsWire} : decodeEvmAutoParams blob = .ok o ↔
      Narrow blob ∧ o = some ⟨ap.executionFee.setWidth 128, ap.flags.setWidth 64,
        ap.fallbackAddress, ap.data⟩ := by
  simp only [Abi.decodeAutoParamsTo, Option.ite_none_left_eq_some] at h
  obtain ⟨-, hbase, htuple, h⟩ := h
  obtain ⟨fallbackAddress, hfb, h⟩ := Option.bind_eq_some_iff.mp h
  obtain ⟨d, hd, h⟩ := Option.bind_eq_some_iff.mp h
  obtain rfl := Option.some.inj h
  simp only [decodeEvmAutoParams, if_neg hne, bind_eq_ok, exists_unit, abiUsize_eq_ok,
    abiWord_eq_ok, abiBytes_eq_ok hlen, revertIf_eq_ok, pure_eq_ok, not_le, not_not]
  constructor
  · rintro ⟨base, ⟨-, rfl, -⟩, h32, fee, ⟨-, hfee⟩, flags, ⟨-, hflags⟩, hfee', hflags', fb, ⟨-, hfb'⟩,
      d', ⟨-, hd'⟩, rfl⟩
    obtain rfl := Option.some.inj (hfb.symm.trans hfb')
    obtain rfl := Option.some.inj (hd.symm.trans hd')
    have hf : fee = BitVec.ofNat 256 (wordAt blob (wordAt blob 0)) := by
      rw [← hfee, BitVec.ofNat_toNat, BitVec.setWidth_eq]
    have hg : flags = BitVec.ofNat 256 (wordAt blob (wordAt blob 0 + 32)) := by
      rw [← hflags, BitVec.ofNat_toNat, BitVec.setWidth_eq]
    rw [hfee, h32] at hfee'
    rw [hflags, h32] at hflags'
    exact ⟨⟨h32, hfee', hflags'⟩, by rw [hf, hg]⟩
  · rintro ⟨⟨h32, hfee, hflags⟩, rfl⟩
    rw [h32] at htuple hfb hd ⊢
    have hf : (BitVec.ofNat 256 (wordAt blob 32)).toNat = wordAt blob 32 := by
      rw [BitVec.toNat_ofNat, Nat.mod_eq_of_lt (by omega)]
    have hg : (BitVec.ofNat 256 (wordAt blob 64)).toNat = wordAt blob 64 := by
      rw [BitVec.toNat_ofNat, Nat.mod_eq_of_lt (by omega)]
    refine ⟨32, ⟨by omega, rfl, by omega⟩, rfl, _, ⟨by omega, hf⟩, _, ⟨by omega, hg⟩, ?_, ?_,
      fallbackAddress, ⟨by omega, hfb⟩, d, ⟨by omega, hd⟩, rfl⟩
    · rw [hf]
      exact hfee
    · rw [hg]
      exact hflags

/-- **Where the relayer decodes, so does the compiler**, and the payload is narrow. -/
theorem decode_of_decodeEvmAutoParams {w : AutoParamsWire} (hlen : blob.length < 2 ^ 64)
    (h : decodeEvmAutoParams blob = .ok (some w)) :
    Narrow blob ∧ ∃ ap, Abi.decodeAutoParamsTo blob = some ap ∧
      w = ⟨ap.executionFee.setWidth 128, ap.flags.setWidth 64, ap.fallbackAddress, ap.data⟩ := by
  have hne : blob ≠ [] := by
    rintro rfl
    cases h
  have hsome : ∃ ap, Abi.decodeAutoParamsTo blob = some ap := by
    simp only [decodeEvmAutoParams, if_neg hne, bind_eq_ok, exists_unit, abiUsize_eq_ok,
      abiBytes_eq_ok hlen, not_not, revertIf_eq_ok] at h
    obtain ⟨base, ⟨hfirst, rfl, hbase⟩, -, fee, -, flags, -, -, -, fb, ⟨-, hfb⟩, d, ⟨hend, hd⟩, -⟩ := h
    have hmax : Abi.maxOffset = 2 ^ 64 := rfl
    rw [← Option.isSome_iff_exists, Abi.decodeAutoParamsTo, if_neg (by omega)]
    dsimp only
    rw [if_neg (by omega), if_neg (by omega), hfb, hd]
    rfl
  obtain ⟨ap, hap⟩ := hsome
  obtain ⟨hnarrow, hw⟩ := (decodeEvmAutoParams_eq_ok hne hlen hap).mp h
  exact ⟨hnarrow, ap, hap, Option.some.inj hw⟩

/-- The numbers of a narrow payload fit the program's fields. -/
theorem Narrow.lt {ap : AutoParamsTo} (hn : Narrow blob)
    (h : Abi.decodeAutoParamsTo blob = some ap) :
    ap.executionFee.toNat < 2 ^ 128 ∧ ap.flags.toNat < 2 ^ 64 := by
  simp only [Abi.decodeAutoParamsTo, Option.ite_none_left_eq_some, hn.base] at h
  obtain ⟨-, -, -, h⟩ := h
  obtain ⟨fallbackAddress, -, h⟩ := Option.bind_eq_some_iff.mp h
  obtain ⟨d, -, h⟩ := Option.bind_eq_some_iff.mp h
  obtain rfl := Option.some.inj h
  have hfee := hn.executionFee
  have hflags : wordAt blob (32 + 32) < 2 ^ 64 := hn.flags
  simp only [BitVec.toNat_ofNat]
  exact ⟨by omega, by omega⟩

end Solana

end SelendraBridge
