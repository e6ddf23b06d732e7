import SelendraBridge.AbiTuples
import SelendraBridge.Solana.EncodeParams

/-!
# The offsets of a payload, in the numbers of the machine

The relayer's decoder computes with the offsets and lengths that it finds in a payload, and its
numbers have 64 bits. Where a sum has no room, a build with overflow checks stops, and one without
them goes on with what is left of the sum. The decoder checks most of its sums itself, and answers
with an error.

It does not check the sum in `abi_word`: the end of a word that begins at an offset. This is the
one place where it can stop (`SelendraBridge.Solana.Usize.decodeEvmAutoParams_panics`,
`SelendraBridge.Solana.Usize.decodeEvmAutoParams_eq`), and it does so exactly if one of the two
strings is said to begin in the last 32 bytes that there are addresses for
(`SelendraBridge.Solana.Usize.faithful_iff_not_overflows`).
-/

namespace SelendraBridge

namespace Solana

namespace Usize

open Revert

/-- How a call ends that returns no payload: it stops, or it returns an error. -/
inductive Fault
  | panic
  | error (e : AutoParamsError)
  deriving DecidableEq

/-! ### The decoder -/

section Decoder

-- Does the build check for overflows?
variable (checks : Bool)

/-- `a + b`. -/
def add (a b : ℕ) : Except Fault ℕ :=
  if a + b < 2 ^ 64 then .ok (a + b)
  else if checks then .error .panic
  else .ok ((a + b) % 2 ^ 64)

/-- `a.checked_add(b)`. -/
def checkedAdd (e : AutoParamsError) (a b : ℕ) : Except Fault ℕ :=
  if a + b < 2 ^ 64 then .ok (a + b) else .error (.error e)

/-- `data.get(start..stop)`. -/
def getRange (data : Bytes) (start stop : ℕ) : Option Bytes :=
  if start ≤ stop ∧ stop ≤ data.length then some (sliceAt data start (stop - start)) else none

/-- `abi_word`. -/
def abiWord (data : Bytes) (pos : ℕ) : Except Fault U256 := do
  let stop ← add checks pos 32
  orRevert (.error (.malformed "truncated word")) ((getRange data pos stop).bind (BigEndian.toWord 32))

/-- `abi_usize`. -/
def abiUsize (data : Bytes) (pos : ℕ) : Except Fault ℕ := do
  let w ← abiWord checks data pos
  revertIf (2 ^ 64 ≤ w.toNat) (.error (.malformed "offset/length too large"))
  return w.toNat

/-- `abi_bytes`. -/
def abiBytes (data : Bytes) (base head : ℕ) : Except Fault Bytes := do
  let offset ← abiUsize checks data head
  let off ← checkedAdd (.malformed "offset overflow") base offset
  let len ← abiUsize checks data off
  let start ← add checks off 32
  let stop ← checkedAdd (.malformed "length overflow") start len
  orRevert (.error (.malformed "bytes run past the blob")) (getRange data start stop)

/-- `decode_evm_auto_params`. -/
def decodeEvmAutoParams (blob : Bytes) : Except Fault (Option AutoParamsWire) :=
  if blob = [] then .ok none
  else do
    let base ← abiUsize checks blob 0
    revertIf (base ≠ 32) (.error (.malformed "tuple offset is not 0x20"))
    let fee ← abiWord checks blob base
    let pos ← add checks base 32
    let flags ← abiWord checks blob pos
    revertIf (2 ^ 128 ≤ fee.toNat) (.error (.unrepresentable "executionFee"))
    revertIf (2 ^ 64 ≤ flags.toNat) (.error (.unrepresentable "flags"))
    let pos ← add checks base 64
    let fallbackAddress ← abiBytes checks blob base pos
    let pos ← add checks base 96
    let data ← abiBytes checks blob base pos
    return some
      { executionFee := fee.setWidth 128, flags := flags.setWidth 64, fallbackAddress, data }

end Decoder

/-! ### Word by word -/

variable {checks : Bool} {data blob : Bytes}

theorem add_eq {a b : ℕ} (h : a + b < 2 ^ 64) : add checks a b = .ok (a + b) := if_pos h

theorem add_panics {a b : ℕ} (h : 2 ^ 64 ≤ a + b) : add true a b = .error .panic := by
  rw [add, if_neg (not_lt.mpr h), if_pos rfl]

section Guards

variable {ε ε' α β : Type} {c : Prop} [Decidable c] {e : ε} {g : Unit → Except ε β}

/-- A guard that fires. -/
theorem revertIf_pos (h : c) : (revertIf c e >>= g) = .error e := by
  rw [revertIf_bind, if_pos h]

/-- A guard that does not. -/
theorem revertIf_neg (h : ¬c) : (revertIf c e >>= g) = g () := by
  rw [revertIf_bind, if_neg h]

theorem withReason_ok {f : ε → ε'} {a : α} :
    withReason f (.ok a : Except ε α) = .ok a := rfl

theorem withReason_bind {f : ε → ε'} {x : Except ε α} {k : α → Except ε β} :
    withReason f (x >>= k) = withReason f x >>= fun a => withReason f (k a) := by
  cases x <;> rfl

theorem withReason_revertIf {f : ε → ε'} : withReason f (revertIf c e) = revertIf c (f e) := by
  unfold revertIf
  split <;> rfl

end Guards

/-- A word that is not there in full. -/
theorem abiWord_error {pos : ℕ} (h : data.length < pos + 32) :
    Solana.abiWord data pos = .error (.malformed "truncated word") := by
  rcases hw : Solana.abiWord data pos with e | w
  · rw [Solana.abiWord] at hw
    rcases hword : BigEndian.toWord 32 (sliceAt data pos 32) with _ | w
    · rw [hword] at hw
      exact hw.symm
    · rw [hword] at hw
      cases hw
  · have hle := (abiWord_eq_ok.mp hw).1
    omega

/-- **A word that ends where there are addresses is read.** -/
theorem abiWord_eq {pos : ℕ} (hlen : data.length < 2 ^ 64) (hpos : pos < 2 ^ 64)
    (h : checks = true → pos + 32 < 2 ^ 64) :
    abiWord checks data pos = withReason .error (Solana.abiWord data pos) := by
  rw [abiWord]
  rcases lt_or_ge (pos + 32) (2 ^ 64) with hroom | hover
  · rw [add_eq hroom, ok_bind, getRange, Nat.add_sub_cancel_left]
    rcases le_or_gt (pos + 32) data.length with hin | hout
    · rw [if_pos ⟨by omega, hin⟩, Option.bind_some, Solana.abiWord]
      rcases BigEndian.toWord 32 (sliceAt data pos 32) with _ | w <;> rfl
    · rw [if_neg (fun hboth => by omega), abiWord_error hout]
      rfl
  · -- the sum wraps around, so that the word ends before it begins
    have hoff : checks = false := Bool.eq_false_iff.mpr fun hon => by
      have := h hon
      omega
    rw [add, if_neg (not_lt.mpr hover), hoff, if_neg Bool.false_ne_true, ok_bind, getRange,
      if_neg (fun hboth => by omega), abiWord_error (by omega)]
    rfl

theorem abiWord_panics {pos : ℕ} (h : 2 ^ 64 ≤ pos + 32) :
    abiWord true data pos = .error .panic := by
  rw [abiWord, add_panics h]
  rfl

theorem abiUsize_eq {pos : ℕ} (hlen : data.length < 2 ^ 64) (hpos : pos < 2 ^ 64)
    (h : checks = true → pos + 32 < 2 ^ 64) :
    abiUsize checks data pos = withReason .error (Solana.abiUsize data pos) := by
  rw [abiUsize, abiWord_eq hlen hpos h, Solana.abiUsize, withReason_bind]
  simp only [withReason_bind, withReason_revertIf]
  rfl

theorem abiUsize_panics {pos : ℕ} (h : 2 ^ 64 ≤ pos + 32) :
    abiUsize true data pos = .error .panic := by
  rw [abiUsize, abiWord_panics h]
  rfl

/-! ### String by string -/

/-- **An offset behind which there are no addresses for a word.** -/
def AtEnd (offset : ℕ) : Prop := 32 + offset < 2 ^ 64 ∧ 2 ^ 64 ≤ 32 + offset + 32

instance (offset : ℕ) : Decidable (AtEnd offset) := inferInstanceAs (Decidable (_ ∧ _))

/-- **A string is read**, unless it begins at the end. -/
theorem abiBytes_eq {head : ℕ} (hlen : data.length < 2 ^ 64) (hhead : head + 32 < 2 ^ 64)
    (h : checks = true → head + 32 ≤ data.length → ¬AtEnd (wordAt data head)) :
    abiBytes checks data 32 head = withReason .error (Solana.abiBytes data 32 head) := by
  rw [abiBytes, Solana.abiBytes, abiUsize_eq hlen (by omega) fun _ => hhead]
  rcases hoffset : Solana.abiUsize data head with e | offset
  · rfl
  obtain ⟨hword, rfl, hlt⟩ := abiUsize_eq_ok.mp hoffset
  rw [withReason_ok, ok_bind, ok_bind, checkedAdd]
  rcases lt_or_ge (32 + wordAt data head) (2 ^ 64) with hroom | hover
  · rw [if_pos hroom, revertIf_neg (not_le.mpr hroom), ok_bind,
      abiUsize_eq hlen hroom fun hon => not_le.mp fun hend => h hon hword ⟨hroom, hend⟩]
    rcases hlength : Solana.abiUsize data (32 + wordAt data head) with e | length
    · rfl
    obtain ⟨hin, rfl, -⟩ := abiUsize_eq_ok.mp hlength
    rw [withReason_ok, ok_bind, ok_bind, add_eq (by omega), ok_bind, checkedAdd]
    dsimp only
    generalize wordAt data (32 + wordAt data head) = length
    generalize 32 + wordAt data head + 32 = start
    rcases lt_or_ge (start + length) (2 ^ 64) with hfits | hlong
    · rw [if_pos hfits, revertIf_neg (not_le.mpr hfits), ok_bind, getRange,
        Nat.add_sub_cancel_left]
      rcases le_or_gt (start + length) data.length with hinside | hpast
      · rw [if_pos ⟨by omega, hinside⟩, revertIf_neg (not_lt.mpr hinside)]
        rfl
      · rw [if_neg (fun hboth => by omega), revertIf_pos hpast]
        rfl
    · rw [if_neg (not_lt.mpr hlong), revertIf_pos hlong]
      rfl
  · rw [if_neg (not_lt.mpr hover), revertIf_pos hover]
    rfl

theorem abiBytes_panics {head : ℕ} (hlen : data.length < 2 ^ 64) (hin : head + 32 ≤ data.length)
    (h : AtEnd (wordAt data head)) : abiBytes true data 32 head = .error .panic := by
  have hoffset : Solana.abiUsize data head = .ok (wordAt data head) :=
    abiUsize_eq_ok.mpr ⟨hin, rfl, by have := h.1; omega⟩
  rw [abiBytes, abiUsize_eq hlen (by omega) fun _ => by omega, hoffset, withReason_ok, ok_bind,
    checkedAdd, if_pos h.1, ok_bind, abiUsize_panics h.2]
  rfl

/-! ### The payload -/

/-- **The decoder gets to an offset at the end**: to that of the first string if the two numbers
have room, and to that of the second one if the first string is there, too. -/
def Overflows (blob : Bytes) : Prop :=
  128 ≤ blob.length ∧ Narrow blob ∧ (AtEnd (wordAt blob 96) ∨
    ((Abi.decodeMember blob 32 64).isSome = true ∧ 160 ≤ blob.length ∧ AtEnd (wordAt blob 128)))

/-- **Where it does, a build with checks stops.** -/
theorem decodeEvmAutoParams_panics (hlen : blob.length < 2 ^ 64) (h : Overflows blob) :
    decodeEvmAutoParams true blob = .error .panic := by
  obtain ⟨h128, hnarrow, hends⟩ := h
  have hne : blob ≠ [] := by
    rintro rfl
    simp at h128
  have hbase : Solana.abiUsize blob 0 = .ok 32 :=
    abiUsize_eq_ok.mpr ⟨by omega, hnarrow.base.symm, by omega⟩
  have hword : ∀ {pos}, pos + 32 ≤ blob.length →
      Solana.abiWord blob pos = .ok (BitVec.ofNat 256 (wordAt blob pos)) := fun {pos} hpos => by
    have hlt := BigEndian.ofBytes_lt (sliceAt blob pos 32)
    have hslice : (sliceAt blob pos 32).length = 32 := by
      rw [sliceAt, List.length_take, List.length_drop]
      omega
    rw [hslice, ← wordAt] at hlt
    exact abiWord_eq_ok.mpr ⟨hpos, by rw [BitVec.toNat_ofNat, Nat.mod_eq_of_lt (by omega)]⟩
  have hfee := hnarrow.executionFee
  have hflags := hnarrow.flags
  have hfee' : ¬2 ^ 128 ≤ (BitVec.ofNat 256 (wordAt blob 32)).toNat := by
    rw [BitVec.toNat_ofNat, Nat.mod_eq_of_lt (by omega)]
    omega
  have hflags' : ¬2 ^ 64 ≤ (BitVec.ofNat 256 (wordAt blob 64)).toNat := by
    rw [BitVec.toNat_ofNat, Nat.mod_eq_of_lt (by omega)]
    omega
  rw [decodeEvmAutoParams, if_neg hne, abiUsize_eq hlen (by omega) fun _ => by omega, hbase,
    withReason_ok, ok_bind, revertIf_neg (not_not.mpr rfl),
    abiWord_eq hlen (by omega) fun _ => by omega, hword (by omega), withReason_ok, ok_bind,
    add_eq (by omega), ok_bind, abiWord_eq hlen (by omega) fun _ => by omega, hword (by omega),
    withReason_ok, ok_bind, revertIf_neg hfee', revertIf_neg hflags',
    add_eq (by omega), ok_bind]
  by_cases hfirst : AtEnd (wordAt blob 96)
  · rw [abiBytes_panics hlen (by omega) hfirst]
    rfl
  · obtain ⟨hsome, h160, hsecond⟩ := hends.resolve_left hfirst
    obtain ⟨fb, hfb⟩ := Option.isSome_iff_exists.mp hsome
    have hfb' : Solana.abiBytes blob 32 (32 + 64) = .ok fb :=
      (abiBytes_eq_ok hlen).mpr ⟨by omega, hfb⟩
    rw [abiBytes_eq hlen (by omega) fun _ _ => hfirst, hfb', withReason_ok, ok_bind,
      add_eq (by omega), ok_bind, abiBytes_panics hlen (by omega) hsecond]
    rfl

/-- **Anywhere else, and without checks everywhere**, it returns what it returns in numbers that
have room. -/
theorem decodeEvmAutoParams_eq (hlen : blob.length < 2 ^ 64)
    (h : checks = true → ¬Overflows blob) :
    decodeEvmAutoParams checks blob = withReason .error (Solana.decodeEvmAutoParams blob) := by
  rw [decodeEvmAutoParams, Solana.decodeEvmAutoParams]
  by_cases hne : blob = []
  · rw [if_pos hne, if_pos hne]
    rfl
  rw [if_neg hne, if_neg hne, abiUsize_eq hlen (by omega) fun _ => by omega]
  rcases hbase : Solana.abiUsize blob 0 with e | base
  · rfl
  obtain ⟨-, hbaseWord, -⟩ := abiUsize_eq_ok.mp hbase
  rw [withReason_ok, ok_bind, ok_bind]
  by_cases h32 : base ≠ 32
  · rw [revertIf_pos h32, revertIf_pos h32]
    rfl
  rw [revertIf_neg h32, revertIf_neg h32]
  obtain rfl := not_not.mp h32
  rw [abiWord_eq hlen (by omega) fun _ => by omega]
  rcases hfee : Solana.abiWord blob 32 with e | fee
  · rfl
  rw [withReason_ok, ok_bind, ok_bind, add_eq (by omega), ok_bind,
    abiWord_eq hlen (by omega) fun _ => by omega]
  rcases hflags : Solana.abiWord blob (32 + 32) with e | flags
  · rfl
  rw [withReason_ok, ok_bind, ok_bind]
  by_cases hfeeLt : 2 ^ 128 ≤ fee.toNat
  · rw [revertIf_pos hfeeLt, revertIf_pos hfeeLt]
    rfl
  rw [revertIf_neg hfeeLt, revertIf_neg hfeeLt]
  by_cases hflagsLt : 2 ^ 64 ≤ flags.toNat
  · rw [revertIf_pos hflagsLt, revertIf_pos hflagsLt]
    rfl
  have hnarrow : Narrow blob := by
    have hfeeWord : fee.toNat = wordAt blob 32 := (abiWord_eq_ok.mp hfee).2
    have hflagsWord : flags.toNat = wordAt blob 64 := (abiWord_eq_ok.mp hflags).2
    exact ⟨hbaseWord.symm, hfeeWord ▸ not_le.mp hfeeLt, hflagsWord ▸ not_le.mp hflagsLt⟩
  have hfirst : checks = true → 32 + 64 + 32 ≤ blob.length → ¬AtEnd (wordAt blob (32 + 64)) :=
    fun hon hin hend => h hon ⟨by omega, hnarrow, .inl hend⟩
  rw [revertIf_neg hflagsLt, revertIf_neg hflagsLt, add_eq (by omega), ok_bind,
    abiBytes_eq hlen (by omega) hfirst]
  rcases hfb : Solana.abiBytes blob 32 (32 + 64) with e | fb
  · rfl
  have hmember := ((abiBytes_eq_ok hlen).mp hfb).2
  have hsecond : checks = true → 32 + 96 + 32 ≤ blob.length → ¬AtEnd (wordAt blob (32 + 96)) :=
    fun hon hin hend => h hon
      ⟨by omega, hnarrow, .inr ⟨by rw [hmember]; rfl, by omega, hend⟩⟩
  rw [withReason_ok, ok_bind, ok_bind, add_eq (by omega), ok_bind,
    abiBytes_eq hlen (by omega) hsecond]
  rcases Solana.abiBytes blob 32 (32 + 96) with e | d <;> rfl

/-! ### What is read is what was written -/

/-- **A payload for the program carries a payload of a contract.** -/
structure Carries (w : AutoParamsWire) (ap : AutoParamsTo) : Prop where
  executionFee : w.executionFee.toNat = ap.executionFee.toNat
  flags : w.flags.toNat = ap.flags.toNat
  fallbackAddress : w.fallbackAddress = ap.fallbackAddress
  data : w.data = ap.data

/-- A payload with numbers that the program has room for, as it takes it. -/
def narrowed (ap : AutoParamsTo) : AutoParamsWire :=
  ⟨ap.executionFee.setWidth 128, ap.flags.setWidth 64, ap.fallbackAddress, ap.data⟩

theorem carries_narrowed {ap : AutoParamsTo} (hfee : ap.executionFee.toNat < 2 ^ 128)
    (hflags : ap.flags.toNat < 2 ^ 64) : Carries (narrowed ap) ap where
  executionFee := by rw [narrowed, BitVec.toNat_setWidth, Nat.mod_eq_of_lt hfee]
  flags := by rw [narrowed, BitVec.toNat_setWidth, Nat.mod_eq_of_lt hflags]
  fallbackAddress := rfl
  data := rfl

theorem encodeWord_eq {v : BitVec 128} {n : ℕ} (h : v.toNat = n) : encodeWord v = Abi.natWord n := by
  have hv : (v.setWidth 256).toNat = v.toNat := BitVec.toNat_setWidth_of_le (by omega)
  have hword : encodeWord v = wordBytes (v.setWidth 256) := feeWord_eq v
  rw [hword, Abi.natWord, ← h, ← hv, BitVec.ofNat_toNat, BitVec.setWidth_eq]

theorem padded_eq_encodeBytes {b : Bytes} (h : b.length < 2 ^ 64) :
    padded b = Abi.encodeBytes b := by
  have hlen : (BitVec.ofNat 128 b.length).toNat = b.length := by
    rw [BitVec.toNat_ofNat, Nat.mod_eq_of_lt (by omega)]
  rw [padded_eq, encodeWord_eq hlen, Abi.encodeBytes, padding]

/-- **The relayer writes a payload as the compiler does**, if the program has room for it. -/
theorem encodeEvmAutoParams_narrowed {ap : AutoParamsTo} (hfee : ap.executionFee.toNat < 2 ^ 128)
    (hflags : ap.flags.toNat < 2 ^ 64) (hlen : (Abi.encodeAutoParamsTo ap).length < 2 ^ 64) :
    encodeEvmAutoParams (narrowed ap) = Abi.encodeAutoParamsTo ap := by
  have hcarries := carries_narrowed hfee hflags
  have hword : ∀ w : U256, wordBytes w = Abi.natWord w.toNat := fun w => by
    rw [Abi.natWord, BitVec.ofNat_toNat, BitVec.setWidth_eq]
  have hflags' : ((narrowed ap).flags.setWidth 128).toNat = ap.flags.toNat :=
    (BitVec.toNat_setWidth_of_le (by omega)).trans hcarries.flags
  simp only [Abi.encodeAutoParamsTo, List.length_append, Abi.length_natWord, length_wordBytes,
    Abi.length_encodeBytes] at hlen
  have hfb : padded (narrowed ap).fallbackAddress = Abi.encodeBytes ap.fallbackAddress :=
    padded_eq_encodeBytes (by rw [narrowed]; dsimp only; omega)
  have hd : padded (narrowed ap).data = Abi.encodeBytes ap.data :=
    padded_eq_encodeBytes (by rw [narrowed]; dsimp only; omega)
  have hoffset : (BitVec.ofNat 128 (128 + (Abi.encodeBytes ap.fallbackAddress).length)).toNat =
      128 + (Abi.encodeBytes ap.fallbackAddress).length := by
    rw [BitVec.toNat_ofNat, Abi.length_encodeBytes, Nat.mod_eq_of_lt (by omega)]
  have h32 : encodeWord 32 = Abi.natWord 32 := encodeWord_eq rfl
  have h128 : encodeWord 128 = Abi.natWord 128 := encodeWord_eq rfl
  rw [encodeEvmAutoParams_eq, hfb, hd, h32, h128, encodeWord_eq hcarries.executionFee,
    encodeWord_eq hflags', encodeWord_eq hoffset, Abi.encodeAutoParamsTo, hword, hword]

/-- **An encoding has no offset at the end.** -/
theorem not_overflows_encode {w : AutoParamsWire}
    (hlen : (encodeEvmAutoParams w).length < 2 ^ 64) : ¬Overflows (encodeEvmAutoParams w) := by
  obtain ⟨-, -, -, hfb, hd⟩ := encode_layout w hlen
  obtain ⟨-, hfbIn, -⟩ := Abi.decodeMember_eq_some.mp hfb
  obtain ⟨-, hdIn, -⟩ := Abi.decodeMember_eq_some.mp hd
  rintro ⟨-, -, hfirst | ⟨-, -, hsecond⟩⟩
  · have hend := hfirst.2
    have hin : 32 + wordAt (encodeEvmAutoParams w) 96 + 32 ≤ (encodeEvmAutoParams w).length := hfbIn
    omega
  · have hend := hsecond.2
    have hin : 32 + wordAt (encodeEvmAutoParams w) 128 + 32 ≤ (encodeEvmAutoParams w).length := hdIn
    omega

/-! ### Which payloads are read as they should -/

/-- **A payload is read as it should be**, whatever the build: the decoder returns; what it returns
is what the compiler's decoder returns, of a tuple at `0x20`; and if the compiler's coder wrote it
and the program has room for it, it is returned. -/
structure Faithful (blob : Bytes) : Prop where
  returns : ∀ checks, decodeEvmAutoParams checks blob ≠ .error .panic
  decodes : ∀ checks w, decodeEvmAutoParams checks blob = .ok (some w) →
    wordAt blob 0 = 32 ∧ ∃ ap, Abi.decodeAutoParamsTo blob = some ap ∧ Carries w ap
  encodes : ∀ checks ap, blob = Abi.encodeAutoParamsTo ap → ap.executionFee.toNat < 2 ^ 128 →
    ap.flags.toNat < 2 ^ 64 → ∃ w, decodeEvmAutoParams checks blob = .ok (some w) ∧ Carries w ap

/-- **A payload is read as it should be exactly if** the decoder gets to no offset at the end of
the addresses. -/
theorem faithful_iff_not_overflows (hlen : blob.length < 2 ^ 64) :
    Faithful blob ↔ ¬Overflows blob := by
  constructor
  · intro h hover
    exact h.returns true (decodeEvmAutoParams_panics hlen hover)
  · intro h
    refine ⟨fun checks => ?_, fun checks w hw => ?_, fun checks ap hblob hfee hflags => ?_⟩
    · rw [decodeEvmAutoParams_eq hlen fun _ => h]
      rcases Solana.decodeEvmAutoParams blob with e | o <;> simp [withReason]
    · rw [decodeEvmAutoParams_eq hlen fun _ => h, withReason_eq_ok] at hw
      obtain ⟨hnarrow, ap, hap, rfl⟩ := decode_of_decodeEvmAutoParams hlen hw
      obtain ⟨hfee, hflags⟩ := hnarrow.lt hap
      exact ⟨hnarrow.base, ap, hap, carries_narrowed hfee hflags⟩
    · have hencode := encodeEvmAutoParams_narrowed hfee hflags (hblob ▸ hlen)
      refine ⟨narrowed ap, ?_, carries_narrowed hfee hflags⟩
      rw [decodeEvmAutoParams_eq hlen fun _ => h, withReason_eq_ok, hblob, ← hencode]
      exact decodeEvmAutoParams_encode _ (by rw [hencode, ← hblob]; exact hlen)

/-- A payload with two short strings. -/
def shortPayload : AutoParamsTo := ⟨7, 3, [0xaa], [1, 2]⟩

theorem faithful_short : Faithful (Abi.encodeAutoParamsTo shortPayload) ∧
    ∃ w, decodeEvmAutoParams true (Abi.encodeAutoParamsTo shortPayload) = .ok (some w) ∧
      Carries w shortPayload := by
  have hlen : (Abi.encodeAutoParamsTo shortPayload).length < 2 ^ 64 := by decide +kernel
  have hfee : shortPayload.executionFee.toNat < 2 ^ 128 := by decide
  have hflags : shortPayload.flags.toNat < 2 ^ 64 := by decide
  have hencode := encodeEvmAutoParams_narrowed hfee hflags hlen
  have hcalm : ¬Overflows (Abi.encodeAutoParamsTo shortPayload) := by
    rw [← hencode]
    exact not_overflows_encode (by rw [hencode]; exact hlen)
  have hfaithful := (faithful_iff_not_overflows hlen).mpr hcalm
  exact ⟨hfaithful, hfaithful.encodes true shortPayload rfl hfee hflags⟩

/-- The offset of the tuple, no fee, no flags, and a string that begins in the last 32 bytes. -/
def endPayload : Bytes :=
  Abi.natWord 32 ++ (Abi.natWord 0 ++ (Abi.natWord 0 ++ Abi.natWord 18446744073709551552))

/-- **So not every payload is read as it should be**: a build with checks stops at this one. -/
theorem not_faithful_end : ¬∀ blob : Bytes, blob.length < 2 ^ 64 → Faithful blob := by
  intro h
  have hlen : endPayload.length < 2 ^ 64 := by decide +kernel
  have hstops : decodeEvmAutoParams true endPayload = .error .panic := by
    refine decodeEvmAutoParams_panics hlen ⟨by decide +kernel, ⟨?_, ?_, ?_⟩, .inl ?_⟩ <;>
      decide +kernel
  exact (h endPayload hlen).returns true hstops

end Usize

end Solana

end SelendraBridge
