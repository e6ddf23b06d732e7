import SelendraBridge.Basic
import Mathlib.Tactic.IntervalCases
import Mathlib.Tactic.Linarith

/-!
# The one encoding of a signature that both machines read

A signature is 65 bytes: `r`, `s`, and a byte for the parity. Two of them are the same
attestation, with `s` and with `n - s` and the other parity, and the byte for the parity is
written in two ways. The gates read one of the four, the one with `s` up to half of the order
and `27` or `28` behind it (`SelendraBridge.BridgeSolana.Canonical`).

The relayer's library writes that one, byte by byte: it halves the order with a carry,
compares, and subtracts with a borrow. On numbers this is `SelendraBridge.BridgeSolana.lowForm`
(`SelendraBridge.BridgeSolana.canonicalSignature_eq`).
-/

namespace SelendraBridge

namespace BridgeSolana

/-- `SECP256K1_N`. -/
def SECP256K1_N : Bytes :=
  [0xFF, 0xFF, 0xFF, 0xFF, 0xFF, 0xFF, 0xFF, 0xFF, 0xFF, 0xFF, 0xFF, 0xFF, 0xFF, 0xFF, 0xFF, 0xFE,
   0xBA, 0xAE, 0xDC, 0xE6, 0xAF, 0x48, 0xA0, 0x3B, 0xBF, 0xD2, 0x5E, 0x8C, 0xD0, 0x36, 0x41, 0x41]

/-- The loop of `is_high_s`: a number halved, byte by byte. -/
def halve : UInt8 → Bytes → Bytes
  | _, [] => []
  | carry, byte :: bytes => ((byte >>> 1) ||| (carry <<< 7)) :: halve (byte &&& 1) bytes

/-- `is_high_s`. -/
def isHighS (s : Bytes) : Bool :=
  let half := halve 0 SECP256K1_N
  decide (half < s)

/-- A step of the subtraction in `canonical_signature`: the borrow so far, and the bytes. -/
def subStep (digits : UInt8 × UInt8) (acc : ℤ × Bytes) : ℤ × Bytes :=
  let diff : ℤ := digits.1.toNat - digits.2.toNat - acc.1
  if diff < 0 then (1, UInt8.ofNat (diff + 256).toNat :: acc.2)
  else (0, UInt8.ofNat diff.toNat :: acc.2)

/-- The loop of `canonical_signature`, from the last byte to the first. -/
def orderMinus (s : Bytes) : Bytes := ((SECP256K1_N.zip s).foldr subStep (0, [])).2

/-- The two encodings of a parity, as one. -/
def canonicalV (v : UInt8) : Option UInt8 :=
  if v = 0 ∨ v = 27 then some 27 else if v = 1 ∨ v = 28 then some 28 else none

/-- `canonical_signature`. -/
def canonicalSignature (sig65 : Bytes) : Option Bytes :=
  if sig65.length ≠ 65 then none
  else do
    let v ← canonicalV (sig65.getD 64 0)
    let s := sliceAt sig65 32 32
    if isHighS s then some (sig65.take 32 ++ (orderMinus s ++ [if v = 27 then 28 else 27]))
    else some (sig65.take 64 ++ [v])

/-! ### On numbers -/

/-- The order of the curve. -/
def order : ℕ := 0xFFFFFFFFFFFFFFFFFFFFFFFFFFFFFFFEBAAEDCE6AF48A03BBFD25E8CD0364141

/-- The signature has one of the four encodings. -/
structure Encoded (sig : Bytes) : Prop where
  length : sig.length = 65
  v : sig.getD 64 0 = 0 ∨ sig.getD 64 0 = 27 ∨ sig.getD 64 0 = 1 ∨ sig.getD 64 0 = 28

/-- **The signature is in the encoding that the gates read.** -/
structure Canonical (sig : Bytes) : Prop where
  length : sig.length = 65
  v : sig.getD 64 0 = 27 ∨ sig.getD 64 0 = 28
  low : wordAt sig 32 ≤ order / 2

/-- The parity is odd. -/
def isOdd (sig : Bytes) : Bool := sig.getD 64 0 = 1 ∨ sig.getD 64 0 = 28

/-- **The encoding with the lower of `s` and `n - s`.** -/
def lowForm (sig : Bytes) : Bytes :=
  if order / 2 < wordAt sig 32 then
    sig.take 32 ++ (BigEndian.toBytes 32 (order - wordAt sig 32) ++
      [if isOdd sig then 27 else 28])
  else sig.take 64 ++ [if isOdd sig then 28 else 27]

/-- The loop halves the order. -/
theorem ofBytes_halve : BigEndian.ofBytes (halve 0 SECP256K1_N) = order / 2 := by
  decide +kernel

/-- The comparison, on numbers. -/
theorem isHighS_iff {s : Bytes} (hs : s.length = 32) :
    isHighS s = true ↔ order / 2 < BigEndian.ofBytes s := by
  have hlen : (halve 0 SECP256K1_N).length = s.length := by
    rw [hs]
    rfl
  rw [isHighS, decide_eq_true_iff, BigEndian.lt_iff_ofBytes_lt hlen, ofBytes_halve]

/-- **Subtraction with a borrow**, from behind: what is still owed counts for a power more for
each byte that is done. -/
theorem foldr_subStep {ns s : Bytes} (h : ns.length = s.length) :
    (((ns.zip s).foldr subStep (0, [])).1 = 0 ∨ ((ns.zip s).foldr subStep (0, [])).1 = 1) ∧
      ((ns.zip s).foldr subStep (0, [])).2.length = s.length ∧
      (BigEndian.ofBytes ((ns.zip s).foldr subStep (0, [])).2 : ℤ) =
        BigEndian.ofBytes ns - BigEndian.ofBytes s +
          ((ns.zip s).foldr subStep (0, [])).1 * 256 ^ s.length := by
  induction ns generalizing s with
  | nil =>
    obtain rfl := List.length_eq_zero_iff.mp h.symm
    simp [BigEndian.ofBytes]
  | cons n ns ih =>
    rcases s with _ | ⟨b, s⟩
    · simp at h
    obtain ⟨hborrow, hlen, hval⟩ := ih (Nat.succ.inj h)
    have hlen' : ns.length = s.length := Nat.succ.inj h
    rw [List.zip_cons_cons, List.foldr_cons]
    generalize (ns.zip s).foldr subStep (0, []) = acc at hborrow hlen hval ⊢
    obtain ⟨borrow, low⟩ := acc
    have hn := n.toNat_lt
    have hb := b.toNat_lt
    rw [BigEndian.ofBytes_cons, BigEndian.ofBytes_cons, List.length_cons, hlen', pow_succ]
    push_cast
    dsimp only at hborrow hlen hval
    by_cases hneg : (n.toNat : ℤ) - b.toNat - borrow < 0
    · have hdigit : (UInt8.ofNat ((n.toNat : ℤ) - b.toNat - borrow + 256).toNat).toNat =
          (n.toNat : ℤ) - b.toNat - borrow + 256 := by
        rw [UInt8.toNat_ofNat']
        omega
      rw [subStep, if_pos hneg]
      refine ⟨.inr rfl, by rw [List.length_cons, hlen], ?_⟩
      rw [BigEndian.ofBytes_cons, hlen]
      push_cast
      rw [hdigit, hval]
      ring
    · have hdigit : (UInt8.ofNat ((n.toNat : ℤ) - b.toNat - borrow).toNat).toNat =
          (n.toNat : ℤ) - b.toNat - borrow := by
        rw [UInt8.toNat_ofNat']
        omega
      rw [subStep, if_neg hneg]
      refine ⟨.inl rfl, by rw [List.length_cons, hlen], ?_⟩
      rw [BigEndian.ofBytes_cons, hlen]
      push_cast
      rw [hdigit, hval]
      ring

theorem ofBytes_order : BigEndian.ofBytes SECP256K1_N = order := by
  decide +kernel

theorem length_orderMinus {s : Bytes} (hs : s.length = 32) : (orderMinus s).length = 32 := by
  have h : SECP256K1_N.length = s.length := by
    rw [hs]
    rfl
  rw [orderMinus, (foldr_subStep h).2.1, hs]

/-- **The loop subtracts from the order**, up to what its width holds. -/
theorem ofBytes_orderMinus {s : Bytes} (hs : s.length = 32) :
    (BigEndian.ofBytes s ≤ order → BigEndian.ofBytes (orderMinus s) = order - BigEndian.ofBytes s) ∧
      (order ≤ BigEndian.ofBytes s → BigEndian.ofBytes (orderMinus s) = 0 ∨
        order ≤ BigEndian.ofBytes (orderMinus s)) := by
  have h : SECP256K1_N.length = s.length := by
    rw [hs]
    rfl
  obtain ⟨hborrow, -, hval⟩ := foldr_subStep h
  have hlt := BigEndian.ofBytes_lt (orderMinus s)
  have hs' := BigEndian.ofBytes_lt s
  rw [length_orderMinus hs] at hlt
  rw [ofBytes_order, hs, ← orderMinus] at hval
  rw [hs] at hs'
  generalize ((SECP256K1_N.zip s).foldr subStep (0, [])).1 = borrow at hborrow hval
  have horder : order < 256 ^ 32 := by decide
  rcases hborrow with rfl | rfl
  · exact ⟨fun hle => by omega, fun hle => by omega⟩
  · exact ⟨fun hle => by omega, fun hle => by omega⟩

variable {sig : Bytes}

/-- A signature, taken apart. -/
theorem eq_of_length (h : sig.length = 65) :
    sig = sig.take 32 ++ (sliceAt sig 32 32 ++ [sig.getD 64 0]) ∧ (sig.take 32).length = 32 ∧
      (sliceAt sig 32 32).length = 32 ∧ sig.take 64 = sig.take 32 ++ sliceAt sig 32 32 := by
  have htake : sig.take 64 = sig.take 32 ++ sliceAt sig 32 32 := by
    rw [sliceAt, ← List.take_add]
  have hlast : sig.drop 64 = [sig.getD 64 0] := by
    have hlt : 64 < sig.length := by omega
    rw [List.drop_eq_getElem_cons hlt, List.drop_eq_nil_of_le (by omega),
      List.getD_eq_getElem?_getD, List.getElem?_eq_getElem hlt, Option.getD_some]
  refine ⟨?_, by rw [List.length_take]; omega, ?_, htake⟩
  · rw [← List.append_assoc, ← htake, ← hlast, List.take_append_drop]
  · rw [sliceAt, List.length_take, List.length_drop]
    omega

/-- A signature of its three parts has them. -/
theorem parts_append {r s : Bytes} (hr : r.length = 32) (hs : s.length = 32) (v : UInt8) :
    (r ++ (s ++ [v])).length = 65 ∧ (r ++ (s ++ [v])).take 32 = r ∧
      sliceAt (r ++ (s ++ [v])) 32 32 = s ∧ (r ++ (s ++ [v])).getD 64 0 = v := by
  refine ⟨?_, ?_, ?_, ?_⟩
  · simp [hr, hs]
  · rw [← hr, List.take_left]
  · rw [sliceAt, ← hr, List.drop_left, hr, ← hs, List.take_left]
  · rw [List.getD_eq_getElem?_getD, ← List.append_assoc,
      List.getElem?_append_right (by simp [hr, hs])]
    simp [hr, hs]

/-! ### The library writes the low form -/

/-- The parity that the library reads. -/
theorem canonicalV_eq (h : Encoded sig) :
    canonicalV (sig.getD 64 0) = some (if isOdd sig then 28 else 27) := by
  unfold isOdd
  rcases h.v with hv | hv | hv | hv <;> rw [hv] <;> decide

/-- **What the library writes.** -/
theorem canonicalSignature_eq (h : Encoded sig) (hs : wordAt sig 32 < order) :
    canonicalSignature sig = some (lowForm sig) := by
  obtain ⟨-, -, hlen, -⟩ := eq_of_length h.length
  have hhigh := isHighS_iff hlen
  rw [canonicalSignature, if_neg (not_not.mpr h.length), canonicalV_eq h]
  simp only [Option.bind_eq_bind, Option.bind_some]
  by_cases hlow : order / 2 < wordAt sig 32
  · have hminus := (ofBytes_orderMinus hlen).1 (le_of_lt hs)
    have hbytes := BigEndian.toBytes_ofBytes (orderMinus (sliceAt sig 32 32))
    rw [length_orderMinus hlen, hminus, ← wordAt] at hbytes
    rw [if_pos (hhigh.mpr hlow), lowForm, if_pos hlow, hbytes]
    rcases isOdd sig <;> rfl
  · rw [if_neg (fun hh => hlow (hhigh.mp hh)), lowForm, if_neg hlow]

/-- The low form is what the gates read. -/
theorem canonical_lowForm (h : sig.length = 65) (hs : wordAt sig 32 < order) :
    Canonical (lowForm sig) := by
  obtain ⟨-, hr, hlen, htake⟩ := eq_of_length h
  by_cases hlow : order / 2 < wordAt sig 32
  · have hminus : (BigEndian.toBytes 32 (order - wordAt sig 32)).length = 32 :=
      BigEndian.length_toBytes _ _
    have horder : order < 256 ^ 32 := by decide
    rw [lowForm, if_pos hlow]
    obtain ⟨h65, -, hslice, hv⟩ := parts_append hr hminus (if isOdd sig then 27 else 28)
    refine ⟨h65, ?_, ?_⟩
    · rw [hv]
      rcases isOdd sig <;> decide
    · rw [wordAt, hslice, BigEndian.ofBytes_toBytes, Nat.mod_eq_of_lt (by omega)]
      omega
  · rw [lowForm, if_neg hlow, htake, List.append_assoc]
    obtain ⟨h65, -, hslice, hv⟩ := parts_append hr hlen (if isOdd sig then 28 else 27)
    refine ⟨h65, ?_, ?_⟩
    · rw [hv]
      rcases isOdd sig <;> decide
    · rw [wordAt, hslice, ← wordAt]
      omega

/-- It is its own low form. -/
theorem lowForm_of_canonical (h : Canonical sig) : lowForm sig = sig := by
  obtain ⟨heq, -, -, htake⟩ := eq_of_length h.length
  have hv : (if isOdd sig then (28 : UInt8) else 27) = sig.getD 64 0 := by
    unfold isOdd
    rcases h.v with hv | hv <;> rw [hv] <;> decide
  rw [lowForm, if_neg (not_lt.mpr h.low), htake, hv, List.append_assoc, ← heq]

/-- **Whatever the library writes**, its parity is one that the gates read, and its `s` is too,
or is none at all. -/
theorem of_canonicalSignature {c : Bytes} (h : canonicalSignature sig = some c) :
    c.length = 65 ∧ (c.getD 64 0 = 27 ∨ c.getD 64 0 = 28) ∧
      (wordAt c 32 ≤ order / 2 ∨ order ≤ wordAt c 32) := by
  by_cases h65 : sig.length = 65
  · obtain ⟨-, hr, hlen, htake⟩ := eq_of_length h65
    have hhigh := isHighS_iff hlen
    rw [canonicalSignature, if_neg (not_not.mpr h65)] at h
    obtain ⟨v, hv, h⟩ := Option.bind_eq_some_iff.mp h
    have hv' : v = 27 ∨ v = 28 := by
      unfold canonicalV at hv
      split at hv
      · exact .inl (Option.some.inj hv).symm
      · exact .inr (Option.ite_some_none_eq_some.mp hv).2.symm
    dsimp only at h
    split at h
    · next hh =>
      obtain rfl := Option.some.inj h
      obtain ⟨hc, -, hslice, hcv⟩ := parts_append hr (length_orderMinus hlen)
        (if v = 27 then 28 else 27)
      refine ⟨hc, ?_, ?_⟩
      · rw [hcv]
        rcases hv' with rfl | rfl <;> decide
      · have hlow := hhigh.mp hh
        obtain ⟨hle, hge⟩ := ofBytes_orderMinus hlen
        rw [wordAt, hslice]
        rcases le_total (BigEndian.ofBytes (sliceAt sig 32 32)) order with ho | ho
        · rw [hle ho]
          omega
        · rcases hge ho with h0 | hbig
          · omega
          · exact .inr hbig
    · next hh =>
      obtain rfl := Option.some.inj h
      rw [htake, List.append_assoc]
      obtain ⟨hc, -, hslice, hcv⟩ := parts_append hr hlen v
      refine ⟨hc, by rw [hcv]; exact hv', ?_⟩
      rw [wordAt, hslice]
      exact .inl (not_lt.mp fun hlow => hh (hhigh.mpr hlow))
  · rw [canonicalSignature, if_pos h65] at h
    cases h

end BridgeSolana

end SelendraBridge
