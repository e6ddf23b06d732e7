import SelendraBridge.Frontend.Calldata
import SelendraBridge.Solana.AutoParams

/-!
# The payload that the page builds

A swap on the far side travels as a structure with two strings in it. The source router has the
compiler encode it, and signs what comes out; to finish a transfer the page builds the same bytes
again by hand. What it builds are head and tail of the structure's members
(`SelendraBridge.Frontend.encodeAutoParamsTo_eq`) – without the word in front that says where
they begin.

* The compiler's decoder takes the fee for that word. For a fee of 0 it returns the members
  (`SelendraBridge.Frontend.decodeAutoParamsTo_members`).
* The relayer's decoder insists on `0x20` there, and never returns them
  (`SelendraBridge.Frontend.decodeEvmAutoParams_members`).
-/

namespace SelendraBridge

namespace Frontend

open Abi Revert

/-- `encodeAutoParamsTo`. -/
def encodeAutoParamsTo (executionFee flags : ℤ) (fallbackAddressHex dataHex : Text) :
    Except CalldataError Text := do
  let fbTail ← encBytesTail fallbackAddressHex
  let dataTail ← encBytesTail (orEmptyHex dataHex)
  let offFallback : ℕ := 4 * 32
  let offData := offFallback + fbTail.length / 2
  let executionFee ← encUint executionFee
  let flags ← encUint flags
  let offFallback ← encUint offFallback
  let offData ← encUint offData
  return ['0', 'x'] ++ (executionFee ++ (flags ++ (offFallback ++ (offData ++
    (fbTail ++ dataTail)))))

/-- `encodeSwapIntent`. -/
def encodeSwapIntent (finalToken finalReceiver : Text) (finalMinOut : ℤ) :
    Except CalldataError Text := do
  let finalToken ← encAddress finalToken
  let finalReceiver ← encAddress finalReceiver
  let finalMinOut ← encUint finalMinOut
  return ['0', 'x'] ++ (finalToken ++ (finalReceiver ++ finalMinOut))

/-- **What the page builds are the members alone.** -/
theorem encodeAutoParamsTo_eq {ap : AutoParamsTo} {fb data text : Text}
    (hfb : fb.length < 2 ^ 53) (hdata : data.length < 2 ^ 53)
    (hfallback : ap.fallbackAddress = spelled fb) (hd : ap.data = spelled data)
    (h : encodeAutoParamsTo ap.executionFee.toNat ap.flags.toNat fb data = .ok text) :
    text = hexText (encodeTuple (members ap)) := by
  have hfee := ap.executionFee.isLt
  have hflags := ap.flags.isLt
  simp only [encodeAutoParamsTo, bind_eq_ok, pure_eq_ok] at h
  obtain ⟨_, hfbTail, _, hdataTail, _, hfeeWord, _, hflagsWord, _, hoffFallback, _, hoffData,
    rfl⟩ := h
  obtain ⟨rfl, hfbLen⟩ := encBytesTail_eq_ok hfbTail hfb
  obtain ⟨rfl, -⟩ := encBytesTail_eq_ok hdataTail (length_orEmptyHex_lt hdata)
  obtain rfl := encUint_offset hfeeWord hfee
  obtain rfl := encUint_offset hflagsWord hflags
  rw [length_encode_half] at hoffData
  have hbound := length_encodeBytes_le hfbLen
  obtain rfl := encUint_offset hoffFallback (by norm_num)
  obtain rfl := encUint_offset hoffData (by omega)
  simp only [hexText, members, encodeTuple, encodeHead, encodeTail, Arg.tail, List.flatMap_cons,
    List.flatMap_nil, List.append_nil, List.append_assoc, List.cons_append, List.nil_append,
    Hex.encode_append, List.length_cons, List.length_nil, hfallback, hd, spelled_orEmptyHex]

/-- **The three words of an intent.** -/
theorem encodeSwapIntent_eq {finalToken finalReceiver text : Text} {finalMinOut : ℤ}
    (hfits : finalMinOut < 2 ^ 256)
    (h : encodeSwapIntent finalToken finalReceiver finalMinOut = .ok text) :
    text =
      hexText (encodeTuple [wordArg finalToken, wordArg finalReceiver, intArg finalMinOut]) := by
  simp only [encodeSwapIntent, bind_eq_ok, pure_eq_ok] at h
  obtain ⟨_, htoken, _, hreceiver, _, hmin, rfl⟩ := h
  obtain ⟨rfl, -⟩ := encAddress_eq_ok htoken
  obtain ⟨rfl, -⟩ := encAddress_eq_ok hreceiver
  obtain ⟨rfl, -⟩ := encUint_eq_ok hmin hfits
  simp only [hexText, wordArg, intArg, encodeTuple, encodeHead, encodeTail, Arg.tail,
    List.flatMap_cons, List.flatMap_nil, List.append_nil, List.cons_append, List.nil_append,
    Hex.encode_append]

/-! ### Its readers -/

/-- The first three words of the members. -/
theorem wordAt_members (ap : AutoParamsTo) :
    wordAt (encodeTuple (members ap)) 0 = ap.executionFee.toNat ∧
      wordAt (encodeTuple (members ap)) 32 = ap.flags.toNat ∧
      wordAt (encodeTuple (members ap)) 64 = 128 := by
  obtain ⟨rest, hrest⟩ : ∃ rest, encodeTuple (members ap) = natWord ap.executionFee.toNat ++
      (natWord ap.flags.toNat ++ (natWord 128 ++ rest)) := by
    simp only [members, encodeTuple, encodeHead, List.append_assoc]
    exact ⟨_, rfl⟩
  rw [hrest]
  refine ⟨?_, ?_, ?_⟩
  · have h := @wordAt_append [] _ (natWord ap.flags.toNat ++ (natWord 128 ++ rest)) 0 rfl
      (length_natWord ap.executionFee.toNat)
    rwa [List.nil_append, ofBytes_natWord ap.executionFee.isLt] at h
  · rw [wordAt_append (length_natWord _) (length_natWord _), ofBytes_natWord ap.flags.isLt]
  · rw [← List.append_assoc, wordAt_append (by rw [List.length_append, length_natWord,
      length_natWord]) (length_natWord _), ofBytes_natWord (by norm_num)]

/-- **The relayer never returns the members.** It would have to read a fee of `0x20` and flags of
`0x20` in the first two words, and then takes the offset in the third one for the flags. -/
theorem decodeEvmAutoParams_members {ap : AutoParamsTo} {wire : Solana.AutoParamsWire}
    (h : Solana.decodeEvmAutoParams (encodeTuple (members ap)) = .ok (some wire)) :
    ¬(wire.executionFee.toNat = ap.executionFee.toNat ∧ wire.flags.toNat = ap.flags.toNat) := by
  obtain ⟨h0, h32, h64⟩ := wordAt_members ap
  have hne : encodeTuple (members ap) ≠ [] := by
    intro hnil
    rw [hnil] at h64
    exact absurd h64 (by decide)
  simp only [Solana.decodeEvmAutoParams, if_neg hne, bind_eq_ok, exists_unit, Solana.abiUsize_eq_ok,
    Solana.abiWord_eq_ok, revertIf_eq_ok, pure_eq_ok, not_le, not_not, h0] at h
  obtain ⟨base, ⟨-, hword, -⟩, hbase, fee, ⟨-, hfee⟩, flags, ⟨-, hflags⟩, hfeeLt, hflagsLt, fb, -,
    d, -, hwire⟩ := h
  rw [hbase, h32] at hfee
  rw [hbase, h64] at hflags
  obtain rfl := Option.some.inj hwire
  rintro ⟨hfeeEq, hflagsEq⟩
  dsimp only at hfeeEq hflagsEq
  rw [BitVec.toNat_setWidth, Nat.mod_eq_of_lt hfeeLt, hfee] at hfeeEq
  rw [BitVec.toNat_setWidth, Nat.mod_eq_of_lt hflagsLt, hflags] at hflagsEq
  -- the fee is 32 and equals the flags, which are 128
  omega

/-- **The compiler's decoder returns them where the fee is 0**: the members begin at 0. -/
theorem decodeAutoParamsTo_members {ap : AutoParamsTo} (hfee : ap.executionFee = 0)
    (hlen : (encodeTuple (members ap)).length < 2 ^ 64) :
    decodeAutoParamsTo (encodeTuple (members ap)) = some ap := by
  obtain ⟨h0, h32, -⟩ := wordAt_members ap
  have htypes : List.Forall₂ Arg.Of [.uint256, .uint256, .bytes, .bytes] (members ap) :=
    .cons (.word (by decide) ap.executionFee.isLt) (.cons (.word (by decide) ap.flags.isLt)
      (.cons (.bytes _) (.cons (.bytes _) .nil)))
  have hargs := decodeArgs_encodeTuple htypes hlen
  have hzero : ap.executionFee.toNat = 0 := by
    rw [hfee]
    rfl
  rw [decodeArgs, Option.ite_none_left_eq_some] at hargs
  obtain ⟨hhead, hargs⟩ := hargs
  simp only [decodeFrom, decodeArg, Option.bind_eq_bind, Option.bind_eq_some_iff, Option.pure_def,
    Option.some.injEq, reduceCtorEq, if_false, if_true, Option.map_eq_some_iff] at hargs
  obtain ⟨_, -, _, ⟨_, -, _, ⟨_, ⟨fb, hfb, rfl⟩, _, ⟨_, ⟨d, hd, rfl⟩, _, rfl, rfl⟩, rfl⟩, rfl⟩,
    heq⟩ := hargs
  simp only [members, List.cons.injEq, Arg.bytes.injEq, and_true] at heq
  obtain ⟨-, -, rfl, rfl⟩ := heq
  rw [decodeAutoParamsTo, h0, hzero, if_neg (by simp at hhead; omega), if_neg (by decide),
    if_neg (by simp at hhead; omega), Nat.zero_add, h0, h32, BitVec.ofNat_toNat, BitVec.ofNat_toNat,
    BitVec.setWidth_eq, BitVec.setWidth_eq]
  exact Option.bind_eq_some_iff.mpr ⟨_, hfb, Option.bind_eq_some_iff.mpr ⟨_, hd, rfl⟩⟩

/-- **What the page builds is never the payload that the router signs**, for any fee and any flags,
and any two strings: the word in front is missing, and the relayer reads other members. -/
theorem encodeAutoParamsTo_ne (ap : AutoParamsTo) {fb data text : Text}
    (hfb : fb.length < 2 ^ 53) (hdata : data.length < 2 ^ 53)
    (hfallback : ap.fallbackAddress = spelled fb) (hd : ap.data = spelled data)
    (h : encodeAutoParamsTo ap.executionFee.toNat ap.flags.toNat fb data = .ok text) :
    ∃ bs, text = hexText bs ∧ Abi.encodeAutoParamsTo ap = natWord 32 ++ bs ∧
      bs ≠ Abi.encodeAutoParamsTo ap ∧
      ∀ wire, Solana.decodeEvmAutoParams bs = .ok (some wire) →
        ¬(wire.executionFee.toNat = ap.executionFee.toNat ∧
          wire.flags.toNat = ap.flags.toNat) := by
  refine ⟨encodeTuple (members ap), encodeAutoParamsTo_eq hfb hdata hfallback hd h,
    Abi.encodeAutoParamsTo_eq ap, ?_, fun wire => decodeEvmAutoParams_members⟩
  intro heq
  have hlen := congrArg List.length heq
  rw [Abi.encodeAutoParamsTo_eq, List.length_append, length_natWord] at hlen
  omega

/-- A token and a receiver on the far side, and the least to get. -/
def intentText : Text :=
  (encodeSwapIntent (repeatedAddress 'a') (repeatedAddress 'B') 990000).toOption.getD []

/-- The payload of a swap with them, as the router builds it. -/
def swapPayload : AutoParamsTo := ⟨0, 0, spelled (repeatedAddress 'B'), spelled intentText⟩

theorem swapPayload_data : swapPayload.data = spelled intentText := by
  rw [swapPayload]

theorem exists_swapPayload : ∃ text, encodeAutoParamsTo swapPayload.executionFee.toNat
    swapPayload.flags.toNat (repeatedAddress 'B') intentText = .ok text := by
  have hsome :
      (encodeAutoParamsTo 0 0 (repeatedAddress 'B') intentText).toOption.isSome = true := by
    decide +kernel
  obtain ⟨text, htext⟩ := Option.isSome_iff_exists.mp hsome
  exact ⟨text, toOption_eq_some.mp htext⟩

theorem length_intentText : intentText.length < 2 ^ 53 := by
  have hlen : intentText.length = 194 := by decide +kernel
  omega

theorem encodeAutoParamsTo_ne_swapPayload : ∃ bs, encodeAutoParamsTo 0 0 (repeatedAddress 'B')
    intentText = .ok (hexText bs) ∧ bs ≠ Abi.encodeAutoParamsTo swapPayload := by
  obtain ⟨text, htext⟩ := exists_swapPayload
  have hfb : (repeatedAddress 'B').length < 2 ^ 53 := by
    simp [repeatedAddress]
  obtain ⟨bs, rfl, -, hne, -⟩ :=
    encodeAutoParamsTo_ne swapPayload hfb length_intentText rfl swapPayload_data htext
  exact ⟨bs, htext, hne⟩

/-- The page hands the gate 32 bytes less than the router signed, and the relayer refuses them. -/
theorem swapPayload_differs : ∃ bs, encodeAutoParamsTo 0 0 (repeatedAddress 'B') intentText =
      .ok (hexText bs) ∧
    bs.length = 320 ∧ (Abi.encodeAutoParamsTo swapPayload).length = 352 ∧
    (Solana.decodeEvmAutoParams bs).toOption = none := by
  obtain ⟨text, htext⟩ := exists_swapPayload
  have hfb : (repeatedAddress 'B').length < 2 ^ 53 := by
    simp [repeatedAddress]
  obtain rfl := encodeAutoParamsTo_eq hfb length_intentText rfl swapPayload_data htext
  refine ⟨_, htext, ?_, ?_, ?_⟩
  · decide +kernel
  · decide +kernel
  · decide +kernel

end Frontend

end SelendraBridge
