import SelendraBridge.Basic

/-!
# The two uses of the standard ABI coder

The gate uses the unpacked coder in two places only: it decodes the execution
payload of a transfer (`SelendraBridge.Abi.decodeAutoParamsTo`), and it encodes
the name and the parameters of a governance action before hashing them
(`SelendraBridge.Abi.encodeAction`).

Decoding follows the checks of the compiler's coder one by one – a head offset
that must fit 64 bits, a tuple head of four words, two dynamic members whose
length word and contents must lie inside the data – and accepts everything those
checks accept: offsets need not be canonical, members may overlap, and bytes after
the last member are ignored. Two payloads that decode to the same parameters are
therefore not the same bytes in general.

The encoding of an action, on the other hand, is injective on actions whose name
fits one word (`SelendraBridge.Abi.encodeAction_inj`): the number of parameters is
read off the length, and after that every piece has a known width.
-/

namespace SelendraBridge

/-- The execution payload as the gate decodes it. -/
structure AutoParamsTo where
  executionFee : U256
  flags : U256
  fallbackAddress : Bytes
  data : Bytes
  deriving DecidableEq, Repr

namespace Abi

/-! ### Decoding an execution payload -/

/-- The largest offset or length the coder follows. -/
def maxOffset : ℕ := 2 ^ 64

/-- A dynamic `bytes` whose length word is at `pos`. -/
def decodeBytes (bs : Bytes) (pos : ℕ) : Option Bytes :=
  if bs.length < pos + 32 then none
  else
    let length := wordAt bs pos
    if maxOffset ≤ length then none
    else if bs.length < pos + 32 + length then none
    else some (sliceAt bs (pos + 32) length)

/-- A dynamic member of the tuple at `base`, whose offset word is at `base + i`. -/
def decodeMember (bs : Bytes) (base i : ℕ) : Option Bytes :=
  let offset := wordAt bs (base + i)
  if maxOffset ≤ offset then none else decodeBytes bs (base + offset)

/-- `abi.decode(autoParams, (AutoParamsTo))`; `none` is a revert. -/
def decodeAutoParamsTo (bs : Bytes) : Option AutoParamsTo :=
  if bs.length < 32 then none
  else
    let base := wordAt bs 0
    if maxOffset ≤ base then none
    else if bs.length < base + 128 then none
    else do
      let fallbackAddress ← decodeMember bs base 64
      let data ← decodeMember bs base 96
      return {
        executionFee := BitVec.ofNat 256 (wordAt bs base)
        flags := BitVec.ofNat 256 (wordAt bs (base + 32))
        fallbackAddress
        data }

/-- **What a member is, and when there is one.** -/
theorem decodeMember_eq_some {bs b : Bytes} {base i : ℕ} : decodeMember bs base i = some b ↔
    wordAt bs (base + i) < maxOffset ∧ base + wordAt bs (base + i) + 32 ≤ bs.length ∧
      wordAt bs (base + wordAt bs (base + i)) < maxOffset ∧
      base + wordAt bs (base + i) + 32 + wordAt bs (base + wordAt bs (base + i)) ≤ bs.length ∧
      sliceAt bs (base + wordAt bs (base + i) + 32) (wordAt bs (base + wordAt bs (base + i))) =
        b := by
  simp only [decodeMember, decodeBytes, Option.ite_none_left_eq_some, not_le, not_lt,
    Option.some.injEq]

/-! ### Encoding a governance action -/

/-- A number as a word of an encoding. -/
def natWord (n : ℕ) : Bytes := wordBytes (BitVec.ofNat 256 n)

/-- A string of at most 32 bytes: its length, and its bytes padded to a word. -/
def encodeString (s : Bytes) : Bytes :=
  natWord s.length ++ (s ++ List.replicate (32 - s.length) 0)

/-- The parameters of an action, one word each. -/
def encodeArgs (args : List Bytes32) : Bytes := args.flatMap wordBytes

/-- `abi.encode(scheme, kind, args…)` for two strings that fit a word each and
parameters of a static type: the head has an offset for each string and the
parameters themselves, the tail has the strings. -/
def encodeAction (scheme kind : Bytes) (args : List Bytes32) : Bytes :=
  let head := 32 * (2 + args.length)
  natWord head ++ (natWord (head + 64) ++
    (encodeArgs args ++ (encodeString scheme ++ encodeString kind)))

theorem length_encodeString {s : Bytes} (hs : s.length ≤ 32) : (encodeString s).length = 64 := by
  simp only [encodeString, natWord, List.length_append, length_wordBytes, List.length_replicate]
  omega

@[simp] theorem length_encodeArgs (args : List Bytes32) :
    (encodeArgs args).length = 32 * args.length := by
  induction args with
  | nil => rfl
  | cons a args ih =>
    simp only [encodeArgs, List.flatMap_cons, List.length_append, length_wordBytes,
      List.length_cons] at ih ⊢
    omega

theorem natWord_inj {m n : ℕ} (hm : m < 2 ^ 256) (hn : n < 2 ^ 256)
    (h : natWord m = natWord n) : m = n := by
  have h' := congrArg BitVec.toNat (wordBytes_inj.mp h)
  rwa [BitVec.toNat_ofNat, BitVec.toNat_ofNat, Nat.mod_eq_of_lt hm, Nat.mod_eq_of_lt hn] at h'

theorem encodeString_inj {s t : Bytes} (hs : s.length ≤ 32) (ht : t.length ≤ 32)
    (h : encodeString s = encodeString t) : s = t := by
  obtain ⟨hlen, hpad⟩ := List.append_inj h (by simp [natWord])
  have hst : s.length = t.length := natWord_inj (by omega) (by omega) hlen
  exact (List.append_inj hpad hst).1

theorem encodeArgs_inj {as bs : List Bytes32} (h : encodeArgs as = encodeArgs bs) : as = bs := by
  induction as generalizing bs with
  | nil =>
    have hlen := congrArg List.length h
    simp only [length_encodeArgs, List.length_nil] at hlen
    exact (List.length_eq_zero_iff.mp (by omega)).symm
  | cons a as ih =>
    cases bs with
    | nil =>
      have hlen := congrArg List.length h
      simp only [length_encodeArgs, List.length_nil, List.length_cons] at hlen
      omega
    | cons b bs =>
      obtain ⟨rfl, htail⟩ := wordBytes_append_inj.mp h
      rw [ih htail]

/-- **Two actions share an encoding only if they are the same action**: the same
name and the same parameters. -/
theorem encodeAction_inj {scheme k l : Bytes} {as bs : List Bytes32}
    (hscheme : scheme.length ≤ 32) (hk : k.length ≤ 32) (hl : l.length ≤ 32)
    (h : encodeAction scheme k as = encodeAction scheme l bs) : k = l ∧ as = bs := by
  have hlen := congrArg List.length h
  simp only [encodeAction, natWord, List.length_append, length_wordBytes, length_encodeArgs,
    length_encodeString hscheme, length_encodeString hk, length_encodeString hl] at hlen
  obtain ⟨-, h⟩ := List.append_inj h (by simp [natWord])
  obtain ⟨-, h⟩ := List.append_inj h (by simp [natWord])
  obtain ⟨hargs, h⟩ := List.append_inj h (by simp only [length_encodeArgs]; omega)
  obtain ⟨-, hkind⟩ := List.append_inj h rfl
  exact ⟨encodeString_inj hk hl hkind, encodeArgs_inj hargs⟩

end Abi

end SelendraBridge
