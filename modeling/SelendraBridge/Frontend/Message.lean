import SelendraBridge.Frontend.Base58
import SelendraBridge.Lib.ShortVec

/-!
# The message of a transaction

A transaction of the other machine is a message and its signatures. The message lists every
account once and says what may be done with it by its place alone: three counts in front divide
the list into four parts, and the instructions name accounts by their index.

| part | signs | may be written |
|---|---|---|
| the first `numRequiredSignatures - numReadonlySigned` | yes | yes |
| up to `numRequiredSignatures` | yes | no |
| up to the last `numReadonlyUnsigned` | no | yes |
| the rest | no | no |

The page collects the accounts of its instructions, merges what is asked of the same account, and
sorts. The runtime reads the message (`SelendraBridge.Frontend.message`), and finds what was asked
(`SelendraBridge.Frontend.Faithful`).
-/

namespace SelendraBridge

namespace Frontend

open Borsh Revert

/-! ### What the page writes -/

/-- `AccountMeta`. -/
structure AccountMeta where
  pubkey : Text
  isSigner : Bool
  isWritable : Bool
  deriving DecidableEq, Repr

/-- `Instruction`. -/
structure Instruction where
  programId : Text
  keys : List AccountMeta
  data : Bytes

/-- A number as the 32 bits that a shift of the language takes. -/
def toInt32 (v : ℤ) : ℤ := (v + 2 ^ 31) % 2 ^ 32 - 2 ^ 31

/-- `shortVec`. -/
def shortVec (v : ℤ) : List ℤ :=
  if v < 128 then [v] else (v % 128 + 128) :: shortVec (toInt32 v / 128)
termination_by v.toNat
decreasing_by
  rw [toInt32]
  omega

/-- A number as an element of a `Uint8Array`. -/
def toByte (x : ℤ) : UInt8 := UInt8.ofNat (x % 256).toNat

/-- `note`. -/
def note (metas : List AccountMeta) (m : AccountMeta) : List AccountMeta :=
  if metas.any fun prev => prev.pubkey == m.pubkey then
    metas.map fun prev =>
      if prev.pubkey = m.pubkey then
        { prev with
          isSigner := prev.isSigner || m.isSigner
          isWritable := prev.isWritable || m.isWritable }
      else prev
  else metas ++ [m]

/-- The accounts of an instruction are noted, and its program as one that is only read. -/
def noteInstruction (metas : List AccountMeta) (ix : Instruction) : List AccountMeta :=
  note (ix.keys.foldl note metas) ⟨ix.programId, false, false⟩

/-- All accounts, in the order they first appear. -/
def metas (feePayer : Text) (instructions : List Instruction) : List AccountMeta :=
  instructions.foldl noteInstruction (note [] ⟨feePayer, true, true⟩)

/-- `rank`. -/
def rank (feePayer : Text) (m : AccountMeta) : ℤ :=
  if m.pubkey = feePayer then 0
  else if m.isSigner && m.isWritable then 1
  else if m.isSigner then 2
  else if m.isWritable then 3
  else 4

/-- The difference of two keys where they first differ. -/
def cmpBytes : Bytes → Bytes → ℤ
  | x :: xs, y :: ys => if x ≠ y then (x.toNat : ℤ) - y.toNat else cmpBytes xs ys
  | _, _ => 0

/-- `cmp`, which looks at 32 bytes. -/
def cmp (a b : Text) : ℤ := cmpBytes ((base58Bytes a).take 32) ((base58Bytes b).take 32)

/-- The comparison of the sort. -/
def compareMetas (feePayer : Text) (a b : AccountMeta) : ℤ :=
  if rank feePayer a - rank feePayer b ≠ 0 then rank feePayer a - rank feePayer b
  else cmp a.pubkey b.pubkey

/-- `all`: the accounts of the message. -/
def accounts (feePayer : Text) (instructions : List Instruction) : List AccountMeta :=
  (metas feePayer instructions).mergeSort fun a b => decide (compareMetas feePayer a b ≤ 0)

/-- `numSigners`. -/
def numSigners (all : List AccountMeta) : ℕ := all.countP fun m => m.isSigner

/-- `numReadonlySigned`. -/
def numReadonlySigned (all : List AccountMeta) : ℕ :=
  all.countP fun m => m.isSigner && !m.isWritable

/-- `numReadonlyUnsigned`. -/
def numReadonlyUnsigned (all : List AccountMeta) : ℕ :=
  all.countP fun m => !m.isSigner && !m.isWritable

/-- `index`. -/
def index (all : List AccountMeta) (key : Text) : ℤ :=
  match all.findIdx? fun m => m.pubkey == key with
  | some i => i
  | none => -1

/-- The numbers of an instruction. -/
def compile (all : List AccountMeta) (ix : Instruction) : List ℤ :=
  [index all ix.programId] ++ (shortVec ix.keys.length ++
    (ix.keys.map (fun k => index all k.pubkey) ++
      (shortVec ix.data.length ++ ix.data.map fun b => (b.toNat : ℤ))))

/-- What comes before the instructions. -/
def front (all : List AccountMeta) (keys : List Bytes) (hash : Bytes) : Bytes :=
  ([(numSigners all : ℤ), (numReadonlySigned all : ℤ), (numReadonlyUnsigned all : ℤ)] ++
    shortVec all.length).map toByte ++ (keys.flatten ++ hash)

/-- The instructions. -/
def tail (all : List AccountMeta) (instructions : List Instruction) : Bytes :=
  (shortVec instructions.length ++ instructions.flatMap (compile all)).map toByte

/-- **`serializeMessage`.** A text that is not base 58 throws, here or already in the sort. -/
def serializeMessage (feePayer blockhash : Text) (instructions : List Instruction) :
    Except Char Bytes := do
  let all := accounts feePayer instructions
  let keys ← all.mapM fun m => b58decode m.pubkey
  let hash ← b58decode blockhash
  return front all keys hash ++ tail all instructions

/-! ### What the runtime reads -/

/-- A compiled instruction. -/
structure CompiledInstruction where
  programIdIndex : UInt8
  accounts : Bytes
  data : Bytes

/-- A legacy message. -/
structure Message where
  numRequiredSignatures : UInt8
  numReadonlySigned : UInt8
  numReadonlyUnsigned : UInt8
  accountKeys : List Bytes32
  recentBlockhash : Bytes32
  instructions : List CompiledInstruction

/-- An instruction: the index of its program, those of its accounts, and its data. -/
def compiledInstruction : Codec CompiledInstruction :=
  (Codec.u8.pair ((ShortVec.vec Codec.u8).pair (ShortVec.vec Codec.u8))).iso
    (fun c => ⟨c.1, c.2.1, c.2.2⟩) (fun c => (c.programIdIndex, c.accounts, c.data)) fun _ => rfl

/-- **The grammar of a legacy message**: three counts, the keys, the blockhash and the
instructions. -/
def message : Codec Message :=
  (Codec.u8.pair (Codec.u8.pair (Codec.u8.pair ((ShortVec.vec (Codec.array 32)).pair
    ((Codec.array 32).pair (ShortVec.vec compiledInstruction)))))).iso
    (fun m => ⟨m.1, m.2.1, m.2.2.1, m.2.2.2.1, m.2.2.2.2.1, m.2.2.2.2.2⟩)
    (fun m => (m.numRequiredSignatures, m.numReadonlySigned, m.numReadonlyUnsigned, m.accountKeys,
      m.recentBlockhash, m.instructions)) fun _ => rfl

/-- Whether the `i`-th account signs. -/
def Message.IsSigner (m : Message) (i : ℕ) : Prop := i < m.numRequiredSignatures.toNat

/-- Whether it may be written. -/
def Message.IsWritable (m : Message) (i : ℕ) : Prop :=
  i < m.numRequiredSignatures.toNat - m.numReadonlySigned.toNat ∨
    m.numRequiredSignatures.toNat ≤ i ∧ i < m.accountKeys.length - m.numReadonlyUnsigned.toNat

/-! ### What was asked -/

/-- The key that a text names. -/
def keyOf (s : Text) : Bytes32 := BitVec.ofNat 256 (BigEndian.ofBytes (base58Bytes s))

/-- A text that is base 58 of 32 bytes. -/
def IsKey (s : Text) : Prop := ∃ k : Bytes32, s = base58 (wordBytes k)

/-- Every mention of an account: the fee payer, and for each instruction its accounts and its
program. -/
def mentions (feePayer : Text) (instructions : List Instruction) : List AccountMeta :=
  ⟨feePayer, true, true⟩ :: instructions.flatMap fun ix =>
    ix.keys ++ [⟨ix.programId, false, false⟩]

/-- The accounts that are asked to sign. -/
def signers (feePayer : Text) (instructions : List Instruction) : List Text :=
  ((mentions feePayer instructions).filter (·.isSigner)).map (·.pubkey)

/-- What an instruction became, by the keys of the message. -/
structure Compiled (keys : List Bytes32) (ix : Instruction) (c : CompiledInstruction) : Prop where
  program : keys[c.programIdIndex.toNat]? = some (keyOf ix.programId)
  accounts : c.accounts.map (fun i => keys[i.toNat]?) = ix.keys.map fun k => some (keyOf k.pubkey)
  data : c.data = ix.data

/-- **A message that says what was asked**: every account once, the fee payer first, the
instructions as they are, and each account with the union of what its mentions ask. -/
structure Faithful (feePayer blockhash : Text) (ixs : List Instruction) (m : Message) :
    Prop where
  nodup : m.accountKeys.Nodup
  first : m.accountKeys.head? = some (keyOf feePayer)
  mem : ∀ k, k ∈ m.accountKeys ↔ ∃ o ∈ mentions feePayer ixs, keyOf o.pubkey = k
  blockhash : m.recentBlockhash = keyOf blockhash
  instructions : List.Forall₂ (Compiled m.accountKeys) ixs m.instructions
  signer : ∀ i k, m.accountKeys[i]? = some k →
    (m.IsSigner i ↔ ∃ o ∈ mentions feePayer ixs, keyOf o.pubkey = k ∧ o.isSigner = true)
  writable : ∀ i k, m.accountKeys[i]? = some k →
    (m.IsWritable i ↔
      ∃ o ∈ mentions feePayer ixs, keyOf o.pubkey = k ∧ o.isWritable = true)

/-- **What a message has room for**: 255 signers, and 65535 instructions with as many accounts and
as many bytes of data each. -/
structure Fits (feePayer : Text) (ixs : List Instruction) : Prop where
  signers : (signers feePayer ixs).dedup.length < 2 ^ 8
  instructions : ixs.length < 2 ^ 16
  keys : ∀ ix ∈ ixs, ix.keys.length < 2 ^ 16
  data : ∀ ix ∈ ixs, ix.data.length < 2 ^ 16

/-- Mentions of the same accounts, that ask the same of each of them. -/
structure SameAsks (os os' : List AccountMeta) : Prop where
  mem : ∀ key, (∃ o ∈ os, o.pubkey = key) ↔ ∃ o ∈ os', o.pubkey = key
  signer : ∀ key, (∃ o ∈ os, o.pubkey = key ∧ o.isSigner = true) ↔
    ∃ o ∈ os', o.pubkey = key ∧ o.isSigner = true
  writable : ∀ key, (∃ o ∈ os, o.pubkey = key ∧ o.isWritable = true) ↔
    ∃ o ∈ os', o.pubkey = key ∧ o.isWritable = true

/-! ### Merging -/

/-- **The mentions of an account, merged**: every key once, with the union of what is asked. -/
structure Merged (os ms : List AccountMeta) : Prop where
  nodup : (ms.map (·.pubkey)).Nodup
  mem : ∀ key, (∃ m ∈ ms, m.pubkey = key) ↔ ∃ o ∈ os, o.pubkey = key
  signer : ∀ m ∈ ms, m.isSigner = true ↔ ∃ o ∈ os, o.pubkey = m.pubkey ∧ o.isSigner = true
  writable : ∀ m ∈ ms, m.isWritable = true ↔ ∃ o ∈ os, o.pubkey = m.pubkey ∧ o.isWritable = true

/-- What `note` does with one entry. -/
def mergeInto (m prev : AccountMeta) : AccountMeta :=
  if prev.pubkey = m.pubkey then
    { prev with
      isSigner := prev.isSigner || m.isSigner
      isWritable := prev.isWritable || m.isWritable }
  else prev

@[simp] theorem pubkey_mergeInto (m prev : AccountMeta) :
    (mergeInto m prev).pubkey = prev.pubkey := by
  rw [mergeInto]
  split <;> rfl

theorem isSigner_mergeInto {m prev : AccountMeta} : (mergeInto m prev).isSigner = true ↔
    prev.isSigner = true ∨ (m.pubkey = prev.pubkey ∧ m.isSigner = true) := by
  rw [mergeInto]
  split
  · next h => rw [Bool.or_eq_true, and_iff_right h.symm]
  · next h => rw [or_iff_left fun hm => h hm.1.symm]

theorem isWritable_mergeInto {m prev : AccountMeta} : (mergeInto m prev).isWritable = true ↔
    prev.isWritable = true ∨ (m.pubkey = prev.pubkey ∧ m.isWritable = true) := by
  rw [mergeInto]
  split
  · next h => rw [Bool.or_eq_true, and_iff_right h.symm]
  · next h => rw [or_iff_left fun hm => h hm.1.symm]

theorem note_of_mem {ms : List AccountMeta} {m : AccountMeta} (h : ∃ p ∈ ms, p.pubkey = m.pubkey) :
    note ms m = ms.map (mergeInto m) := by
  have hany : (ms.any fun prev => prev.pubkey == m.pubkey) = true := by
    rw [List.any_eq_true]
    obtain ⟨p, hp, heq⟩ := h
    exact ⟨p, hp, beq_iff_eq.mpr heq⟩
  rw [note, if_pos hany]
  rfl

theorem note_of_not_mem {ms : List AccountMeta} {m : AccountMeta}
    (h : ¬∃ p ∈ ms, p.pubkey = m.pubkey) : note ms m = ms ++ [m] := by
  have hany : ¬(ms.any fun prev => prev.pubkey == m.pubkey) = true := by
    rw [List.any_eq_true]
    rintro ⟨p, hp, heq⟩
    exact h ⟨p, hp, beq_iff_eq.mp heq⟩
  rw [note, if_neg hany]

/-- One more mention. -/
theorem Merged.note {os ms : List AccountMeta} (h : Merged os ms) (m : AccountMeta) :
    Merged (os ++ [m]) (note ms m) := by
  by_cases hmem : ∃ p ∈ ms, p.pubkey = m.pubkey
  · rw [note_of_mem hmem]
    constructor
    · have hkeys : (ms.map (mergeInto m)).map (·.pubkey) = ms.map (·.pubkey) := by
        rw [List.map_map]
        exact List.map_congr_left fun p _ => pubkey_mergeInto m p
      rw [hkeys]
      exact h.nodup
    · intro key
      simp only [List.mem_map, exists_exists_and_eq_and, pubkey_mergeInto, List.mem_append,
        List.mem_singleton]
      constructor
      · rintro hex
        obtain ⟨o, ho, heq⟩ := (h.mem key).mp hex
        exact ⟨o, .inl ho, heq⟩
      · rintro ⟨o, ho | rfl, heq⟩
        · exact (h.mem key).mpr ⟨o, ho, heq⟩
        · rw [← heq]
          exact hmem
    · rintro _ hmap
      obtain ⟨p, hp, rfl⟩ := List.mem_map.mp hmap
      rw [isSigner_mergeInto, pubkey_mergeInto, h.signer p hp]
      simp only [List.mem_append, List.mem_singleton, or_and_right, exists_or, exists_eq_left]
    · rintro _ hmap
      obtain ⟨p, hp, rfl⟩ := List.mem_map.mp hmap
      rw [isWritable_mergeInto, pubkey_mergeInto, h.writable p hp]
      simp only [List.mem_append, List.mem_singleton, or_and_right, exists_or, exists_eq_left]
  · rw [note_of_not_mem hmem]
    -- a key that is new was not mentioned before
    have hnew : ¬∃ o ∈ os, o.pubkey = m.pubkey := fun hex => hmem ((h.mem _).mpr hex)
    constructor
    · rw [List.map_append, List.map_singleton, List.nodup_append]
      refine ⟨h.nodup, List.nodup_singleton _, ?_⟩
      intro a ha b hb heq
      obtain ⟨p, hp, rfl⟩ := List.mem_map.mp ha
      obtain rfl := List.mem_singleton.mp hb
      exact hmem ⟨p, hp, heq⟩
    · intro key
      have hold := h.mem key
      simp only [List.mem_append, List.mem_singleton, or_and_right, exists_or, exists_eq_left, hold]
    · intro p hp
      simp only [List.mem_append, List.mem_singleton, or_and_right, exists_or,
        exists_eq_left] at hp ⊢
      rcases hp with hp | rfl
      · have hne : m.pubkey ≠ p.pubkey := fun heq => hmem ⟨p, hp, heq.symm⟩
        rw [h.signer p hp, or_iff_left fun hm => hne hm.1]
      · rw [or_iff_right fun hex => hnew (hex.imp fun o ho => ⟨ho.1, ho.2.1⟩), and_iff_right rfl]
    · intro p hp
      simp only [List.mem_append, List.mem_singleton, or_and_right, exists_or,
        exists_eq_left] at hp ⊢
      rcases hp with hp | rfl
      · have hne : m.pubkey ≠ p.pubkey := fun heq => hmem ⟨p, hp, heq.symm⟩
        rw [h.writable p hp, or_iff_left fun hm => hne hm.1]
      · rw [or_iff_right fun hex => hnew (hex.imp fun o ho => ⟨ho.1, ho.2.1⟩), and_iff_right rfl]

theorem Merged.foldl {os ms : List AccountMeta} (h : Merged os ms) (l : List AccountMeta) :
    Merged (os ++ l) (l.foldl Frontend.note ms) := by
  induction l generalizing os ms with
  | nil => rwa [List.append_nil]
  | cons m l ih =>
    have hrest := ih (h.note m)
    rwa [List.append_assoc] at hrest

theorem Merged.instructions {os ms : List AccountMeta} (h : Merged os ms) (ixs : List Instruction) :
    Merged (os ++ ixs.flatMap fun ix => ix.keys ++ [⟨ix.programId, false, false⟩])
      (ixs.foldl noteInstruction ms) := by
  induction ixs generalizing os ms with
  | nil => rwa [List.flatMap_nil, List.append_nil]
  | cons ix ixs ih =>
    have hrest := ih ((h.foldl ix.keys).note ⟨ix.programId, false, false⟩)
    rw [List.append_assoc, List.append_assoc] at hrest
    rw [List.flatMap_cons, List.append_assoc]
    exact hrest

/-- **All mentions are merged.** -/
theorem merged_metas (feePayer : Text) (ixs : List Instruction) :
    Merged (mentions feePayer ixs) (metas feePayer ixs) := by
  have hnone : Merged [] [] := by
    constructor
    · exact List.nodup_nil
    · simp
    · simp
    · simp
  exact (hnone.note ⟨feePayer, true, true⟩).instructions ixs

/-! ### Sorting -/

/-- A list of accounts that holds the same ones. -/
theorem Merged.perm {os ms ms' : List AccountMeta} (h : Merged os ms) (hperm : ms'.Perm ms) :
    Merged os ms' := by
  constructor
  · exact (hperm.map _).nodup_iff.mpr h.nodup
  · simpa only [hperm.mem_iff] using h.mem
  · exact fun m hm => h.signer m (hperm.mem_iff.mp hm)
  · exact fun m hm => h.writable m (hperm.mem_iff.mp hm)

/-- A key has one entry. -/
theorem Merged.eq_of_pubkey {os ms : List AccountMeta} (h : Merged os ms) {a b : AccountMeta}
    (ha : a ∈ ms) (hb : b ∈ ms) (heq : a.pubkey = b.pubkey) : a = b :=
  List.inj_on_of_nodup_map h.nodup ha hb heq

theorem keyOf_base58 (k : Bytes32) : keyOf (base58 (wordBytes k)) = k := by
  have hlt : k.toNat < 256 ^ 32 := lt_of_lt_of_le k.isLt (by norm_num)
  rw [keyOf, base58Bytes_base58, wordBytes, BigEndian.ofWord, BigEndian.ofBytes_toBytes,
    Nat.mod_eq_of_lt hlt, BitVec.ofNat_toNat, BitVec.setWidth_eq]

/-- A text that names 32 bytes is their base 58. -/
theorem eq_base58_keyOf {s : Text} (h : IsKey s) : s = base58 (wordBytes (keyOf s)) := by
  obtain ⟨k, hk⟩ := h
  rw [hk, keyOf_base58]

theorem base58Bytes_of_isKey {s : Text} (h : IsKey s) : base58Bytes s = wordBytes (keyOf s) := by
  have heq := congrArg base58Bytes (eq_base58_keyOf h)
  rwa [base58Bytes_base58] at heq

theorem length_of_isKey {s : Text} (h : IsKey s) : (base58Bytes s).length = 32 := by
  rw [base58Bytes_of_isKey h, length_wordBytes]

theorem keyOf_inj {s t : Text} (hs : IsKey s) (ht : IsKey t) (h : keyOf s = keyOf t) : s = t := by
  rw [eq_base58_keyOf hs, eq_base58_keyOf ht, h]

/-- The sign of a comparison is the order of the numbers that are spelled. -/
theorem cmpBytes_le_iff {x y : Bytes} (h : x.length = y.length) :
    cmpBytes x y ≤ 0 ↔ BigEndian.ofBytes x ≤ BigEndian.ofBytes y := by
  induction x generalizing y with
  | nil =>
    obtain rfl := List.length_eq_zero_iff.mp h.symm
    exact iff_of_true le_rfl le_rfl
  | cons b x ih =>
    cases y with
    | nil => cases h
    | cons c y =>
      have hlen : x.length = y.length := by simpa using h
      have hx := BigEndian.ofBytes_lt x
      have hy := BigEndian.ofBytes_lt y
      rw [hlen] at hx
      rw [cmpBytes, BigEndian.ofBytes_cons, BigEndian.ofBytes_cons, hlen]
      split
      · next hne =>
        have hne' : b.toNat ≠ c.toNat := fun heq => hne (UInt8.toNat_inj.mp heq)
        rcases Nat.lt_or_gt_of_ne hne' with hlt | hlt
        · have hmul := Nat.mul_le_mul_right (256 ^ y.length) hlt
          rw [Nat.succ_mul] at hmul
          exact iff_of_true (by omega) (by omega)
        · have hmul := Nat.mul_le_mul_right (256 ^ y.length) hlt
          rw [Nat.succ_mul] at hmul
          exact iff_of_false (by omega) (by omega)
      · next heq =>
        rw [not_not] at heq
        rw [ih hlen, heq]
        omega

/-- The order of the message: by privileges, and by key. -/
def Before (feePayer : Text) (a b : AccountMeta) : Prop :=
  rank feePayer a < rank feePayer b ∨ rank feePayer a = rank feePayer b ∧
    BigEndian.ofBytes (base58Bytes a.pubkey) ≤ BigEndian.ofBytes (base58Bytes b.pubkey)

instance (feePayer : Text) (a b : AccountMeta) : Decidable (Before feePayer a b) :=
  inferInstanceAs (Decidable (_ ∨ _ ∧ _))

theorem compareMetas_le_iff {feePayer : Text} {a b : AccountMeta} (ha : IsKey a.pubkey)
    (hb : IsKey b.pubkey) : compareMetas feePayer a b ≤ 0 ↔ Before feePayer a b := by
  have hla := length_of_isKey ha
  have hlb := length_of_isKey hb
  rw [compareMetas, Before, cmp, List.take_of_length_le hla.le, List.take_of_length_le hlb.le]
  split
  · next hne => omega
  · next heq =>
    rw [cmpBytes_le_iff (hla.trans hlb.symm)]
    omega

theorem before_trans {feePayer : Text} {a b c : AccountMeta} (hab : Before feePayer a b)
    (hbc : Before feePayer b c) : Before feePayer a c := by
  rw [Before] at *
  omega

theorem before_total (feePayer : Text) (a b : AccountMeta) :
    Before feePayer a b ∨ Before feePayer b a := by
  rw [Before, Before]
  omega

section Accounts

variable {feePayer blockhash : Text} {ixs : List Instruction}

theorem perm_accounts : (accounts feePayer ixs).Perm (metas feePayer ixs) :=
  List.mergeSort_perm _ _

theorem merged_accounts : Merged (mentions feePayer ixs) (accounts feePayer ixs) :=
  (merged_metas feePayer ixs).perm perm_accounts

theorem isKey_of_mem_accounts (hkeys : ∀ o ∈ mentions feePayer ixs, IsKey o.pubkey)
    {m : AccountMeta} (hm : m ∈ accounts feePayer ixs) : IsKey m.pubkey := by
  obtain ⟨o, ho, heq⟩ := (merged_accounts.mem m.pubkey).mp ⟨m, hm, rfl⟩
  rw [← heq]
  exact hkeys o ho

/-- **The accounts are in order.** -/
theorem pairwise_accounts (hkeys : ∀ o ∈ mentions feePayer ixs, IsKey o.pubkey) :
    (accounts feePayer ixs).Pairwise (Before feePayer) := by
  have hsort : accounts feePayer ixs =
      (metas feePayer ixs).mergeSort fun a b => decide (Before feePayer a b) := by
    have h := @List.map_mergeSort AccountMeta AccountMeta
      (fun a b => decide (compareMetas feePayer a b ≤ 0)) (fun a b => decide (Before feePayer a b))
      id (metas feePayer ixs) fun a ha b hb => by
        have hka := isKey_of_mem_accounts hkeys (perm_accounts.mem_iff.mpr ha)
        have hkb := isKey_of_mem_accounts hkeys (perm_accounts.mem_iff.mpr hb)
        exact decide_eq_decide.mpr (compareMetas_le_iff hka hkb)
    rwa [List.map_id, List.map_id] at h
  have hpair := @List.pairwise_mergeSort _ (fun a b => decide (Before feePayer a b))
    (fun a b c hab hbc => decide_eq_true (before_trans (of_decide_eq_true hab)
      (of_decide_eq_true hbc)))
    (fun a b => by
      rw [Bool.or_eq_true, decide_eq_true_iff, decide_eq_true_iff]
      exact before_total feePayer a b)
    (metas feePayer ixs)
  rw [hsort]
  exact hpair.imp fun h => of_decide_eq_true h

theorem SameAsks.symm {os os' : List AccountMeta} (h : SameAsks os os') : SameAsks os' os :=
  ⟨fun key => (h.mem key).symm, fun key => (h.signer key).symm, fun key => (h.writable key).symm⟩

/-- What is merged depends on what is asked. -/
theorem Merged.subset {os os' ms ms' : List AccountMeta} (h : Merged os ms) (h' : Merged os' ms')
    (same : SameAsks os os') {m : AccountMeta} (hm : m ∈ ms) : m ∈ ms' := by
  obtain ⟨m', hm', hkey⟩ := (h'.mem m.pubkey).mpr ((same.mem m.pubkey).mp
    ((h.mem m.pubkey).mp ⟨m, hm, rfl⟩))
  have hsigner : m.isSigner = m'.isSigner := by
    rw [Bool.eq_iff_iff, h.signer m hm, h'.signer m' hm', hkey]
    exact same.signer m.pubkey
  have hwritable : m.isWritable = m'.isWritable := by
    rw [Bool.eq_iff_iff, h.writable m hm, h'.writable m' hm', hkey]
    exact same.writable m.pubkey
  have heq : m = m' := by
    cases m
    cases m'
    simp only [AccountMeta.mk.injEq] at hkey hsigner hwritable ⊢
    exact ⟨hkey.symm, hsigner, hwritable⟩
  rw [heq]
  exact hm'

theorem isKey_of_sameAsks {os os' : List AccountMeta} (same : SameAsks os os')
    (hkeys : ∀ o ∈ os, IsKey o.pubkey) : ∀ o ∈ os', IsKey o.pubkey := by
  intro o ho
  obtain ⟨o', ho', heq⟩ := (same.mem o.pubkey).mpr ⟨o, ho, rfl⟩
  rw [← heq]
  exact hkeys o' ho'

/-- **The order of appearance does not matter**: the same asked gives the same accounts. -/
theorem accounts_eq (hkeys : ∀ o ∈ mentions feePayer ixs, IsKey o.pubkey)
    {ixs' : List Instruction} (same : SameAsks (mentions feePayer ixs) (mentions feePayer ixs')) :
    accounts feePayer ixs' = accounts feePayer ixs := by
  have hmerged := @merged_accounts feePayer ixs
  have hmerged' := @merged_accounts feePayer ixs'
  have hperm : (accounts feePayer ixs').Perm (accounts feePayer ixs) := by
    rw [List.perm_ext_iff_of_nodup (.of_map _ hmerged'.nodup) (.of_map _ hmerged.nodup)]
    exact fun m => ⟨hmerged'.subset hmerged same.symm, hmerged.subset hmerged' same⟩
  refine List.Perm.eq_of_pairwise ?_ (pairwise_accounts (isKey_of_sameAsks same hkeys))
    (pairwise_accounts hkeys) hperm
  -- two accounts that come before one another have the same key
  intro a b ha hb hab hba
  have ha' := hperm.mem_iff.mp ha
  have hka := isKey_of_mem_accounts hkeys ha'
  have hkb := isKey_of_mem_accounts hkeys hb
  rw [Before] at hab hba
  have hnum : BigEndian.ofBytes (base58Bytes a.pubkey) =
      BigEndian.ofBytes (base58Bytes b.pubkey) := by
    omega
  refine hmerged.eq_of_pubkey ha' hb (keyOf_inj hka hkb ?_)
  rw [keyOf, keyOf, hnum]

/-! ### Privileges by place -/

/-- **Counting is placing**, when everything that has a property comes before everything that does
not. -/
theorem lt_countP_iff {α : Type} {p : α → Bool} {l : List α}
    (h : l.Pairwise fun a b => p b = true → p a = true) {i : ℕ} {a : α} (ha : l[i]? = some a) :
    p a = true ↔ i < l.countP p := by
  induction l generalizing i with
  | nil => cases ha
  | cons x l ih =>
    rw [List.pairwise_cons] at h
    by_cases hx : p x = true
    · rw [List.countP_cons_of_pos hx]
      cases i with
      | zero =>
        obtain rfl := Option.some.inj ha
        exact iff_of_true hx (by omega)
      | succ i =>
        rw [ih h.2 ha]
        omega
    · have hnone : l.countP p = 0 := List.countP_eq_zero.mpr fun b hb hpb => hx (h.1 b hb hpb)
      rw [List.countP_cons_of_neg hx, hnone]
      refine iff_of_false ?_ (by omega)
      cases i with
      | zero =>
        obtain rfl := Option.some.inj ha
        exact hx
      | succ i => exact fun hpa => hx (h.1 a (List.mem_of_getElem? ha) hpa)

/-- The fee payer signs and is written. -/
theorem isSigner_feePayer {m : AccountMeta} (hm : m ∈ accounts feePayer ixs)
    (h : m.pubkey = feePayer) : m.isSigner = true ∧ m.isWritable = true := by
  have hmention : (⟨feePayer, true, true⟩ : AccountMeta) ∈ mentions feePayer ixs :=
    List.mem_cons_self
  exact ⟨(merged_accounts.signer m hm).mpr ⟨_, hmention, h.symm, rfl⟩,
    (merged_accounts.writable m hm).mpr ⟨_, hmention, h.symm, rfl⟩⟩

/-- What a rank says. -/
theorem rank_le_iff {m : AccountMeta} (hm : m ∈ accounts feePayer ixs) :
    (rank feePayer m ≤ 1 ↔ (m.isSigner && m.isWritable) = true) ∧
      (rank feePayer m ≤ 2 ↔ m.isSigner = true) ∧
      (rank feePayer m ≤ 3 ↔ (!(!m.isSigner && !m.isWritable)) = true) := by
  by_cases hfee : m.pubkey = feePayer
  · obtain ⟨hs, hw⟩ := isSigner_feePayer hm hfee
    rw [rank, if_pos hfee, hs, hw]
    decide
  · rw [rank, if_neg hfee]
    cases m.isSigner with
    | true =>
      cases m.isWritable with
      | true => decide
      | false => decide
    | false =>
      cases m.isWritable with
      | true => decide
      | false => decide

theorem rank_mono (hkeys : ∀ o ∈ mentions feePayer ixs, IsKey o.pubkey) :
    (accounts feePayer ixs).Pairwise fun a b => rank feePayer a ≤ rank feePayer b :=
  (pairwise_accounts hkeys).imp fun h => by
    rw [Before] at h
    omega

/-- A property that a bound on the rank says is had by as many accounts as there are in front. -/
theorem lt_count_iff (hkeys : ∀ o ∈ mentions feePayer ixs, IsKey o.pubkey)
    {p : AccountMeta → Bool} {r : ℤ}
    (hp : ∀ m ∈ accounts feePayer ixs, (rank feePayer m ≤ r ↔ p m = true)) {i : ℕ} {m : AccountMeta}
    (hm : (accounts feePayer ixs)[i]? = some m) :
    p m = true ↔ i < (accounts feePayer ixs).countP p := by
  refine lt_countP_iff ?_ hm
  refine (rank_mono hkeys).imp_of_mem fun ha hb hle hpb => ?_
  exact (hp _ ha).mp (le_trans hle ((hp _ hb).mpr hpb))

/-- The accounts that sign and are written are the first. -/
theorem count_signed (all : List AccountMeta) :
    all.countP (fun m => m.isSigner && m.isWritable) = numSigners all - numReadonlySigned all := by
  have hsplit : all.countP (fun m => m.isSigner && m.isWritable) + numReadonlySigned all =
      numSigners all := by
    induction all with
    | nil => rfl
    | cons m all ih =>
      rw [numReadonlySigned, numSigners] at *
      rw [List.countP_cons, List.countP_cons, List.countP_cons]
      cases m.isSigner with
      | true =>
        cases m.isWritable with
        | true => simp; omega
        | false => simp; omega
      | false => simp; omega
  omega

/-- Those that neither sign nor are written are the last. -/
theorem count_unsigned (all : List AccountMeta) :
    all.countP (fun m => !(!m.isSigner && !m.isWritable)) =
      all.length - numReadonlyUnsigned all := by
  have hsplit := all.length_eq_countP_add_countP fun m => !m.isSigner && !m.isWritable
  have hnot : all.countP (fun m => decide (¬(!m.isSigner && !m.isWritable) = true)) =
      all.countP fun m => !(!m.isSigner && !m.isWritable) :=
    List.countP_congr fun m _ => by simp
  rw [hnot] at hsplit
  rw [numReadonlyUnsigned]
  omega

/-- **The place of an account says what was asked of it.** -/
theorem privileges (hkeys : ∀ o ∈ mentions feePayer ixs, IsKey o.pubkey) {i : ℕ} {m : AccountMeta}
    (hm : (accounts feePayer ixs)[i]? = some m) :
    (i < numSigners (accounts feePayer ixs) ↔ m.isSigner = true) ∧
      (i < numSigners (accounts feePayer ixs) - numReadonlySigned (accounts feePayer ixs) ∨
        numSigners (accounts feePayer ixs) ≤ i ∧
          i < (accounts feePayer ixs).length - numReadonlyUnsigned (accounts feePayer ixs) ↔
        m.isWritable = true) := by
  have hsigner := lt_count_iff hkeys (fun m hm => (rank_le_iff hm).2.1) hm
  have hboth := lt_count_iff hkeys (fun m hm => (rank_le_iff hm).1) hm
  have hany := lt_count_iff hkeys (fun m hm => (rank_le_iff hm).2.2) hm
  rw [count_signed] at hboth
  rw [count_unsigned] at hany
  refine ⟨hsigner.symm, ?_⟩
  have hlt : i < numSigners (accounts feePayer ixs) ↔ m.isSigner = true := hsigner.symm
  rw [← hboth, ← hany, ← not_lt, hlt]
  cases m.isSigner with
  | true => simp
  | false => simp

/-! ### Reading what is written -/

/-- A length of 16 bits is written in its shortest form. -/
theorem shortVec_eq {n : ℕ} (h : n < 2 ^ 16) : (shortVec n).map toByte = ShortVec.putLength n := by
  have hbyte : ∀ k : ℕ, k < 256 → toByte k = UInt8.ofNat k := by
    intro k hk
    have hmod : ((k : ℤ) % 256).toNat = k := by omega
    rw [toByte, hmod]
  have hfirst : ∀ k : ℕ, (k : ℤ) % 128 + 128 = (k % 128 + 128 : ℕ) := by
    intro k
    omega
  have hshift : ∀ k : ℕ, k < 2 ^ 16 → toInt32 k / 128 = (k / 128 : ℕ) := by
    intro k hk
    rw [toInt32]
    omega
  rw [ShortVec.putLength, shortVec]
  split
  · next h7 =>
    rw [if_pos (by omega), List.map_singleton, hbyte n (by omega)]
  · next h7 =>
    rw [if_neg (by omega), List.map_cons, hfirst, hbyte _ (by omega), hshift n h, shortVec]
    split
    · next h14 =>
      rw [if_pos (by omega), List.map_singleton, hbyte _ (by omega)]
    · next h14 =>
      have hlast : n / 128 / 128 = n / 16384 := Nat.div_div_eq_div_mul ..
      rw [if_neg (by omega), List.map_cons, hfirst, hbyte _ (by omega), hshift _ (by omega), hlast,
        shortVec, if_pos (by omega), List.map_singleton, hbyte _ (by omega)]

/-- What an instruction becomes. -/
def compiled (all : List AccountMeta) (ix : Instruction) : CompiledInstruction :=
  ⟨toByte (index all ix.programId), ix.keys.map (fun k => toByte (index all k.pubkey)), ix.data⟩

/-- **The message that is written.** -/
def built (feePayer blockhash : Text) (ixs : List Instruction) : Message :=
  let all := accounts feePayer ixs
  { numRequiredSignatures := UInt8.ofNat (numSigners all)
    numReadonlySigned := UInt8.ofNat (Frontend.numReadonlySigned all)
    numReadonlyUnsigned := UInt8.ofNat (Frontend.numReadonlyUnsigned all)
    accountKeys := all.map fun m => keyOf m.pubkey
    recentBlockhash := keyOf blockhash
    instructions := ixs.map (compiled all) }

theorem toByte_natCast (n : ℕ) : toByte n = UInt8.ofNat n := by
  have hmod : ((n : ℤ) % 256).toNat = n % 256 := by omega
  rw [toByte, hmod]
  exact UInt8.ofNat_mod_size

theorem flatMap_u8 (bs : Bytes) : bs.flatMap Codec.u8.put = bs := List.flatMap_singleton' bs

theorem b58decode_of_isKey {s : Text} (h : IsKey s) : b58decode s = .ok (wordBytes (keyOf s)) :=
  b58decode_eq_ok.mpr (eq_base58_keyOf h)

/-- **Serializing succeeds**: the keys are decoded, in the order of the message. -/
theorem serializeMessage_eq (hkeys : ∀ o ∈ mentions feePayer ixs, IsKey o.pubkey)
    (hhash : IsKey blockhash) :
    serializeMessage feePayer blockhash ixs =
      .ok (front (accounts feePayer ixs)
        ((accounts feePayer ixs).map fun m => wordBytes (keyOf m.pubkey))
        (wordBytes (keyOf blockhash)) ++ tail (accounts feePayer ixs) ixs) := by
  have hmapM : ∀ l : List AccountMeta, (∀ m ∈ l, IsKey m.pubkey) →
      (l.mapM fun m => b58decode m.pubkey) = .ok (l.map fun m => wordBytes (keyOf m.pubkey)) := by
    intro l hl
    induction l with
    | nil => rfl
    | cons m l ih =>
      rw [List.mapM_cons, b58decode_of_isKey (hl m List.mem_cons_self),
        ih fun m hm => hl m (List.mem_cons_of_mem _ hm)]
      rfl
  rw [serializeMessage, hmapM _ fun m hm => isKey_of_mem_accounts hkeys hm,
    b58decode_of_isKey hhash]
  rfl

/-- An instruction is written as it was compiled. -/
theorem compile_eq (all : List AccountMeta) {ix : Instruction} (hkeys : ix.keys.length < 2 ^ 16)
    (hdata : ix.data.length < 2 ^ 16) :
    (compile all ix).map toByte = compiledInstruction.put (compiled all ix) := by
  have hbytes : (ix.data.map fun b => (b.toNat : ℤ)).map toByte = ix.data := by
    rw [List.map_map]
    refine (List.map_congr_left fun b _ => ?_).trans (List.map_id _)
    rw [Function.comp_apply, toByte_natCast, UInt8.ofNat_toNat, id]
  have hput : compiledInstruction.put (compiled all ix) = [toByte (index all ix.programId)] ++
      ((ShortVec.putLength (ix.keys.map fun k => toByte (index all k.pubkey)).length ++
        (ix.keys.map fun k => toByte (index all k.pubkey)).flatMap Codec.u8.put) ++
        (ShortVec.putLength ix.data.length ++ ix.data.flatMap Codec.u8.put)) := rfl
  rw [hput, flatMap_u8, flatMap_u8, List.length_map, compile, List.map_append, List.map_append,
    List.map_append, List.map_append, shortVec_eq hkeys, shortVec_eq hdata, hbytes, List.map_map,
    List.append_assoc]
  rfl

/-- **What is written is the message.** -/
theorem put_built (hcount : (accounts feePayer ixs).length < 2 ^ 16) (fits : Fits feePayer ixs) :
    message.put (built feePayer blockhash ixs) =
      front (accounts feePayer ixs)
        ((accounts feePayer ixs).map fun m => wordBytes (keyOf m.pubkey))
        (wordBytes (keyOf blockhash)) ++ tail (accounts feePayer ixs) ixs := by
  set all := accounts feePayer ixs
  have hput : message.put (built feePayer blockhash ixs) =
      [UInt8.ofNat (numSigners all)] ++ ([UInt8.ofNat (numReadonlySigned all)] ++
        ([UInt8.ofNat (numReadonlyUnsigned all)] ++
          ((ShortVec.putLength (all.map fun m => keyOf m.pubkey).length ++
            (all.map fun m => keyOf m.pubkey).flatMap wordBytes) ++
            (wordBytes (keyOf blockhash) ++ (ShortVec.putLength (ixs.map (compiled all)).length ++
              (ixs.map (compiled all)).flatMap compiledInstruction.put))))) := rfl
  have htail : (ixs.flatMap (compile all)).map toByte =
      (ixs.map (compiled all)).flatMap compiledInstruction.put := by
    rw [List.map_flatMap, List.flatMap_map]
    exact List.flatMap_congr fun ix hix => compile_eq all (fits.keys ix hix) (fits.data ix hix)
  rw [hput, front, tail, List.map_append, List.map_append, shortVec_eq hcount,
    shortVec_eq fits.instructions, htail, List.length_map, List.length_map, List.flatMap_map,
    List.flatMap_def]
  simp only [List.map_cons, List.map_nil, toByte_natCast, List.append_assoc, List.cons_append,
    List.nil_append]

/-- The index of an account that is there. -/
theorem index_eq {all : List AccountMeta} {key : Text} (h : ∃ m ∈ all, m.pubkey = key) :
    ∃ i < all.length, index all key = i ∧
      (all.map fun m => keyOf m.pubkey)[i]? = some (keyOf key) := by
  obtain ⟨m, hm, hkey⟩ := h
  have hsome : (all.findIdx? fun m => m.pubkey == key).isSome = true := by
    rw [List.findIdx?_isSome, List.any_eq_true]
    exact ⟨m, hm, beq_iff_eq.mpr hkey⟩
  obtain ⟨i, hi⟩ := Option.isSome_iff_exists.mp hsome
  obtain ⟨hlt, hfound, -⟩ := List.findIdx?_eq_some_iff_getElem.mp hi
  refine ⟨i, hlt, ?_, ?_⟩
  · rw [index, hi]
  · rw [List.getElem?_map, List.getElem?_eq_getElem hlt, Option.map_some, beq_iff_eq.mp hfound]

/-- An index of one byte leads to its account. -/
theorem getElem?_toByte_index {all : List AccountMeta} {key : Text} (hcount : all.length ≤ 256)
    (h : ∃ m ∈ all, m.pubkey = key) :
    (all.map fun m => keyOf m.pubkey)[(toByte (index all key)).toNat]? = some (keyOf key) := by
  obtain ⟨i, hlt, hindex, hget⟩ := index_eq h
  rw [hindex, toByte_natCast, UInt8.toNat_ofNat', Nat.mod_eq_of_lt (by omega), hget]

theorem mem_accounts_of_mention {key : Text} (h : ∃ o ∈ mentions feePayer ixs, o.pubkey = key) :
    ∃ m ∈ accounts feePayer ixs, m.pubkey = key :=
  (merged_accounts.mem key).mpr h

theorem mention_of_instruction {ix : Instruction} (hix : ix ∈ ixs) :
    (∀ k ∈ ix.keys, k ∈ mentions feePayer ixs) ∧
      ⟨ix.programId, false, false⟩ ∈ mentions feePayer ixs := by
  constructor
  · intro k hk
    exact List.mem_cons_of_mem _ (List.mem_flatMap.mpr ⟨ix, hix, List.mem_append_left _ hk⟩)
  · exact List.mem_cons_of_mem _ (List.mem_flatMap.mpr ⟨ix, hix, List.mem_append_right _
      (List.mem_singleton.mpr rfl)⟩)

theorem mem_signers {o : AccountMeta} (ho : o ∈ mentions feePayer ixs) (h : o.isSigner = true) :
    o.pubkey ∈ (signers feePayer ixs).dedup :=
  List.mem_dedup.mpr (List.mem_map.mpr ⟨o, List.mem_filter.mpr ⟨ho, h⟩, rfl⟩)

/-- **Every instruction is compiled**, when an index fits a byte. -/
theorem compiled_instructions (hcount : (accounts feePayer ixs).length ≤ 256) :
    List.Forall₂ (Compiled ((accounts feePayer ixs).map fun m => keyOf m.pubkey)) ixs
      (ixs.map (compiled (accounts feePayer ixs))) := by
  rw [List.forall₂_map_right_iff, List.forall₂_same]
  intro ix hix
  obtain ⟨hkeys, hprogram⟩ := @mention_of_instruction feePayer ixs ix hix
  constructor
  · exact getElem?_toByte_index hcount (mem_accounts_of_mention ⟨_, hprogram, rfl⟩)
  · rw [compiled, List.map_map]
    exact List.map_congr_left fun k hk =>
      getElem?_toByte_index hcount (mem_accounts_of_mention ⟨k, hkeys k hk, rfl⟩)
  · rfl

/-- The fee payer comes first. -/
theorem head_accounts (hkeys : ∀ o ∈ mentions feePayer ixs, IsKey o.pubkey) :
    ((accounts feePayer ixs).map fun m => keyOf m.pubkey).head? = some (keyOf feePayer) := by
  have hmention : (⟨feePayer, true, true⟩ : AccountMeta) ∈ mentions feePayer ixs :=
    List.mem_cons_self
  obtain ⟨fee, hfee, hkey⟩ := mem_accounts_of_mention ⟨_, hmention, rfl⟩
  have hmono := rank_mono hkeys
  cases hall : accounts feePayer ixs with
  | nil =>
    rw [hall] at hfee
    exact absurd hfee List.not_mem_nil
  | cons m rest =>
    rw [hall, List.pairwise_cons] at hmono
    have hle : rank feePayer m ≤ 0 := by
      have hzero : rank feePayer fee = 0 := by rw [rank, if_pos hkey]
      rw [hall, List.mem_cons] at hfee
      rcases hfee with rfl | hfee
      · rw [hzero]
      · rw [← hzero]
        exact hmono.1 fee hfee
    have hfirst : m.pubkey = feePayer := by
      rw [rank] at hle
      split at hle
      · assumption
      · split at hle
        · omega
        · split at hle
          · omega
          · split at hle <;> omega
    rw [List.map_cons, List.head?_cons, hfirst]

/-- Different accounts have different keys. -/
theorem nodup_accountKeys (hkeys : ∀ o ∈ mentions feePayer ixs, IsKey o.pubkey) :
    ((accounts feePayer ixs).map fun m => keyOf m.pubkey).Nodup := by
  have hnodup := (@merged_accounts feePayer ixs).nodup
  refine List.Nodup.map_on ?_ (.of_map _ hnodup)
  intro a ha b hb heq
  exact merged_accounts.eq_of_pubkey ha hb
    (keyOf_inj (isKey_of_mem_accounts hkeys ha) (isKey_of_mem_accounts hkeys hb) heq)

/-- What is asked of a key is asked of its account. -/
theorem asked_iff (hkeys : ∀ o ∈ mentions feePayer ixs, IsKey o.pubkey) {m : AccountMeta}
    (hm : m ∈ accounts feePayer ixs) (asks : AccountMeta → Prop) :
    (∃ o ∈ mentions feePayer ixs, keyOf o.pubkey = keyOf m.pubkey ∧ asks o) ↔
      ∃ o ∈ mentions feePayer ixs, o.pubkey = m.pubkey ∧ asks o := by
  constructor
  · rintro ⟨o, ho, hkey, hasks⟩
    exact ⟨o, ho, keyOf_inj (hkeys o ho) (isKey_of_mem_accounts hkeys hm) hkey, hasks⟩
  · rintro ⟨o, ho, hkey, hasks⟩
    exact ⟨o, ho, congrArg keyOf hkey, hasks⟩

/-- The counts of a message with at most 255 signers have a byte each. -/
theorem counts_lt (hcount : (accounts feePayer ixs).length ≤ 256)
    (hsigners : numSigners (accounts feePayer ixs) < 256) :
    numReadonlySigned (accounts feePayer ixs) < 256 ∧
      numReadonlyUnsigned (accounts feePayer ixs) < 256 := by
  constructor
  · refine lt_of_le_of_lt (List.countP_mono_left fun m _ h => ?_) hsigners
    rw [Bool.and_eq_true] at h
    exact h.1
  · have hle : numSigners (accounts feePayer ixs) ≤
        (accounts feePayer ixs).length - numReadonlyUnsigned (accounts feePayer ixs) := by
      rw [← count_unsigned]
      refine List.countP_mono_left fun m _ h => ?_
      rw [h]
      rfl
    have hpos : 0 < numSigners (accounts feePayer ixs) := by
      have hmention : (⟨feePayer, true, true⟩ : AccountMeta) ∈ mentions feePayer ixs :=
        List.mem_cons_self
      obtain ⟨fee, hfee, hkey⟩ := mem_accounts_of_mention ⟨_, hmention, rfl⟩
      exact List.countP_pos_iff.mpr ⟨fee, hfee, (isSigner_feePayer hfee hkey).1⟩
    omega

/-- **The message that is written says what was asked.** -/
theorem faithful_built (hkeys : ∀ o ∈ mentions feePayer ixs, IsKey o.pubkey)
    (hcount : (accounts feePayer ixs).length ≤ 256)
    (hsigners : numSigners (accounts feePayer ixs) < 256) :
    Faithful feePayer blockhash ixs (built feePayer blockhash ixs) := by
  obtain ⟨hreadonlySigned, hreadonlyUnsigned⟩ := counts_lt hcount hsigners
  have hmerged := @merged_accounts feePayer ixs
  have hplace : ∀ (i : ℕ) (k : Bytes32), (built feePayer blockhash ixs).accountKeys[i]? = some k →
      ∃ m ∈ accounts feePayer ixs, (accounts feePayer ixs)[i]? = some m ∧ keyOf m.pubkey = k := by
    intro i k hk
    obtain ⟨m, hm, rfl⟩ := Option.map_eq_some_iff.mp (List.getElem?_map.symm.trans hk)
    exact ⟨m, List.mem_of_getElem? hm, hm, rfl⟩
  constructor
  · exact nodup_accountKeys hkeys
  · exact head_accounts hkeys
  · intro k
    have hmem : k ∈ (built feePayer blockhash ixs).accountKeys ↔
        ∃ m ∈ accounts feePayer ixs, keyOf m.pubkey = k := List.mem_map
    rw [hmem]
    constructor
    · rintro ⟨m, hm, rfl⟩
      obtain ⟨o, ho, heq⟩ := (hmerged.mem m.pubkey).mp ⟨m, hm, rfl⟩
      exact ⟨o, ho, congrArg keyOf heq⟩
    · rintro ⟨o, ho, rfl⟩
      obtain ⟨m, hm, heq⟩ := mem_accounts_of_mention ⟨o, ho, rfl⟩
      exact ⟨m, hm, congrArg keyOf heq⟩
  · rfl
  · exact compiled_instructions hcount
  · intro i k hk
    obtain ⟨m, hm, hget, rfl⟩ := hplace i k hk
    rw [asked_iff hkeys hm fun o => o.isSigner = true, ← hmerged.signer m hm,
      ← (privileges hkeys hget).1, Message.IsSigner, built, UInt8.toNat_ofNat',
      Nat.mod_eq_of_lt hsigners]
  · intro i k hk
    obtain ⟨m, hm, hget, rfl⟩ := hplace i k hk
    rw [asked_iff hkeys hm fun o => o.isWritable = true, ← hmerged.writable m hm,
      ← (privileges hkeys hget).2, Message.IsWritable, built, UInt8.toNat_ofNat',
      UInt8.toNat_ofNat', UInt8.toNat_ofNat', Nat.mod_eq_of_lt hsigners,
      Nat.mod_eq_of_lt hreadonlySigned, Nat.mod_eq_of_lt hreadonlyUnsigned, List.length_map]

theorem valid_built (hcount : (accounts feePayer ixs).length < 2 ^ 16) (fits : Fits feePayer ixs) :
    message.Valid (built feePayer blockhash ixs) := by
  have hkeysValid : (ShortVec.vec (Codec.array 32)).Valid
      ((accounts feePayer ixs).map fun m => keyOf m.pubkey) :=
    ⟨by rwa [List.length_map], fun _ _ => trivial⟩
  have hixsValid : (ShortVec.vec compiledInstruction).Valid
      (ixs.map (compiled (accounts feePayer ixs))) := by
    refine ⟨by rw [List.length_map]; exact fits.instructions, ?_⟩
    rintro _ hmap
    obtain ⟨ix, hix, rfl⟩ := List.mem_map.mp hmap
    refine ⟨trivial, ⟨?_, fun _ _ => trivial⟩, ⟨fits.data ix hix, fun _ _ => trivial⟩⟩
    rw [compiled, List.length_map]
    exact fits.keys ix hix
  exact ⟨trivial, trivial, trivial, hkeysValid, trivial, hixsValid⟩

theorem strict_message : message.Strict := by
  have hix : compiledInstruction.Strict :=
    (Codec.strict_u8.pair ((ShortVec.strict_vec Codec.strict_u8).pair
      (ShortVec.strict_vec Codec.strict_u8))).iso fun _ => rfl
  exact (Codec.strict_u8.pair (Codec.strict_u8.pair (Codec.strict_u8.pair
    ((ShortVec.strict_vec (Codec.strict_array 32)).pair ((Codec.strict_array 32).pair
      (ShortVec.strict_vec hix)))))).iso fun _ => rfl

/-- **Whatever says what was asked had room for it**: lengths have 16 bits, and the number of
signers a byte. -/
theorem fits_of_faithful (hkeys : ∀ o ∈ mentions feePayer ixs, IsKey o.pubkey) {bytes : Bytes}
    {m : Message} (hread : message.fromSlice bytes = some m)
    (faithful : Faithful feePayer blockhash ixs m) : Fits feePayer ixs := by
  obtain ⟨hvalid, -⟩ := strict_message.put_of_fromSlice hread
  obtain ⟨-, -, -, -, -, hlength, hall⟩ := hvalid
  have hforall := faithful.instructions
  have hone : ∀ ix ∈ ixs, ∃ c ∈ m.instructions, Compiled m.accountKeys ix c := by
    intro ix hix
    obtain ⟨i, hi, rfl⟩ := List.mem_iff_getElem.mp hix
    have hi' : i < m.instructions.length := hforall.length_eq ▸ hi
    exact ⟨m.instructions[i], List.getElem_mem hi', hforall.get hi hi'⟩
  constructor
  · -- the signers are among the accounts that the first count covers
    have hsub : (signers feePayer ixs).dedup.map keyOf ⊆
        m.accountKeys.take m.numRequiredSignatures.toNat := by
      intro k hk
      obtain ⟨s, hs, rfl⟩ := List.mem_map.mp hk
      obtain ⟨o, ho, rfl⟩ := List.mem_map.mp (List.mem_dedup.mp hs)
      obtain ⟨ho, hsigner⟩ := List.mem_filter.mp ho
      obtain ⟨i, hi, heq⟩ := List.mem_iff_getElem.mp ((faithful.mem _).mpr ⟨o, ho, rfl⟩)
      have hget := (List.getElem?_eq_getElem hi).trans (congrArg some heq)
      have hlt := (faithful.signer i _ hget).mpr ⟨o, ho, rfl, hsigner⟩
      exact List.mem_of_getElem? ((List.getElem?_take_of_lt hlt).trans hget)
    have hkey : ∀ s ∈ (signers feePayer ixs).dedup, IsKey s := by
      intro s hs
      obtain ⟨o, ho, rfl⟩ := List.mem_map.mp (List.mem_dedup.mp hs)
      exact hkeys o (List.mem_filter.mp ho).1
    have hnodup : ((signers feePayer ixs).dedup.map keyOf).Nodup :=
      List.Nodup.map_on (fun s hs t ht heq => keyOf_inj (hkey s hs) (hkey t ht) heq)
        (List.nodup_dedup _)
    have hle := (List.subperm_of_subset hnodup hsub).length_le
    have hbyte := m.numRequiredSignatures.toNat_lt
    rw [List.length_map, List.length_take] at hle
    omega
  · rw [hforall.length_eq]
    exact hlength
  · intro ix hix
    obtain ⟨c, hc, hcompiled⟩ := hone ix hix
    have hlen := congrArg List.length hcompiled.accounts
    rw [List.length_map, List.length_map] at hlen
    rw [← hlen]
    exact (hall c hc).2.1.1
  · intro ix hix
    obtain ⟨c, hc, hcompiled⟩ := hone ix hix
    rw [← hcompiled.data]
    exact (hall c hc).2.2.1

/-- The accounts are the distinct keys that are mentioned. -/
theorem length_accounts_le :
    (accounts feePayer ixs).length ≤ ((mentions feePayer ixs).map (·.pubkey)).dedup.length := by
  have hmerged := @merged_accounts feePayer ixs
  have hsub : (accounts feePayer ixs).map (·.pubkey) ⊆
      ((mentions feePayer ixs).map (·.pubkey)).dedup := by
    intro key hkey
    obtain ⟨m, hm, rfl⟩ := List.mem_map.mp hkey
    obtain ⟨o, ho, heq⟩ := (hmerged.mem m.pubkey).mp ⟨m, hm, rfl⟩
    exact List.mem_dedup.mpr (List.mem_map.mpr ⟨o, ho, heq⟩)
  have hle := (List.subperm_of_subset hmerged.nodup hsub).length_le
  rwa [List.length_map] at hle

/-- The signers are the distinct keys that are asked to sign. -/
theorem numSigners_le :
    numSigners (accounts feePayer ixs) ≤ (signers feePayer ixs).dedup.length := by
  have hmerged := @merged_accounts feePayer ixs
  have hsub : ((accounts feePayer ixs).filter (·.isSigner)).map (·.pubkey) ⊆
      (signers feePayer ixs).dedup := by
    intro key hkey
    obtain ⟨m, hm, rfl⟩ := List.mem_map.mp hkey
    obtain ⟨hm, hsigner⟩ := List.mem_filter.mp hm
    obtain ⟨o, ho, heq, hasked⟩ := (hmerged.signer m hm).mp hsigner
    rw [← heq]
    exact mem_signers ho hasked
  have hsublist : ((accounts feePayer ixs).filter (·.isSigner)).Sublist (accounts feePayer ixs) :=
    List.filter_sublist
  have hnodup := hmerged.nodup.sublist (hsublist.map AccountMeta.pubkey)
  have hle := (List.subperm_of_subset hnodup hsub).length_le
  rwa [List.length_map, ← List.countP_eq_length_filter] at hle

/-- **A message says what was asked exactly when it has room for it**, for accounts that are keys
and no more than 256 of them. Besides, what precedes the instructions depends only on what is asked
of every account, and so do the indices in them. -/
theorem serialized_iff (hkeys : ∀ o ∈ mentions feePayer ixs, IsKey o.pubkey)
    (hhash : IsKey blockhash)
    (hcount : ((mentions feePayer ixs).map (·.pubkey)).dedup.length ≤ 256) :
    ∃ bytes, serializeMessage feePayer blockhash ixs = .ok bytes ∧
      ((∃ m, message.fromSlice bytes = some m ∧ Faithful feePayer blockhash ixs m) ↔
        Fits feePayer ixs) ∧
      ∃ before all, bytes = before ++ tail all ixs ∧
        ∀ ixs', SameAsks (mentions feePayer ixs) (mentions feePayer ixs') →
          serializeMessage feePayer blockhash ixs' = .ok (before ++ tail all ixs') := by
  have haccounts := le_trans (@length_accounts_le feePayer ixs) hcount
  refine ⟨_, serializeMessage_eq hkeys hhash, ⟨?_, ?_⟩, _, accounts feePayer ixs, rfl, ?_⟩
  · rintro ⟨m, hread, faithful⟩
    exact fits_of_faithful hkeys hread faithful
  · intro fits
    have hsmall : (accounts feePayer ixs).length < 2 ^ 16 := by omega
    rw [← put_built hsmall fits]
    exact ⟨_, Codec.fromSlice_put _ (valid_built hsmall fits),
      faithful_built hkeys haccounts (lt_of_le_of_lt numSigners_le fits.signers)⟩
  · intro ixs' same
    rw [serializeMessage_eq (isKey_of_sameAsks same hkeys) hhash, accounts_eq hkeys same]

end Accounts

/-- The key of a number. -/
def numberedKey (n : ℕ) : Text := base58 (wordBytes (BitVec.ofNat 256 n))

theorem isKey_numberedKey (n : ℕ) : IsKey (numberedKey n) := ⟨_, rfl⟩

/-- A transfer from the fee payer. -/
def transferOne : Instruction :=
  ⟨numberedKey 0, [⟨numberedKey 1, true, true⟩, ⟨numberedKey 2, false, true⟩],
    [2, 0, 0, 0, 1, 0, 0, 0, 0, 0, 0, 0]⟩

theorem serialized_transferOne : ∃ bytes m,
    serializeMessage (numberedKey 1) (numberedKey 7) [transferOne] = .ok bytes ∧
      message.fromSlice bytes = some m ∧
      Faithful (numberedKey 1) (numberedKey 7) [transferOne] m := by
  have hkeys : ∀ o ∈ mentions (numberedKey 1) [transferOne], IsKey o.pubkey := by
    simp [mentions, transferOne, isKey_numberedKey]
  have hcount : ((mentions (numberedKey 1) [transferOne]).map (·.pubkey)).dedup.length ≤ 256 :=
    le_trans (List.dedup_sublist _).length_le (by simp [mentions, transferOne])
  have hfits : Fits (numberedKey 1) [transferOne] := by
    constructor
    · exact lt_of_le_of_lt (List.dedup_sublist _).length_le
        (by simp [signers, mentions, transferOne])
    · simp
    · simp [transferOne]
    · simp [transferOne]
  obtain ⟨bytes, hok, hiff, -⟩ := serialized_iff hkeys (isKey_numberedKey 7) hcount
  obtain ⟨m, hread, faithful⟩ := hiff.mpr hfits
  exact ⟨bytes, m, hok, hread, faithful⟩

/-- An instruction that many accounts sign. -/
def signedBy (count : ℕ) : Instruction :=
  ⟨numberedKey 0, (List.range count).map fun n => ⟨numberedKey n, true, false⟩, []⟩

theorem mem_mentions_signedBy {count : ℕ} {o : AccountMeta}
    (h : o ∈ mentions (numberedKey 0) [signedBy count]) :
    ∃ n, (n = 0 ∨ n < count) ∧ o.pubkey = numberedKey n := by
  rw [mentions, List.mem_cons, List.mem_flatMap] at h
  rcases h with h | ⟨ix, hix, h⟩
  · exact ⟨0, .inl rfl, by rw [h]⟩
  · rw [List.mem_singleton.mp hix, List.mem_append, List.mem_singleton, signedBy, List.mem_map] at h
    rcases h with ⟨n, hn, h⟩ | h
    · exact ⟨n, .inr (List.mem_range.mp hn), by rw [← h]⟩
    · exact ⟨0, .inl rfl, by rw [h]⟩

theorem isKey_signedBy (count : ℕ) :
    ∀ o ∈ mentions (numberedKey 0) [signedBy count], IsKey o.pubkey := by
  intro o ho
  obtain ⟨n, -, hn⟩ := mem_mentions_signedBy ho
  rw [hn]
  exact isKey_numberedKey n

theorem length_mentions_signedBy {count : ℕ} (h : 0 < count) :
    ((mentions (numberedKey 0) [signedBy count]).map (·.pubkey)).dedup.length ≤ count := by
  have hsub : ((mentions (numberedKey 0) [signedBy count]).map (·.pubkey)).dedup ⊆
      (List.range count).map numberedKey := by
    intro key hkey
    obtain ⟨o, ho, heq⟩ := List.mem_map.mp (List.mem_dedup.mp hkey)
    obtain ⟨n, hn, hkey⟩ := mem_mentions_signedBy ho
    exact List.mem_map.mpr ⟨n, List.mem_range.mpr (by omega), hkey.symm.trans heq⟩
  have hle := (List.subperm_of_subset (List.nodup_dedup _) hsub).length_le
  rwa [List.length_map, List.length_range] at hle

theorem le_signers_signedBy {count : ℕ} (h : count ≤ 2 ^ 256) :
    count ≤ (signers (numberedKey 0) [signedBy count]).dedup.length := by
  have hnodup : ((List.range count).map numberedKey).Nodup := by
    refine List.Nodup.map_on ?_ List.nodup_range
    intro i hi j hj heq
    rw [List.mem_range] at hi hj
    have hword := wordBytes_inj.mp (base58_inj heq)
    have hnat := congrArg BitVec.toNat hword
    rwa [BitVec.toNat_ofNat, BitVec.toNat_ofNat, Nat.mod_eq_of_lt (by omega),
      Nat.mod_eq_of_lt (by omega)] at hnat
  have hsub : (List.range count).map numberedKey ⊆
      (signers (numberedKey 0) [signedBy count]).dedup := by
    intro key hkey
    obtain ⟨n, hn, heq⟩ := List.mem_map.mp hkey
    have hmem : (⟨numberedKey n, true, false⟩ : AccountMeta) ∈ (signedBy count).keys := by
      rw [signedBy, List.mem_map]
      exact ⟨n, hn, by rfl⟩
    have hmentions := @mention_of_instruction (numberedKey 0) [signedBy count] (signedBy count)
      List.mem_cons_self
    have hsigner := mem_signers (hmentions.1 _ hmem) rfl
    rw [← heq]
    dsimp only at hsigner
    exact hsigner
  have hle := (List.subperm_of_subset hnodup hsub).length_le
  rwa [List.length_map, List.length_range] at hle

/-- There are 256 accounts, all of them sign, and the count of the signers is written in one
byte. -/
theorem not_serialized_manySigners :
    ((mentions (numberedKey 0) [signedBy 256]).map (·.pubkey)).dedup.length ≤ 256 ∧
      ∃ bytes, serializeMessage (numberedKey 0) (numberedKey 7) [signedBy 256] = .ok bytes ∧
        ¬∃ m, message.fromSlice bytes = some m ∧
          Faithful (numberedKey 0) (numberedKey 7) [signedBy 256] m := by
  have hkeys := isKey_signedBy 256
  refine ⟨length_mentions_signedBy (by omega), _,
    serializeMessage_eq hkeys (isKey_numberedKey 7), ?_⟩
  rintro ⟨m, hread, faithful⟩
  have hlt := (fits_of_faithful hkeys hread faithful).signers
  have hle := @le_signers_signedBy 256 (by omega)
  omega

end Frontend

end SelendraBridge
