import SelendraBridge.Signers.Relayer

/-!
# What an attester has seen when it signs

Between two reads of an attester both chains go on. What it can rely on at the end is what cannot
become false: that a confirmed moment says something. So a signature is worth the moments behind it.

| it signs | there is a confirmed moment of | that says |
|---|---|---|
| a refund | the destination | the id is cancelled |
| a cancel | the destination | the id is not spent |
| | the source | the id is locked, since a time that is the timeout before another moment |

The destination and the source are those that the string of the id names. An endpoint may lie; fewer
of a chain's endpoints than have to agree is what is assumed
(`SelendraBridge.Signers.GateReader.Sound`).
-/

namespace SelendraBridge

namespace Signers

open Store
open BridgeSolana (decodeSentRecord)
open Provider (majority majorityFloor)
open Solana (MARKER_CANCELLED executedSeeds sentSeeds)

variable {ι ε : Type}

/-! ### What a moment says of an id -/

/-- The id is neither claimed nor cancelled. -/
def Unspent (D : Deployment) (m : Moment) (id : Bytes32) : Prop :=
  match D with
  | .evm _ => ∃ g, m.contents = .block (some g) ∧ g.executed id = false
  | .solana R => ∃ s, m.contents = .slot s ∧
      ¬((s (R.findProgramAddress (executedSeeds id))).owner = R.programId ∧
        (s (R.findProgramAddress (executedSeeds id))).data ≠ [])

/-- The id is cancelled. -/
def Burned (D : Deployment) (m : Moment) (id : Bytes32) : Prop :=
  match D with
  | .evm _ => ∃ g, m.contents = .block (some g) ∧ g.cancelled id = true
  | .solana R => ∃ s, m.contents = .slot s ∧
      (s (R.findProgramAddress (executedSeeds id))).owner = R.programId ∧
      (s (R.findProgramAddress (executedSeeds id))).data.head? = some MARKER_CANCELLED

/-- The id is locked, **and was at the time `since` already**: a block knows that it was locked by
then, a record knows when it was written. -/
def Locked (D : Deployment) (m : Moment) (id : Bytes32) (since : ℤ) : Prop :=
  match D with
  | .evm _ => ∃ g, m.contents = .block (some g) ∧ g.sentBy id ≠ 0 ∧ since = m.time
  | .solana R => ∃ s, m.contents = .slot s ∧
      (s (R.findProgramAddress (sentSeeds id))).owner = R.programId ∧
      ∃ rec, decodeSentRecord (s (R.findProgramAddress (sentSeeds id))).data = some rec ∧
        ¬(rec.amount = 0 ∧ rec.debridgeId = 0) ∧ since = rec.lockedAt.toInt

/-! ### The corridor of a string -/

/-- **The corridor that the string of an id names**: the fourth word is the source, the fifth is the
destination. -/
structure Corridor (x : Bytes) (source destination : ℕ) : Prop where
  source : wordAt x 96 = source
  destination : wordAt x 128 = destination

theorem corridor_append (front bridgeDomain debridgeId chainIdFrom chainIdTo : U256)
    (rest : Bytes) : Corridor (wordBytes front ++ (wordBytes bridgeDomain ++ (wordBytes debridgeId ++
      (wordBytes chainIdFrom ++ (wordBytes chainIdTo ++ rest)))))
      chainIdFrom.toNat chainIdTo.toNat := by
  have hword (w : U256) : BigEndian.ofBytes (wordBytes w) = w.toNat := by
    rw [wordBytes, BigEndian.ofWord, BigEndian.ofBytes_toBytes]
    exact Nat.mod_eq_of_lt w.isLt
  constructor
  · rw [← hword chainIdFrom, ← List.append_assoc, ← List.append_assoc]
    exact wordAt_append (by simp) (length_wordBytes _)
  · rw [← hword chainIdTo, ← List.append_assoc, ← List.append_assoc, ← List.append_assoc]
    exact wordAt_append (by simp) (length_wordBytes _)

/-! ### The evidence -/

variable (N : Network ι ε)

/-- **Worth a refund**: the destination has cancelled the id. -/
def Refundable (p : Past ι) (x : Bytes) (id : Bytes32) : Prop :=
  ∃ c j, Corridor x c (N.chainId j).toNat ∧ ∃ m ∈ p.moments j, Burned (N.deployment j) m id

/-- The source has had the id locked for a time, by its own clock. -/
def AgedOut (p : Past ι) (timeout : ℤ) (i : ι) (id : Bytes32) : Prop :=
  ∃ m ∈ p.moments i, ∃ since, Locked (N.deployment i) m id since ∧
    ∃ now ∈ p.moments i, since + timeout ≤ now.time

/-- **Worth a cancel**: the destination has not spent the id, and the source has had it locked for
the timeout. -/
def Cancellable (p : Past ι) (timeout : ℤ) (x : Bytes) (id : Bytes32) : Prop :=
  ∃ i j, Corridor x (N.chainId i).toNat (N.chainId j).toNat ∧
    (∃ m ∈ p.moments j, Unspent (N.deployment j) m id) ∧
    (p.Ordered i → AgedOut N p timeout i id)

/-- What stands behind a signature of a kind. -/
def Evidence (p : Past ι) (timeout : ℤ) (x : Bytes) (id : Bytes32) : SigKind → Prop
  | .transfer => False
  | .cancel => Cancellable N p timeout x id
  | .refund => Refundable N p x id

variable {N} {p q : Past ι} {timeout : ℤ} {x : Bytes} {id : Bytes32} {i j : ι} {e : ε}

theorem AgedOut.later (h : AgedOut N p timeout i id) (hpq : p ≤ q) : AgedOut N q timeout i id := by
  obtain ⟨m, hm, since, hlocked, now, hnow, hle⟩ := h
  exact ⟨m, Past.mem_moments hpq hm, since, hlocked, now, Past.mem_moments hpq hnow, hle⟩

/-- **Evidence stays evidence.** -/
theorem Evidence.later {kind : SigKind} (h : Evidence N p timeout x id kind) (hpq : p ≤ q) :
    Evidence N q timeout x id kind := by
  cases kind with
  | transfer => exact h
  | cancel =>
    obtain ⟨i, j, hx, ⟨m, hm, hunspent⟩, hage⟩ := h
    exact ⟨i, j, hx, ⟨m, Past.mem_moments hpq hm, hunspent⟩,
      fun hordered => (hage (hordered.of_le hpq)).later hpq⟩
  | refund =>
    obtain ⟨c, j, hx, m, hm, hburned⟩ := h
    exact ⟨c, j, hx, m, Past.mem_moments hpq hm, hburned⟩

/-- A longer time is a shorter one. -/
theorem AgedOut.of_le {timeout' : ℤ} (h : AgedOut N p timeout i id) (hle : timeout' ≤ timeout) :
    AgedOut N p timeout' i id := by
  obtain ⟨m, hm, since, hlocked, now, hnow, htime⟩ := h
  exact ⟨m, hm, since, hlocked, now, hnow, by omega⟩

theorem Evidence.of_le {timeout' : ℤ} {kind : SigKind} (h : Evidence N p timeout x id kind)
    (hle : timeout' ≤ timeout) : Evidence N p timeout' x id kind := by
  cases kind with
  | transfer => exact h
  | cancel =>
    obtain ⟨i, j, hx, hunspent, hage⟩ := h
    exact ⟨i, j, hx, hunspent, fun hordered => (hage hordered).of_le hle⟩
  | refund => exact h

/-- **What a destination has told**: that an id is not spent, or that it is cancelled, a moment says
as well. -/
structure Told (N : Network ι ε) (p : Past ι) (j : ι) (id : Bytes32) (s : DestinationState) :
    Prop where
  unspent : s.executed = false → ∃ m ∈ p.moments j, Unspent (N.deployment j) m id
  burned : s.cancelled = true → ∃ m ∈ p.moments j, Burned (N.deployment j) m id

theorem Told.later {s : DestinationState} (h : Told N p j id s) (hpq : p ≤ q) :
    Told N q j id s where
  unspent hs := (h.unspent hs).imp fun _ hm => ⟨Past.mem_moments hpq hm.1, hm.2⟩
  burned hs := (h.burned hs).imp fun _ hm => ⟨Past.mem_moments hpq hm.1, hm.2⟩

/-! ### True answers -/

/-- The block of a number. -/
def BlockAt (p : Past ι) (i : ι) (block : ℕ) (m : Moment) : Prop := (p.moments i)[block]? = some m

theorem BlockAt.later {block : ℕ} {m : Moment} (h : BlockAt p i block m) (hpq : p ≤ q) :
    BlockAt q i block m := Past.getElem?_moments hpq h

theorem BlockAt.mem {block : ℕ} {m : Moment} (h : BlockAt p i block m) : m ∈ p.moments i :=
  List.mem_of_getElem? h

theorem exists_blockAt {block : ℕ} (h : block < (p.moments i).length) : ∃ m, BlockAt p i block m :=
  ⟨_, List.getElem?_eq_getElem h⟩

theorem length_le (hpq : p ≤ q) (i : ι) : (p.moments i).length ≤ (q.moments i).length :=
  (hpq i).length_le

/-- A block says what a getter returns. -/
def Tells (p : Past ι) (i : ι) (block : ℕ) (r : Gate → Prop) : Prop :=
  ∃ m g, BlockAt p i block m ∧ m.contents = .block (some g) ∧ r g

theorem Tells.later {block : ℕ} {r : Gate → Prop} (h : Tells p i block r) (hpq : p ≤ q) :
    Tells q i block r := by
  obtain ⟨m, g, hm, hscene, hr⟩ := h
  exact ⟨m, g, hm.later hpq, hscene, hr⟩

section Honest

variable (he : N.Honest e) (hchain : N.chainOf e = i)
include he hchain

theorem says_of_answers {question : Question} {reply : Reply}
    (h : Answers N p (e, question) reply) :
    Says (N.deployment i) (N.depth i) (p.moments i) question reply := by
  subst hchain
  exact h he

/-- The head of an honest endpoint is not far ahead of what is confirmed. -/
theorem ends_getBlockNumber : (getBlockNumber e).Ends (Answers N)
    (fun p n => p.moments i ≠ [] ∧ n < (p.moments i).length + N.depth i) p := by
  refine Ask.ends_question fun q _ reply hreply n hread q' hq' => ?_
  have hsays := says_of_answers he hchain hreply
  cases reply with
  | number k =>
    obtain rfl := Option.some.inj hread
    obtain ⟨n, hn, hne, hlt⟩ := hsays
    obtain rfl := Reply.number.inj hn
    refine ⟨fun hnil => hne ?_, hlt.trans_le ?_⟩
    · exact List.prefix_nil.mp (hnil ▸ hq' i)
    · exact Nat.add_le_add_right (length_le hq' i) _
  | _ => exact absurd hread (by simp)

/-- The timestamp of a confirmed block. -/
theorem ends_blockTimestamp {block : ℕ} (hblock : block < (p.moments i).length) :
    (blockTimestamp e block).Ends (Answers N)
      (fun p t => t.toNat < 2 ^ 63 ∧ ∃ m, BlockAt p i block m ∧ m.time = t.toNat) p := by
  refine Ask.ends_question fun q hq reply hreply t hread q' hq' => ?_
  have hsays := says_of_answers he hchain hreply
  obtain ⟨m, hm⟩ := exists_blockAt (hblock.trans_le (length_le hq i))
  cases reply with
  | timestamp t' =>
    obtain rfl := Option.some.inj hread
    obtain ⟨t, ht, hlt, htime⟩ := hsays
    obtain rfl := Reply.timestamp.inj ht
    exact ⟨hlt, m, hm.later hq', htime m hm⟩
  | _ => exact absurd hread (by simp)

variable {gate : Address} (hgate : gateOf (N.deployment i) = some gate) {block : ℕ}
  (hblock : block < (p.moments i).length)
include hgate hblock

/-- A getter that returns a `bool`, at a confirmed block. -/
theorem ends_callBool (g : Getter) : (callBool e gate g id block).Ends (Answers N)
    (fun p b => Tells p i block fun x => g.reply x id = .bool b) p := by
  refine Ask.ends_question fun q hq reply hreply b hread q' hq' => ?_
  obtain ⟨m, hm⟩ := exists_blockAt (hblock.trans_le (length_le hq i))
  cases reply with
  | bool b' =>
    obtain rfl := Option.some.inj hread
    obtain ⟨y, hscene, hreply⟩ := says_of_answers he hchain hreply m hm hgate
    exact ⟨m, y, hm.later hq', hscene, hreply.symm⟩
  | _ => exact absurd hread (by simp)

/-- And one that returns an address. -/
theorem ends_callAddress (g : Getter) : (callAddress e gate g id block).Ends (Answers N)
    (fun p a => Tells p i block fun x => g.reply x id = .address a) p := by
  refine Ask.ends_question fun q hq reply hreply b hread q' hq' => ?_
  obtain ⟨m, hm⟩ := exists_blockAt (hblock.trans_le (length_le hq i))
  cases reply with
  | address a =>
    obtain rfl := Option.some.inj hread
    obtain ⟨y, hscene, hreply⟩ := says_of_answers he hchain hreply m hm hgate
    exact ⟨m, y, hm.later hq', hscene, hreply.symm⟩
  | _ => exact absurd hread (by simp)

/-- The word of a getter, if anything. -/
theorem ends_ethCall (g : Getter) : (ethCall e gate g id block).Ends (Answers N)
    (fun p bs => bs ≠ [] → Tells p i block fun x => bs = g.word x id) p := by
  refine Ask.ends_question fun q hq reply hreply b hread q' hq' => ?_
  obtain ⟨m, hm⟩ := exists_blockAt (hblock.trans_le (length_le hq i))
  cases reply with
  | bytes bs =>
    obtain rfl := Option.some.inj hread
    obtain ⟨y, hscene, hreply⟩ := says_of_answers he hchain hreply m hm hgate
    obtain rfl := Reply.bytes.inj hreply
    intro hne
    cases y with
    | none => exact absurd rfl hne
    | some y => exact ⟨m, y, hm.later hq', hscene, rfl⟩
  | _ => exact absurd hread (by simp)

end Honest

end Signers

end SelendraBridge
