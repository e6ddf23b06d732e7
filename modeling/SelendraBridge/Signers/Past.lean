import SelendraBridge.Lib.Asking
import SelendraBridge.Value

/-!
# What is confirmed, and what endpoints say of it

Somebody who decides by what chains say reads them at their confirmed moments: a block that is deep
enough, a slot that is voted for. Those are never taken back, so the past of a chain is a list that
only grows (`SelendraBridge.Signers.Past`). A moment has the time of the chain's own clock and what
can be read there: the storage of the gate, or the accounts of the cluster.

An honest endpoint answers what is true of the past at the moment of the answer, or it does not
answer (`SelendraBridge.Signers.Says`). Of what is not confirmed it may say anything.
-/

namespace SelendraBridge

namespace Signers

/-! ### The past -/

/-- What can be read at a moment. -/
inductive Contents
  /-- A block, with the storage of the gate once that is deployed. -/
  | block (gate : Option Gate)
  | slot (accounts : Solana.Accounts)

/-- **A confirmed moment of a chain.** -/
structure Moment where
  time : ℤ
  contents : Contents

/-- What is confirmed of every chain, so far. The number of a block is its position. -/
structure Past (ι : Type) where
  moments : ι → List Moment

variable {ι ε : Type}

/-- A past is followed by those that it is the beginning of. -/
instance : Preorder (Past ι) where
  le p q := ∀ i, p.moments i <+: q.moments i
  le_refl p i := List.prefix_refl (p.moments i)
  le_trans _ _ _ hpq hqr i := (hpq i).trans (hqr i)

/-- What is confirmed stays confirmed. -/
theorem Past.mem_moments {p q : Past ι} (h : p ≤ q) {i : ι} {m : Moment} (hm : m ∈ p.moments i) :
    m ∈ q.moments i := (h i).subset hm

/-- And keeps its number. -/
theorem Past.getElem?_moments {p q : Past ι} (h : p ≤ q) {i : ι} {n : ℕ} {m : Moment}
    (hm : (p.moments i)[n]? = some m) : (q.moments i)[n]? = some m := by
  obtain ⟨rest, hrest⟩ := h i
  rw [← hrest, List.getElem?_append_left (List.getElem?_eq_some_iff.mp hm).1]
  exact hm

/-- The clock of a chain does not run backwards. -/
def Past.Ordered (p : Past ι) (i : ι) : Prop :=
  (p.moments i).Pairwise fun m m' => m.time ≤ m'.time

theorem Past.Ordered.of_le {p q : Past ι} {i : ι} (h : p ≤ q) (hq : q.Ordered i) : p.Ordered i :=
  List.Pairwise.sublist (h i).sublist hq

/-- The later the number, the later the time. -/
theorem Past.Ordered.time_le {p : Past ι} {i : ι} (h : p.Ordered i) {a b : ℕ} {m m' : Moment}
    (hab : a ≤ b) (hm : (p.moments i)[a]? = some m) (hm' : (p.moments i)[b]? = some m') :
    m.time ≤ m'.time := by
  obtain ⟨ha, rfl⟩ := List.getElem?_eq_some_iff.mp hm
  obtain ⟨hb, rfl⟩ := List.getElem?_eq_some_iff.mp hm'
  rcases hab.eq_or_lt with rfl | hlt
  · exact le_rfl
  · exact List.pairwise_iff_getElem.mp h a b ha hb hlt

/-! ### Questions and replies -/

/-- The getters of the gate that are read. -/
inductive Getter
  | executed
  | cancelled
  | sentBy
  | refunded
  deriving DecidableEq, Repr

/-- **What an endpoint is asked.** -/
inductive Question
  /-- `eth_blockNumber`. -/
  | blockNumber
  /-- `eth_getBlockByNumber`, for its timestamp. -/
  | timestamp (block : ℕ)
  /-- A getter at a block, through the contract library. -/
  | getter (gate : Address) (g : Getter) (id : Bytes32) (block : ℕ)
  /-- The same through `eth_call`. -/
  | ethCall (gate : Address) (g : Getter) (id : Bytes32) (block : ℕ)
  /-- `getAccountInfo`. -/
  | account (key : Pubkey)
  /-- The same of the clock of the cluster. -/
  | clock
  deriving DecidableEq

/-- What comes back. -/
inductive Reply
  /-- An error, or nothing in time. -/
  | failed
  | number (n : ℕ)
  | timestamp (t : U64)
  | bool (b : Bool)
  | address (a : Address)
  | bytes (bs : Bytes)
  | account (a : Option Solana.Account)
  | clock (unixTimestamp : BitVec 64)
  deriving DecidableEq

/-- What a getter returns. -/
def Getter.reply (g : Gate) (id : Bytes32) : Getter → Reply
  | .executed => .bool (g.executed id)
  | .cancelled => .bool (g.cancelled id)
  | .sentBy => .address (g.sentBy id)
  | .refunded => .bool (g.refunded id)

/-- The word of a `bool`. -/
def boolWord (b : Bool) : Bytes32 := if b then 1 else 0

/-- What it returns as bytes. -/
def Getter.word (g : Gate) (id : Bytes32) : Getter → Bytes
  | .executed => wordBytes (boolWord (g.executed id))
  | .cancelled => wordBytes (boolWord (g.cancelled id))
  | .sentBy => wordBytes (addressWord (g.sentBy id))
  | .refunded => wordBytes (boolWord (g.refunded id))

/-- What a call of it returns in a block: nothing, where there is no gate yet. -/
def Getter.ret (g : Getter) (id : Bytes32) : Option Gate → Bytes
  | some x => g.word x id
  | none => []

/-! ### Who is asked -/

/-- **The chains, and the endpoints that know them**: which of them are honest, and how far the
head of a chain is ahead of what is confirmed. -/
structure Network (ι ε : Type) where
  deployment : ι → Deployment
  chainId : ι → U64
  depth : ι → ℕ
  chainOf : ε → ι
  Honest : ε → Prop

/-- The address of a gate that is a contract. -/
def gateOf : Deployment → Option Address
  | .evm E => some E.gate
  | .solana _ => none

/-- An account as it is shown: none, if nobody ever took it. -/
def Shows (D : Deployment) (shown : Option Solana.Account) (account : Solana.Account) : Prop :=
  match D, shown with
  | .solana _, some a => account.Same a
  | .solana R, none => account.Free R
  | .evm _, _ => False

/-- **What is true to say of a past**, when something is said at all. A timestamp is the number of
seconds since 1970, and so a number that a signed one has room for. -/
def Says (D : Deployment) (depth : ℕ) (past : List Moment) : Question → Reply → Prop
  | _, .failed => True
  | .blockNumber, r => ∃ n, r = .number n ∧ past ≠ [] ∧ n < past.length + depth
  | .timestamp block, r => ∃ t : U64, r = .timestamp t ∧ t.toNat < 2 ^ 63 ∧
      ∀ m, past[block]? = some m → m.time = t.toNat
  | .getter gate g id block, r => ∀ m, past[block]? = some m → gateOf D = some gate →
      ∃ x, m.contents = .block (some x) ∧ r = g.reply x id
  | .ethCall gate g id block, r => ∀ m, past[block]? = some m → gateOf D = some gate →
      ∃ x, m.contents = .block x ∧ r = .bytes (g.ret id x)
  | .account key, r => ∃ shown, r = .account shown ∧ ∃ m ∈ past, ∃ s, m.contents = .slot s ∧
      Shows D shown (s key)
  | .clock, r => ∃ t, r = .clock t ∧ ∃ m ∈ past, (∃ s, m.contents = .slot s) ∧ m.time = t.toInt

/-- A time as seconds, if it is one that an endpoint can state. -/
def secondsOf (t : ℤ) : Option U64 :=
  if 0 ≤ t ∧ t < 2 ^ 63 then some (BitVec.ofNat 64 t.toNat) else none

/-- **Something true to say**: of the last moment, where no block is asked for. -/
def truth (D : Deployment) (past : List Moment) : Question → Reply
  | .blockNumber => if past = [] then .failed else .number (past.length - 1)
  | .timestamp block =>
    match past[block]? with
    | some m => ((secondsOf m.time).map Reply.timestamp).getD .failed
    | none => .failed
  | .getter _ g id block =>
    match past[block]? with
    | some ⟨_, .block (some x)⟩ => g.reply x id
    | _ => .failed
  | .ethCall _ g id block =>
    match past[block]? with
    | some ⟨_, .block x⟩ => .bytes (g.ret id x)
    | _ => .failed
  | .account key =>
    match D, past.getLast? with
    | .solana _, some ⟨_, .slot s⟩ => .account (some (s key))
    | _, _ => .failed
  | .clock =>
    match past.getLast? with
    | some ⟨t, .slot _⟩ => ((secondsOf t).map Reply.clock).getD .failed
    | _ => .failed

theorem secondsOf_eq_some {t : ℤ} {s : U64} (h : secondsOf t = some s) :
    s.toNat < 2 ^ 63 ∧ t = s.toNat ∧ t = s.toInt := by
  rw [secondsOf] at h
  split at h
  · next hbounds =>
    obtain rfl := Option.some.inj h
    have hnat : (BitVec.ofNat 64 t.toNat).toNat = t.toNat := by
      rw [BitVec.toNat_ofNat]
      exact Nat.mod_eq_of_lt (by omega)
    refine ⟨by omega, by omega, ?_⟩
    rw [BitVec.toInt_eq_toNat_of_lt (by omega)]
    omega
  · cases h

/-- **Whatever is asked, an honest endpoint can answer.** -/
theorem says_truth (D : Deployment) (depth : ℕ) (past : List Moment) (question : Question) :
    Says D depth past question (truth D past question) := by
  cases question with
  | blockNumber =>
    rw [truth]
    split
    · trivial
    · next hne =>
      have hpos := List.length_pos_iff.mpr hne
      exact ⟨_, rfl, hne, by omega⟩
  | timestamp block =>
    rw [truth]
    split
    · next m hm =>
      cases hs : secondsOf m.time with
      | none => trivial
      | some s =>
        obtain ⟨hlt, htime, -⟩ := secondsOf_eq_some hs
        refine ⟨s, rfl, hlt, fun m' hm' => ?_⟩
        obtain rfl := Option.some.inj (hm.symm.trans hm')
        exact htime
    · trivial
  | getter gate g id block =>
    rw [truth]
    split
    · next t x hm =>
      cases g <;> exact fun m' hm' _ => ⟨x, by
        obtain rfl := Option.some.inj (hm.symm.trans hm')
        rfl, rfl⟩
    · trivial
  | ethCall gate g id block =>
    rw [truth]
    split
    · next t x hm =>
      exact fun m' hm' _ => ⟨x, by
        obtain rfl := Option.some.inj (hm.symm.trans hm')
        rfl, rfl⟩
    · trivial
  | account key =>
    unfold truth
    dsimp only
    split
    · next R t s hlast =>
      exact ⟨_, rfl, _, List.mem_of_getLast? hlast, s, rfl, ⟨rfl, rfl⟩⟩
    · trivial
  | clock =>
    rw [truth]
    split
    · next t s hlast =>
      cases hs : secondsOf t with
      | none => trivial
      | some s' =>
        exact ⟨s', rfl, _, List.mem_of_getLast? hlast, ⟨s, rfl⟩, (secondsOf_eq_some hs).2.2⟩
    · trivial

variable (N : Network ι ε)

/-- **What may come back** from an endpoint, of what is confirmed: the truth, if it is honest. -/
def Answers (p : Past ι) (q : ε × Question) (r : Reply) : Prop :=
  N.Honest q.1 → Says (N.deployment (N.chainOf q.1)) (N.depth (N.chainOf q.1))
    (p.moments (N.chainOf q.1)) q.2 r

/-- Programs that read chains. -/
abbrev Reading (ε α : Type) := Ask (ε × Question) Reply α

/-! ### Single questions -/

section Questions

variable (e : ε)

/-- `get_block_number`. -/
def getBlockNumber : Reading ε ℕ :=
  .question (e, .blockNumber) fun
    | .number n => some n
    | _ => none

/-- The timestamp of a block, which has to be there. -/
def blockTimestamp (block : ℕ) : Reading ε U64 :=
  .question (e, .timestamp block) fun
    | .timestamp t => some t
    | _ => none

/-- A getter that returns a `bool`. -/
def callBool (gate : Address) (g : Getter) (id : Bytes32) (block : ℕ) : Reading ε Bool :=
  .question (e, .getter gate g id block) fun
    | .bool b => some b
    | _ => none

/-- A getter that returns an address. -/
def callAddress (gate : Address) (g : Getter) (id : Bytes32) (block : ℕ) : Reading ε Address :=
  .question (e, .getter gate g id block) fun
    | .address a => some a
    | _ => none

/-- `eth_call` of a getter. -/
def ethCall (gate : Address) (g : Getter) (id : Bytes32) (block : ℕ) : Reading ε Bytes :=
  .question (e, .ethCall gate g id block) fun
    | .bytes bs => some bs
    | _ => none

/-- `get_account_with_commitment`. -/
def getAccount (key : Pubkey) : Reading ε (Option Solana.Account) :=
  .question (e, .account key) fun
    | .account a => some a
    | _ => none

/-- `solana_now`. -/
def solanaNow : Reading ε (BitVec 64) :=
  .question (e, .clock) fun
    | .clock t => some t
    | _ => none

end Questions

end Signers

end SelendraBridge
