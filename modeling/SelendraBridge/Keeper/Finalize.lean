import Mathlib.Data.List.Sort
import SelendraBridge.Keeper.Fees
import SelendraBridge.Lib.Transition
import SelendraBridge.SigStore.Policy
import SelendraBridge.Store.Standard

/-!
# The queue of deliveries to finalize

A transfer that was claimed into a router is finished by a second transaction, which anybody may
send, and the keeper sends it. What it has still to finish is in a queue. A claim of its own
puts a delivery there, and so does the seed, which every quarter of an hour goes through the
store's history, newest first. An attempt takes a delivery out of the queue when there is
nothing left to do, and puts it off otherwise, for longer each time.

| an attempt finds | the delivery |
|:-----------------|:-------------|
| it is finalized, cancelled, or not for this keeper | leaves the queue |
| it is not executed, the swap is blocked, a call fails | is due again, after up to 6 hours |
-/

namespace SelendraBridge

namespace Keeper

open SigStore (trim splitOnce)
open Store Transition

/-! ### The floor -/

/-- `parse_whole`: the digits before the point, and those after it. -/
def parseWhole (s : Text) : Option (Text × Text) :=
  let s := trim s
  let r := (splitOnce '.' s).getD (s, [])
  if (r.1 = [] ∧ r.2 = []) ∨ ¬r.1.all isDigit = true ∨ ¬r.2.all isDigit = true then none
  else some r

/-- A number of 128 bits, or nothing. -/
def u128 (n : ℕ) : Option ℕ := if n ≤ u128Max then some n else none

/-- `str::parse::<u128>` of digits, none of which are zero. -/
def digitsOr0 (s : Text) : Option ℕ :=
  if s = [] then some 0 else u128 (Nat.ofDigitChars 10 s 0)

/-- `scale`: a finer fraction is rounded up. -/
def scale (whole frac : Text) (decimals : UInt8) : Option ℕ := do
  let d := decimals.toNat
  let unit ← u128 (Nat.pow 10 d)
  let w ← digitsOr0 whole
  let r : Text × Text := if frac.length > d then (frac.take d, frac.drop d) else (frac, [])
  let f ← digitsOr0 r.1
  let place ← u128 (Nat.pow 10 (d - r.1.length))
  let f ← u128 (f * place)
  let roundUp := if r.2.any (fun c => c != '0') then 1 else 0
  let whole ← u128 (w * unit)
  let sum ← u128 (whole + f)
  u128 (sum + roundUp)

/-- What a keeper is configured with for one chain: its id, the routers it finalizes through, and
the smallest amounts it claims. -/
structure ChainCfg where
  chainId : U64
  routers : List Address
  minClaim : List (Text × Text)

/-- `min_claim_wire`. -/
def ChainCfg.minClaimWire (cfg : ChainCfg) (debridgeId : Text) (bridgeDecimals : UInt8) :
    Option ℕ := do
  let key := lower debridgeId
  let kv ← cfg.minClaim.find? fun kv => lower kv.1 == key
  let r ← parseWhole kv.2
  scale r.1 r.2 bridgeDecimals

/-- `router_of`. -/
def routerOf (P : Parsers) (receiver : Text) (routers : List Address) : Option Address :=
  (P.address receiver).filter fun a => routers.contains a

/-- `below_min_claim`: the amount and the floor that it is below. -/
def belowMinClaim (P : Parsers) (cfg : ChainCfg) (rec : SubmissionRecord) : Option (ℕ × ℕ) := do
  let decimals ← rec.bridgeDecimals
  let floor ← cfg.minClaimWire rec.debridgeId decimals
  let amount ← P.u256 rec.amount
  let amount ← u128 amount.toNat
  if amount < floor then some (amount, floor) else none

/-! ### The queue -/

/-- `SEED_INTERVAL`, in nanoseconds like every instant. -/
def SEED_INTERVAL : ℕ := 900000000000

/-- `BACKOFF_BASE`. -/
def BACKOFF_BASE : ℕ := 300000000000

/-- `BACKOFF_MAX`. -/
def BACKOFF_MAX : ℕ := 21600000000000

/-- `PER_TICK`. -/
def PER_TICK : ℕ := 4

/-- `SEED_LOADS`. -/
def SEED_LOADS : ℕ := 200

/-- `backoff_for`. -/
def backoffFor (attempts : ℕ) : ℕ :=
  let shift := min (attempts - 1) 16
  min (BACKOFF_BASE * Nat.pow 2 shift) BACKOFF_MAX

/-- An entry of the queue. -/
structure QueueEntry where
  record : SubmissionRecord
  router : Address
  nextAt : ℕ
  attempts : ℕ

/-- `FinalizeQueue`: the entries by their ids, and when it was seeded. -/
structure FinalizeQueue where
  entries : List (Text × QueueEntry)
  seededAt : Option ℕ

/-- What `finalize_one` reads of the chain, in the order it does; a call that fails is `none`. -/
structure Replies where
  finalized : Option Bool
  cancelled : Option Bool
  executed : Option Bool
  isOwner : Option Bool
  isGuardian : Option Bool
  sent : Bool
  finalizedAfter : Option Bool

/-- Why a delivery is dropped. -/
inductive DropReason
  | cancelled
  | ownRole
  deriving DecidableEq

/-- `Outcome`. -/
inductive FinalizeOutcome
  | done
  | drop (reason : DropReason)
  | notYetDelivered
  | deferred
  deriving DecidableEq

/-- The arguments of `finalize`, that is, whether they can be read from the record. -/
def finalizeArgs (P : Parsers) (rec : SubmissionRecord) : Bool :=
  let bytes := fun s : Text => (stripHexPrefix s).isEmpty || (P.hexDecode (stripHexPrefix s)).isSome
  (P.b256 rec.debridgeId).isSome && (P.u256 rec.amount).isSome && rec.bridgeDecimals.isSome &&
    bytes rec.receiver && bytes rec.autoParams && bytes rec.nativeSender

/-- `finalize_one`: nothing when something fails. -/
def finalizeOne (P : Parsers) (rec : SubmissionRecord) (c : Replies) : Option FinalizeOutcome := do
  let _ ← P.b256 rec.submissionId
  if ← c.finalized then return .done
  if ← c.cancelled then return .drop .cancelled
  if !(← c.executed) then return .notYetDelivered
  if ← c.isOwner then return .drop .ownRole
  if ← c.isGuardian then return .drop .ownRole
  if !finalizeArgs P rec then none
  if !c.sent then none
  if ← c.finalizedAfter then return .done
  return .deferred

namespace FinalizeQueue

/-- `FinalizeQueue::default`. -/
def empty : FinalizeQueue := ⟨[], none⟩

/-- The entry of an id. -/
def get (q : FinalizeQueue) (id : Text) : Option QueueEntry := q.entries.lookup id

/-- `contains_key`. -/
def contains (q : FinalizeQueue) (id : Text) : Bool := (q.get id).isSome

/-- `enqueue`. -/
def enqueue (q : FinalizeQueue) (rec : SubmissionRecord) (router : Address) (now : ℕ) :
    FinalizeQueue :=
  if q.contains rec.submissionId then q
  else { q with entries := q.entries ++ [(rec.submissionId, ⟨rec, router, now, 0⟩)] }

/-- The order of strings, by their code points. -/
def textLe : Text → Text → Bool
  | [], _ => true
  | _ :: _, [] => false
  | a :: as, b :: bs => a.toNat < b.toNat || (a.toNat == b.toNat && textLe as bs)

/-- What is due sooner, and of what is due at one time the lesser id. -/
def Sooner (a b : ℕ × Text) : Prop := a.1 < b.1 ∨ a.1 = b.1 ∧ textLe a.2 b.2 = true

instance : DecidableRel Sooner :=
  fun a b => inferInstanceAs (Decidable (a.1 < b.1 ∨ a.1 = b.1 ∧ textLe a.2 b.2 = true))

/-- `due`. -/
def due (q : FinalizeQueue) (now max : ℕ) : List Text :=
  let due := (q.entries.filter fun e => e.2.nextAt ≤ now).map fun e => (e.2.nextAt, e.1)
  ((due.insertionSort Sooner).take max).map Prod.snd

/-- `back_off`. -/
def backOff (q : FinalizeQueue) (id : Text) (now : ℕ) : FinalizeQueue :=
  { q with
    entries := q.entries.map fun e =>
      if e.1 = id then
        (e.1, { e.2 with
          nextAt := now + backoffFor (e.2.attempts + 1)
          attempts := e.2.attempts + 1 })
      else e }

/-- `remove`. -/
def remove (q : FinalizeQueue) (id : Text) : FinalizeQueue :=
  { q with entries := q.entries.filter fun e => e.1 ≠ id }

/-- `seed_due`. -/
def seedDue (q : FinalizeQueue) (now : ℕ) : Bool :=
  q.seededAt.all fun t => decide (SEED_INTERVAL ≤ now - t)

end FinalizeQueue

/-! ### The seed -/

/-- `SwapBridgeInfo`, as far as the seed reads it. -/
structure SwapBridgeInfo where
  finalizeTx : Option Text

/-- `SubmissionHistory`, as far as the seed reads it. -/
structure HistoryRow where
  submissionId : Text
  chainIdTo : U64
  status : Text
  receiver : Text
  swapIntent : Option SwapBridgeInfo

/-- The status of a transfer that was claimed. -/
def claimed : Text := ['c', 'l', 'a', 'i', 'm', 'e', 'd']

/-- What the keeper reads of the store: whether it is a directory, the history, and the record of
an id. A read that fails is `none`. -/
structure StoreView where
  isDir : Bool
  history : Option (List HistoryRow)
  load : Text → Option (Option SubmissionRecord)

/-- **What one seed or attempt depends on**: the parsers, the chain, and the store. -/
structure Setup where
  parsers : Parsers
  cfg : ChainCfg
  store : StoreView

namespace Setup

variable (c : Setup)

/-- A row that the seed would look up, if it is not in the queue: claimed on this chain into a
router, and not known to be finalized. -/
def eligible (row : HistoryRow) : Bool :=
  row.chainIdTo == c.cfg.chainId && row.status == claimed &&
    !(row.swapIntent.any fun s => s.finalizeTx.isSome) &&
    (routerOf c.parsers row.receiver c.cfg.routers).isSome

/-- The loop of `seed`. -/
def seedRows (now : ℕ) : List HistoryRow → ℕ → FinalizeQueue → FinalizeQueue
  | [], _, q => q
  | row :: rows, loads, q =>
    if SEED_LOADS ≤ loads then q
    else if (row.chainIdTo != c.cfg.chainId || row.status != claimed ||
        q.contains row.submissionId || row.swapIntent.any fun s => s.finalizeTx.isSome) = true then
      seedRows now rows loads q
    else
      match routerOf c.parsers row.receiver c.cfg.routers with
      | none => seedRows now rows loads q
      | some router =>
        match c.store.load row.submissionId with
        | some (some rec) =>
          if (belowMinClaim c.parsers c.cfg rec).isNone = true then
            seedRows now rows (loads + 1) (q.enqueue rec router now)
          else seedRows now rows (loads + 1) q
        | _ => seedRows now rows (loads + 1) q

/-- `seed`. -/
def seed (q : FinalizeQueue) (now : ℕ) : FinalizeQueue :=
  let q := { q with seededAt := some now }
  if c.cfg.routers.isEmpty || c.store.isDir then q
  else
    match c.store.history with
    | none => q
    | some rows => c.seedRows now rows 0 q

/-- One attempt of `run`. -/
def attempt (now : ℕ) (replies : Text → Replies) (q : FinalizeQueue) (id : Text) : FinalizeQueue :=
  match q.get id with
  | none => q
  | some e =>
    match finalizeOne c.parsers e.record (replies id) with
    | some .done => q.remove id
    | some (.drop _) => q.remove id
    | some .notYetDelivered => q.backOff id now
    | some .deferred => q.backOff id now
    | none => q.backOff id now

/-- `run`. -/
def run (q : FinalizeQueue) (now : ℕ) (replies : Text → Replies) : FinalizeQueue :=
  (q.due now PER_TICK).foldl (c.attempt now replies) q

end Setup

/-! ### Its runs -/

/-- What can happen next: a claim puts a delivery into the queue, the queue is seeded, or what is
due is attempted. -/
inductive FinalizeEvent
  | enqueue (now : ℕ) (rec : SubmissionRecord) (router : Address)
  | seed (now : ℕ)
  | run (now : ℕ) (replies : Text → Replies)

/-- When something happens. -/
def FinalizeEvent.now : FinalizeEvent → ℕ
  | .enqueue now _ _ => now
  | .seed now => now
  | .run now _ => now

/-- The queue, and the time. -/
structure FinalizeState where
  queue : FinalizeQueue
  clock : ℕ

/-- What an event makes of the queue, if it can happen: a seed has to be due. -/
def Setup.next (c : Setup) (q : FinalizeQueue) : FinalizeEvent → Option FinalizeQueue
  | .enqueue now rec router => some (q.enqueue rec router now)
  | .seed now => if q.seedDue now then some (c.seed q now) else none
  | .run now replies => some (c.run q now replies)

/-- **One step** of the queue; time does not go back. -/
def Setup.exec (c : Setup) (s : FinalizeState) (a : FinalizeEvent) :
    Option (FinalizeState × Unit) :=
  if s.clock ≤ a.now then (c.next s.queue a).map fun q => (⟨q, a.now⟩, ()) else none

/-! ### What the operations do -/

namespace FinalizeQueue

variable {q : FinalizeQueue} {id x : Text} {now max : ℕ} {entry : QueueEntry}

/-- **Every id has one entry.** -/
def Keyed (q : FinalizeQueue) : Prop := (q.entries.map Prod.fst).Nodup

theorem contains_iff : q.contains id = true ↔ id ∈ q.entries.map Prod.fst := by
  rw [contains, get, List.lookup_isSome_iff, List.mem_map]
  constructor
  · rintro ⟨e, he, heq⟩
    exact ⟨e, he, (beq_iff_eq.mp heq).symm⟩
  · rintro ⟨e, he, rfl⟩
    exact ⟨e, he, beq_self_eq_true _⟩

theorem mem_entries_of_get (h : q.get id = some entry) : (id, entry) ∈ q.entries := by
  obtain ⟨l₁, l₂, heq, -⟩ := List.lookup_eq_some_iff.mp h
  rw [heq]
  exact List.mem_append_right _ List.mem_cons_self

theorem get_of_mem_entries (hq : q.Keyed) (h : (id, entry) ∈ q.entries) :
    q.get id = some entry := by
  obtain ⟨l₁, l₂, heq⟩ := List.append_of_mem h
  refine List.lookup_eq_some_iff.mpr ⟨l₁, l₂, heq, ?_⟩
  intro e he
  rw [Keyed, heq, List.map_append, List.map_cons] at hq
  have hne := (List.nodup_append.mp hq).2.2 e.1 (List.mem_map_of_mem he) id List.mem_cons_self
  exact bne_iff_ne.mpr hne.symm

theorem contains_enqueue {record : SubmissionRecord} {router : Address} :
    (q.enqueue record router now).contains id = true ↔
      q.contains id = true ∨ id = record.submissionId := by
  rw [enqueue]
  split
  · next h =>
    constructor
    · exact Or.inl
    · rintro (h' | rfl)
      · exact h'
      · exact h
  · rw [contains_iff, contains_iff]
    simp

theorem get_enqueue {record : SubmissionRecord} {router : Address} (h : q.get id = some entry) :
    (q.enqueue record router now).get id = some entry := by
  rw [enqueue]
  split
  · exact h
  · have h' : q.entries.lookup id = some entry := h
    rw [get, List.lookup_append, h', Option.some_or]

theorem get_enqueue_cases {record : SubmissionRecord} {router : Address}
    (h : (q.enqueue record router now).get id = some entry) :
    q.get id = some entry ∨ id = record.submissionId ∧ entry = ⟨record, router, now, 0⟩ := by
  rw [enqueue] at h
  split at h
  · exact .inl h
  · rw [get, List.lookup_append] at h
    rcases hold : q.entries.lookup id with _ | e
    · rw [hold, Option.none_or] at h
      by_cases hid : id = record.submissionId
      · rw [hid, List.lookup_cons_self] at h
        exact .inr ⟨hid, (Option.some.inj h).symm⟩
      · rw [List.lookup_cons, beq_false_of_ne hid] at h
        cases h
    · rw [hold, Option.some_or] at h
      exact .inl (hold.trans h)

theorem Keyed.enqueue {record : SubmissionRecord} {router : Address} (hq : q.Keyed) :
    (q.enqueue record router now).Keyed := by
  rw [FinalizeQueue.enqueue]
  split
  · exact hq
  · next h =>
    rw [contains_iff] at h
    rw [Keyed, List.map_append]
    refine List.nodup_append.mpr ⟨hq, List.nodup_singleton _, ?_⟩
    rintro a ha b hb rfl
    obtain rfl := List.mem_singleton.mp hb
    exact h ha

/-- An entry that is put off. -/
def later (now : ℕ) (e : QueueEntry) : QueueEntry :=
  { e with nextAt := now + backoffFor (e.attempts + 1), attempts := e.attempts + 1 }

theorem later_le : (later now entry).nextAt ≤ now + BACKOFF_MAX :=
  Nat.add_le_add_left (Nat.min_le_right _ _) _

theorem get_backOff : (q.backOff x now).get id =
    if id = x then (q.get id).map (later now) else q.get id := by
  rw [backOff, get, get]
  dsimp only
  induction q.entries with
  | nil => simp
  | cons e es ih =>
    obtain ⟨k, v⟩ := e
    rw [List.map_cons]
    by_cases hk : k = x
    · rw [if_pos hk]
      by_cases hid : id = k
      · rw [hid, List.lookup_cons_self, List.lookup_cons_self, if_pos hk]
        rfl
      · rw [List.lookup_cons, List.lookup_cons, beq_false_of_ne hid]
        exact ih
    · rw [if_neg hk]
      by_cases hid : id = k
      · rw [hid, List.lookup_cons_self, List.lookup_cons_self, if_neg hk]
      · rw [List.lookup_cons, List.lookup_cons, beq_false_of_ne hid]
        exact ih

theorem get_remove : (q.remove x).get id = if id = x then none else q.get id := by
  rw [remove, get, get]
  dsimp only
  induction q.entries with
  | nil => simp
  | cons e es ih =>
    obtain ⟨k, v⟩ := e
    by_cases hk : k = x
    · rw [List.filter_cons_of_neg (by simp [hk]), ih, List.lookup_cons]
      by_cases hid : id = x
      · rw [if_pos hid, if_pos hid]
      · rw [if_neg hid, if_neg hid, beq_false_of_ne (by rw [hk]; exact hid)]
    · rw [List.filter_cons_of_pos (by simp [hk])]
      by_cases hid : id = k
      · rw [hid, List.lookup_cons_self, List.lookup_cons_self, if_neg hk]
      · rw [List.lookup_cons, List.lookup_cons, beq_false_of_ne hid]
        exact ih

theorem Keyed.backOff (hq : q.Keyed) : (q.backOff x now).Keyed := by
  rw [Keyed, FinalizeQueue.backOff, List.map_map]
  refine (congrArg List.Nodup (List.map_congr_left ?_)).mpr hq
  intro e _
  rw [Function.comp_apply]
  split <;> rfl

theorem Keyed.remove (hq : q.Keyed) : (q.remove x).Keyed :=
  hq.sublist (List.filter_sublist.map _)

/-! ### What is due -/

theorem textLe_total (s t : Text) : textLe s t = true ∨ textLe t s = true := by
  induction s generalizing t with
  | nil => exact .inl rfl
  | cons a s ih =>
    rcases t with _ | ⟨b, t⟩
    · exact .inr rfl
    · rcases lt_trichotomy a.toNat b.toNat with h | h | h
      · exact .inl (by simp [textLe, h])
      · rcases ih t with ht | ht
        · exact .inl (by simp [textLe, h, ht])
        · exact .inr (by simp [textLe, h, ht])
      · exact .inr (by simp [textLe, h])

theorem textLe_trans {s t u : Text} (hst : textLe s t = true) (htu : textLe t u = true) :
    textLe s u = true := by
  induction s generalizing t u with
  | nil => rfl
  | cons a s ih =>
    rcases t with _ | ⟨b, t⟩
    · cases hst
    rcases u with _ | ⟨c, u⟩
    · cases htu
    simp only [textLe, Bool.or_eq_true, Bool.and_eq_true, decide_eq_true_iff,
      beq_iff_eq] at hst htu ⊢
    rcases hst with hab | ⟨hab, hst⟩
    · rcases htu with hbc | ⟨hbc, -⟩
      · exact .inl (hab.trans hbc)
      · exact .inl (hbc ▸ hab)
    · rcases htu with hbc | ⟨hbc, htu⟩
      · exact .inl (hab ▸ hbc)
      · exact .inr ⟨hab.trans hbc, ih hst htu⟩

theorem sooner_total : Std.Total Sooner := by
  refine ⟨fun a b => ?_⟩
  rcases lt_trichotomy a.1 b.1 with h | h | h
  · exact .inl (.inl h)
  · rcases textLe_total a.2 b.2 with h' | h'
    · exact .inl (.inr ⟨h, h'⟩)
    · exact .inr (.inr ⟨h.symm, h'⟩)
  · exact .inr (.inl h)

theorem sooner_trans : IsTrans (ℕ × Text) Sooner := by
  refine ⟨?_⟩
  rintro a b c (hab | ⟨hab, hab'⟩) (hbc | ⟨hbc, hbc'⟩)
  · exact .inl (hab.trans hbc)
  · exact .inl (hbc ▸ hab)
  · exact .inl (hab ▸ hbc)
  · exact .inr ⟨hab.trans hbc, textLe_trans hab' hbc'⟩

theorem le_of_sooner {a b : ℕ × Text} (h : Sooner a b) : a.1 ≤ b.1 := by
  rcases h with h | ⟨h, -⟩
  · exact h.le
  · exact h.le

/-- What is due, with the times it is due at. -/
def dueAt (q : FinalizeQueue) (now : ℕ) : List (ℕ × Text) :=
  ((q.entries.filter fun e => e.2.nextAt ≤ now).map fun e => (e.2.nextAt, e.1)).insertionSort Sooner

theorem due_eq : q.due now max = ((q.dueAt now).take max).map Prod.snd := rfl

theorem mem_dueAt {t : ℕ} (hq : q.Keyed) : (t, id) ∈ q.dueAt now ↔
    ∃ entry, q.get id = some entry ∧ entry.nextAt = t ∧ t ≤ now := by
  rw [dueAt, (List.perm_insertionSort Sooner _).mem_iff, List.mem_map]
  constructor
  · rintro ⟨e, he, heq⟩
    obtain ⟨rfl, rfl⟩ := Prod.mk.inj heq
    obtain ⟨hmem, hdue⟩ := List.mem_filter.mp he
    exact ⟨e.2, get_of_mem_entries hq hmem, rfl, of_decide_eq_true hdue⟩
  · rintro ⟨entry, hget, rfl, hle⟩
    exact ⟨(id, entry), List.mem_filter.mpr ⟨mem_entries_of_get hget, decide_eq_true hle⟩, rfl⟩

/-- **What is due sooner comes first**: while a delivery is due, whatever is attempted before it is
due no later. -/
theorem due_ordered (hq : q.Keyed) (hget : q.get id = some entry) (hdue : entry.nextAt ≤ now)
    {before after : List Text} (heq : q.due now max = before ++ x :: after) (hid : id ∉ before) :
    ∃ entry', q.get x = some entry' ∧ entry'.nextAt ≤ entry.nextAt := by
  rw [due_eq, List.map_eq_append_iff] at heq
  obtain ⟨front, rest, htake, rfl, hrest⟩ := heq
  obtain ⟨y, tail, rfl, rfl, rfl⟩ := List.map_eq_cons_iff.mp hrest
  have hsplit : q.dueAt now = front ++ y :: (tail ++ (q.dueAt now).drop max) := by
    rw [← List.cons_append, ← List.append_assoc, ← htake, List.take_append_drop]
  have hmem : (entry.nextAt, id) ∈ q.dueAt now := (mem_dueAt hq).mpr ⟨entry, hget, rfl, hdue⟩
  have hy : (y.1, y.2) ∈ q.dueAt now := by
    rw [hsplit]
    exact List.mem_append_right _ List.mem_cons_self
  obtain ⟨entry', hget', hat, -⟩ := (mem_dueAt hq).mp hy
  refine ⟨entry', hget', ?_⟩
  rw [hat]
  have := sooner_total
  have := sooner_trans
  have hsorted : (q.dueAt now).Pairwise Sooner := List.pairwise_insertionSort Sooner _
  rw [hsplit] at hmem hsorted
  rcases List.mem_append.mp hmem with hfront | hrest
  · exact absurd (List.mem_map_of_mem hfront) hid
  · rcases List.mem_cons.mp hrest with h | h
    · exact (congrArg Prod.fst h).symm.le
    · exact le_of_sooner (List.rel_of_pairwise_cons (List.pairwise_append.mp hsorted).2.1 h)

theorem nodup_due (hq : q.Keyed) : (q.due now max).Nodup := by
  have hnodup : ((q.dueAt now).map Prod.snd).Nodup := by
    have hperm := (List.perm_insertionSort Sooner ((q.entries.filter fun e =>
      e.2.nextAt ≤ now).map fun e => (e.2.nextAt, e.1))).map Prod.snd
    rw [dueAt, hperm.nodup_iff, List.map_map]
    exact hq.sublist (List.filter_sublist.map _)
  rw [due_eq]
  exact hnodup.sublist ((List.take_sublist _ _).map _)

theorem contains_of_mem_due (hq : q.Keyed) (h : id ∈ q.due now max) :
    ∃ entry, q.get id = some entry ∧ entry.nextAt ≤ now := by
  obtain ⟨y, hy, rfl⟩ := List.mem_map.mp h
  obtain ⟨entry, hget, hat, hle⟩ := (mem_dueAt (t := y.1) hq).mp (List.mem_of_mem_take hy)
  exact ⟨entry, hget, hat ▸ hle⟩

end FinalizeQueue

namespace Setup

open FinalizeQueue (Keyed later)

variable {c : Setup} {q : FinalizeQueue} {id x : Text} {now : ℕ} {entry : QueueEntry}
  {replies : Text → Replies} {rows ahead behind : List HistoryRow} {row r : HistoryRow} {loads : ℕ}

/-! ### Attempts -/

/-- What an attempt leaves of an entry. -/
def settle (c : Setup) (now : ℕ) (replies : Text → Replies) (id : Text) (e : QueueEntry) :
    Option QueueEntry :=
  match finalizeOne c.parsers e.record (replies id) with
  | some .done => none
  | some (.drop _) => none
  | _ => some (later now e)

/-- An attempt removes the entry it is for, or puts it off. -/
theorem attempt_of_get (h : q.get x = some entry) : c.attempt now replies q x =
    match c.settle now replies x entry with
    | none => q.remove x
    | some _ => q.backOff x now := by
  rw [attempt, h, settle]
  dsimp only
  generalize finalizeOne c.parsers entry.record (replies x) = o
  rcases o with _ | o
  · rfl
  · cases o <;> rfl

theorem attempt_of_none (h : q.get x = none) : c.attempt now replies q x = q := by
  rw [attempt, h]

theorem settle_eq_later {e : QueueEntry} (h : c.settle now replies id entry = some e) :
    e = later now entry := by
  rw [settle] at h
  generalize finalizeOne c.parsers entry.record (replies id) = o at h
  rcases o with _ | o
  · exact (Option.some.inj h).symm
  · cases o with
    | done => cases h
    | drop reason => cases h
    | notYetDelivered => exact (Option.some.inj h).symm
    | deferred => exact (Option.some.inj h).symm

/-- An attempt removes an entry only when it is done with it. -/
theorem outcome_of_settle (h : c.settle now replies id entry = none) :
    finalizeOne c.parsers entry.record (replies id) = some .done ∨
      ∃ reason, finalizeOne c.parsers entry.record (replies id) = some (.drop reason) := by
  rw [settle] at h
  generalize finalizeOne c.parsers entry.record (replies id) = o at h ⊢
  rcases o with _ | o
  · cases h
  · cases o with
    | done => exact .inl rfl
    | drop reason => exact .inr ⟨reason, rfl⟩
    | notYetDelivered => cases h
    | deferred => cases h

/-- **What one attempt does**: it settles the entry it is for, and leaves the others alone. -/
theorem get_attempt : (c.attempt now replies q x).get id =
    if id = x then (q.get id).bind (c.settle now replies id) else q.get id := by
  rcases hx : q.get x with _ | entry
  · rw [attempt_of_none hx]
    split
    · next h => rw [h, hx, Option.bind_none]
    · rfl
  · rw [attempt_of_get hx]
    rcases hs : c.settle now replies x entry with _ | e
    · rw [FinalizeQueue.get_remove]
      split
      · next h => rw [h, hx, Option.bind_some, hs]
      · rfl
    · rw [FinalizeQueue.get_backOff]
      split
      · next h => rw [h, hx, Option.bind_some, hs, settle_eq_later hs, Option.map_some]
      · rfl

theorem keyed_attempt (hq : q.Keyed) : (c.attempt now replies q x).Keyed := by
  rcases hx : q.get x with _ | entry
  · rwa [attempt_of_none hx]
  · rw [attempt_of_get hx]
    split
    · exact hq.remove
    · exact hq.backOff

theorem get_attempts {xs : List Text} (hxs : xs.Nodup) :
    (xs.foldl (c.attempt now replies) q).get id =
      if id ∈ xs then (q.get id).bind (c.settle now replies id) else q.get id := by
  induction xs generalizing q with
  | nil => rfl
  | cons x xs ih =>
    obtain ⟨hx, hxs⟩ := List.nodup_cons.mp hxs
    rw [List.foldl_cons, ih hxs, get_attempt]
    by_cases hid : id = x
    · subst hid
      rw [if_neg hx, if_pos rfl, if_pos List.mem_cons_self]
    · rw [if_neg hid]
      simp only [List.mem_cons, hid, false_or]

theorem keyed_attempts {xs : List Text} (hq : q.Keyed) :
    (xs.foldl (c.attempt now replies) q).Keyed := by
  induction xs generalizing q with
  | nil => exact hq
  | cons x xs ih => exact ih (keyed_attempt hq)

/-- **What a tick does**: it settles what is due, and leaves the rest alone. -/
theorem get_run (hq : q.Keyed) : (c.run q now replies).get id =
    if id ∈ q.due now PER_TICK then (q.get id).bind (c.settle now replies id) else q.get id :=
  get_attempts (FinalizeQueue.nodup_due hq)

/-! ### Seeds -/

/-- What the seed does with a row that it looks up. -/
def visit (c : Setup) (now : ℕ) (row : HistoryRow) (q : FinalizeQueue) : FinalizeQueue :=
  match routerOf c.parsers row.receiver c.cfg.routers, c.store.load row.submissionId with
  | some router, some (some record) =>
    if (belowMinClaim c.parsers c.cfg record).isNone = true then q.enqueue record router now else q
  | _, _ => q

/-- **One row of the seed**: it is looked up, and costs a load, if it is eligible and not in the
queue. -/
theorem seedRows_cons : c.seedRows now (row :: rows) loads q =
    if SEED_LOADS ≤ loads then q
    else if c.eligible row = true ∧ ¬q.contains row.submissionId = true then
      c.seedRows now rows (loads + 1) (c.visit now row q)
    else c.seedRows now rows loads q := by
  rw [seedRows]
  split
  · rfl
  · by_cases hskip : (row.chainIdTo != c.cfg.chainId || row.status != claimed ||
        q.contains row.submissionId || row.swapIntent.any fun s => s.finalizeTx.isSome) = true
    · rw [if_pos hskip, if_neg]
      rintro ⟨helig, hnew⟩
      simp only [eligible, Bool.and_eq_true, beq_iff_eq, Bool.not_eq_true'] at helig
      simp only [Bool.or_eq_true, bne_iff_ne] at hskip
      rcases hskip with ((h | h) | h) | h
      · exact h helig.1.1.1
      · exact h helig.1.1.2
      · exact hnew h
      · rw [helig.1.2] at h
        cases h
    · rw [if_neg hskip]
      simp only [Bool.or_eq_true, bne_iff_ne, not_or, not_not, Bool.not_eq_true] at hskip
      obtain ⟨⟨⟨hchain, hstatus⟩, hnew⟩, hopen⟩ := hskip
      rcases hrouter : routerOf c.parsers row.receiver c.cfg.routers with _ | router
      · rw [if_neg]
        rintro ⟨helig, -⟩
        simp [eligible, hrouter] at helig
      · rw [if_pos ⟨by simp [eligible, hchain, hstatus, hopen, hrouter], by rw [hnew]; simp⟩]
        rw [visit, hrouter]
        rcases c.store.load row.submissionId with _ | _ | record
        · rfl
        · rfl
        · dsimp only
          split <;> rfl

/-- Looking a row up puts its record into the queue, or does nothing. -/
theorem visit_cases (c : Setup) (now : ℕ) (row : HistoryRow) (q : FinalizeQueue) :
    c.visit now row q = q ∨ ∃ record router,
      c.store.load row.submissionId = some (some record) ∧
        c.visit now row q = q.enqueue record router now := by
  rw [visit]
  split
  · next router record _ hload =>
    split
    · exact .inr ⟨record, router, hload, rfl⟩
    · exact .inl rfl
  · exact .inl rfl

/-- **What every lookup keeps, a seed keeps.** -/
theorem seedRows_induction {P : FinalizeQueue → Prop} (h : P q)
    (hstep : ∀ row ∈ rows, ∀ q, P q → P (c.visit now row q)) : P (c.seedRows now rows loads q) := by
  induction rows generalizing loads q with
  | nil => exact h
  | cons row rows ih =>
    have hrest : ∀ row ∈ rows, ∀ q, P q → P (c.visit now row q) :=
      fun row' hrow => hstep row' (List.mem_cons_of_mem _ hrow)
    rw [seedRows_cons]
    split
    · exact h
    · split
      · exact ih (hstep row List.mem_cons_self q h) hrest
      · exact ih h hrest

theorem get_visit (h : q.get id = some entry) : (c.visit now row q).get id = some entry := by
  rcases visit_cases c now row q with heq | ⟨_, _, -, heq⟩
  · rwa [heq]
  · rw [heq]
    exact FinalizeQueue.get_enqueue h

theorem get_seedRows (h : q.get id = some entry) :
    (c.seedRows now rows loads q).get id = some entry :=
  seedRows_induction (P := fun q => q.get id = some entry) h fun _ _ _ => get_visit

theorem keyed_seedRows (hq : q.Keyed) : (c.seedRows now rows loads q).Keyed := by
  refine seedRows_induction hq ?_
  intro row _ q hq
  rcases visit_cases c now row q with heq | ⟨_, _, -, heq⟩
  · rwa [heq]
  · rw [heq]
    exact hq.enqueue

/-- What a seed brings in is the record of the row it looked up, due at once. -/
theorem get_visit_cases (h : (c.visit now row q).get id = some entry) : q.get id = some entry ∨
    c.store.load row.submissionId = some (some entry.record) ∧ id = entry.record.submissionId ∧
      entry.nextAt = now := by
  rcases visit_cases c now row q with heq | ⟨record, router, hload, heq⟩
  · exact .inl (heq ▸ h)
  · rw [heq] at h
    rcases FinalizeQueue.get_enqueue_cases h with h | ⟨rfl, rfl⟩
    · exact .inl h
    · exact .inr ⟨hload, rfl, rfl⟩

theorem get_seedRows_cases (h : (c.seedRows now rows loads q).get id = some entry) :
    q.get id = some entry ∨ entry.nextAt = now := by
  refine seedRows_induction
    (P := fun q' => q'.get id = some entry → q.get id = some entry ∨ entry.nextAt = now)
    Or.inl ?_ h
  intro row _ q' hq' h
  rcases get_visit_cases h with h | ⟨-, -, hat⟩
  · exact hq' h
  · exact .inr hat

theorem keyed_seed (hq : q.Keyed) : (c.seed q now).Keyed := by
  have hq' : ({ q with seededAt := some now } : FinalizeQueue).Keyed := hq
  rw [seed]
  split
  · exact hq'
  · split
    · exact hq'
    · exact keyed_seedRows hq'

theorem get_seed (h : q.get id = some entry) : (c.seed q now).get id = some entry := by
  have h' : ({ q with seededAt := some now } : FinalizeQueue).get id = some entry := h
  rw [seed]
  split
  · exact h'
  · split
    · exact h'
    · exact get_seedRows h'

theorem get_seed_cases (h : (c.seed q now).get id = some entry) :
    q.get id = some entry ∨ entry.nextAt = now := by
  rw [seed] at h
  split at h
  · exact .inl h
  · split at h
    · exact .inl h
    · have hcases := get_seedRows_cases h
      exact hcases

/-! ### Steps -/

variable {s s' : FinalizeState} {a : FinalizeEvent} {o : Unit}

theorem exec_cases (h : c.exec s a = some (s', o)) :
    s.clock ≤ a.now ∧ c.next s.queue a = some s'.queue ∧ s'.clock = a.now := by
  rw [exec] at h
  split at h
  · next hclock =>
    obtain ⟨q, hq, heq⟩ := Option.map_eq_some_iff.mp h
    obtain rfl := (Prod.mk.inj heq).1
    exact ⟨hclock, hq, rfl⟩
  · cases h

theorem next_seed {q' : FinalizeQueue} (h : c.next q (.seed now) = some q') :
    q.seedDue now = true ∧ q' = c.seed q now := by
  rw [next] at h
  split at h
  · next hdue => exact ⟨hdue, (Option.some.inj h).symm⟩
  · cases h

theorem keyed_exec (hq : s.queue.Keyed) (h : c.exec s a = some (s', o)) : s'.queue.Keyed := by
  obtain ⟨-, hnext, -⟩ := exec_cases h
  cases a with
  | enqueue now record router =>
    rw [← Option.some.inj hnext]
    exact hq.enqueue
  | seed now =>
    rw [(next_seed hnext).2]
    exact keyed_seed hq
  | run now replies =>
    rw [← Option.some.inj hnext]
    exact keyed_attempts hq

end Setup

/-- A step of a run. -/
abbrev FinalizeStep := Entry FinalizeState FinalizeEvent Unit

/-- The step attempts the delivery. -/
def Attempts (id : Text) (e : FinalizeStep) : Prop :=
  ∃ now replies, e.label = .run now replies ∧ id ∈ e.pre.queue.due now PER_TICK

/-- The step brings the delivery in. -/
def Enters (id : Text) (e : FinalizeStep) : Prop :=
  ¬e.pre.queue.contains id = true ∧ e.post.queue.contains id = true

/-- A seed. -/
def FinalizeEvent.isSeed : FinalizeEvent → Bool
  | .seed _ => true
  | _ => false

/-- How many seeds there were. -/
def seeds (tr : List FinalizeStep) : ℕ := tr.countP fun e => e.label.isSeed

theorem seeds_append (tr₁ tr₂ : List FinalizeStep) :
    seeds (tr₁ ++ tr₂) = seeds tr₁ + seeds tr₂ :=
  List.countP_append

/-- An empty queue that was never seeded. -/
def start : FinalizeState := ⟨.empty, 0⟩

namespace Setup

variable {c : Setup} {id : Text} {entry : QueueEntry} {e : FinalizeStep}

theorem stays_of_exec (hq : e.pre.queue.Keyed) (h : c.exec e.pre e.label = some (e.post, e.out))
    (hnot : ¬Attempts id e) (hget : e.pre.queue.get id = some entry) :
    e.post.queue.get id = some entry := by
  obtain ⟨-, hnext, -⟩ := exec_cases h
  cases ha : e.label with
  | enqueue now record router =>
    rw [ha] at hnext
    rw [← Option.some.inj hnext]
    exact FinalizeQueue.get_enqueue hget
  | seed now =>
    rw [ha] at hnext
    rw [(next_seed hnext).2]
    exact get_seed hget
  | run now replies =>
    rw [ha] at hnext
    rw [← Option.some.inj hnext, get_run hq, if_neg fun hmem => hnot ⟨now, replies, ha, hmem⟩]
    exact hget

theorem enters_of_exec (hq : e.pre.queue.Keyed) (h : c.exec e.pre e.label = some (e.post, e.out))
    (hnone : e.pre.queue.get id = none) (hget : e.post.queue.get id = some entry) :
    entry.nextAt = e.label.now := by
  obtain ⟨-, hnext, -⟩ := exec_cases h
  cases ha : e.label with
  | enqueue now record router =>
    rw [ha] at hnext
    rw [← Option.some.inj hnext] at hget
    rcases FinalizeQueue.get_enqueue_cases hget with hold | ⟨-, rfl⟩
    · rw [hnone] at hold
      cases hold
    · rfl
  | seed now =>
    rw [ha] at hnext
    rw [(next_seed hnext).2] at hget
    rcases get_seed_cases hget with hold | hat
    · rw [hnone] at hold
      cases hold
    · exact hat
  | run now replies =>
    rw [ha] at hnext
    rw [← Option.some.inj hnext, get_run hq, hnone, Option.bind_none] at hget
    split at hget <;> cases hget

theorem attempts_of_exec {now : ℕ} {replies : Text → Replies} (hq : e.pre.queue.Keyed)
    (h : c.exec e.pre e.label = some (e.post, e.out)) (ha : e.label = .run now replies)
    (hmem : id ∈ e.pre.queue.due now PER_TICK) :
    e.post.queue.get id = (e.pre.queue.get id).bind (c.settle now replies id) := by
  obtain ⟨-, hnext, -⟩ := exec_cases h
  rw [ha] at hnext
  rw [← Option.some.inj hnext, get_run hq, if_pos hmem]

end Setup

end Keeper

end SelendraBridge
