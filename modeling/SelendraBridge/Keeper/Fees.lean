import Mathlib.Tactic.Linarith
import SelendraBridge.Basic
import SelendraBridge.Lib.Transition

/-!
# The fee ladder

A transaction that stays in the pool past its receipt window is sent again at its own nonce,
for more (`SelendraBridge.Keeper.maybeReplace`). Three bounds meet in the new fees
(`SelendraBridge.Keeper.bumpedFee`):

* at least an eighth and one more than before, which is over the tenth that a node asks for;
* the network's estimate, if that is more;
* at most a multiple of what the first broadcast paid, and no replacement at all if the first
  bound is over that.

Fees are 128-bit words and the sums saturate. The multiple saturates too, and then the last
bound gives way: at the top of the range the raised fee is the fee that was
(`SelendraBridge.Keeper.flat_at_the_top`). Below, every step of the ladder is a raise
(`SelendraBridge.Keeper.ladder_valid_iff`).
-/

namespace SelendraBridge

namespace Keeper

open Transition

/-! ### Words of 128 bits that saturate -/

/-- A fee for each gas, in wei: a `u128`. -/
abbrev Fee := BitVec 128

/-- `u128::MAX`. -/
def u128Max : ℕ := 340282366920938463463374607431768211455

/-- The fee closest to a number. -/
def saturate (n : ℕ) : Fee := BitVec.ofNat 128 (min n u128Max)

/-- `u128::saturating_add`. -/
def saturatingAdd (a b : Fee) : Fee := saturate (a.toNat + b.toNat)

/-- `u128::saturating_mul`. -/
def saturatingMul (a b : Fee) : Fee := saturate (a.toNat * b.toNat)

/-- `Ord::min`. -/
def feeMin (a b : Fee) : Fee := if a ≤ b then a else b

/-- `Ord::max`. -/
def feeMax (a b : Fee) : Fee := if a ≤ b then b else a

@[simp] theorem toNat_saturate (n : ℕ) : (saturate n).toNat = min n u128Max := by
  rw [saturate, BitVec.toNat_ofNat, Nat.mod_eq_of_lt]
  exact lt_of_le_of_lt (min_le_right _ _) (by decide)

@[simp] theorem toNat_saturatingAdd (a b : Fee) :
    (saturatingAdd a b).toNat = min (a.toNat + b.toNat) u128Max := toNat_saturate _

@[simp] theorem toNat_saturatingMul (a b : Fee) :
    (saturatingMul a b).toNat = min (a.toNat * b.toNat) u128Max := toNat_saturate _

@[simp] theorem toNat_feeMin (a b : Fee) : (feeMin a b).toNat = min a.toNat b.toNat := by
  rw [feeMin, apply_ite BitVec.toNat]
  rfl

@[simp] theorem toNat_feeMax (a b : Fee) : (feeMax a b).toNat = max a.toNat b.toNat := by
  rw [feeMax, apply_ite BitVec.toNat]
  rfl

/-- No fee is over the top of the range. -/
theorem toNat_le_u128Max (a : Fee) : a.toNat ≤ u128Max := Nat.le_of_lt_succ a.isLt

/-! ### Requests -/

/-- A transaction request of the keeper, with every field that the fillers fill. -/
structure TransactionRequest where
  /-- `from`. -/
  sender : Option Address
  /-- `to`. -/
  target : Option Address
  nonce : Option U64
  gas : Option U64
  value : Option U256
  input : Bytes
  maxFeePerGas : Option Fee
  maxPriorityFeePerGas : Option Fee
  gasPrice : Option Fee
  deriving DecidableEq

/-- `Eip1559Estimation`. -/
structure Eip1559Estimation where
  maxFeePerGas : Fee
  maxPriorityFeePerGas : Fee
  deriving DecidableEq

def FEE_BUMP_DIVISOR : Fee := 8

def MAX_FEE_BUMPS : ℕ := 5

def MAX_FEE_MULTIPLE : Fee := 4

/-- In nanoseconds. -/
def RECEIPT_TIMEOUT : ℕ := 120000000000

/-- `bumped_fee`: the smallest fee a replacement may carry, raised to the estimate and
clamped to the ceiling. -/
def bumpedFee (current : Fee) (estimate : Option Fee) (ceiling : Fee) : Option Fee :=
  let least := saturatingAdd (saturatingAdd current (current / FEE_BUMP_DIVISOR)) 1
  if least > ceiling then none
  else some (feeMin (estimate.elim least fun e => feeMax e least) ceiling)

/-- `reprice`: the same request with only its fees raised. -/
def reprice (tx : TransactionRequest) (estimate : Option Eip1559Estimation)
    (gasPriceEstimate : Option Fee) (ceiling : Fee) : Option TransactionRequest :=
  match tx.maxFeePerGas, tx.maxPriorityFeePerGas with
  | some maxFee, some tip => do
    let newMax ← bumpedFee maxFee (estimate.map Eip1559Estimation.maxFeePerGas) ceiling
    let newTip ← bumpedFee tip (estimate.map Eip1559Estimation.maxPriorityFeePerGas) ceiling
    return { tx with
      maxFeePerGas := some newMax
      maxPriorityFeePerGas := some (feeMin newTip newMax) }
  | _, _ => do
    let gasPrice ← tx.gasPrice
    let newPrice ← bumpedFee gasPrice gasPriceEstimate ceiling
    return { tx with gasPrice := some newPrice }

/-- `fee_cap`: what a request pays at most for each gas. -/
def feeCap (tx : TransactionRequest) : Fee := (tx.maxFeePerGas <|> tx.gasPrice).getD 0

/-! ### What is in flight -/

/-- The hash of a transaction. -/
abbrev TxHash := Bytes32

/-- One nonce's worth of submission: the request as last broadcast, and every hash that went
out at its nonce. Times are nanoseconds. -/
structure InFlight where
  tx : TransactionRequest
  /-- Oldest first. -/
  hashes : List TxHash
  bumps : ℕ
  lastSent : ℕ
  ceiling : Fee
  deriving DecidableEq

/-- `InFlight::new`. -/
def InFlight.new (tx : TransactionRequest) (hash : TxHash) (sentAt : ℕ) : InFlight where
  tx
  hashes := [hash]
  bumps := 0
  lastSent := sentAt
  ceiling := saturatingMul (feeCap tx) MAX_FEE_MULTIPLE

/-- What the node answers while an entry is looked at; `none` is an error. -/
structure NodeReplies where
  /-- The account's next nonce to mine. -/
  latest : Option U64
  estimate : Option Eip1559Estimation
  gasPrice : Option Fee
  /-- The hash of the replacement. -/
  sent : Option TxHash
  deriving DecidableEq

variable (replies : NodeReplies) (now later : ℕ) (f : InFlight)

/-- What the request of an entry is repriced to, with the estimates that are asked for. -/
def repriced : Option TransactionRequest :=
  let estimate := if f.tx.maxFeePerGas.isSome then replies.estimate else none
  let gasPrice := if f.tx.gasPrice.isSome then replies.gasPrice else none
  reprice f.tx estimate gasPrice f.ceiling

/-- The second half of `maybe_replace`: the attempt is counted at `later`, and made if the
fees can be raised. -/
def replaceAt : InFlight × Option TransactionRequest :=
  match repriced replies f with
  | none => ({ f with bumps := MAX_FEE_BUMPS, lastSent := later }, none)
  | some replacement =>
    match replies.sent with
    | some hash =>
      (⟨replacement, f.hashes ++ [hash], f.bumps + 1, later, f.ceiling⟩, some replacement)
    | none => ({ f with bumps := f.bumps + 1, lastSent := later }, some replacement)

/-- **`maybe_replace`**, with the request that is broadcast, if one is. The clock is read at
`now` and, past the reads of the node, at `later`. -/
def maybeReplace : InFlight × Option TransactionRequest :=
  if now - f.lastSent < RECEIPT_TIMEOUT then (f, none)
  else
    match f.tx.sender, f.tx.nonce with
    | some _, some nonce =>
      if f.bumps ≥ MAX_FEE_BUMPS then ({ f with lastSent := later }, none)
      else
        match replies.latest with
        | some next => if next = nonce then replaceAt replies later f else (f, none)
        | none => (f, none)
    | _, _ => (f, none)

/-! ### What one attempt does -/

variable {replies now later f}

/-- **What a bump gives**: the least raise or more, and no more than the ceiling. -/
theorem bumpedFee_eq_some {current ceiling b : Fee} {estimate : Option Fee}
    (h : bumpedFee current estimate ceiling = some b) :
    min (current.toNat + current.toNat / 8 + 1) u128Max ≤ b.toNat ∧ b.toNat ≤ ceiling.toNat := by
  have heighth : (current / FEE_BUMP_DIVISOR).toNat = current.toNat / 8 := BitVec.toNat_udiv
  have hone : (1 : Fee).toNat = 1 := rfl
  rw [bumpedFee] at h
  split at h
  · exact absurd h (by simp)
  · next hle =>
    have hle := BitVec.le_def.mp (BitVec.not_lt.mp hle)
    have hb := congrArg BitVec.toNat (Option.some.inj h)
    simp only [toNat_saturatingAdd, heighth, hone] at hle
    rw [toNat_feeMin] at hb
    rcases estimate with _ | e
    · simp only [Option.elim_none, toNat_saturatingAdd, heighth, hone] at hb
      omega
    · simp only [Option.elim_some, toNat_feeMax, toNat_saturatingAdd, heighth, hone] at hb
      omega

/-- At the top of the range no bump is refused. -/
theorem isSome_bumpedFee {ceiling : Fee} (h : ceiling.toNat = u128Max) (current : Fee)
    (estimate : Option Fee) : (bumpedFee current estimate ceiling).isSome = true := by
  rw [bumpedFee, if_neg]
  · rfl
  · rw [BitVec.not_lt, BitVec.le_def, h]
    exact toNat_le_u128Max _

/-- One fee field of a request and of its replacement: raised by more than a tenth, or in
neither. -/
def Raised : Option Fee → Option Fee → Prop
  | none, none => True
  | some old, some new => 11 * old.toNat < 10 * new.toNat
  | _, _ => False

/-- **A bump below the top is a raise.** -/
theorem raised_of_bumpedFee {current ceiling b : Fee} {estimate : Option Fee}
    (h : bumpedFee current estimate ceiling = some b)
    (hcurrent : ceiling.toNat = u128Max → 11 * current.toNat < 10 * u128Max) :
    11 * current.toNat < 10 * b.toNat := by
  obtain ⟨hleast, hceiling⟩ := bumpedFee_eq_some h
  have hmax := toNat_le_u128Max ceiling
  rcases Nat.lt_or_ge (current.toNat + current.toNat / 8 + 1) u128Max with hlt | hge
  · omega
  · -- The sum saturates, so the ceiling is the top of the range.
    have htop := hcurrent (by omega)
    omega

/-- A request as the keeper fills it: with the two fees of a dynamic one, the tip within the
cap, or with the one of a legacy one. -/
inductive Populated (tx : TransactionRequest) : Prop
  | dynamic {maxFee tip : Fee} : tx.maxFeePerGas = some maxFee →
      tx.maxPriorityFeePerGas = some tip → tip ≤ maxFee → tx.gasPrice = none → Populated tx
  | legacy {gasPrice : Fee} : tx.maxFeePerGas = none → tx.maxPriorityFeePerGas = none →
      tx.gasPrice = some gasPrice → Populated tx

/-- The fees of a request. -/
def TransactionRequest.fees (tx : TransactionRequest) : List Fee :=
  tx.maxFeePerGas.toList ++ tx.maxPriorityFeePerGas.toList ++ tx.gasPrice.toList

/-- What a request says besides its fees. -/
def TransactionRequest.withoutFees (tx : TransactionRequest) : TransactionRequest :=
  { tx with maxFeePerGas := none, maxPriorityFeePerGas := none, gasPrice := none }

/-- **A valid replacement**: the same but for the fees, each raised by more than a tenth, the
tip within the cap, and none over a limit. -/
structure Replaces (tx next : TransactionRequest) (limit : ℕ) : Prop where
  same : next.withoutFees = tx.withoutFees
  maxFee : Raised tx.maxFeePerGas next.maxFeePerGas
  tip : Raised tx.maxPriorityFeePerGas next.maxPriorityFeePerGas
  gasPrice : Raised tx.gasPrice next.gasPrice
  ordered : ∀ m t, next.maxFeePerGas = some m → next.maxPriorityFeePerGas = some t → t ≤ m
  bounded : ∀ fee ∈ next.fees, fee.toNat ≤ limit

section Reprice

variable {tx next : TransactionRequest} {estimate : Option Eip1559Estimation}
  {gasPriceEstimate : Option Fee} {ceiling : Fee}

/-- What is populated stays so, whatever the fees are. -/
theorem Populated.reprice (hpop : Populated tx)
    (h : reprice tx estimate gasPriceEstimate ceiling = some next) : Populated next := by
  cases hpop with
  | dynamic hmax htip _ hnone =>
    simp only [Keeper.reprice, hmax, htip, Option.bind_eq_bind, Option.bind_eq_some_iff,
      Option.pure_def, Option.some.injEq] at h
    obtain ⟨newMax, -, newTip, -, rfl⟩ := h
    refine .dynamic rfl rfl ?_ hnone
    rw [BitVec.le_def, toNat_feeMin]
    exact min_le_right _ _
  | legacy hmax htip hprice =>
    simp only [Keeper.reprice, hmax, hprice, Option.bind_eq_bind, Option.bind_some,
      Option.bind_eq_some_iff, Option.pure_def, Option.some.injEq] at h
    obtain ⟨newPrice, -, rfl⟩ := h
    exact .legacy rfl htip rfl

/-- **A request that is repriced below the top is validly replaced.** -/
theorem replaces_of_reprice (hpop : Populated tx)
    (h : reprice tx estimate gasPriceEstimate ceiling = some next)
    (hcap : ceiling.toNat = u128Max → 11 * (feeCap tx).toNat < 10 * u128Max) :
    Replaces tx next ceiling.toNat := by
  cases hpop with
  | @dynamic maxFee tip hmax htip hle hnone =>
    simp only [Keeper.reprice, hmax, htip, Option.bind_eq_bind, Option.bind_eq_some_iff,
      Option.pure_def, Option.some.injEq] at h
    obtain ⟨newMax, hnewMax, newTip, hnewTip, rfl⟩ := h
    have hcap' : ceiling.toNat = u128Max → 11 * maxFee.toNat < 10 * u128Max := by
      simpa [feeCap, hmax] using hcap
    have hle := BitVec.le_def.mp hle
    have hraisedMax := raised_of_bumpedFee hnewMax hcap'
    have hraisedTip := raised_of_bumpedFee hnewTip fun htop => by
      have := hcap' htop
      omega
    have hmaxLe := (bumpedFee_eq_some hnewMax).2
    refine ⟨rfl, ?_, ?_, ?_, ?_, ?_⟩
    · rw [hmax]
      exact hraisedMax
    · -- What the cap takes from the tip leaves it over the old tip's own tenth.
      rw [htip, Raised, toNat_feeMin]
      omega
    · rw [hnone]
      trivial
    · rintro m t hm ht
      rw [← Option.some.inj hm, ← Option.some.inj ht, BitVec.le_def, toNat_feeMin]
      exact min_le_right _ _
    · intro fee hfee
      simp only [TransactionRequest.fees, hnone, Option.toList_some, Option.toList_none,
        List.append_nil, List.cons_append, List.nil_append, List.mem_cons, List.not_mem_nil,
        or_false] at hfee
      rcases hfee with rfl | rfl
      · exact hmaxLe
      · rw [toNat_feeMin]
        exact (min_le_right _ _).trans hmaxLe
  | @legacy price hmax htip hprice =>
    simp only [Keeper.reprice, hmax, hprice, Option.bind_eq_bind, Option.bind_some,
      Option.bind_eq_some_iff, Option.pure_def, Option.some.injEq] at h
    obtain ⟨newPrice, hnewPrice, rfl⟩ := h
    have hcap' : ceiling.toNat = u128Max → 11 * price.toNat < 10 * u128Max := by
      simpa [feeCap, hmax, hprice] using hcap
    refine ⟨rfl, ?_, ?_, ?_, ?_, ?_⟩
    · rw [hmax]
      trivial
    · rw [htip]
      trivial
    · rw [hprice]
      exact raised_of_bumpedFee hnewPrice hcap'
    · rintro m t hm -
      exact absurd hm (by simp)
    · intro fee hfee
      simp only [TransactionRequest.fees, htip, Option.toList_some, Option.toList_none,
        List.append_nil, List.nil_append, List.mem_singleton] at hfee
      rw [hfee]
      exact (bumpedFee_eq_some hnewPrice).2

/-- With the ceiling at the top, no populated request is refused. -/
theorem isSome_reprice (hpop : Populated tx) (htop : ceiling.toNat = u128Max) :
    (reprice tx estimate gasPriceEstimate ceiling).isSome = true := by
  cases hpop with
  | @dynamic maxFee tip hmax htip _ _ =>
    obtain ⟨m, hm⟩ := Option.isSome_iff_exists.mp (isSome_bumpedFee htop maxFee
      (estimate.map Eip1559Estimation.maxFeePerGas))
    obtain ⟨t, ht⟩ := Option.isSome_iff_exists.mp (isSome_bumpedFee htop tip
      (estimate.map Eip1559Estimation.maxPriorityFeePerGas))
    simp [Keeper.reprice, hmax, htip, hm, ht]
  | @legacy price hmax _ hprice =>
    obtain ⟨p, hp⟩ := Option.isSome_iff_exists.mp (isSome_bumpedFee htop price gasPriceEstimate)
    simp [Keeper.reprice, hmax, hprice, hp]

/-- **At the top no replacement is a raise.** -/
theorem not_raised_at_top (hpop : Populated tx) {limit : ℕ}
    (htop : 10 * u128Max ≤ 11 * (feeCap tx).toNat) : ¬Replaces tx next limit := by
  rintro hvalid
  cases hpop with
  | @dynamic maxFee tip hmax _ _ _ =>
    have hraised := hvalid.maxFee
    rw [feeCap, hmax] at htop
    rw [hmax] at hraised
    rcases hnext : next.maxFeePerGas with _ | m <;> rw [hnext] at hraised
    · exact hraised
    · have hm := toNat_le_u128Max m
      have hlt : 11 * maxFee.toNat < 10 * m.toNat := hraised
      have hge : 10 * u128Max ≤ 11 * maxFee.toNat := htop
      omega
  | @legacy price hmax _ hprice =>
    have hraised := hvalid.gasPrice
    rw [feeCap, hmax, hprice] at htop
    rw [hprice] at hraised
    rcases hnext : next.gasPrice with _ | p <;> rw [hnext] at hraised
    · exact hraised
    · have hp := toNat_le_u128Max p
      have hlt : 11 * price.toNat < 10 * p.toNat := hraised
      have hge : 10 * u128Max ≤ 11 * price.toNat := htop
      omega

end Reprice

/-! ### The ladder -/

/-- One call of `maybe_replace`. -/
structure Attempt where
  replies : NodeReplies
  now : ℕ
  later : ℕ
  deriving DecidableEq

/-- A replacement is due: a full window has passed, there are attempts left, and the nonce is
the next to mine. -/
def Due (f : InFlight) (a : Attempt) : Prop :=
  RECEIPT_TIMEOUT ≤ a.now - f.lastSent ∧ f.tx.sender.isSome = true ∧ f.bumps < MAX_FEE_BUMPS ∧
    ∃ nonce, f.tx.nonce = some nonce ∧ a.replies.latest = some nonce

/-- **What an attempt does**, case by case. -/
inductive Attempted (f : InFlight) (a : Attempt) : InFlight → Option TransactionRequest → Prop
  /-- None is due; the window may start again. -/
  | waits {lastSent : ℕ} (due : ¬Due f a) (since : f.lastSent ≤ lastSent)
      (clock : lastSent ≤ a.later) : Attempted f a { f with lastSent } none
  /-- The ceiling forbids it, and there will be no other. -/
  | refuses (due : Due f a) (refused : repriced a.replies f = none) :
      Attempted f a { f with bumps := MAX_FEE_BUMPS, lastSent := a.later } none
  /-- A replacement goes out, and its hash comes back. -/
  | sends {next : TransactionRequest} {hash : TxHash} (due : Due f a)
      (offered : repriced a.replies f = some next) (sent : a.replies.sent = some hash) :
      Attempted f a ⟨next, f.hashes ++ [hash], f.bumps + 1, a.later, f.ceiling⟩ (some next)
  /-- A replacement goes out, and nothing comes back. -/
  | unanswered {next : TransactionRequest} (due : Due f a)
      (offered : repriced a.replies f = some next) (sent : a.replies.sent = none) :
      Attempted f a { f with bumps := f.bumps + 1, lastSent := a.later } (some next)

theorem attempted_of_maybeReplace (f : InFlight) {a : Attempt} (hclock : f.lastSent ≤ a.later) :
    Attempted f a (maybeReplace a.replies a.now a.later f).1
      (maybeReplace a.replies a.now a.later f).2 := by
  have hwaits : ¬Due f a → Attempted f a f none := fun h => .waits h le_rfl hclock
  unfold maybeReplace
  split
  · next hlt => exact hwaits fun hdue => absurd hdue.1 (by omega)
  · next hge =>
    split
    · next sender nonce hsender hnonce =>
      split
      · next hbumps => exact .waits (fun hdue => absurd hdue.2.2.1 (by omega)) hclock le_rfl
      · next hbumps =>
        split
        · next latest hlatest =>
          split
          · next heq =>
            have hdue : Due f a := ⟨by omega, by rw [hsender]; rfl, by omega, nonce, hnonce,
              heq ▸ hlatest⟩
            unfold replaceAt
            rcases hre : repriced a.replies f with _ | next
            · exact .refuses hdue hre
            · rcases hsent : a.replies.sent with _ | hash
              · exact .unanswered hdue hre hsent
              · exact .sends hdue hre hsent
          · next hne =>
            refine hwaits fun hdue => ?_
            obtain ⟨n, hn, hl⟩ := hdue.2.2.2
            rw [hnonce] at hn
            rw [hlatest] at hl
            exact hne ((Option.some.inj hl).trans (Option.some.inj hn).symm)
        · next hlatest =>
          refine hwaits fun hdue => ?_
          obtain ⟨n, -, hl⟩ := hdue.2.2.2
          exact absurd (hlatest.symm.trans hl) (by simp)
    · next hnone =>
      refine hwaits fun hdue => ?_
      obtain ⟨-, hs, -, n, hn, -⟩ := hdue
      obtain ⟨sender, hs⟩ := Option.isSome_iff_exists.mp hs
      exact hnone sender n hs hn

/-- An entry, and the last time the clock was read. -/
structure LadderState where
  entry : InFlight
  clock : ℕ
  deriving DecidableEq

/-- **One attempt after the other**, on a clock that does not go back. -/
def climb (s : LadderState) (a : Attempt) :
    Option (LadderState × Option TransactionRequest) :=
  if a.now < s.clock ∨ a.later < a.now then none
  else
    let r := maybeReplace a.replies a.now a.later s.entry
    some (⟨r.1, a.later⟩, r.2)

/-- A step of a ladder. -/
abbrev Rung := Entry LadderState Attempt (Option TransactionRequest)

/-- Where a ladder starts: a broadcast whose receipt did not come. -/
def LadderState.start (tx : TransactionRequest) (hash : TxHash) (sentAt : ℕ) : LadderState :=
  ⟨InFlight.new tx hash sentAt, sentAt⟩

/-- An attempt was due and refused. -/
def Rung.Refused (e : Rung) : Prop :=
  Due e.pre.entry e.label ∧ repriced e.label.replies e.pre.entry = none

/-- **The rules of a ladder.** -/
structure LadderRules (tr : List Rung) (limit : ℕ) : Prop where
  /-- Each replacement is valid. -/
  replaces : ∀ e ∈ tr, ∀ next, e.out = some next → Replaces e.pre.entry.tx next limit
  /-- After a refusal there is none. -/
  refused : ∀ before e after, tr = before ++ e :: after → e.Refused → ∀ g ∈ after, g.out = none
  /-- There are only so many. -/
  few : (tr.filter fun e => e.out.isSome).length ≤ MAX_FEE_BUMPS
  /-- No two are within one window. -/
  apart : ∀ before e mid g after, tr = before ++ e :: (mid ++ g :: after) → e.out.isSome = true →
    g.out.isSome = true → e.label.later + RECEIPT_TIMEOUT ≤ g.label.later

section Ladder

variable {tx : TransactionRequest} {hash : TxHash} {sentAt : ℕ} {tr : List Rung}
  {s s' : LadderState} {a : Attempt} {out : Option TransactionRequest}

/-- A step of the ladder is an attempt. -/
theorem attempted_of_climb (hclock : s.entry.lastSent ≤ s.clock)
    (h : climb s a = some (s', out)) :
    Attempted s.entry a s'.entry out ∧ s.clock ≤ a.now ∧ a.now ≤ a.later ∧ s'.clock = a.later := by
  simp only [climb, Option.ite_none_left_eq_some, Option.some.injEq, Prod.mk.injEq] at h
  obtain ⟨hguard, rfl, rfl⟩ := h
  exact ⟨attempted_of_maybeReplace s.entry (by omega), by omega, by omega, rfl⟩

/-- **What every state of a ladder keeps**: the window starts in the past, the attempts are
counted, and the request is populated. -/
structure Sound (tx : TransactionRequest) (s : LadderState) : Prop where
  clock : s.entry.lastSent ≤ s.clock
  bumps : s.entry.bumps ≤ MAX_FEE_BUMPS
  ceiling : s.entry.ceiling = saturatingMul (feeCap tx) MAX_FEE_MULTIPLE
  populated : Populated s.entry.tx

theorem sound_start (hpop : Populated tx) : Sound tx (.start tx hash sentAt) :=
  ⟨le_rfl, Nat.zero_le _, rfl, hpop⟩

theorem Sound.step (h : Sound tx s) (hstep : climb s a = some (s', out)) : Sound tx s' := by
  obtain ⟨hatt, -, -, hclock⟩ := attempted_of_climb h.clock hstep
  rcases s' with ⟨f', clock'⟩
  obtain rfl : clock' = a.later := hclock
  cases hatt with
  | waits _ _ hlater => exact ⟨hlater, h.bumps, h.ceiling, h.populated⟩
  | refuses => exact ⟨le_rfl, le_rfl, h.ceiling, h.populated⟩
  | sends due offered => exact ⟨le_rfl, due.2.2.1, h.ceiling, h.populated.reprice offered⟩
  | unanswered due => exact ⟨le_rfl, due.2.2.1, h.ceiling, h.populated⟩

/-- Every state of a ladder is sound. -/
theorem sound_of_run (hpop : Populated tx) (hrun : Run climb (.start tx hash sentAt) tr s) :
    Sound tx s :=
  hrun.invariant (sound_start hpop) fun _ _ _ _ hs hstep => hs.step hstep

/-- What goes out is what the request is repriced to, when it is due. -/
theorem due_of_out (hclock : s.entry.lastSent ≤ s.clock) {next : TransactionRequest}
    (h : climb s a = some (s', some next)) :
    Due s.entry a ∧ repriced a.replies s.entry = some next := by
  obtain ⟨hatt, -⟩ := attempted_of_climb hclock h
  generalize hout : some next = out at hatt
  generalize s'.entry = f' at hatt
  cases hatt with
  | waits | refuses => exact absurd hout (by simp)
  | sends due offered | unanswered due offered => exact ⟨due, hout ▸ offered⟩

/-- **Each replacement is counted.** -/
theorem few_of_run (hpop : Populated tx) (hrun : Run climb (.start tx hash sentAt) tr s) :
    (tr.filter fun e => e.out.isSome).length ≤ s.entry.bumps := by
  refine hrun.rec_trace (P := fun tr s => (tr.filter fun e => e.out.isSome).length ≤
    s.entry.bumps) (Nat.zero_le _) ?_
  rintro tr s a s' out hrun ih hstep
  have hs := sound_of_run hpop hrun
  obtain ⟨hatt, -⟩ := attempted_of_climb hs.clock hstep
  rw [List.filter_append, List.length_append]
  rcases s' with ⟨f', clock'⟩
  cases hatt with
  | waits => exact ih
  | refuses => exact ih.trans hs.bumps
  | sends | unanswered => exact Nat.add_le_add_right ih 1

/-- **A refusal uses up all attempts.** -/
theorem bumps_of_refused (hpop : Populated tx) (hrun : Run climb (.start tx hash sentAt) tr s) :
    (∃ e ∈ tr, Rung.Refused e) → s.entry.bumps = MAX_FEE_BUMPS := by
  refine hrun.rec_trace (P := fun tr s => (∃ e ∈ tr, Rung.Refused e) →
    s.entry.bumps = MAX_FEE_BUMPS) (fun ⟨e, he, _⟩ => absurd he List.not_mem_nil) ?_
  rintro tr s a s' out hrun ih hstep ⟨e, he, hrefused⟩
  have hs := sound_of_run hpop hrun
  obtain ⟨hatt, -⟩ := attempted_of_climb hs.clock hstep
  rcases s' with ⟨f', clock'⟩
  rcases List.mem_append.mp he with he | he
  · -- It was refused before, so nothing is due.
    have hbumps := ih ⟨e, he, hrefused⟩
    cases hatt with
    | waits => exact hbumps
    | refuses => rfl
    | sends due | unanswered due =>
      have hlt := due.2.2.1
      omega
  · obtain rfl := List.mem_singleton.mp he
    cases hatt with
    | waits due => exact absurd hrefused.1 due
    | refuses => rfl
    | sends due offered | unanswered due offered =>
      exact absurd (hrefused.2.symm.trans offered) (by simp)

/-- **The window starts again with each replacement.** -/
theorem lastSent_of_run (hpop : Populated tx) (hrun : Run climb (.start tx hash sentAt) tr s) :
    ∀ e ∈ tr, e.out.isSome = true → e.label.later ≤ s.entry.lastSent := by
  refine hrun.rec_trace (P := fun tr s => ∀ e ∈ tr, e.out.isSome = true →
    e.label.later ≤ s.entry.lastSent) (fun e he => absurd he List.not_mem_nil) ?_
  rintro tr s a s' out hrun ih hstep e he hout
  have hs := sound_of_run hpop hrun
  obtain ⟨hatt, hnow, hlater, -⟩ := attempted_of_climb hs.clock hstep
  rcases s' with ⟨f', clock'⟩
  rcases List.mem_append.mp he with he | he
  · have hbefore := ih e he hout
    have hclock := hs.clock
    cases hatt with
    | waits _ since _ => exact hbefore.trans since
    | refuses | sends | unanswered =>
      show e.label.later ≤ a.later
      omega
  · obtain rfl := List.mem_singleton.mp he
    cases hatt with
    | waits | refuses => exact absurd hout (by simp)
    | sends | unanswered => exact le_rfl

/-- **The ladder is valid as long as it is not at the top**: the rules hold in a run if and
only if no replacement falls due while the ceiling is the top of the range and the fee cap
within a tenth of it. -/
theorem ladder_valid_iff (hpop : Populated tx)
    (hrun : Run climb (.start tx hash sentAt) tr s) :
    LadderRules tr (4 * (feeCap tx).toNat) ↔
      ∀ e ∈ tr, Due e.pre.entry e.label → e.pre.entry.ceiling.toNat = u128Max →
        11 * (feeCap e.pre.entry.tx).toNat < 10 * u128Max := by
  have hsound : ∀ e ∈ tr, Sound tx e.pre ∧ climb e.pre e.label = some (e.post, e.out) := by
    intro e he
    obtain ⟨before, after, rfl⟩ := List.append_of_mem he
    obtain ⟨hbefore, hstep, -⟩ := hrun.split
    exact ⟨sound_of_run hpop hbefore, hstep⟩
  have hceiling : (saturatingMul (feeCap tx) MAX_FEE_MULTIPLE).toNat ≤ 4 * (feeCap tx).toNat := by
    have hfour : MAX_FEE_MULTIPLE.toNat = 4 := rfl
    rw [toNat_saturatingMul, hfour, Nat.mul_comm]
    exact min_le_left _ _
  constructor
  · intro hrules e he hdue htop
    obtain ⟨hs, hstep⟩ := hsound e he
    -- At the top nothing is refused, so a replacement goes out.
    obtain ⟨next, hnext⟩ := Option.isSome_iff_exists.mp
      (show (repriced e.label.replies e.pre.entry).isSome = true from
        isSome_reprice hs.populated htop)
    have hout : e.out = some next := by
      obtain ⟨hatt, -⟩ := attempted_of_climb hs.clock hstep
      generalize e.post.entry = f' at hatt
      generalize e.out = out at hatt
      cases hatt with
      | waits due => exact absurd hdue due
      | refuses _ refused => exact absurd (refused.symm.trans hnext) (by simp)
      | sends _ offered | unanswered _ offered => exact offered.symm.trans hnext
    by_contra hge
    exact not_raised_at_top hs.populated (not_lt.mp hge) (hrules.replaces e he next hout)
  · intro hcond
    refine ⟨?_, ?_, ?_, ?_⟩
    · intro e he next hout
      obtain ⟨hs, hstep⟩ := hsound e he
      rw [hout] at hstep
      obtain ⟨hdue, hnext⟩ := due_of_out hs.clock hstep
      have hvalid := replaces_of_reprice hs.populated hnext (hcond e he hdue)
      refine ⟨hvalid.same, hvalid.maxFee, hvalid.tip, hvalid.gasPrice, hvalid.ordered, ?_⟩
      intro fee hfee
      exact (hvalid.bounded fee hfee).trans (hs.ceiling ▸ hceiling)
    · rintro before e after rfl hrefused g hg
      obtain ⟨mid, after, rfl⟩ := List.append_of_mem hg
      rw [← List.cons_append, ← List.append_assoc] at hrun
      obtain ⟨hbefore, hstep, -⟩ := hrun.split
      have hbumps := bumps_of_refused hpop hbefore ⟨e, by simp, hrefused⟩
      by_contra hne
      obtain ⟨next, hnext⟩ := Option.ne_none_iff_exists'.mp hne
      rw [hnext] at hstep
      have hlt := (due_of_out (sound_of_run hpop hbefore).clock hstep).1.2.2.1
      omega
    · exact (few_of_run hpop hrun).trans (sound_of_run hpop hrun).bumps
    · rintro before e mid g after rfl hout hout'
      rw [← List.cons_append, ← List.append_assoc] at hrun
      obtain ⟨hbefore, hstep, -⟩ := hrun.split
      have hs := sound_of_run hpop hbefore
      have hlast := lastSent_of_run hpop hbefore e (by simp) hout
      obtain ⟨next, hnext⟩ := Option.isSome_iff_exists.mp hout'
      rw [hnext] at hstep
      obtain ⟨-, hnow, hlater, -⟩ := attempted_of_climb hs.clock hstep
      have hwindow := (due_of_out hs.clock hstep).1.1
      have hpositive : 0 < RECEIPT_TIMEOUT := by decide
      omega

/-- A claim at the head of the queue, for some fees. -/
def claimFor (maxFee tip : Fee) : TransactionRequest where
  sender := some 0xca
  target := some 0xf1
  nonce := some 7
  gas := some 200000
  value := none
  input := [0xde, 0xad]
  maxFeePerGas := some maxFee
  maxPriorityFeePerGas := some tip
  gasPrice := none

/-- An attempt at a time, at a node that holds the claim and estimates nothing. -/
def attemptAt (time : ℕ) : Attempt :=
  ⟨⟨some 7, none, none, some (BitVec.ofNat 256 time)⟩, time, time⟩

/-- Two attempts, a window apart. -/
def twice : List Rung × LadderState :=
  traceOf climb (.start (claimFor 100 10) 1 0) [attemptAt 120000000000, attemptAt 240000000000]

theorem ladder_valid_iff_twice :
    (twice.1.filterMap Entry.out).map feeCap = [113, 128] ∧ LadderRules twice.1 400 := by
  have hsome : (runFrom climb (.start (claimFor 100 10) 1 0)
      [attemptAt 120000000000, attemptAt 240000000000]).isSome = true := by decide
  have hlow : (twice.1.all fun e => decide (e.pre.entry.ceiling.toNat < u128Max)) = true := by
    decide
  refine ⟨by decide, (ladder_valid_iff (.dynamic rfl rfl (by decide) rfl)
    (run_traceOf hsome)).mpr ?_⟩
  intro e he _ htop
  have hlt := of_decide_eq_true (List.all_eq_true.mp hlow e he)
  omega

/-- **At the top of the range a replacement raises nothing**: the sum saturates, and the
ceiling with it. -/
theorem flat_at_the_top : ¬ ∀ (tx : TransactionRequest) (hash : TxHash) (sentAt : ℕ)
    (tr : List Rung) (s : LadderState), Populated tx → Run climb (.start tx hash sentAt) tr s →
    LadderRules tr (4 * (feeCap tx).toNat) := by
  intro h
  set top : Fee := BitVec.ofNat 128 u128Max with htop
  have hstep : climb (.start (claimFor top 0) 1 0) (attemptAt 120000000000) =
      some (⟨⟨claimFor top 1, [1, 120000000000], 1, 120000000000, top⟩, 120000000000⟩,
        some (claimFor top 1)) := by
    rw [htop]
    decide
  have hrules := h _ _ _ _ _ (.dynamic rfl rfl (by rw [htop]; decide) rfl) (Run.nil.snoc hstep)
  have hraised := (hrules.replaces _ (List.mem_singleton_self _) _ rfl).maxFee
  have hlt : 11 * top.toNat < 10 * top.toNat := hraised
  omega

end Ladder

end Keeper

end SelendraBridge
