import Mathlib.Data.List.Forall2
import SelendraBridge.Keeper.Fees
import SelendraBridge.Store.Signatures

/-!
# The memo of what is in flight

A keeper that waited for a receipt in vain does not know what became of its transaction: it may
be mined yet. So it remembers the hash (`SelendraBridge.Keeper.PendingTxs`), asks about it
before it sends another for the same id, and sends none as long as the answer is not that the
first is gone. What it remembers comes from two places only:

* a receipt wait that ends in a timeout leaves the hash it waited for;
* a replacement at the same nonce leaves its hash, if the node answered with one.

A broadcast that the node accepts and does not answer leaves nothing, and neither does a wait
that ends in another error. Such a transaction is in flight and nobody knows, so that the next
tick may queue a second one behind it
(`SelendraBridge.Keeper.second_behind_the_first`). Where every accepted broadcast is answered
and no wait breaks off over a transaction that lives
(`SelendraBridge.Keeper.NothingLost`), no transaction of an id is live when another goes out
(`SelendraBridge.Keeper.no_duplicate`).

The chain is taken at its word: a probe says that a transaction is gone only if it cannot be
mined any more, and shows a receipt only of one that was mined, or says nothing. Everything
else a node answers – nonces, fees, whether a transaction is in the pool – is free.
-/

namespace SelendraBridge

namespace Keeper

open Store Transition

/-! ### The memo -/

/-- What a probe of one transaction found. -/
inductive TxProbe
  | mined (reverted : Bool)
  | inMempool
  | gone
  /-- The node could not be asked. -/
  | unknown
  deriving DecidableEq

/-- What is to be done about a remembered transaction. -/
inductive PendingAction
  | landed
  | wait
  | resubmit
  deriving DecidableEq

/-- `resolve_pending`. -/
def resolvePending : TxProbe → PendingAction
  | .mined false => .landed
  | .mined true | .gone => .resubmit
  | .inMempool | .unknown => .wait

def TxProbe.rank : TxProbe → ℕ
  | .mined _ => 3
  | .inMempool => 2
  | .unknown => 1
  | .gone => 0

/-- The probe of the higher rank, and the earlier of two of one rank. -/
def TxProbe.higher (acc p : TxProbe) : TxProbe := if p.rank > acc.rank then p else acc

/-- `combine_probes`: one verdict for all the hashes of a nonce. -/
def combineProbes (probes : List TxProbe) : TxProbe := probes.foldl TxProbe.higher .gone

/-- What the node answers to the two questions of `probe_tx`: the status of the receipt, if
there is one, and whether it knows the transaction. An error is `none`. -/
structure ProbeReplies where
  receipt : Option (Option Bool)
  byHash : Option Bool
  deriving DecidableEq

/-- `probe_tx`. -/
def probeTx (r : ProbeReplies) : TxProbe :=
  match r.receipt with
  | some (some status) => .mined !status
  | some none =>
    match r.byHash with
    | some true => .inMempool
    | some false => .gone
    | none => .unknown
  | none => .unknown

/-- A submission id, and what is submitted for it. -/
abbrev Key := Text × SigKind

/-- `PendingTxs`: what is remembered for each id and kind. -/
abbrev PendingTxs := Key → Option InFlight

/-- How a submission fails. -/
inductive SubmitError
  | receiptTimeout (hash : TxHash) (tx : TransactionRequest) (sentAt : ℕ)
  | other
  deriving DecidableEq

namespace PendingTxs

variable (m : PendingTxs) (key : Key)

def track (tx : InFlight) : PendingTxs := Function.update m key (some tx)

def clear : PendingTxs := Function.update m key none

/-- `PendingTxs::apply`: a transaction is forgotten unless it is still in flight. -/
def apply (probe : TxProbe) : PendingTxs × PendingAction :=
  let action := resolvePending probe
  (if action ≠ .wait then m.clear key else m, action)

/-- `note_failure`: only a timeout leaves something in flight. -/
def noteFailure : SubmitError → PendingTxs
  | .receiptTimeout hash tx sentAt => m.track key (InFlight.new tx hash sentAt)
  | .other => m

/-- `retain_seen`: what is no longer in the queue is forgotten. -/
def retainSeen (seen : List Text) : PendingTxs := fun key => if key.1 ∈ seen then m key else none

end PendingTxs

/-- How the wait for a receipt ends. -/
inductive Outcome
  | mined (reverted : Bool)
  | timeout
  /-- The watcher failed in another way. -/
  | failed
  deriving DecidableEq

/-- The end of `confirm`. -/
def confirmed (hash : TxHash) (tx : TransactionRequest) (sentAt : ℕ) :
    Outcome → Except SubmitError Unit
  | .mined false => .ok ()
  | .mined true => .error .other
  | .timeout => .error (.receiptTimeout hash tx sentAt)
  | .failed => .error .other

/-! ### The chain -/

/-- What the chain knows of the keeper's transactions: the ones that may still be mined, with
the id each is for, and the ones that were. -/
structure Node where
  live : List (Key × TransactionRequest)
  mined : List (TransactionRequest × Bool)

/-- What becomes of a broadcast. -/
inductive SendReply
  /-- It is accepted, and its hash comes back. -/
  | answered
  /-- It is accepted, and the keeper gets an error. -/
  | lost
  | refused
  deriving DecidableEq

/-- A transaction is accepted if its nonce is not used up. -/
def Node.accept (n : Node) (key : Key) (tx : TransactionRequest) : Option Node :=
  if tx.nonce ∈ n.mined.map fun x => x.1.nonce then none
  else some { n with live := (key, tx) :: n.live }

/-- A broadcast, with what was accepted. -/
def Node.broadcast (n : Node) (key : Key) (tx : TransactionRequest) :
    SendReply → Option (Node × List TransactionRequest)
  | .refused => some (n, [])
  | .answered | .lost => (n.accept key tx).map fun n => (n, [tx])

/-- A live transaction is mined, and its nonce used up. -/
def Node.mine (n : Node) (tx : TransactionRequest) (reverted : Bool) : Option Node :=
  if tx ∈ n.live.map Prod.snd then
    some ⟨n.live.filter fun x => x.2.nonce ≠ tx.nonce, (tx, reverted) :: n.mined⟩
  else none

/-- A transaction is evicted for good. -/
def Node.drop (n : Node) (tx : TransactionRequest) : Node :=
  { n with live := n.live.filter fun x => x.2 ≠ tx }

section Machine

-- The hash of the transaction that a request is signed into.
variable (hashOf : TransactionRequest → TxHash)

/-- **What a probe may say**: a receipt only of what was mined, and that a transaction is unknown
only if it is not live. -/
def Node.tells (n : Node) (hash : TxHash) : TxProbe → Bool
  | .mined reverted => n.mined.any fun x => hashOf x.1 = hash && x.2 = reverted
  | .gone => !n.live.any fun x => hashOf x.2 = hash
  | .inMempool | .unknown => true

/-- How a wait may end: with a receipt of what was mined, or in an error. -/
def Node.ends (n : Node) (hash : TxHash) : Outcome → Bool
  | .mined reverted => n.tells hashOf hash (.mined reverted)
  | .timeout | .failed => true

/-! ### The loop -/

/-- Where a loop is with the submission it looks at. -/
inductive Phase
  | idle
  /-- In `may_submit`, with the hashes still to be probed and what the others gave. -/
  | probing (key : Key) (left : List TxHash) (probes : List TxProbe)
  /-- Before `maybe_replace`. -/
  | repricing (key : Key)
  /-- `may_submit` was true: before the broadcast in `confirm`. -/
  | cleared (key : Key)
  /-- Before the receipt. -/
  | waiting (key : Key) (tx : TransactionRequest) (hash : TxHash) (sentAt : ℕ)
  deriving DecidableEq

/-- A loop of one chain, and the chain. -/
structure LoopState where
  pending : PendingTxs
  phase : Phase
  node : Node

/-- The steps: those of the loop, and those of the chain. -/
inductive Label
  /-- The loop comes to an id. -/
  | visit (key : Key)
  | probe (replies : ProbeReplies)
  | settle
  | replace (a : Attempt) (reply : SendReply)
  /-- The submission ends before its broadcast. -/
  | decline
  | send (tx : TransactionRequest) (reply : SendReply) (sentAt : ℕ)
  | receipt (outcome : Outcome)
  | endTick (seen : List Text)
  | mine (tx : TransactionRequest) (reverted : Bool)
  | drop (tx : TransactionRequest)
  deriving DecidableEq

/-- The hash that comes back from a broadcast. -/
def SendReply.hash? (reply : SendReply) (tx : TransactionRequest) : Option TxHash :=
  if reply = .answered then some (hashOf tx) else none

/-- `maybe_replace` of a remembered transaction. -/
def LoopState.replace (s : LoopState) (key : Key) (f : InFlight) (a : Attempt)
    (reply : SendReply) : Option (LoopState × List TransactionRequest) :=
  match maybeReplace a.replies a.now a.later f with
  | (f', none) =>
    if reply = .refused then some (⟨s.pending.track key f', .idle, s.node⟩, []) else none
  | (f', some tx) =>
    if a.replies.sent = reply.hash? hashOf tx then
      (s.node.broadcast key tx reply).map fun r => (⟨s.pending.track key f', .idle, r.1⟩, r.2)
    else none

/-- **One step**, if it can be taken, with the transactions that were accepted. -/
def tick (s : LoopState) : Label → Option (LoopState × List TransactionRequest)
  | .visit key =>
    match s.phase with
    | .idle =>
      match s.pending key with
      | none => some ({ s with phase := .cleared key }, [])
      | some f => some ({ s with phase := .probing key f.hashes [] }, [])
    | _ => none
  | .probe replies =>
    match s.phase with
    | .probing key (hash :: left) probes =>
      if s.node.tells hashOf hash (probeTx replies) then
        some ({ s with phase := .probing key left (probes ++ [probeTx replies]) }, [])
      else none
    | _ => none
  | .settle =>
    match s.phase with
    | .probing key [] probes =>
      let probe := combineProbes probes
      match s.pending.apply key probe with
      | (pending, .wait) =>
        some (⟨pending, if probe = .inMempool then .repricing key else .idle, s.node⟩, [])
      | (pending, _) => some (⟨pending, .cleared key, s.node⟩, [])
    | _ => none
  | .replace a reply =>
    match s.phase with
    | .repricing key => (s.pending key).bind fun f => s.replace hashOf key f a reply
    | _ => none
  | .decline =>
    match s.phase with
    | .cleared _ => some ({ s with phase := .idle }, [])
    | _ => none
  | .send tx reply sentAt =>
    match s.phase with
    | .cleared key =>
      (s.node.broadcast key tx reply).map fun r =>
        ({ s with
            phase := if reply = .answered then .waiting key tx (hashOf tx) sentAt else .idle
            node := r.1 }, r.2)
    | _ => none
  | .receipt outcome =>
    match s.phase with
    | .waiting key tx hash sentAt =>
      if s.node.ends hashOf hash outcome then
        match confirmed hash tx sentAt outcome with
        | .ok _ => some ({ s with phase := .idle }, [])
        | .error e => some ({ s with pending := s.pending.noteFailure key e, phase := .idle }, [])
      else none
    | _ => none
  | .endTick seen =>
    match s.phase with
    | .idle => some ({ s with pending := s.pending.retainSeen seen }, [])
    | _ => none
  | .mine tx reverted => (s.node.mine tx reverted).map fun n => ({ s with node := n }, [])
  | .drop tx => some ({ s with node := s.node.drop tx }, [])

/-- **The steps, case by case.** -/
inductive Ticked (s : LoopState) : Label → LoopState → List TransactionRequest → Prop
  | unknown {key : Key} (idle : s.phase = .idle) (fresh : s.pending key = none) :
      Ticked s (.visit key) { s with phase := .cleared key } []
  | remembered {key : Key} {f : InFlight} (idle : s.phase = .idle)
      (known : s.pending key = some f) :
      Ticked s (.visit key) { s with phase := .probing key f.hashes [] } []
  | probed {key : Key} {hash : TxHash} {left : List TxHash} {probes : List TxProbe}
      {r : ProbeReplies} (at_ : s.phase = .probing key (hash :: left) probes)
      (told : s.node.tells hashOf hash (probeTx r) = true) :
      Ticked s (.probe r) { s with phase := .probing key left (probes ++ [probeTx r]) } []
  | waits {key : Key} {probes : List TxProbe} {phase : Phase}
      (at_ : s.phase = .probing key [] probes)
      (next : phase = .repricing key ∨ phase = .idle) : Ticked s .settle { s with phase } []
  | settled {key : Key} {probes : List TxProbe} (at_ : s.phase = .probing key [] probes)
      (done : resolvePending (combineProbes probes) ≠ .wait) :
      Ticked s .settle ⟨s.pending.clear key, .cleared key, s.node⟩ []
  | replaced {key : Key} {f : InFlight} {a : Attempt} {reply : SendReply} {s' : LoopState}
      {out : List TransactionRequest} (at_ : s.phase = .repricing key)
      (known : s.pending key = some f) (step : s.replace hashOf key f a reply = some (s', out)) :
      Ticked s (.replace a reply) s' out
  | declined {key : Key} (at_ : s.phase = .cleared key) :
      Ticked s .decline { s with phase := .idle } []
  | sent {key : Key} {tx : TransactionRequest} {reply : SendReply} {sentAt : ℕ} {node : Node}
      {out : List TransactionRequest} (at_ : s.phase = .cleared key)
      (step : s.node.broadcast key tx reply = some (node, out)) :
      Ticked s (.send tx reply sentAt)
        { s with
          phase := if reply = .answered then .waiting key tx (hashOf tx) sentAt else .idle
          node } out
  | confirmed {key : Key} {tx : TransactionRequest} {hash : TxHash} {sentAt : ℕ} {reverted : Bool}
      (at_ : s.phase = .waiting key tx hash sentAt)
      (told : s.node.tells hashOf hash (.mined reverted) = true) :
      Ticked s (.receipt (.mined reverted)) { s with phase := .idle } []
  | timedOut {key : Key} {tx : TransactionRequest} {hash : TxHash} {sentAt : ℕ}
      (at_ : s.phase = .waiting key tx hash sentAt) :
      Ticked s (.receipt .timeout)
        { s with pending := s.pending.track key (InFlight.new tx hash sentAt), phase := .idle } []
  | broken {key : Key} {tx : TransactionRequest} {hash : TxHash} {sentAt : ℕ}
      (at_ : s.phase = .waiting key tx hash sentAt) :
      Ticked s (.receipt .failed) { s with phase := .idle } []
  | ended {seen : List Text} (idle : s.phase = .idle) :
      Ticked s (.endTick seen) { s with pending := s.pending.retainSeen seen, phase := .idle } []
  | mined {tx : TransactionRequest} {reverted : Bool} {node : Node}
      (step : s.node.mine tx reverted = some node) :
      Ticked s (.mine tx reverted) { s with node } []
  | dropped {tx : TransactionRequest} : Ticked s (.drop tx) { s with node := s.node.drop tx } []

variable {hashOf} {s s' : LoopState} {l : Label} {out : List TransactionRequest}

theorem ticked_of_settle {key : Key} {probes : List TxProbe}
    (hphase : s.phase = .probing key [] probes) (h : tick hashOf s .settle = some (s', out)) :
    Ticked hashOf s .settle s' out := by
  simp only [tick, hphase, PendingTxs.apply] at h
  split at h
  · next pending heq =>
    obtain ⟨hpending, hwait⟩ := Prod.mk.inj heq
    rw [if_neg (by rw [hwait]; simp)] at hpending
    obtain ⟨rfl, rfl⟩ := Prod.mk.inj (Option.some.inj h)
    subst hpending
    refine .waits hphase ?_
    split
    · exact .inl rfl
    · exact .inr rfl
  · next pending action hnot heq =>
    obtain ⟨hpending, haction⟩ := Prod.mk.inj heq
    have hdone : resolvePending (combineProbes probes) ≠ .wait :=
      fun hwait => hnot (haction.symm.trans hwait)
    rw [if_pos hdone] at hpending
    obtain ⟨rfl, rfl⟩ := Prod.mk.inj (Option.some.inj h)
    subst hpending
    exact .settled hphase hdone

theorem ticked_of_receipt {outcome : Outcome}
    (h : tick hashOf s (.receipt outcome) = some (s', out)) :
    Ticked hashOf s (.receipt outcome) s' out := by
  rcases hphase : s.phase with _ | _ | _ | _ | ⟨key, tx, hash, sentAt⟩ <;>
    simp only [tick, hphase, reduceCtorEq] at h
  split at h
  · next hends =>
    rcases outcome with reverted | _ | _
    · -- A receipt ends the wait, whatever its status.
      have hs : s' = { s with phase := .idle } ∧ out = [] := by
        cases reverted <;> exact (Prod.mk.inj (Option.some.inj h)).imp Eq.symm Eq.symm
      rw [hs.1, hs.2]
      exact .confirmed hphase hends
    · obtain ⟨rfl, rfl⟩ := Prod.mk.inj (Option.some.inj h)
      exact .timedOut hphase
    · obtain ⟨rfl, rfl⟩ := Prod.mk.inj (Option.some.inj h)
      exact .broken hphase
  · cases h

theorem ticked_of_tick (h : tick hashOf s l = some (s', out)) : Ticked hashOf s l s' out := by
  cases l with
  | visit key =>
    rcases hphase : s.phase with _ | _ | _ | _ | _ <;> simp only [tick, hphase, reduceCtorEq] at h
    rcases hf : s.pending key with _ | f <;> rw [hf] at h <;>
      obtain ⟨rfl, rfl⟩ := Prod.mk.inj (Option.some.inj h)
    · exact .unknown hphase hf
    · exact .remembered hphase hf
  | probe r =>
    rcases hphase : s.phase with _ | ⟨key, _ | ⟨hash, left⟩, probes⟩ | _ | _ | _ <;>
      simp only [tick, hphase, reduceCtorEq] at h
    obtain ⟨htold, h⟩ := Option.ite_none_right_eq_some.mp h
    obtain ⟨rfl, rfl⟩ := Prod.mk.inj (Option.some.inj h)
    exact .probed hphase htold
  | settle =>
    rcases hphase : s.phase with _ | ⟨key, _ | ⟨hash, left⟩, probes⟩ | _ | _ | _
    case probing.nil => exact ticked_of_settle hphase h
    all_goals simp only [tick, hphase, reduceCtorEq] at h
  | replace a reply =>
    rcases hphase : s.phase with _ | _ | key | _ | _ <;> simp only [tick, hphase, reduceCtorEq] at h
    obtain ⟨f, hf, hstep⟩ := Option.bind_eq_some_iff.mp h
    exact .replaced hphase hf hstep
  | decline =>
    rcases hphase : s.phase with _ | _ | _ | key | _ <;> simp only [tick, hphase, reduceCtorEq] at h
    obtain ⟨rfl, rfl⟩ := Prod.mk.inj (Option.some.inj h)
    exact .declined hphase
  | send tx reply sentAt =>
    rcases hphase : s.phase with _ | _ | _ | key | _ <;> simp only [tick, hphase, reduceCtorEq] at h
    obtain ⟨⟨node, accepted⟩, hstep, heq⟩ := Option.map_eq_some_iff.mp h
    obtain ⟨rfl, rfl⟩ := Prod.mk.inj heq
    exact .sent hphase hstep
  | receipt outcome => exact ticked_of_receipt h
  | endTick seen =>
    rcases hphase : s.phase with _ | _ | _ | _ | _ <;> simp only [tick, hphase, reduceCtorEq] at h
    obtain ⟨rfl, rfl⟩ := Prod.mk.inj (Option.some.inj h)
    exact .ended hphase
  | mine tx reverted =>
    obtain ⟨node, hstep, heq⟩ := Option.map_eq_some_iff.mp h
    obtain ⟨rfl, rfl⟩ := Prod.mk.inj heq
    exact .mined hstep
  | drop tx =>
    obtain ⟨rfl, rfl⟩ := Prod.mk.inj (Option.some.inj h)
    exact .dropped

/-! ### What probes settle -/

theorem TxProbe.rank_higher (acc p : TxProbe) : (acc.higher p).rank = max acc.rank p.rank := by
  rw [higher]
  split <;> omega

/-- The fold of `combineProbes`: a probe of the highest rank. -/
theorem foldl_higher (probes : List TxProbe) (acc : TxProbe) :
    probes.foldl TxProbe.higher acc ∈ acc :: probes ∧
      ∀ p ∈ acc :: probes, p.rank ≤ (probes.foldl TxProbe.higher acc).rank := by
  induction probes generalizing acc with
  | nil => exact ⟨List.mem_cons_self, fun p hp => by rw [List.mem_singleton.mp hp]; rfl⟩
  | cons q probes ih =>
    rw [List.foldl_cons]
    obtain ⟨hmem, hle⟩ := ih (acc.higher q)
    have htop := hle _ List.mem_cons_self
    rw [TxProbe.rank_higher] at htop
    constructor
    · rcases List.mem_cons.mp hmem with heq | hmem
      · rw [heq, TxProbe.higher]
        split
        · exact List.mem_cons_of_mem _ List.mem_cons_self
        · exact List.mem_cons_self
      · exact List.mem_cons_of_mem _ (List.mem_cons_of_mem _ hmem)
    · intro p hp
      rcases List.mem_cons.mp hp with rfl | hp
      · omega
      · rcases List.mem_cons.mp hp with rfl | hp
        · omega
        · exact hle p (List.mem_cons_of_mem _ hp)

/-- **All are gone, or none is**: that is the only way to the verdict. -/
theorem eq_gone_of_combineProbes {probes : List TxProbe} (h : combineProbes probes = .gone)
    {p : TxProbe} (hp : p ∈ probes) : p = .gone := by
  have hle := (foldl_higher probes .gone).2 p (List.mem_cons_of_mem _ hp)
  rw [combineProbes] at h
  rw [h] at hle
  cases p with
  | gone => rfl
  | mined | inMempool | unknown => exact absurd hle (by simp [TxProbe.rank])

/-- A verdict that is not that they are gone is one of the probes. -/
theorem mem_of_combineProbes {probes : List TxProbe} (h : combineProbes probes ≠ .gone) :
    combineProbes probes ∈ probes :=
  (List.mem_cons.mp (foldl_higher probes .gone).1).resolve_left h

/-- What lets another go out: all are gone, or one was mined. -/
theorem cases_of_resolvePending {p : TxProbe} (h : resolvePending p ≠ .wait) :
    p = .gone ∨ ∃ reverted, p = .mined reverted := by
  cases p with
  | gone => exact .inl rfl
  | mined reverted => exact .inr ⟨reverted, rfl⟩
  | inMempool | unknown => exact absurd rfl h

/-! ### What the chain keeps -/

/-- **The chain's part**: what is live or mined was sent, and a nonce that is used up is of
nothing live. -/
structure Node.Sound (sent : List TransactionRequest) (n : Node) : Prop where
  live : ∀ p ∈ n.live, p.2 ∈ sent
  mined : ∀ m ∈ n.mined, m.1 ∈ sent
  used : ∀ m ∈ n.mined, ∀ p ∈ n.live, p.2.nonce ≠ m.1.nonce

section Chain

variable {n n' : Node} {key : Key} {tx : TransactionRequest} {reply : SendReply}
  {sent : List TransactionRequest}

/-- What a broadcast does: nothing, or one more is live. -/
theorem broadcast_cases (h : n.broadcast key tx reply = some (n', out)) :
    reply = .refused ∧ n' = n ∧ out = [] ∨
      reply ≠ .refused ∧ tx.nonce ∉ (n.mined.map fun x => x.1.nonce) ∧
        n' = { n with live := (key, tx) :: n.live } ∧ out = [tx] := by
  have haccept : ∀ {r : Option (Node × List TransactionRequest)},
      r = (n.accept key tx).map (fun n => (n, [tx])) → r = some (n', out) →
        tx.nonce ∉ (n.mined.map fun x => x.1.nonce) ∧
          n' = { n with live := (key, tx) :: n.live } ∧ out = [tx] := by
    rintro r rfl hr
    obtain ⟨m, hm, heq⟩ := Option.map_eq_some_iff.mp hr
    obtain ⟨hnonce, hm⟩ := Option.ite_none_left_eq_some.mp hm
    obtain ⟨rfl, rfl⟩ := Prod.mk.inj heq
    exact ⟨hnonce, (Option.some.inj hm).symm, rfl⟩
  cases reply with
  | refused =>
    obtain ⟨rfl, rfl⟩ := Prod.mk.inj (Option.some.inj h)
    exact .inl ⟨rfl, rfl, rfl⟩
  | answered => exact .inr ⟨by simp, haccept rfl h⟩
  | lost => exact .inr ⟨by simp, haccept rfl h⟩

theorem Node.Sound.broadcast (hn : n.Sound sent) (h : n.broadcast key tx reply = some (n', out)) :
    n'.Sound (sent ++ out) := by
  rcases broadcast_cases h with ⟨-, rfl, rfl⟩ | ⟨-, hnonce, rfl, rfl⟩
  · rw [List.append_nil]
    exact hn
  · refine ⟨fun p hp => ?_, fun m hm => List.mem_append_left _ (hn.mined m hm), fun m hm p hp => ?_⟩
    · rcases List.mem_cons.mp hp with rfl | hp
      · exact List.mem_append_right _ List.mem_cons_self
      · exact List.mem_append_left _ (hn.live p hp)
    · rcases List.mem_cons.mp hp with rfl | hp
      · exact fun heq => hnonce (List.mem_map.mpr ⟨m, hm, heq.symm⟩)
      · exact hn.used m hm p hp

/-- The chain moves on by itself: less is live, and more is mined. -/
structure Node.Older (n n' : Node) : Prop where
  live : ∀ p ∈ n'.live, p ∈ n.live
  mined : ∀ m ∈ n.mined, m ∈ n'.mined

theorem older_mine {reverted : Bool} (h : n.mine tx reverted = some n') : n.Older n' := by
  obtain ⟨-, h⟩ := Option.ite_none_right_eq_some.mp h
  obtain rfl := Option.some.inj h
  exact ⟨fun p hp => (List.mem_filter.mp hp).1, fun m hm => List.mem_cons_of_mem _ hm⟩

theorem older_drop : n.Older (n.drop tx) :=
  ⟨fun _ hp => (List.mem_filter.mp hp).1, fun _ hm => hm⟩

theorem Node.Sound.mine (hn : n.Sound sent) {reverted : Bool} (h : n.mine tx reverted = some n') :
    n'.Sound sent := by
  obtain ⟨hlive, h⟩ := Option.ite_none_right_eq_some.mp h
  obtain rfl := Option.some.inj h
  obtain ⟨p, hp, rfl⟩ := List.mem_map.mp hlive
  refine ⟨fun q hq => hn.live q (List.mem_filter.mp hq).1, fun m hm => ?_, fun m hm q hq => ?_⟩
  · rcases List.mem_cons.mp hm with rfl | hm
    · exact hn.live p hp
    · exact hn.mined m hm
  · obtain ⟨hq, hne⟩ := List.mem_filter.mp hq
    rcases List.mem_cons.mp hm with rfl | hm
    · simpa using hne
    · exact hn.used m hm q hq

theorem Node.Sound.drop (hn : n.Sound sent) : (n.drop tx).Sound sent :=
  ⟨fun p hp => hn.live p (List.mem_filter.mp hp).1, hn.mined,
    fun m hm p hp => hn.used m hm p (List.mem_filter.mp hp).1⟩

/-- What a probe once said stays true. -/
theorem Node.Older.tells (h : n.Older n') {hash : TxHash} {p : TxProbe}
    (htold : n.tells hashOf hash p = true) : n'.tells hashOf hash p = true := by
  cases p with
  | inMempool | unknown => rfl
  | gone =>
    simp only [Node.tells, Bool.not_eq_true', List.any_eq_false, decide_eq_true_eq] at htold ⊢
    exact fun x hx => htold x (h.live x hx)
  | mined reverted =>
    simp only [Node.tells, List.any_eq_true] at htold ⊢
    obtain ⟨m, hm, hmatch⟩ := htold
    exact ⟨m, h.mined m hm, hmatch⟩

theorem not_live_of_gone {hash : TxHash} (h : n.tells hashOf hash .gone = true)
    {p : Key × TransactionRequest} (hp : p ∈ n.live) : hashOf p.2 ≠ hash := by
  simp only [Node.tells, Bool.not_eq_true', List.any_eq_false, decide_eq_true_eq] at h
  exact h _ hp

theorem exists_mined {hash : TxHash} {reverted : Bool}
    (h : n.tells hashOf hash (.mined reverted) = true) : ∃ m ∈ n.mined, hashOf m.1 = hash := by
  simp only [Node.tells, List.any_eq_true, Bool.and_eq_true, decide_eq_true_eq] at h
  obtain ⟨m, hm, hhash, -⟩ := h
  exact ⟨m, hm, hhash⟩

end Chain

/-! ### What a loop remembers -/

/-- The transactions that were accepted in a run. -/
def sentIn (tr : List (Entry LoopState Label (List TransactionRequest))) :
    List TransactionRequest := tr.flatMap Entry.out

/-- What is remembered of a nonce: each hash is of a transaction that was sent at it. -/
def InFlight.Known (hashOf : TransactionRequest → TxHash) (sent : List TransactionRequest)
    (f : InFlight) : Prop :=
  ∀ hash ∈ f.hashes, ∃ tx ∈ sent, hashOf tx = hash ∧ tx.nonce = f.tx.nonce

/-- The loop is past `may_submit` with this id. -/
def Phase.Sends (p : Phase) (key : Key) : Prop :=
  p = .cleared key ∨ ∃ tx hash sentAt, p = .waiting key tx hash sentAt

/-- **Nothing live is forgotten.** What is live of an id is remembered, with its hash and its
nonce, until `may_submit` has found that nothing is; then it is what the loop waits for. -/
structure Tracked (hashOf : TransactionRequest → TxHash) (key : Key)
    (sent : List TransactionRequest) (s : LoopState) : Prop where
  node : s.node.Sound sent
  known : ∀ f, s.pending key = some f → f.Known hashOf sent
  remembered : ¬s.phase.Sends key → ∀ tx, (key, tx) ∈ s.node.live →
    ∃ f, s.pending key = some f ∧ hashOf tx ∈ f.hashes ∧ tx.nonce = f.tx.nonce
  probing : ∀ left probes, s.phase = .probing key left probes → ∃ f done,
    s.pending key = some f ∧ f.hashes = done ++ left ∧
      List.Forall₂ (fun hash p => s.node.tells hashOf hash p = true) done probes
  cleared : s.phase = .cleared key → ∀ tx, (key, tx) ∉ s.node.live
  waiting : ∀ tx hash sentAt, s.phase = .waiting key tx hash sentAt →
    hash = hashOf tx ∧ tx ∈ sent ∧ ∀ tx', (key, tx') ∈ s.node.live → tx' = tx

/-- **A step that loses sight of a transaction of an id**: its broadcast is accepted and not
answered, or the wait for it breaks off while it is live. -/
inductive Loses (key : Key) (s : LoopState) : Label → Prop
  | send {tx : TransactionRequest} {sentAt : ℕ} : s.phase = .cleared key →
      Loses key s (.send tx .lost sentAt)
  | replace {a : Attempt} : s.phase = .repricing key → Loses key s (.replace a .lost)
  | wait {tx : TransactionRequest} {hash : TxHash} {sentAt : ℕ} :
      s.phase = .waiting key tx hash sentAt → (key, tx) ∈ s.node.live →
      Loses key s (.receipt .failed)

/-- A request is repriced at its nonce. -/
theorem nonce_of_reprice {tx next : TransactionRequest} {estimate : Option Eip1559Estimation}
    {gasPrice : Option Fee} {ceiling : Fee} (h : reprice tx estimate gasPrice ceiling = some next) :
    next.nonce = tx.nonce := by
  unfold reprice at h
  split at h
  · simp only [Option.bind_eq_bind, Option.bind_eq_some_iff, Option.pure_def,
      Option.some.injEq] at h
    obtain ⟨newMax, -, newTip, -, rfl⟩ := h
    rfl
  · simp only [Option.bind_eq_bind, Option.bind_eq_some_iff, Option.pure_def,
      Option.some.injEq] at h
    obtain ⟨price, -, newPrice, -, rfl⟩ := h
    rfl

/-- **What `maybe_replace` leaves of an entry**: it is as it was but for its counters, whether
nothing was offered or nothing came back; or the replacement is in it, with its hash. -/
inductive Kept (f : InFlight) (a : Attempt) : InFlight → Option TransactionRequest → Prop
  | idle {bumps lastSent : ℕ} : Kept f a { f with bumps, lastSent } none
  | silent {bumps lastSent : ℕ} {next : TransactionRequest} (nonce : next.nonce = f.tx.nonce)
      (sent : a.replies.sent = none) : Kept f a { f with bumps, lastSent } (some next)
  | answered {bumps lastSent : ℕ} {next : TransactionRequest} {hash : TxHash}
      (nonce : next.nonce = f.tx.nonce) (sent : a.replies.sent = some hash) :
      Kept f a ⟨next, f.hashes ++ [hash], bumps, lastSent, f.ceiling⟩ (some next)

theorem kept_of_replaceAt (f : InFlight) (a : Attempt) :
    Kept f a (replaceAt a.replies a.later f).1 (replaceAt a.replies a.later f).2 := by
  unfold replaceAt
  rcases hnext : repriced a.replies f with _ | next
  · exact .idle
  · have hnonce := nonce_of_reprice hnext
    rcases hsent : a.replies.sent with _ | hash
    · exact .silent hnonce hsent
    · exact .answered hnonce hsent

theorem kept_of_maybeReplace (f : InFlight) (a : Attempt) :
    Kept f a (maybeReplace a.replies a.now a.later f).1
      (maybeReplace a.replies a.now a.later f).2 := by
  have hsame : Kept f a f none := @Kept.idle f a f.bumps f.lastSent
  unfold maybeReplace
  split
  · exact hsame
  · split
    · split
      · exact .idle
      · split
        · split
          · exact kept_of_replaceAt f a
          · exact hsame
        · exact hsame
    · exact hsame

/-- What `maybe_replace` does to the loop. -/
theorem replace_cases {key : Key} {f : InFlight} {a : Attempt} {reply : SendReply}
    (h : s.replace hashOf key f a reply = some (s', out)) :
    ∃ f' node, s' = ⟨s.pending.track key f', .idle, node⟩ ∧
      (Kept f a f' none ∧ node = s.node ∧ out = [] ∨
        ∃ tx, Kept f a f' (some tx) ∧ a.replies.sent = reply.hash? hashOf tx ∧
          s.node.broadcast key tx reply = some (node, out)) := by
  have hkept := kept_of_maybeReplace f a
  unfold LoopState.replace at h
  rcases hoffer : maybeReplace a.replies a.now a.later f with ⟨f', _ | tx⟩ <;>
    rw [hoffer] at h hkept
  · obtain ⟨-, h⟩ := Option.ite_none_right_eq_some.mp h
    obtain ⟨rfl, rfl⟩ := Prod.mk.inj (Option.some.inj h)
    exact ⟨f', s.node, rfl, .inl ⟨hkept, rfl, rfl⟩⟩
  · obtain ⟨hsent, h⟩ := Option.ite_none_right_eq_some.mp h
    obtain ⟨⟨node, accepted⟩, hcast, heq⟩ := Option.map_eq_some_iff.mp h
    obtain ⟨rfl, rfl⟩ := Prod.mk.inj heq
    exact ⟨f', node, rfl, .inr ⟨tx, hkept, hsent, hcast⟩⟩

section Step

variable {key k : Key} {sent : List TransactionRequest}

theorem InFlight.Known.append {f : InFlight} (h : f.Known hashOf sent)
    (out : List TransactionRequest) : f.Known hashOf (sent ++ out) := by
  intro hash hmem
  obtain ⟨tx, htx, heq⟩ := h hash hmem
  exact ⟨tx, List.mem_append_left _ htx, heq⟩

/-- **What was mined has used up the nonce** of every transaction with its hash. -/
theorem Node.Sound.nonce_ne {n : Node} (hn : n.Sound sent)
    (hhash : Set.InjOn hashOf {tx | tx ∈ sent}) {tx : TransactionRequest} (htx : tx ∈ sent)
    {reverted : Bool} (htold : n.tells hashOf (hashOf tx) (.mined reverted) = true)
    {p : Key × TransactionRequest} (hp : p ∈ n.live) : p.2.nonce ≠ tx.nonce := by
  obtain ⟨m, hm, heq⟩ := exists_mined htold
  obtain rfl : m.1 = tx := hhash (hn.mined m hm) htx heq
  exact hn.used m hm p hp

/-- An id that the loop is not past `may_submit` with, and not probing. -/
theorem Tracked.of_idle (h : Tracked hashOf key sent s) (hphase : ¬s.phase.Sends key)
    {phase : Phase} (hsends : ¬phase.Sends key)
    (hprobing : ∀ left probes, phase ≠ .probing key left probes) :
    Tracked hashOf key sent { s with phase } where
  node := h.node
  known := h.known
  remembered _ := h.remembered hphase
  probing left probes hp := absurd hp (hprobing left probes)
  cleared hp := absurd (.inl hp) hsends
  waiting tx hash sentAt hp := absurd (.inr ⟨tx, hash, sentAt, hp⟩) hsends

/-- What stands in one of two lists that go together has its match in the other. -/
theorem exists_match {α β : Type} {R : α → β → Prop} {as : List α} {bs : List β}
    (h : List.Forall₂ R as bs) {a : α} (hmem : a ∈ as) : ∃ b ∈ bs, R a b := by
  induction h with
  | nil => cases hmem
  | cons hr _ ih =>
    rcases List.mem_cons.mp hmem with rfl | hmem
    · exact ⟨_, List.mem_cons_self, hr⟩
    · obtain ⟨b, hb, hr⟩ := ih hmem
      exact ⟨b, List.mem_cons_of_mem _ hb, hr⟩

/-- **All probed**: if the verdict lets another go out, nothing is live. -/
theorem Tracked.not_live (h : Tracked hashOf key sent s)
    (hhash : Set.InjOn hashOf {tx | tx ∈ sent}) {probes : List TxProbe}
    (hphase : s.phase = .probing key [] probes)
    (hdone : resolvePending (combineProbes probes) ≠ .wait) (tx : TransactionRequest) :
    (key, tx) ∉ s.node.live := by
  intro hlive
  obtain ⟨f, done, hf, hhashes, htold⟩ := h.probing _ _ hphase
  rw [List.append_nil] at hhashes
  obtain ⟨f', hf', hmem, hnonce⟩ := h.remembered (by simp [Phase.Sends, hphase]) tx hlive
  obtain rfl := Option.some.inj (hf.symm.trans hf')
  rw [hhashes] at hmem
  rcases cases_of_resolvePending hdone with hgone | ⟨reverted, hmined⟩
  · -- Every hash is gone, also that of the live one.
    obtain ⟨p, hp, hsaid⟩ := exists_match htold hmem
    rw [eq_gone_of_combineProbes hgone hp] at hsaid
    exact not_live_of_gone hsaid hlive rfl
  · -- One was mined, and with it went the nonce.
    have hprobe : combineProbes probes ∈ probes :=
      mem_of_combineProbes (by rw [hmined]; simp)
    rw [hmined] at hprobe
    obtain ⟨hash, hhashMem, hsaid⟩ := exists_match
      (List.Forall₂.flip (R := flip fun hash p => s.node.tells hashOf hash p = true) htold) hprobe
    obtain ⟨tx', htx', rfl, hnonce'⟩ := h.known f hf hash (hhashes ▸ hhashMem)
    exact h.node.nonce_ne hhash htx' hsaid hlive (hnonce.trans hnonce'.symm)

theorem track_self (m : PendingTxs) (f : InFlight) : m.track k f k = some f :=
  Function.update_self _ _ _

theorem clear_self (m : PendingTxs) : m.clear k k = none := Function.update_self _ _ _

/-- The memo of another id is left alone. -/
theorem track_of_ne (m : PendingTxs) (f : InFlight) (hk : k ≠ key) : m.track k f key = m key :=
  Function.update_of_ne hk.symm _ _

theorem clear_of_ne (m : PendingTxs) (hk : k ≠ key) : m.clear k key = m key :=
  Function.update_of_ne hk.symm _ _

/-- **After a broadcast** for this id what is live was live, or is what was sent. -/
theorem live_of_broadcast {n n' : Node} {tx tx' : TransactionRequest} {reply : SendReply}
    (h : n.broadcast k tx reply = some (n', out)) (hlive : (key, tx') ∈ n'.live) :
    (key, tx') ∈ n.live ∨ k = key ∧ tx' = tx ∧ reply ≠ .refused := by
  rcases broadcast_cases h with ⟨-, rfl, -⟩ | ⟨hreply, -, rfl, -⟩
  · exact .inl hlive
  · rcases List.mem_cons.mp hlive with heq | hlive
    · obtain ⟨rfl, rfl⟩ := Prod.mk.inj heq
      exact .inr ⟨rfl, rfl, hreply⟩
    · exact .inl hlive

/-- The first broadcast of an id. -/
theorem Tracked.send (h : Tracked hashOf key sent s) {tx : TransactionRequest} {reply : SendReply}
    {sentAt : ℕ} {node : Node} (hphase : s.phase = .cleared k)
    (hstep : s.node.broadcast k tx reply = some (node, out))
    (hlost : k = key → reply ≠ .lost) :
    Tracked hashOf key (sent ++ out)
      { s with
        phase := if reply = .answered then .waiting k tx (hashOf tx) sentAt else .idle
        node } := by
  have hnone : ∀ (p : Phase), (if reply = .answered then .waiting k tx (hashOf tx) sentAt
      else .idle) = p → p = .idle ∨ reply = .answered ∧ p = .waiting k tx (hashOf tx) sentAt := by
    rintro p rfl
    split
    · next hreply => exact .inr ⟨hreply, rfl⟩
    · exact .inl rfl
  refine ⟨h.node.broadcast hstep, fun f hf => (h.known f hf).append out, fun hsends tx' hlive => ?_,
    fun left probes hp => ?_, fun hp => ?_, fun tx' hash' sentAt' hp => ?_⟩
  · rcases live_of_broadcast hstep hlive with hlive | ⟨rfl, rfl, hreply⟩
    · by_cases hk : k = key
      · exact absurd hlive (h.cleared (hk ▸ hphase) tx')
      · exact h.remembered (by simpa [Phase.Sends, hphase] using hk) tx' hlive
    · -- It was answered, so the loop waits for it.
      have hanswered : reply = .answered := by
        cases reply with
        | answered => rfl
        | lost => exact absurd rfl (hlost rfl)
        | refused => exact absurd rfl hreply
      exact absurd (.inr ⟨_, _, _, if_pos hanswered⟩) hsends
  · rcases hnone _ hp with hp | ⟨-, hp⟩ <;> cases hp
  · rcases hnone _ hp with hp | ⟨-, hp⟩ <;> cases hp
  · rcases hnone _ hp with hp | ⟨hreply, hp⟩
    · cases hp
    · obtain ⟨rfl, rfl, rfl, rfl⟩ := Phase.waiting.inj hp
      refine ⟨rfl, ?_, fun tx'' hlive => ?_⟩
      · rcases broadcast_cases hstep with ⟨hrefused, -, -⟩ | ⟨-, -, -, rfl⟩
        · rw [hreply] at hrefused
          cases hrefused
        · exact List.mem_append_right _ List.mem_cons_self
      · rcases live_of_broadcast hstep hlive with hlive | ⟨-, heq, -⟩
        · exact absurd hlive (h.cleared hphase tx'')
        · exact heq

/-- A replacement of an id. -/
theorem Tracked.replace (h : Tracked hashOf key sent s) {f : InFlight} {a : Attempt}
    {reply : SendReply} (hphase : s.phase = .repricing k) (hf : s.pending k = some f)
    (hstep : s.replace hashOf k f a reply = some (s', out)) (hlost : k = key → reply ≠ .lost) :
    Tracked hashOf key (sent ++ out) s' := by
  have hremembered := h.remembered (by simp [Phase.Sends, hphase])
  obtain ⟨f', node, rfl, hcases⟩ := replace_cases hstep
  have hnode : node.Sound (sent ++ out) := by
    rcases hcases with ⟨-, rfl, rfl⟩ | ⟨tx, -, -, hcast⟩
    · rw [List.append_nil]
      exact h.node
    · exact h.node.broadcast hcast
  by_cases hk : k = key
  · subst hk
    have hknown := h.known f hf
    have hself := track_self (k := k) s.pending f'
    have hold : ∀ tx, (k, tx) ∈ s.node.live → hashOf tx ∈ f.hashes ∧ tx.nonce = f.tx.nonce := by
      intro tx hlive
      obtain ⟨g, hg, hmem⟩ := hremembered tx hlive
      obtain rfl := Option.some.inj (hf.symm.trans hg)
      exact hmem
    refine ⟨hnode, fun g hg => ?_, fun _ tx' hlive => ⟨f', hself, ?_⟩, by simp, by simp, by simp⟩
    · obtain rfl := Option.some.inj (hself.symm.trans hg)
      rcases hcases with ⟨hkept, -, rfl⟩ | ⟨tx, hkept, hsent, hcast⟩
      · cases hkept
        exact hknown.append []
      · cases hkept with
        | silent => exact hknown.append out
        | @answered _ _ _ hash hnonce hans =>
          rw [hans, SendReply.hash?] at hsent
          obtain ⟨hreply, heq⟩ := Option.ite_none_right_eq_some.mp hsent.symm
          obtain rfl := Option.some.inj heq
          rcases broadcast_cases hcast with ⟨hrefused, -, -⟩ | ⟨-, -, -, rfl⟩
          · rw [hreply] at hrefused
            cases hrefused
          · intro hash' hmem
            rcases List.mem_append.mp hmem with hmem | hmem
            · obtain ⟨y, hy, heq, hn⟩ := hknown.append [tx] hash' hmem
              exact ⟨y, hy, heq, hn.trans hnonce.symm⟩
            · rw [List.mem_singleton.mp hmem]
              exact ⟨tx, List.mem_append_right _ List.mem_cons_self, rfl, rfl⟩
    · rcases hcases with ⟨hkept, rfl, -⟩ | ⟨tx, hkept, hsent, hcast⟩
      · cases hkept
        exact hold tx' hlive
      · have hnow := live_of_broadcast hcast hlive
        cases hkept with
        | silent hnonce hnone =>
          rcases hnow with hold' | ⟨-, rfl, hreply⟩
          · exact hold tx' hold'
          · -- Nothing came back, so nothing was accepted.
            rw [hnone, SendReply.hash?] at hsent
            have hanswered : reply ≠ .answered := by
              intro heq
              rw [if_pos heq] at hsent
              cases hsent
            cases reply with
            | answered => exact absurd rfl hanswered
            | lost => exact absurd rfl (hlost rfl)
            | refused => exact absurd rfl hreply
        | @answered _ _ _ hash hnonce hans =>
          rcases hnow with hold' | ⟨-, rfl, -⟩
          · obtain ⟨hmem, hn⟩ := hold tx' hold'
            exact ⟨List.mem_append_left _ hmem, hn.trans hnonce.symm⟩
          · rw [hans, SendReply.hash?] at hsent
            obtain ⟨-, heq⟩ := Option.ite_none_right_eq_some.mp hsent.symm
            rw [← Option.some.inj heq]
            exact ⟨List.mem_append_right _ List.mem_cons_self, rfl⟩
  · have hsame : s.pending.track k f' key = s.pending key := track_of_ne _ _ hk
    refine ⟨hnode, fun g hg => (h.known g (hsame ▸ hg)).append out, fun _ tx' hlive => ?_,
      by simp, by simp, by simp⟩
    have hold : (key, tx') ∈ s.node.live := by
      rcases hcases with ⟨-, rfl, -⟩ | ⟨tx, -, -, hcast⟩
      · exact hlive
      · exact (live_of_broadcast hcast hlive).resolve_right fun hne => hk hne.1
    obtain ⟨g, hg, hmem⟩ := hremembered tx' hold
    exact ⟨g, hsame.trans hg, hmem⟩

/-- The chain moves on. -/
theorem Tracked.older (h : Tracked hashOf key sent s) {node : Node} (hold : s.node.Older node)
    (hnode : node.Sound sent) : Tracked hashOf key sent { s with node } where
  node := hnode
  known := h.known
  remembered hsends tx hlive := h.remembered hsends tx (hold.live _ hlive)
  probing left probes hp := by
    obtain ⟨f, done, hf, hhashes, htold⟩ := h.probing left probes hp
    exact ⟨f, done, hf, hhashes, htold.imp fun _ _ => hold.tells⟩
  cleared hp tx hlive := h.cleared hp tx (hold.live _ hlive)
  waiting tx hash sentAt hp := by
    obtain ⟨heq, hsent, hone⟩ := h.waiting tx hash sentAt hp
    exact ⟨heq, hsent, fun tx' hlive => hone tx' (hold.live _ hlive)⟩

/-- The end of a wait: what was waited for is remembered, or it is not live. -/
theorem Tracked.receipt (h : Tracked hashOf key sent s) {tx : TransactionRequest} {hash : TxHash}
    {sentAt : ℕ} (hphase : s.phase = .waiting k tx hash sentAt) {pending : PendingTxs}
    (hother : k ≠ key → pending key = s.pending key)
    (hknown : ∀ f, pending key = some f → f.Known hashOf sent)
    (hown : k = key → (key, tx) ∈ s.node.live →
      ∃ f, pending key = some f ∧ hash ∈ f.hashes ∧ tx.nonce = f.tx.nonce) :
    Tracked hashOf key sent ⟨pending, .idle, s.node⟩ := by
  refine ⟨h.node, hknown, fun _ tx' hlive => ?_, by simp, by simp, by simp⟩
  by_cases hk : k = key
  · subst hk
    obtain ⟨rfl, -, hone⟩ := h.waiting tx hash sentAt hphase
    obtain rfl := hone tx' hlive
    exact hown rfl hlive
  · obtain ⟨f, hf, hmem⟩ := h.remembered (by simpa [Phase.Sends, hphase] using hk) tx' hlive
    exact ⟨f, (hother hk).trans hf, hmem⟩

/-- **One step that loses sight of nothing.** -/
theorem Tracked.step (h : Tracked hashOf key sent s) (hstep : Ticked hashOf s l s' out)
    (hhash : Set.InjOn hashOf {tx | tx ∈ sent}) (hstay : ∀ seen, l = .endTick seen → key.1 ∈ seen)
    (hlose : ¬Loses key s l) : Tracked hashOf key (sent ++ out) s' := by
  cases hstep with
  | @unknown k idle fresh =>
    rw [List.append_nil]
    have hremembered := h.remembered (by simp [Phase.Sends, idle])
    refine ⟨h.node, h.known, fun _ => hremembered, by simp, ?_, by simp⟩
    intro hp tx hlive
    obtain rfl := Phase.cleared.inj hp
    obtain ⟨f, hf, -⟩ := hremembered tx hlive
    exact absurd (fresh.symm.trans hf) (by simp)
  | @remembered k f idle known =>
    rw [List.append_nil]
    refine ⟨h.node, h.known, fun _ => h.remembered (by simp [Phase.Sends, idle]), ?_, by simp,
      by simp⟩
    intro left probes hp
    obtain ⟨rfl, rfl, rfl⟩ := Phase.probing.inj hp
    exact ⟨f, [], known, rfl, .nil⟩
  | @probed k hash left probes r at_ told =>
    rw [List.append_nil]
    refine ⟨h.node, h.known, fun _ => h.remembered (by simp [Phase.Sends, at_]), ?_, by simp,
      by simp⟩
    intro left' probes' hp
    obtain ⟨rfl, rfl, rfl⟩ := Phase.probing.inj hp
    obtain ⟨f, done, hf, hhashes, htold⟩ := h.probing _ _ at_
    refine ⟨f, done ++ [hash], hf, by rw [hhashes]; simp, ?_⟩
    exact List.rel_append htold (.cons told .nil)
  | waits at_ next =>
    rw [List.append_nil]
    refine h.of_idle (by simp [Phase.Sends, at_]) ?_ ?_
    · rcases next with rfl | rfl <;> simp [Phase.Sends]
    · rcases next with rfl | rfl <;> simp
  | @settled k probes at_ done =>
    rw [List.append_nil]
    have hremembered := h.remembered (by simp [Phase.Sends, at_])
    refine ⟨h.node, fun f hf => ?_, fun hsends tx hlive => ?_, by simp, ?_, by simp⟩
    · by_cases hk : k = key
      · subst hk
        exact absurd ((clear_self _).symm.trans hf) (by simp)
      · exact h.known f ((clear_of_ne _ hk).symm.trans hf)
    · have hk : k ≠ key := fun heq => hsends (.inl (congrArg Phase.cleared heq))
      obtain ⟨f, hf, hmem⟩ := hremembered tx hlive
      exact ⟨f, (clear_of_ne _ hk).trans hf, hmem⟩
    · intro hp
      obtain rfl := Phase.cleared.inj hp
      exact h.not_live hhash at_ done
  | @replaced k f a reply s' out at_ known step =>
    refine h.replace at_ known step ?_
    rintro rfl rfl
    exact hlose (.replace at_)
  | @declined k at_ =>
    rw [List.append_nil]
    refine ⟨h.node, h.known, fun _ tx hlive => ?_, by simp, by simp, by simp⟩
    by_cases hk : k = key
    · exact absurd hlive (h.cleared (hk ▸ at_) tx)
    · exact h.remembered (by simpa [Phase.Sends, at_] using hk) tx hlive
  | @sent k tx reply sentAt node out at_ step =>
    refine h.send at_ step ?_
    rintro rfl rfl
    exact hlose (.send at_)
  | @confirmed k tx hash sentAt reverted at_ told =>
    rw [List.append_nil]
    refine h.receipt at_ (fun _ => rfl) h.known ?_
    rintro rfl hlive
    -- The receipt is of this transaction, so its nonce is used up.
    obtain ⟨rfl, hsent, -⟩ := h.waiting tx hash sentAt at_
    exact absurd rfl (h.node.nonce_ne hhash hsent told hlive)
  | @timedOut k tx hash sentAt at_ =>
    rw [List.append_nil]
    refine h.receipt at_ (fun hk => track_of_ne _ _ hk) ?_ ?_
    · intro f hf
      by_cases hk : k = key
      · subst hk
        obtain ⟨rfl, hsent, -⟩ := h.waiting tx hash sentAt at_
        obtain rfl := Option.some.inj ((track_self _ _).symm.trans hf)
        intro hash' hmem
        rw [List.mem_singleton.mp hmem]
        exact ⟨tx, hsent, rfl, rfl⟩
      · exact h.known f ((track_of_ne _ _ hk).symm.trans hf)
    · rintro rfl -
      exact ⟨_, track_self _ _, List.mem_singleton_self _, rfl⟩
  | @broken k tx hash sentAt at_ =>
    rw [List.append_nil]
    refine h.receipt at_ (fun _ => rfl) h.known ?_
    rintro rfl hlive
    exact absurd (.wait at_ hlive) hlose
  | @ended seen idle =>
    rw [List.append_nil]
    have hkept : s.pending.retainSeen seen key = s.pending key := if_pos (hstay seen rfl)
    refine ⟨h.node, fun f hf => h.known f (hkept.symm.trans hf), fun _ tx hlive => ?_, by simp,
      by simp, by simp⟩
    obtain ⟨f, hf, hmem⟩ := h.remembered (by simp [Phase.Sends, idle]) tx hlive
    exact ⟨f, hkept.trans hf, hmem⟩
  | mined step =>
    rw [List.append_nil]
    exact h.older (older_mine step) (h.node.mine step)
  | dropped =>
    rw [List.append_nil]
    exact h.older older_drop h.node.drop

end Step

/-! ### Runs -/

/-- A loop that starts, on a chain that knows nothing of it. -/
def LoopState.start : LoopState := ⟨fun _ => none, .idle, ⟨[], []⟩⟩

/-- A run of a loop. -/
abbrev Ticks := List (Entry LoopState Label (List TransactionRequest))

/-- The id is in the queue at the end of every tick. -/
def StaysQueued (id : Text) (tr : Ticks) : Prop :=
  ∀ e ∈ tr, ∀ seen, e.label = .endTick seen → id ∈ seen

/-- **A run that loses sight of nothing** of an id: every accepted broadcast is answered, and no
wait breaks off over a live transaction. -/
def NothingLost (key : Key) (tr : Ticks) : Prop := ∀ e ∈ tr, ¬Loses key e.pre e.label

/-- **No duplicate**: when a transaction of the id goes out at a fresh nonce, none that went out
before can still be mined. -/
def NoDuplicate (key : Key) (tr : Ticks) : Prop :=
  ∀ e ∈ tr, ∀ tx reply sentAt, e.label = .send tx reply sentAt → e.pre.phase = .cleared key →
    ∀ tx', (key, tx') ∉ e.pre.node.live

theorem sentIn_append (tr₁ tr₂ : Ticks) : sentIn (tr₁ ++ tr₂) = sentIn tr₁ ++ sentIn tr₂ :=
  List.flatMap_append

theorem tracked_start (key : Key) : Tracked hashOf key [] .start where
  node := ⟨by simp [LoopState.start], by simp [LoopState.start], by simp [LoopState.start]⟩
  known f hf := absurd hf (by simp [LoopState.start])
  remembered _ tx hlive := absurd hlive List.not_mem_nil
  probing left probes hp := by cases hp
  cleared hp := by cases hp
  waiting tx hash sentAt hp := by cases hp

/-- **A run that loses sight of nothing tracks everything.** -/
theorem tracked_of_run {key : Key} {tr : Ticks} (hrun : Run (tick hashOf) .start tr s)
    (hhash : Set.InjOn hashOf {tx | tx ∈ sentIn tr}) (hstay : StaysQueued key.1 tr)
    (hlost : NothingLost key tr) : Tracked hashOf key (sentIn tr) s := by
  refine hrun.rec_trace (P := fun tr s => Set.InjOn hashOf {tx | tx ∈ sentIn tr} →
    StaysQueued key.1 tr → NothingLost key tr → Tracked hashOf key (sentIn tr) s) ?_ ?_
    hhash hstay hlost
  · intro _ _ _
    exact tracked_start key
  · intro tr s l s' out _ ih htick hhash hstay hlost
    have hsent : sentIn (tr ++ [⟨s, l, out, s'⟩]) = sentIn tr ++ out := by
      simp [sentIn]
    rw [hsent] at hhash ⊢
    have hhash' : Set.InjOn hashOf {tx | tx ∈ sentIn tr} :=
      hhash.mono fun tx htx => List.mem_append_left _ htx
    have hlast : (⟨s, l, out, s'⟩ : Entry LoopState Label (List TransactionRequest)) ∈
        tr ++ [⟨s, l, out, s'⟩] := List.mem_append_right _ List.mem_cons_self
    exact (ih hhash' (fun e he => hstay e (List.mem_append_left _ he))
      fun e he => hlost e (List.mem_append_left _ he)).step (ticked_of_tick htick) hhash'
        (hstay _ hlast) (hlost _ hlast)

/-- **The keeper queues no duplicate** behind a transaction of its own, for an id that stays in
its queue, as long as it loses sight of none. -/
theorem no_duplicate {key : Key} {tr : Ticks} (hrun : Run (tick hashOf) .start tr s)
    (hhash : Set.InjOn hashOf {tx | tx ∈ sentIn tr}) (hstay : StaysQueued key.1 tr)
    (hlost : NothingLost key tr) : NoDuplicate key tr := by
  intro e he tx reply sentAt _ hphase
  obtain ⟨tr₁, tr₂, rfl⟩ := List.append_of_mem he
  refine (tracked_of_run hrun.split.1 (hhash.mono fun tx htx => ?_)
    (fun e' he' => hstay e' (List.mem_append_left _ he'))
    fun e' he' => hlost e' (List.mem_append_left _ he')).cleared hphase
  rw [Set.mem_ofPred_eq, sentIn_append]
  exact List.mem_append_left _ htx

/-! ### Two runs for one claim -/

/-- A claim of the keeper's account at a nonce, with a fee cap. -/
def claimAt (nonce : U64) (maxFee tip : Fee) : TransactionRequest where
  sender := some 0xa11ce
  target := some 0x9a7e
  nonce := some nonce
  gas := some 120000
  value := none
  input := []
  maxFeePerGas := some maxFee
  maxPriorityFeePerGas := some tip
  gasPrice := none

/-- A hash that tells nonces and fees apart. -/
def hashByFee (tx : TransactionRequest) : TxHash :=
  BitVec.ofNat 256 ((tx.nonce.getD 0).toNat * 1000 + (feeCap tx).toNat)

/-- The claim of one transfer. -/
def oneClaim : Key := (['0', 'x', '1'], .transfer)

/-- A claim whose receipt does not come, its replacement, which is mined and reverts, and the
claim at the next nonce. -/
def replacedAndSentAgain : List Label :=
  [.visit oneClaim, .send (claimAt 7 100 1) .answered 0, .receipt .timeout, .endTick [oneClaim.1],
    .visit oneClaim, .probe ⟨some none, some true⟩, .settle,
    .replace ⟨⟨some 7, none, none, some 7113⟩, RECEIPT_TIMEOUT, RECEIPT_TIMEOUT⟩ .answered,
    .mine (claimAt 7 113 2) true, .endTick [oneClaim.1],
    .visit oneClaim, .probe ⟨some none, some false⟩, .probe ⟨some (some false), none⟩, .settle,
    .send (claimAt 8 100 1) .answered RECEIPT_TIMEOUT]

theorem no_duplicate_replaced :
    NoDuplicate oneClaim (traceOf (tick hashByFee) .start replacedAndSentAgain).1 := by
  have hsome : (runFrom (tick hashByFee) .start replacedAndSentAgain).isSome = true := by
    decide +kernel
  have hmem : ∀ e ∈ (traceOf (tick hashByFee) .start replacedAndSentAgain).1,
      e.label ∈ replacedAndSentAgain :=
    fun e he => label_traceOf hsome ▸ List.mem_map_of_mem he
  have hinj : ∀ x ∈ sentIn (traceOf (tick hashByFee) .start replacedAndSentAgain).1,
      ∀ y ∈ sentIn (traceOf (tick hashByFee) .start replacedAndSentAgain).1,
        hashByFee x = hashByFee y → x = y := by decide +kernel
  refine no_duplicate (run_traceOf hsome) (fun x hx y hy => hinj x hx y hy) ?_ ?_
  · intro e he seen hl
    have hlabel := hmem e he
    rw [hl] at hlabel
    simp only [replacedAndSentAgain, List.mem_cons, reduceCtorEq, Label.endTick.injEq,
      List.not_mem_nil, or_false, false_or, or_self] at hlabel
    rw [hlabel]
    exact List.mem_cons_self
  · intro e he hlose
    have hlabel := hmem e he
    generalize e.label = l at hlose hlabel
    cases hlose <;> simp [replacedAndSentAgain] at hlabel

/-- A claim that the node accepts, with an error for an answer; and the next tick. -/
def sentAndLost : List Label :=
  [.visit oneClaim, .send (claimAt 7 100 1) .lost 0, .endTick [oneClaim.1], .visit oneClaim]

/-- **A second behind the first**: the first claim is in the pool, the keeper does not know, and
another goes out at the next nonce. -/
theorem second_behind_the_first :
    ∃ tr s, Run (tick hashByFee) .start tr s ∧ Set.InjOn hashByFee {tx | tx ∈ sentIn tr} ∧
      StaysQueued oneClaim.1 tr ∧ ¬NoDuplicate oneClaim tr := by
  have hsome : (runFrom (tick hashByFee) .start
      (sentAndLost ++ [.send (claimAt 8 100 1) .answered 1])).isSome = true := by decide +kernel
  have hrun := run_traceOf hsome
  have hlabels := label_traceOf hsome
  have hinj : ∀ x ∈ sentIn (traceOf (tick hashByFee) .start
      (sentAndLost ++ [.send (claimAt 8 100 1) .answered 1])).1, ∀ y ∈ sentIn (traceOf
        (tick hashByFee) .start (sentAndLost ++ [.send (claimAt 8 100 1) .answered 1])).1,
        hashByFee x = hashByFee y → x = y := by decide +kernel
  have hlast : ((traceOf (tick hashByFee) .start
      (sentAndLost ++ [.send (claimAt 8 100 1) .answered 1])).1.any fun e =>
        e.label = .send (claimAt 8 100 1) .answered 1 && e.pre.phase = .cleared oneClaim &&
          (oneClaim, claimAt 7 100 1) ∈ e.pre.node.live) = true := by decide +kernel
  refine ⟨_, _, hrun, fun x hx y hy => hinj x hx y hy, ?_, fun hkept => ?_⟩
  · intro e he seen hl
    have hlabel : e.label ∈ sentAndLost ++ [.send (claimAt 8 100 1) .answered 1] :=
      hlabels ▸ List.mem_map_of_mem he
    rw [hl] at hlabel
    simp only [sentAndLost, List.cons_append, List.nil_append, List.mem_cons, reduceCtorEq,
      Label.endTick.injEq, List.not_mem_nil, or_false, false_or] at hlabel
    rw [hlabel]
    exact List.mem_cons_self
  · obtain ⟨e, he, hall⟩ := List.any_eq_true.mp hlast
    simp only [Bool.and_eq_true, decide_eq_true_eq] at hall
    exact hkept e he _ _ _ hall.1.1 hall.1.2 _ hall.2

end Machine

end Keeper

end SelendraBridge
