import SelendraBridge.Signers.Accounts

/-!
# A chain with a gate

A gate is a contract on a chain or the program on a cluster, and of both a chain is made in the same
way (`SelendraBridge.Signers.chainExec`): calls are carried out at the time of the chain's clock,
what there is then is written down as a block, and the clock goes on. A block is confirmed some time
after it was written, and the confirmed ones are those that can be relied on.

| what a block shows of an id | what was done before it |
|---|---|
| it is cancelled | a cancellation of the id |
| it is locked since a time | a send of the id, by that time |

This is `SelendraBridge.Signers.remembers_run`. Whatever a chain does to an id, it does after it
hashed the id from a string that names the chain, and nothing but a send without a quorum of its
validators (`SelendraBridge.Deployment.behind_of_step`, `SelendraBridge.Deployment.quorum_of_step`).
-/

namespace SelendraBridge

open Signers

/-! ### The time of a call -/

/-- The time that a call of the contract sees. -/
def Gate.Label.isAt {σ : Type} (t : ℤ) : Gate.Label σ → Bool
  | .govern c _ => decide ((c.timestamp : ℤ) = t)
  | .transfer c _ => decide ((c.timestamp : ℤ) = t)
  | .tokens _ => true

/-- The time that an instruction sees, if it sees any. -/
def Solana.Label.isAt (t : ℤ) (l : Solana.Label) : Bool :=
  l.clock.all fun now => decide (now.toInt = t)

theorem Solana.Label.toInt_eq {t : ℤ} {l : Solana.Label} {now : BitVec 64} (h : l.isAt t = true)
    (hclock : l.clock = some now) : now.toInt = t := by
  rw [Solana.Label.isAt, hclock] at h
  exact of_decide_eq_true h

namespace Deployment

open Revert Transition Store

/-! ### A gate, whichever it is -/

/-- What a gate is run on: its storage and its time, or the accounts of the cluster. -/
def World : Deployment → Type
  | @evm σ _ => Gate.World σ
  | .solana _ => Solana.Accounts

/-- What can happen to it. -/
def Label : Deployment → Type
  | @evm σ _ => Gate.Label σ
  | .solana _ => Solana.Label

/-- **What a step of a gate leaves to be seen**: the deeds, the strings that were hashed into their
ids, and the seeds of the accounts that were written. -/
structure Effects where
  deeds : List Deed
  strings : List Bytes
  seeds : List (List Bytes)
  deriving DecidableEq

/-- **One step of a gate.** -/
def step : (D : Deployment) → D.World → D.Label → Option (D.World × Effects)
  | .evm E, w, l => (Gate.exec E w l).map fun r =>
    (r.1, ⟨Gate.deeds l r.2, Gate.hashedBy E ⟨w, l, r.2, r.1⟩, []⟩)
  | .solana R, s, l => (Solana.exec R s l).map fun r =>
    (r.1, ⟨Solana.deeds r.2, Solana.hashedBy R s l r.2, Solana.writesOf R ⟨s, l, r.2, r.1⟩⟩)

/-- Is a call carried out at a time? -/
def isAt : (D : Deployment) → ℤ → D.Label → Bool
  | .evm _, t, l => Gate.Label.isAt t l
  | .solana _, t, l => Solana.Label.isAt t l

/-- The signatures that a call comes with. -/
def presented : (D : Deployment) → D.Label → List Bytes
  | .evm _, l => Gate.presented l
  | .solana _, l => Solana.presented l

/-- Who signed a message, by a signature. -/
def signerOf : (D : Deployment) → Bytes32 → Bytes → Option Address
  | .evm E, message, signature => E.recover (toEthSignedMessageHash E.keccak256 message) signature
  | .solana R, message, signature => (Solana.signerOf R message signature).toOption

/-- The validators. -/
def IsValidator : (D : Deployment) → D.World → Address → Prop
  | .evm _, w, v => w.gate.isValidator v = true
  | .solana R, s, v => ∃ cfg, Solana.configOf R s = some cfg ∧ v ∈ cfg.validators

/-- How many of them have to sign. -/
def threshold : (D : Deployment) → D.World → ℕ
  | .evm _, w => w.gate.threshold.toNat
  | .solana R, s => ((Solana.configOf R s).map fun cfg => cfg.threshold.toNat).getD 0

/-- What can be read of a gate. -/
def contents : (D : Deployment) → D.World → Contents
  | .evm _, w => .block (some w.gate)
  | .solana _, s => .slot s

/-- What can be read before there is one. -/
def Blank : (D : Deployment) → Contents → Prop
  | .evm _, contents => contents = .block none
  | .solana R, contents => ∃ s, contents = .slot s ∧ Solana.Deployed R s

/-- Where a gate starts. -/
def Starts : (D : Deployment) → D.World → Prop
  | .evm _, w => Gate.Initial w
  | .solana R, s => Solana.Deployed R s

/-- The gate is set up under a chain id: a contract takes that of its chain, the program what it is
initialized with. -/
def ChainIdIs : (D : Deployment) → U64 → D.Label → Prop
  | .evm E, chainId, _ => E.chainId.toNat = chainId.toNat
  | .solana _, chainId, l => l.ChainIdIs chainId

/-- What the runtime of the program keeps to. -/
def Lawful : Deployment → Prop
  | .evm _ => True
  | .solana R => R.Lawful

/-- The accounts of the program that matter for an id are told apart from those that are written. -/
def Apart : Deployment → Bytes32 → List (List Bytes) → Prop
  | .evm _, _, _ => True
  | .solana R, id, seeds => Solana.Alone R Solana.configSeeds seeds ∧
    Solana.Alone R (Solana.executedSeeds id) seeds ∧ Solana.Alone R (Solana.sentSeeds id) seeds

/-- The gate is initialized, and never again. -/
def Opened : (D : Deployment) → D.World → Prop
  | .evm _, w => w.gate.setupDeadline ≠ 0
  | .solana _, _ => True

/-- What holds of a gate that was started, as far as an id is concerned. -/
def Sound : (D : Deployment) → U64 → Bytes32 → D.World → Prop
  | .evm _, _, _, w => w.gate.setupDeadline ≠ 0
  | .solana R, chainId, id, s => Solana.OnChain R chainId s ∧ Solana.Tokenless R s id

/-- The id is claimed or cancelled. -/
def Settled : (D : Deployment) → D.World → Bytes32 → Prop
  | .evm _, w, id => w.gate.executed id = true
  | .solana R, s, id => Solana.Marked R s (Solana.executedSeeds id)

/-- The id is refunded. -/
def Refunded : (D : Deployment) → D.World → Bytes32 → Prop
  | .evm _, w, id => w.gate.refunded id = true
  | .solana R, s, id => Solana.Marked R s (Solana.refundedSeeds id)

variable {D : Deployment} {w w' : D.World} {l : D.Label} {fx : Effects} {d : Deed} {id : Bytes32}
  {chainId : U64} {t : ℤ}

theorem Apart.mono {seeds seeds' : List (List Bytes)} (h : D.Apart id seeds)
    (hsub : ∀ sd ∈ seeds', sd ∈ seeds) : D.Apart id seeds' := by
  cases D with
  | evm E => trivial
  | solana R => exact ⟨h.1.mono hsub, h.2.1.mono hsub, h.2.2.mono hsub⟩

/-! ### A step -/

theorem opened_of_starts (h : D.Starts w) : D.Opened w := by
  cases D with
  | evm E => exact (Gate.Initial.gate_eq h).1
  | solana R => trivial

theorem Opened.step (hs : D.Opened w) (h : D.step w l = some (w', fx)) : D.Opened w' := by
  cases D with
  | evm E =>
    obtain ⟨⟨w₁, o⟩, he, heq⟩ := Option.map_eq_some_iff.mp h
    obtain ⟨rfl, rfl⟩ := Prod.mk.inj heq
    exact Gate.setupDeadline_step hs he
  | solana R => trivial

theorem sound_of_starts (hD : D.Lawful) (h : D.Starts w) : D.Sound chainId id w := by
  cases D with
  | evm E => exact (Gate.Initial.gate_eq h).1
  | solana R =>
    exact ⟨Solana.onChain_of_deployed hD h chainId, Solana.tokenless_of_deployed hD h id⟩

theorem Sound.step (hD : D.Lawful) (hs : D.Sound chainId id w) (h : D.step w l = some (w', fx))
    (hl : D.ChainIdIs chainId l) (hapart : D.Apart id fx.seeds) : D.Sound chainId id w' := by
  cases D with
  | evm E =>
    obtain ⟨⟨w₁, o⟩, he, heq⟩ := Option.map_eq_some_iff.mp h
    obtain ⟨rfl, rfl⟩ := Prod.mk.inj heq
    exact Gate.setupDeadline_step hs he
  | solana R =>
    obtain ⟨⟨s₁, log⟩, he, heq⟩ := Option.map_eq_some_iff.mp h
    obtain ⟨rfl, rfl⟩ := Prod.mk.inj heq
    exact ⟨hs.1.step hD he hapart.1 hl, hs.2.step hD he hapart.2.1 hapart.2.2⟩

/-- **An id is settled once**: by a claim or a cancellation, and it stays settled. -/
theorem settled_of_step (hD : D.Lawful) (hs : D.Opened w)
    (h : D.step w l = some (w', fx)) :
    (fx.deeds.filterMap Deed.settled = [] ∨ ∃ id, fx.deeds.filterMap Deed.settled = [id] ∧
      ¬D.Settled w id ∧ D.Settled w' id) ∧ ∀ id, D.Settled w id → D.Settled w' id := by
  cases D with
  | evm E =>
    obtain ⟨⟨w₁, o⟩, he, heq⟩ := Option.map_eq_some_iff.mp h
    obtain ⟨rfl, rfl⟩ := Prod.mk.inj heq
    exact ⟨Gate.settled_of_deeds he, fun id => (Gate.kept_step hs he).executed id⟩
  | solana R =>
    obtain ⟨⟨s₁, log⟩, he, heq⟩ := Option.map_eq_some_iff.mp h
    obtain ⟨rfl, rfl⟩ := Prod.mk.inj heq
    refine ⟨?_, fun id => Solana.marked_of_exec hD he⟩
    rw [Solana.filterMap_settled]
    exact Solana.settled_of_exec hD he

/-- **An id is refunded once.** -/
theorem refunded_of_step (hD : D.Lawful) (hs : D.Opened w)
    (h : D.step w l = some (w', fx)) :
    (fx.deeds.filterMap Deed.refunded = [] ∨ ∃ id, fx.deeds.filterMap Deed.refunded = [id] ∧
      ¬D.Refunded w id ∧ D.Refunded w' id) ∧ ∀ id, D.Refunded w id → D.Refunded w' id := by
  cases D with
  | evm E =>
    obtain ⟨⟨w₁, o⟩, he, heq⟩ := Option.map_eq_some_iff.mp h
    obtain ⟨rfl, rfl⟩ := Prod.mk.inj heq
    exact ⟨Gate.refunded_of_deeds he, fun id => (Gate.kept_step hs he).refunded id⟩
  | solana R =>
    obtain ⟨⟨s₁, log⟩, he, heq⟩ := Option.map_eq_some_iff.mp h
    obtain ⟨rfl, rfl⟩ := Prod.mk.inj heq
    refine ⟨?_, fun id => Solana.marked_of_exec hD he⟩
    rw [Solana.filterMap_refunded]
    exact Solana.refunded_of_exec hD he

/-- **What is cancelled was cancelled** by this step, or before. -/
theorem burned_of_step (hD : D.Lawful) (hs : D.Sound chainId id w)
    (h : D.step w l = some (w', fx)) (hapart : D.Apart id fx.seeds)
    (hid : Burned D ⟨t, D.contents w'⟩ id) :
    Burned D ⟨t, D.contents w⟩ id ∨ ⟨.cancel, id⟩ ∈ fx.deeds := by
  cases D with
  | evm E =>
    obtain ⟨⟨w₁, o⟩, he, heq⟩ := Option.map_eq_some_iff.mp h
    obtain ⟨rfl, rfl⟩ := Prod.mk.inj heq
    obtain ⟨g, hg, hburned⟩ := hid
    obtain rfl := Option.some.inj (Contents.block.inj hg)
    exact (Gate.cancelled_of_deeds hs he hburned).imp_left fun hold => ⟨_, rfl, hold⟩
  | solana R =>
    obtain ⟨⟨s₁, log⟩, he, heq⟩ := Option.map_eq_some_iff.mp h
    obtain ⟨rfl, rfl⟩ := Prod.mk.inj heq
    obtain ⟨s, hscene, howner, hhead⟩ := hid
    obtain rfl := Contents.slot.inj hscene
    exact (Solana.markedCancelled_of_deeds hD he hapart.2.1 hs.2.marker ⟨howner, hhead⟩).imp_left
      fun hold => ⟨_, rfl, hold.owner, hold.head⟩

/-- **What is locked since a time was sent then** by this step, or before. -/
theorem locked_of_step (hD : D.Lawful) (hs : D.Sound chainId id w)
    (h : D.step w l = some (w', fx)) (hat : D.isAt t l = true) (hapart : D.Apart id fx.seeds)
    {since : ℤ} (hid : Locked D ⟨t, D.contents w'⟩ id since) :
    Locked D ⟨t, D.contents w⟩ id since ∨ ⟨.send, id⟩ ∈ fx.deeds ∧ since = t := by
  cases D with
  | evm E =>
    obtain ⟨⟨w₁, o⟩, he, heq⟩ := Option.map_eq_some_iff.mp h
    obtain ⟨rfl, rfl⟩ := Prod.mk.inj heq
    obtain ⟨g, hg, hsent, rfl⟩ := hid
    obtain rfl := Option.some.inj (Contents.block.inj hg)
    exact (Gate.sentBy_of_deeds hs he hsent).imp (fun hold => ⟨_, rfl, hold, rfl⟩) fun hnew =>
      ⟨hnew, rfl⟩
  | solana R =>
    obtain ⟨⟨s₁, log⟩, he, heq⟩ := Option.map_eq_some_iff.mp h
    obtain ⟨rfl, rfl⟩ := Prod.mk.inj heq
    obtain ⟨s, hscene, howner, record, hread, halive, rfl⟩ := hid
    obtain rfl := Contents.slot.inj hscene
    rcases Solana.recordedSince_of_deeds hD he hapart.2.2 hs.2.record
      ⟨howner, record, hread, halive, rfl⟩ with hold | ⟨hnew, hclock⟩
    · obtain ⟨record', hread', halive', hsince⟩ := hold.alive
      exact .inl ⟨_, rfl, hold.owner, record', hread', halive', by rw [hsince]⟩
    · refine .inr ⟨hnew, ?_⟩
      exact Solana.Label.toInt_eq hat hclock

/-- As time goes on an id was locked before. -/
theorem locked_earlier {t' since : ℤ} {contents : Contents} (hle : t ≤ t')
    (h : Locked D ⟨t', contents⟩ id since) :
    ∃ since' ≤ since, Locked D ⟨t, contents⟩ id since' := by
  cases D with
  | evm E =>
    obtain ⟨g, hg, hsent, rfl⟩ := h
    exact ⟨t, hle, g, hg, hsent, rfl⟩
  | solana R => exact ⟨since, le_rfl, h⟩

/-- And what is cancelled was cancelled. -/
theorem burned_earlier {t' : ℤ} {contents : Contents} (h : Burned D ⟨t', contents⟩ id) :
    Burned D ⟨t, contents⟩ id := by
  cases D with
  | evm E => exact h
  | solana R => exact h

/-- **The string behind a deed.** -/
theorem behind_of_step (hs : D.Sound chainId id w) (hl : D.ChainIdIs chainId l)
    (h : D.step w l = some (w', fx)) (hd : d ∈ fx.deeds) :
    ∃ x ∈ fx.strings, d.Behind D.keccak256 chainId.toNat x := by
  cases D with
  | evm E =>
    obtain ⟨⟨w₁, o⟩, he, heq⟩ := Option.map_eq_some_iff.mp h
    obtain ⟨rfl, rfl⟩ := Prod.mk.inj heq
    have hl : E.chainId.toNat = chainId.toNat := hl
    rw [← hl]
    exact Gate.behind_of_deed he hd
  | solana R =>
    obtain ⟨⟨s₁, log⟩, he, heq⟩ := Option.map_eq_some_iff.mp h
    obtain ⟨rfl, rfl⟩ := Prod.mk.inj heq
    obtain ⟨cfg, hcfg, hbehind, -⟩ := Solana.of_deed he hd
    rw [hs.1.chainId cfg (Solana.hasConfig_of_configOf hcfg)] at hbehind
    exact hbehind

/-- **The quorum behind a deed.** -/
theorem quorum_of_step (h : D.step w l = some (w', fx)) (hd : d ∈ fx.deeds) {kind : SigKind}
    (hkind : d.act.kind = some kind) : ∃ signers : List Address, signers.Nodup ∧
      D.threshold w ≤ signers.length ∧ ∀ v ∈ signers, D.IsValidator w v ∧
        ∃ signature ∈ D.presented l,
          D.signerOf (kind.digest D.keccak256 d.id) signature = some v := by
  cases D with
  | evm E =>
    obtain ⟨⟨w₁, o⟩, he, heq⟩ := Option.map_eq_some_iff.mp h
    obtain ⟨rfl, rfl⟩ := Prod.mk.inj heq
    obtain ⟨signers, Q⟩ := Gate.quorum_of_deed he hd hkind
    exact ⟨signers, Q.nodup, Q.enough, fun v hv => ⟨Q.isValidator v hv, Q.signed v hv⟩⟩
  | solana R =>
    obtain ⟨⟨s₁, log⟩, he, heq⟩ := Option.map_eq_some_iff.mp h
    obtain ⟨rfl, rfl⟩ := Prod.mk.inj heq
    obtain ⟨cfg, hcfg, -, hquorum⟩ := Solana.of_deed he hd
    obtain ⟨signers, Q⟩ := hquorum kind hkind
    refine ⟨signers, Q.nodup, ?_, fun v hv => ⟨⟨cfg, hcfg, Q.isValidator v hv⟩, ?_⟩⟩
    · rw [threshold, hcfg]
      exact Q.enough
    · obtain ⟨sig, hsig, hsigner⟩ := Q.signed v hv
      exact ⟨sig, hsig, toOption_eq_some.mpr hsigner⟩

end Deployment

/-! ### Its chain -/

namespace Signers

open Transition Deployment

/-- **A gate in time**: the clock of its chain, the blocks, and how many of them are confirmed. -/
structure Timeline (D : Deployment) where
  gate : D.World
  clock : ℤ
  blocks : List Moment
  confirmed : ℕ

/-- What can happen next. -/
inductive Tick (D : Deployment)
  /-- The gate is called. -/
  | call (l : D.Label)
  /-- What there is becomes a block, and the clock goes on. -/
  | block (time : ℤ)
  /-- So many blocks are confirmed. -/
  | confirm (n : ℕ)

/-- **One step of a chain.** -/
def tick (D : Deployment) (c : Timeline D) : Tick D → Option (Timeline D × Effects)
  | .call l =>
    if D.isAt c.clock l = true then (D.step c.gate l).map fun r => ({ c with gate := r.1 }, r.2)
    else none
  | .block time =>
    if c.clock ≤ time then
      some ({ c with clock := time, blocks := c.blocks ++ [⟨c.clock, D.contents c.gate⟩] }, ⟨[], [], []⟩)
    else none
  | .confirm n =>
    if c.confirmed ≤ n ∧ n ≤ c.blocks.length then some ({ c with confirmed := n }, ⟨[], [], []⟩)
    else none

/-- A step of a run of a chain. -/
abbrev ChainStep (D : Deployment) := Entry (Timeline D) (Tick D) Effects

/-- **What is confirmed.** -/
def Timeline.past {D : Deployment} (c : Timeline D) : List Moment := c.blocks.take c.confirmed

/-- Where a run starts: blocks without a gate, and a gate that was just set up. -/
structure Timeline.Genesis {D : Deployment} (c : Timeline D) : Prop where
  starts : D.Starts c.gate
  blank : ∀ m ∈ c.blocks, D.Blank m.contents
  ordered : c.blocks.Pairwise fun m m' => m.time ≤ m'.time
  time_le : ∀ m ∈ c.blocks, m.time ≤ c.clock
  confirmed_le : c.confirmed ≤ c.blocks.length

/-- A call that sets a gate up does so under the chain id. -/
def Tick.ChainIdIs {D : Deployment} (chainId : U64) : Tick D → Prop
  | .call l => D.ChainIdIs chainId l
  | _ => True

variable {D : Deployment} {c₀ c c' : Timeline D} {a : Tick D} {fx : Effects}
  {tr : List (ChainStep D)} {id : Bytes32} {chainId : U64} {t : ℤ}

/-- The three kinds of steps. -/
theorem tick_cases (h : tick D c a = some (c', fx)) :
    (∃ l w, a = .call l ∧ D.isAt c.clock l = true ∧ D.step c.gate l = some (w, fx) ∧
      c' = { c with gate := w }) ∨
    (∃ time, c.clock ≤ time ∧ fx = ⟨[], [], []⟩ ∧
      c' = { c with clock := time, blocks := c.blocks ++ [⟨c.clock, D.contents c.gate⟩] }) ∨
    ∃ n, c.confirmed ≤ n ∧ n ≤ c.blocks.length ∧ fx = ⟨[], [], []⟩ ∧
      c' = { c with confirmed := n } := by
  cases a with
  | call l =>
    rw [tick] at h
    split at h
    · next hat =>
      obtain ⟨⟨w, fx'⟩, hstep, heq⟩ := Option.map_eq_some_iff.mp h
      obtain ⟨rfl, rfl⟩ := Prod.mk.inj heq
      exact .inl ⟨l, w, rfl, hat, hstep, rfl⟩
    · cases h
  | block time =>
    rw [tick] at h
    split at h
    · next hle =>
      obtain ⟨rfl, rfl⟩ := Prod.mk.inj (Option.some.inj h)
      exact .inr (.inl ⟨time, hle, rfl, rfl⟩)
    · cases h
  | confirm n =>
    rw [tick] at h
    split at h
    · next hle =>
      obtain ⟨rfl, rfl⟩ := Prod.mk.inj (Option.some.inj h)
      exact .inr (.inr ⟨n, hle.1, hle.2, rfl, rfl⟩)
    · cases h

/-! ### Its clock -/

/-- The blocks of a chain are in the order of their times, and none is of the future. -/
structure Timeline.InOrder (c : Timeline D) : Prop where
  ordered : c.blocks.Pairwise fun m m' => m.time ≤ m'.time
  time_le : ∀ m ∈ c.blocks, m.time ≤ c.clock
  confirmed_le : c.confirmed ≤ c.blocks.length

theorem Timeline.InOrder.tick (hc : c.InOrder) (h : tick D c a = some (c', fx)) : c'.InOrder := by
  rcases tick_cases h with ⟨l, w, -, -, -, rfl⟩ | ⟨time, hle, -, rfl⟩ | ⟨n, -, hle, -, rfl⟩
  · exact ⟨hc.ordered, hc.time_le, hc.confirmed_le⟩
  · refine ⟨List.pairwise_append.mpr ⟨hc.ordered, List.pairwise_singleton _ _, ?_⟩, ?_, ?_⟩
    · intro m hm m' hm'
      obtain rfl := List.mem_singleton.mp hm'
      exact hc.time_le m hm
    · intro m hm
      rcases List.mem_append.mp hm with hm | hm
      · exact (hc.time_le m hm).trans hle
      · obtain rfl := List.mem_singleton.mp hm
        exact hle
    · exact hc.confirmed_le.trans (by simp)
  · exact ⟨hc.ordered, hc.time_le, hle⟩

/-- **What is confirmed stays confirmed.** -/
theorem past_prefix_of_tick (hc : c.InOrder) (h : tick D c a = some (c', fx)) :
    c.past <+: c'.past := by
  rcases tick_cases h with ⟨l, w, -, -, -, rfl⟩ | ⟨time, -, -, rfl⟩ | ⟨n, hle, -, -, rfl⟩
  · exact List.prefix_refl _
  · rw [Timeline.past, Timeline.past, List.take_append_of_le_length hc.confirmed_le]
  · exact List.take_prefix_take_left hle

/-! ### Its memory -/

/-- **What a moment shows was done** in the steps so far. -/
structure Remembers (tr : List (ChainStep D)) (id : Bytes32) (m : Moment) : Prop where
  burned : Burned D m id → ∃ e ∈ tr, ⟨.cancel, id⟩ ∈ e.out.deeds
  locked : ∀ since, Locked D m id since → ∃ e ∈ tr, ⟨.send, id⟩ ∈ e.out.deeds ∧ e.pre.clock ≤ since

theorem Remembers.mono {tr' : List (ChainStep D)} {m : Moment} (h : Remembers tr id m)
    (hsub : ∀ e ∈ tr, e ∈ tr') : Remembers tr' id m where
  burned hid := (h.burned hid).imp fun e he => ⟨hsub e he.1, he.2⟩
  locked since hid := (h.locked since hid).imp fun e he => ⟨hsub e he.1, he.2⟩

/-- Where nothing was done yet, nothing shows. -/
theorem remembers_of_blank {m : Moment} (hD : D.Lawful) (h : D.Blank m.contents) :
    Remembers tr id m := by
  cases D with
  | evm E =>
    constructor
    · rintro ⟨g, hg, -⟩
      exact absurd (h.symm.trans hg) (by simp)
    · rintro since ⟨g, hg, -⟩
      exact absurd (h.symm.trans hg) (by simp)
  | solana R =>
    obtain ⟨s, hs, hdeployed⟩ := h
    have hnot (seeds : List Bytes) : (s (R.findProgramAddress seeds)).owner ≠ R.programId := by
      rw [(hdeployed.derived _ (hD.isDerived seeds)).owner]
      exact hD.programId_ne_systemId.symm
    constructor
    · rintro ⟨s', hs', howner, -⟩
      obtain rfl := Contents.slot.inj (hs.symm.trans hs')
      exact absurd howner (hnot _)
    · rintro since ⟨s', hs', howner, -⟩
      obtain rfl := Contents.slot.inj (hs.symm.trans hs')
      exact absurd howner (hnot _)

theorem remembers_of_starts {w : D.World} (hD : D.Lawful) (h : D.Starts w) :
    Remembers tr id ⟨t, D.contents w⟩ := by
  cases D with
  | evm E =>
    obtain ⟨-, -, -, hgate⟩ := Gate.Initial.gate_eq h
    constructor
    · rintro ⟨g, hg, hcancelled⟩
      obtain rfl := Option.some.inj (Contents.block.inj hg)
      rw [hgate] at hcancelled
      exact absurd hcancelled (by simp [Gate.blank])
    · rintro since ⟨g, hg, hsent, -⟩
      obtain rfl := Option.some.inj (Contents.block.inj hg)
      rw [hgate] at hsent
      exact absurd rfl hsent
  | solana R => exact remembers_of_blank hD ⟨w, rfl, h⟩

variable (id chainId) in
/-- A chain remembers what was done to an id. -/
structure Timeline.Remembers (tr : List (ChainStep D)) (c : Timeline D) : Prop where
  sound : D.Sound chainId id c.gate
  now : Signers.Remembers tr id ⟨c.clock, D.contents c.gate⟩
  blocks : ∀ m ∈ c.blocks, Signers.Remembers tr id m

theorem Timeline.Genesis.remembers (hD : D.Lawful) (h : c.Genesis) :
    c.Remembers id chainId [] where
  sound := sound_of_starts hD h.starts
  now := remembers_of_starts hD h.starts
  blocks m hm := remembers_of_blank hD (h.blank m hm)

/-- **And goes on to.** -/
theorem Timeline.Remembers.tick (hD : D.Lawful) (hc : c.Remembers id chainId tr)
    (h : tick D c a = some (c', fx)) (ha : a.ChainIdIs chainId) (hapart : D.Apart id fx.seeds) :
    c'.Remembers id chainId (tr ++ [⟨c, a, fx, c'⟩]) := by
  have hsub : ∀ e ∈ tr, e ∈ tr ++ [⟨c, a, fx, c'⟩] := fun e he => List.mem_append_left _ he
  have hblocks : ∀ m ∈ c.blocks, Signers.Remembers (tr ++ [⟨c, a, fx, c'⟩]) id m := fun m hm =>
    (hc.blocks m hm).mono hsub
  have hnow := hc.now.mono hsub
  rcases tick_cases h with ⟨l, w, rfl, hat, hstep, rfl⟩ | ⟨time, hle, -, rfl⟩ | ⟨n, -, -, -, rfl⟩
  · refine ⟨hc.sound.step hD hstep ha hapart, ⟨fun hid => ?_, fun since hid => ?_⟩, hblocks⟩
    · rcases burned_of_step hD hc.sound hstep hapart hid with hold | hnew
      · exact hnow.burned hold
      · exact ⟨_, List.mem_append_right _ (List.mem_singleton_self _), hnew⟩
    · rcases locked_of_step hD hc.sound hstep hat hapart hid with hold | ⟨hnew, rfl⟩
      · exact hnow.locked since hold
      · exact ⟨_, List.mem_append_right _ (List.mem_singleton_self _), hnew, le_rfl⟩
  · refine ⟨hc.sound, ⟨fun hid => hnow.burned (burned_earlier hid), fun since hid => ?_⟩, ?_⟩
    · obtain ⟨since', hsince, hid⟩ := locked_earlier hle hid
      obtain ⟨e, he, hsent, hclock⟩ := hnow.locked since' hid
      exact ⟨e, he, hsent, hclock.trans hsince⟩
    · intro m hm
      rcases List.mem_append.mp hm with hm | hm
      · exact hblocks m hm
      · obtain rfl := List.mem_singleton.mp hm
        exact hnow
  · exact ⟨hc.sound, hnow, hblocks⟩

/-! ### Its runs -/

theorem inOrder_run (h₀ : c₀.Genesis) (hrun : Run (tick D) c₀ tr c) : c.InOrder :=
  hrun.invariant ⟨h₀.ordered, h₀.time_le, h₀.confirmed_le⟩ fun _ _ _ _ hc h => hc.tick h

/-- **In every run a chain remembers.** -/
theorem remembers_run (hD : D.Lawful) (h₀ : c₀.Genesis) (hrun : Run (tick D) c₀ tr c)
    (hids : ∀ e ∈ tr, e.label.ChainIdIs chainId)
    (hapart : D.Apart id (tr.flatMap fun e => e.out.seeds)) : c.Remembers id chainId tr := by
  induction hrun with
  | nil => exact h₀.remembers hD
  | snoc hrun h ih =>
    rw [List.flatMap_append, List.flatMap_singleton] at hapart
    refine (ih (fun e he => hids e (List.mem_append_left _ he))
      (hapart.mono fun sd hsd => List.mem_append_left _ hsd)).tick hD h
      (hids _ (List.mem_append_right _ (List.mem_singleton_self _)))
      (hapart.mono fun sd hsd => List.mem_append_right _ hsd)

theorem opened_of_tick (hc : D.Opened c.gate) (h : tick D c a = some (c', fx)) :
    D.Opened c'.gate := by
  rcases tick_cases h with ⟨l, w, -, -, hstep, rfl⟩ | ⟨time, -, -, rfl⟩ | ⟨n, -, -, -, rfl⟩
  · exact hc.step hstep
  · exact hc
  · exact hc

/-- **What is marked once is done once.** -/
theorem nodup_run {names : Deed → Option Bytes32} {Marked : D.World → Bytes32 → Prop}
    (hmarks : ∀ w l w' fx, D.Opened w → D.step w l = some (w', fx) →
      (fx.deeds.filterMap names = [] ∨ ∃ id, fx.deeds.filterMap names = [id] ∧
        ¬Marked w id ∧ Marked w' id) ∧ ∀ id, Marked w id → Marked w' id)
    (h₀ : c₀.Genesis) (hrun : Run (tick D) c₀ tr c) :
    (tr.flatMap fun e => e.out.deeds.filterMap names).Nodup := by
  refine @Run.nodup_of_marks_of _ _ _ _ _ _ _ _ (fun fx => fx.deeds.filterMap names)
    (fun c id => Marked c.gate id) (fun c => D.Opened c.gate) (opened_of_starts h₀.starts)
    (fun c a c' fx hc h => opened_of_tick hc h) ?_ ?_ hrun
  · intro c a c' fx id hc h hid
    rcases tick_cases h with ⟨l, w, -, -, hstep, rfl⟩ | ⟨time, -, -, rfl⟩ | ⟨n, -, -, -, rfl⟩
    · exact (hmarks _ l w fx hc hstep).2 id hid
    · exact hid
    · exact hid
  · intro c a c' fx hc h
    rcases tick_cases h with ⟨l, w, -, -, hstep, rfl⟩ | ⟨time, -, rfl, -⟩ | ⟨n, -, -, rfl, -⟩
    · exact (hmarks _ l w fx hc hstep).1
    · exact .inl rfl
    · exact .inl rfl

/-- An id is claimed or cancelled once. -/
theorem nodup_settled (hD : D.Lawful) (h₀ : c₀.Genesis) (hrun : Run (tick D) c₀ tr c) :
    (tr.flatMap fun e => e.out.deeds.filterMap Deed.settled).Nodup :=
  nodup_run (fun _ _ _ _ hw h => settled_of_step hD hw h) h₀ hrun

/-- And refunded once. -/
theorem nodup_refunded (hD : D.Lawful) (h₀ : c₀.Genesis) (hrun : Run (tick D) c₀ tr c) :
    (tr.flatMap fun e => e.out.deeds.filterMap Deed.refunded).Nodup :=
  nodup_run (fun _ _ _ _ hw h => refunded_of_step hD hw h) h₀ hrun

end Signers

end SelendraBridge
