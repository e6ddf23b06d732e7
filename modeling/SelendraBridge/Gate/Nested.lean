import SelendraBridge.Gate.Reentrant

/-!
# Nonces under reentrancy

Whatever is called back from the token call of a send, and whatever of it reverts, the sends
that are left in the log continue their corridors one by one, have an id each, and keep the
senders they were written with: `SelendraBridge.Gate.nonces_sequential`. A send whose balance
delta is not its amount is not over but by a revert, and leaves nothing of what was nested in
it.

What carries this is an invariant of the storage and the log together
(`SelendraBridge.Gate.Accounted`): a corridor's nonces in the log are those below its next one.
The effects of a send keep it, since they are written at once; a token call in between finds it
true, and a revert brings back what it was true of (`Frames.Sound`).
-/

namespace SelendraBridge

namespace Gate

open Revert Transition Frames

variable {σ : Type} {E : Chain σ}

/-! ### The sends of a log -/

/-- What a `Sent` event says of the order of sends. -/
structure Sending where
  submissionId : Bytes32
  chainIdTo : U256
  nonce : U256
  nativeSender : Bytes
  deriving DecidableEq, Repr

/-- The send an event is of. -/
def Event.sending : Event → Option Sending
  | .sent submissionId _ _ _ _ chainIdTo _ nonce _ nativeSender _ =>
    some ⟨submissionId, chainIdTo, nonce, nativeSender⟩
  | _ => none

/-- The sends of a log. -/
def sendings (log : List Event) : List Sending := log.filterMap Event.sending

/-- The nonces of a log, of one corridor. -/
def noncesTo (chain : U256) (log : List Event) : List ℕ :=
  ((sendings log).filter fun s => s.chainIdTo = chain).map fun s => s.nonce.toNat

@[simp] theorem sendings_append (log log' : List Event) :
    sendings (log ++ log') = sendings log ++ sendings log' := List.filterMap_append ..

@[simp] theorem noncesTo_append (chain : U256) (log log' : List Event) :
    noncesTo chain (log ++ log') = noncesTo chain log ++ noncesTo chain log' := by
  simp only [noncesTo, sendings_append, List.filter_append, List.map_append]

theorem mem_noncesTo {log : List Event} {s : Sending} (h : s ∈ sendings log) :
    s.nonce.toNat ∈ noncesTo s.chainIdTo log :=
  List.mem_map.mpr ⟨s, List.mem_filter.mpr ⟨h, decide_eq_true rfl⟩, rfl⟩

/-- **Sends that differ in their corridor's nonces are told apart** by corridor and nonce. -/
theorem nodup_keys {sends : List Sending}
    (h : ∀ chain, ((sends.filter fun s => s.chainIdTo = chain).map fun s => s.nonce.toNat).Nodup) :
    (sends.map fun s => (s.chainIdTo, s.nonce)).Nodup := by
  induction sends with
  | nil => exact List.nodup_nil
  | cons s sends ih =>
    rw [List.map_cons, List.nodup_cons]
    constructor
    · intro hmem
      obtain ⟨s', hs', heq⟩ := List.mem_map.mp hmem
      obtain ⟨hchain, hnonce⟩ := Prod.mk.inj heq
      have hnodup := h s.chainIdTo
      rw [List.filter_cons_of_pos (by simp), List.map_cons, List.nodup_cons] at hnodup
      exact hnodup.1 (List.mem_map.mpr
        ⟨s', List.mem_filter.mpr ⟨hs', decide_eq_true hchain⟩, congrArg BitVec.toNat hnonce⟩)
    · refine ih fun chain => ?_
      have hsub : (sends.filter fun s => s.chainIdTo = chain).Sublist
          ((s :: sends).filter fun s => s.chainIdTo = chain) :=
        (List.sublist_cons_self s sends).filter _
      exact (h chain).sublist (hsub.map _)

/-! ### Only sends send -/

/-- Events of which none is of a send. -/
def Silent (log : List Event) : Prop := ∀ e ∈ log, e.sending = none

theorem Silent.sendings_eq {log : List Event} (h : Silent log) : sendings log = [] :=
  List.filterMap_eq_nil_iff.mpr h

@[simp] theorem silent_nil : Silent [] := fun _ h => absurd h List.not_mem_nil

@[simp] theorem silent_cons {e : Event} {log : List Event} :
    Silent (e :: log) ↔ e.sending = none ∧ Silent log := List.forall_mem_cons

@[simp] theorem silent_append {log log' : List Event} :
    Silent (log ++ log') ↔ Silent log ∧ Silent log' := List.forall_mem_append

/-- A result whose events are silent, if it has any. -/
def SilentResult (r : Result) : Prop := ∀ out, r = .ok out → Silent out.2

theorem SilentResult.bind {α : Type} {x : Except Error α} {f : α → Result}
    (h : ∀ a, SilentResult (f a)) : SilentResult (x >>= f) := by
  intro out hout
  obtain ⟨a, -, ha⟩ := bind_eq_ok.mp hout
  exact h a out ha

theorem silentResult_pure {g : Gate} {log : List Event} (h : Silent log) :
    SilentResult (pure (g, log)) := by
  intro out hout
  obtain rfl := Except.ok.inj hout
  exact h

/-- What is scheduled is announced, and no more. -/
theorem silent_schedule {c : Call} {g : Gate} {id : Bytes32} : Silent (schedule c g id).2 := by
  simp [schedule, Event.sending]

/-- **The owner and the guardian send nothing**, once the gate is past its migration. -/
theorem silent_govern {c : Call} {g g' : Gate} {tokens : σ} {x : GovCall} {log : List Event}
    (hd : g.setupDeadline ≠ 0) (h : govern E c g tokens x = .ok (g', log)) : Silent log := by
  refine (?_ : SilentResult (govern E c g tokens x)) _ h
  cases x with
  | migrate legacyTokens legacyChains =>
    intro out hout
    simp only [govern, initializeV2, bind_eq_ok, exists_unit, revertIf_eq_ok, not_not] at hout
    obtain ⟨-, -, hzero, -⟩ := hout
    exact absurd hzero hd
  | setValidator v active =>
    rw [govern, setValidator]
    refine .bind fun _ => .bind fun _ => ?_
    split
    · exact .bind fun _ => .bind fun _ => silentResult_pure (by simp [Event.sending])
    split
    · exact .bind fun _ => .bind fun _ => silentResult_pure (by simp [Event.sending])
    · exact silentResult_pure silent_nil
  | setGuardian newGuardian =>
    rw [govern, setGuardian]
    refine .bind fun _ => ?_
    dsimp only
    split
    · exact silentResult_pure silent_nil
    · exact .bind fun _ => silentResult_pure (by simp [Event.sending])
  | pause =>
    rw [govern, pause]
    refine .bind fun _ => ?_
    split
    · exact silentResult_pure (by simp [Event.sending])
    · exact silentResult_pure silent_nil
  | unpause =>
    rw [govern, unpause]
    refine .bind fun _ => ?_
    split
    · exact silentResult_pure (by simp [Event.sending])
    · exact silentResult_pure silent_nil
  -- The rest is checks, one after the other, and then its events.
  | _ =>
    simp only [govern, scheduleUpgrade, cancelScheduledUpgrade, upgradeToAndCall, transferOwnership,
      acceptOwnership, scheduleAddValidator, scheduleLowerThreshold, scheduleSetLocalToken,
      scheduleSetBridgeDecimals, scheduleSetGuardian, cancelScheduledGovernance, setThreshold,
      setLocalToken, setBridgeDecimals, sealGate, setSupportedChain, setMinSendAmount]
    repeat refine SilentResult.bind fun _ => ?_
    exact silentResult_pure (by simp [silent_schedule, Event.sending])

/-- **A step other than a send** moves no nonce, and sends nothing. -/
theorem nonceTo_of_not_send {v v' : World σ} {l : Label σ} {o : Out}
    (hd : v.gate.setupDeadline ≠ 0) (h : exec E v l = some (v', o)) (hl : l.isSend = false) :
    v'.gate.nonceTo = v.gate.nonceTo ∧ Silent o.log := by
  cases l with
  | govern c x =>
    obtain ⟨-, -, hgov, -⟩ := exec_govern h
    exact ⟨congrArg Books.nonceTo (governed_of_govern hgov hd).books, silent_govern hd hgov⟩
  | transfer c x =>
    obtain ⟨-, -, r, hr, rfl, rfl⟩ := exec_transfer h
    cases x with
    | send a => cases hl
    | claim a =>
      obtain ⟨localAmount, recipient, C⟩ := claims_of_claim hr
      dsimp only
      rw [C.gate, C.log]
      exact ⟨rfl, by simp [Event.sending]⟩
    | cancel a =>
      have C := cancels_of_cancel hr
      dsimp only
      rw [C.gate, C.log]
      exact ⟨rfl, by simp [Event.sending]⟩
    | refund a =>
      obtain ⟨localAmount, R⟩ := refunds_of_refund hr
      dsimp only
      rw [R.gate, R.log]
      exact ⟨rfl, by simp [Event.sending]⟩
  | tokens s =>
    obtain ⟨rfl, rfl⟩ := exec_tokens h
    exact ⟨rfl, silent_nil⟩

/-- **A sender is kept**, by a step other than a send, until it is refunded. -/
theorem sentBy_of_not_send {v v' : World σ} {l : Label σ} {o : Out}
    (hd : v.gate.setupDeadline ≠ 0) (h : exec E v l = some (v', o)) (hl : l.isSend = false)
    (id : Bytes32) : v'.gate.sentBy id = v.gate.sentBy id ∨
      v'.gate.refunded id = true ∧ v'.gate.sentBy id = 0 := by
  have hsend : ∀ c a, l = .transfer c (.send a) → o.id ≠ some id := by
    rintro c a rfl
    cases hl
  by_cases hrefund : ∃ c a, l = .transfer c (.refund a) ∧ o.id = some id
  · obtain ⟨c, a, rfl, hid⟩ := hrefund
    obtain ⟨localAmount, id', R⟩ := refunded_of_exec (e := ⟨v, _, o, v'⟩) h rfl
    obtain rfl : id' = id := Option.some.inj (R.out.symm.trans hid)
    refine .inr ⟨R.marks, ?_⟩
    have hg : v'.gate.sentBy = Function.update v.gate.sentBy id' 0 := congrArg sentBy R.spec.gate
    rw [hg, Function.update_self]
  · refine .inl (sentBy_frame hd h hsend fun c a heq hid => hrefund ⟨c, a, heq, hid⟩)

/-! ### The storage and its log -/

/-- **The books answer to the log**: a corridor's nonces in it are those below its next one, each
send has an id that names its corridor and nonce, and the sender of an id is the one who sent
it. -/
structure Accounted (E : Chain σ) (strings : List Bytes) (k : Core σ) : Prop where
  setup : k.gate.setupDeadline ≠ 0
  nonces : ∀ chain, noncesTo chain k.log = List.range (k.gate.nonceTo chain).toNat
  hashed : ∀ s ∈ sendings k.log, ∃ sub : Submission, sub.preimage ∈ strings ∧
    E.keccak256 sub.preimage = s.submissionId ∧ sub.chainIdTo = s.chainIdTo ∧ sub.nonce = s.nonce
  listed : ∀ id, k.gate.sentBy id ≠ 0 → ∃ s ∈ sendings k.log,
    s.submissionId = id ∧ s.nativeSender = addressBytes (k.gate.sentBy id)
  kept : ∀ s ∈ sendings k.log, k.gate.refunded s.submissionId = true ∨
    s.nativeSender = addressBytes (k.gate.sentBy s.submissionId)

variable {strings : List Bytes} {k k' : Core σ}

/-- One id, one send. -/
theorem Accounted.key_eq (h : Accounted E strings k) (hcoll : CollisionFree E.keccak256 strings)
    {s s' : Sending} (hs : s ∈ sendings k.log) (hs' : s' ∈ sendings k.log)
    (hid : s.submissionId = s'.submissionId) : s.chainIdTo = s'.chainIdTo ∧ s.nonce = s'.nonce := by
  obtain ⟨sub, hmem, hsub, hchain, hnonce⟩ := h.hashed s hs
  obtain ⟨sub', hmem', hsub', hchain', hnonce'⟩ := h.hashed s' hs'
  have heq : sub.preimage = sub'.preimage :=
    hcoll _ hmem _ hmem' (hsub.trans (hid.trans hsub'.symm))
  obtain rfl := Submission.preimage_inj heq
  exact ⟨hchain.symm.trans hchain', hnonce.symm.trans hnonce'⟩

/-- **The ids of the log are pairwise distinct.** -/
theorem Accounted.nodup (h : Accounted E strings k) (hcoll : CollisionFree E.keccak256 strings) :
    ((sendings k.log).map Sending.submissionId).Nodup := by
  have hkeys : ((sendings k.log).map fun s => (s.chainIdTo, s.nonce)).Nodup := by
    refine nodup_keys fun chain => ?_
    have hnonces := h.nonces chain
    rw [noncesTo] at hnonces
    rw [hnonces]
    exact List.nodup_range
  rw [List.nodup_iff_pairwise_ne, List.pairwise_map] at hkeys ⊢
  refine hkeys.imp_of_mem fun hs hs' hne hid => hne ?_
  obtain ⟨hchain, hnonce⟩ := h.key_eq hcoll hs hs' hid
  rw [hchain, hnonce]

/-- A gate just initialized. -/
theorem Initial.accounted {w : World σ} (h : Initial w) (strings : List Bytes) :
    Accounted E strings ⟨w.gate, w.tokens, w.upgraded, []⟩ := by
  obtain ⟨hd, -, -, hg⟩ := h.gate_eq
  refine ⟨hd, fun chain => ?_, fun s hs => absurd hs List.not_mem_nil, fun id hid => ?_,
    fun s hs => absurd hs List.not_mem_nil⟩
  · dsimp only
    rw [hg]
    rfl
  · dsimp only at hid
    rw [hg] at hid
    exact absurd rfl hid

/-- **The effects of a send keep the account**, at once. -/
theorem Accounted.start {c : Call} {a : SendArgs} {gate : Gate} {event : Event} {id : Bytes32}
    (h : Accounted E strings k) (hcoll : CollisionFree E.keccak256 strings)
    (hstart : startSend E c k.gate a = .ok (gate, event, id))
    (hhashed : ∀ bs ∈ (TransferCall.send a).hashed E c k.gate, bs ∈ strings) :
    Accounted E strings { k with gate, log := k.log ++ [event] } := by
  obtain ⟨wire, S, rfl⟩ := starts_of_startSend hstart
  set nonce := k.gate.nonceTo a.chainIdTo with hnonce
  set new : Sending := ⟨id, a.chainIdTo, nonce, addressBytes c.sender⟩
  have hnew : ∀ log, sendings (log ++ [Event.sent id
      (BridgeHash.getDebridgeId E.keccak256 E.chainId a.token) wire
      (k.gate.bridgeDecimalsOf a.token).bridgeDecimals E.chainId a.chainIdTo a.receiver nonce
      a.autoParams (addressBytes c.sender) a.token]) = sendings log ++ [new] :=
    fun log => sendings_append ..
  obtain ⟨sub, hsub, hid⟩ := idFor_eq_ok.mp S.id_eq
  have hnamed : sub.preimage ∈ strings ∧ E.keccak256 sub.preimage = new.submissionId ∧
      sub.chainIdTo = new.chainIdTo ∧ sub.nonce = new.nonce := by
    obtain ⟨-, -, -, -, -, hchain, hn, -⟩ := submission_eq_some hsub
    refine ⟨hhashed _ ?_, hid, hchain, hn⟩
    rw [TransferCall.hashed, S.wire_eq]
    simp [idPreimage_eq_some.mpr ⟨sub, hsub, rfl⟩]
  -- No send of the log has the id: its nonce is below the one that is taken now.
  have hfresh : ∀ s ∈ sendings k.log, s.submissionId ≠ id := by
    intro s hs heq
    obtain ⟨sub', hmem', hsub', hchain', hnonce'⟩ := h.hashed s hs
    have hpre : sub'.preimage = sub.preimage :=
      hcoll _ hmem' _ hnamed.1 (hsub'.trans (heq.trans hnamed.2.1.symm))
    obtain rfl := Submission.preimage_inj hpre
    have hlt := mem_noncesTo hs
    rw [h.nonces, List.mem_range, ← hchain', ← hnonce', hnamed.2.2.1, hnamed.2.2.2] at hlt
    exact lt_irrefl _ hlt
  have hgate := S.gate
  constructor
  · dsimp only
    rw [hgate]
    exact h.setup
  · intro chain
    dsimp only
    rw [noncesTo_append, h.nonces]
    have hg : gate.nonceTo =
        Function.update k.gate.nonceTo a.chainIdTo (gate.nonceTo a.chainIdTo) :=
      congrArg nonceTo hgate
    rcases eq_or_ne chain a.chainIdTo with rfl | hne
    · rw [S.nonce, List.range_succ]
      simp [noncesTo, sendings, Event.sending, hnonce]
    · rw [hg, Function.update_of_ne hne]
      simp [noncesTo, sendings, Event.sending, hne.symm]
  · intro s hs
    dsimp only at hs
    rw [hnew, List.mem_append, List.mem_singleton] at hs
    rcases hs with hs | rfl
    · exact h.hashed s hs
    · exact ⟨sub, hnamed⟩
  · intro id' hne
    have hg : gate.sentBy = Function.update k.gate.sentBy id c.sender := congrArg sentBy hgate
    dsimp only at hne ⊢
    rw [hnew]
    rcases eq_or_ne id' id with rfl | hid'
    · rw [hg, Function.update_self]
      exact ⟨new, List.mem_append_right _ List.mem_cons_self, rfl, rfl⟩
    · rw [hg, Function.update_of_ne hid'] at hne ⊢
      obtain ⟨s, hs, hsid, hsender⟩ := h.listed id' hne
      exact ⟨s, List.mem_append_left _ hs, hsid, hsender⟩
  · intro s hs
    have hg : gate.sentBy = Function.update k.gate.sentBy id c.sender := congrArg sentBy hgate
    have hr : gate.refunded = k.gate.refunded := by rw [hgate]
    dsimp only at hs ⊢
    rw [hnew, List.mem_append, List.mem_singleton] at hs
    rcases hs with hs | rfl
    · rw [hg, hr, Function.update_of_ne (hfresh s hs)]
      exact h.kept s hs
    · rw [hg, Function.update_self]
      exact .inr rfl

/-- **So do the gate's other calls.** -/
theorem Accounted.other {l : Label σ} {now : ℕ} {v : World σ} {o : Out}
    (h : Accounted E strings k) (hl : l.isSend = false)
    (he : exec E ⟨k.gate, k.tokens, now, k.upgraded⟩ l = some (v, o)) :
    Accounted E strings ⟨v.gate, v.tokens, v.upgraded, k.log ++ o.log⟩ := by
  have hd : (⟨k.gate, k.tokens, now, k.upgraded⟩ : World σ).gate.setupDeadline ≠ 0 := h.setup
  obtain ⟨hnonce, hsilent⟩ := nonceTo_of_not_send hd he hl
  have hsends : sendings (k.log ++ o.log) = sendings k.log := by
    rw [sendings_append, hsilent.sendings_eq, List.append_nil]
  have hby := sentBy_of_not_send hd he hl
  have hkept := kept_step hd he
  constructor
  · exact setupDeadline_step hd he
  · intro chain
    dsimp only
    rw [noncesTo, hsends, hnonce]
    exact h.nonces chain
  · intro s hs
    exact h.hashed s (hsends ▸ hs)
  · intro id hid
    dsimp only at hid ⊢
    rw [hsends]
    rcases hby id with hsame | ⟨-, hzero⟩
    · rw [hsame] at hid ⊢
      exact h.listed id hid
    · exact absurd hzero hid
  · intro s hs
    dsimp only at hs ⊢
    rw [hsends] at hs
    rcases h.kept s hs with hrefunded | hsender
    · exact .inl (hkept.refunded _ hrefunded)
    · rcases hby s.submissionId with hsame | ⟨hrefunded, -⟩
      · exact .inr (by rw [hsame]; exact hsender)
      · exact .inl hrefunded

/-! ### Along a run -/

/-- **What a step hashed** into the id of a send. -/
def nestHashed (E : Chain σ) (e : NestStep σ) : List Bytes :=
  match e.label with
  | .enter c a => (TransferCall.send a).hashed E c e.pre.core.gate
  | _ => []

/-- What a run hashed. -/
def nestHashedIn (E : Chain σ) (tr : List (NestStep σ)) : List Bytes := tr.flatMap (nestHashed E)

variable {w₀ w w' : Nest σ} {tr tr' : List (NestStep σ)}

/-- The books answer to a log that goes on from one there was. -/
def Continues (E : Chain σ) (strings : List Bytes) (base : List Event) (k : Core σ)
    (_ : List Frame) : Prop := Accounted E strings k ∧ base <+: k.log

/-- **One step keeps the account**, now and after every revert to come. -/
theorem sound_step {base : List Event} {l : Move σ} {o : Unit}
    (hcoll : CollisionFree E.keccak256 strings)
    (h : Sound (Continues E strings base) w.core w.stack)
    (he : nestExec E w l = some (w', o))
    (hhashed : ∀ bs ∈ nestHashed E ⟨w, l, o, w'⟩, bs ∈ strings) :
    Sound (Continues E strings base) w'.core w'.stack := by
  obtain ⟨hacc, hbase⟩ := h.now
  cases stepped_of_exec he with
  | enter start =>
    exact h.push ⟨hacc.start hcoll start hhashed, hbase.trans (List.prefix_append _ _)⟩
  | foreign => exact h.push ⟨hacc, hbase⟩
  | move stack =>
    rw [stack] at h
    exact h.replace ⟨⟨hacc.setup, hacc.nonces, hacc.hashed, hacc.listed, hacc.kept⟩, hbase⟩
  | resume stack finished =>
    rw [stack] at h
    exact h.pop ⟨hacc, hbase⟩
  | revert stack =>
    rw [stack] at h
    exact h.revert
  | other send step =>
    exact h.change ⟨hacc.other send step, hbase.trans (List.prefix_append _ _)⟩

/-- **So does a run.** -/
theorem sound_run {base : List Event} (hcoll : CollisionFree E.keccak256 strings)
    (h₀ : Sound (Continues E strings base) w₀.core w₀.stack)
    (hrun : Run (nestExec E) w₀ tr w) (hhashed : ∀ bs ∈ nestHashedIn E tr, bs ∈ strings) :
    Sound (Continues E strings base) w.core w.stack := by
  refine hrun.rec_trace (P := fun tr w => (∀ bs ∈ nestHashedIn E tr, bs ∈ strings) →
    Sound (Continues E strings base) w.core w.stack) (fun _ => h₀) ?_ hhashed
  rintro tr v l v' o - ih he hsub
  rw [nestHashedIn, List.flatMap_append, List.flatMap_singleton] at hsub
  exact sound_step hcoll (ih fun bs hbs => hsub bs (List.mem_append_left _ hbs)) he
    fun bs hbs => hsub bs (List.mem_append_right _ hbs)

/-! ### A send that is not over -/

/-- A stage of a send: what it was called with and what it read stay. -/
def StageOf (c : Call) (a : SendArgs) (balBefore : U256) : Frame → Prop
  | .send c' a' balBefore' _ => c' = c ∧ a' = a ∧ balBefore' = balBefore
  | .foreign => False

/-- **A step either leaves a call under way, or ends it**: by a revert, with what there was when
it began, or because its last half went through. -/
theorem within_step {P : Frame → Prop} {rest : List (Frame × Core σ)} {l : Move σ} {o : Unit}
    (hP : ∀ c a b, P (.send c a b false) → P (.send c a b true))
    (h : Within P k rest w.stack) (he : nestExec E w l = some (w', o)) :
    Within P k rest w'.stack ∨ w'.stack = rest ∧
      (w'.core = k ∨ ∃ f, P f ∧ f.resume E w.core.tokens = .ok ()) := by
  cases stepped_of_exec he with
  | enter start => exact .inl (h.push _)
  | foreign => exact .inl (h.push _)
  | move stack =>
    rw [stack] at h
    exact .inl (h.replace (hP _ _ _))
  | resume stack finished =>
    rw [stack] at h
    rcases h.pop with ⟨-, hrest, hf⟩ | h
    · exact .inr ⟨hrest, .inr ⟨_, hf, finished⟩⟩
    · exact .inl h
  | revert stack =>
    rw [stack] at h
    rcases h.pop with ⟨hsaved, hrest, -⟩ | h
    · exact .inr ⟨hrest, .inl hsaved⟩
    · exact .inl h
  | other send step => exact .inl h

/-- **A send whose balance delta is not its amount leaves no trace**: however its call ends, it
leaves what there was when it began, whatever was nested in it. -/
def LeavesNoTrace (E : Chain σ) (tr : List (NestStep σ)) : Prop :=
  ∀ pre e mid last rest c a, tr = pre ++ e :: (mid ++ last :: rest) → e.label = .enter c a →
    (∀ x ∈ mid, e.pre.stack.length < x.post.stack.length) →
    last.post.stack.length = e.pre.stack.length →
    (E.tokens.balanceOf last.pre.core.tokens a.token E.gate).toNat ≠
      (E.tokens.balanceOf e.pre.core.tokens a.token E.gate).toNat + a.amount.toNat →
    last.post.core = e.pre.core ∧ last.post.stack = e.pre.stack

theorem leavesNoTrace (hrun : Run (nestExec E) w tr w') : LeavesNoTrace E tr := by
  rintro pre e mid last rest c a rfl hlabel hmid hlast hdelta
  obtain ⟨-, henter, htail⟩ := hrun.split
  obtain ⟨hrest, hstep, -⟩ := htail.split
  obtain ⟨v, l, o, v'⟩ := e
  obtain rfl : l = .enter c a := hlabel
  dsimp only at henter hrest hmid hlast hdelta ⊢
  set balBefore := E.tokens.balanceOf v.core.tokens a.token E.gate with hbal
  -- The call is under way until the last of these steps.
  have hwithin : Within (StageOf c a balBefore) v.core v.stack last.pre.stack := by
    refine hrest.rec_trace (P := fun mid u =>
      (∀ x ∈ mid, v.stack.length < x.post.stack.length) →
        Within (StageOf c a balBefore) v.core v.stack u.stack) ?_ ?_ hmid
    · intro _
      cases stepped_of_exec henter with
      | enter start => exact within_push ⟨rfl, rfl, rfl⟩
    · rintro mid' u l' u' o' - ih he hdeep
      have hw := ih fun x hx => hdeep x (List.mem_append_left _ hx)
      rcases within_step (fun _ _ _ h => h) hw he with h | ⟨hover, -⟩
      · exact h
      · have hlt := hdeep _ (List.mem_append_right _ List.mem_cons_self)
        dsimp only at hlt
        rw [hover] at hlt
        exact absurd hlt (lt_irrefl _)
  rcases within_step (fun _ _ _ h => h) hwithin hstep with h | ⟨hstack, hcore | ⟨f, hf, hover⟩⟩
  · exact absurd hlast h.length_lt.ne'
  · exact ⟨hcore, hstack⟩
  · -- The last half goes through only with the very amount.
    cases f with
    | foreign => exact hf.elim
    | send c' a' b moved =>
      obtain ⟨rfl, rfl, rfl⟩ := hf
      cases moved with
      | false => cases hover
      | true =>
        simp only [Frame.resume, finishSend, bind_eq_ok, checkedSub_eq_ok, revertIf_eq_ok,
          not_not] at hover
        obtain ⟨received, hreceived, rfl⟩ := hover
        omega

/-! ### Transactions -/

/-- A gate just initialized, that nobody has called. -/
structure Deployed (w : Nest σ) : Prop where
  initial : Initial ⟨w.core.gate, w.core.tokens, w.now, w.core.upgraded⟩
  log : w.core.log = []
  stack : w.stack = []

/-- **From one state between transactions to a later one**, with the events that were committed in
between. -/
structure Sequential (w w' : Nest σ) (new : List Event) : Prop where
  log : w'.core.log = w.core.log ++ new
  /-- The nonces of each corridor continue its sequence. -/
  nonces : ∀ chain, noncesTo chain new =
    List.range' (w.core.gate.nonceTo chain).toNat (noncesTo chain new).length
  next : ∀ chain, (w'.core.gate.nonceTo chain).toNat =
    (w.core.gate.nonceTo chain).toNat + (noncesTo chain new).length
  /-- The ids are pairwise distinct, and distinct from all before. -/
  ids : ((sendings w'.core.log).map Sending.submissionId).Nodup
  /-- A send finds no sender under its id. -/
  unwritten : ∀ s ∈ sendings new, w.core.gate.sentBy s.submissionId = 0
  /-- And the one it writes stays there, up to a refund. -/
  written : ∀ s ∈ sendings new, w'.core.gate.refunded s.submissionId = true ∨
    s.nativeSender = addressBytes (w'.core.gate.sentBy s.submissionId)
  kept : ∀ id, w.core.gate.sentBy id ≠ 0 → w'.core.gate.refunded id = true ∨
    w'.core.gate.sentBy id = w.core.gate.sentBy id

/-- What goes on a range to a longer one. -/
theorem eq_range'_of_append {m n : ℕ} {l : List ℕ} (h : List.range m ++ l = List.range n) :
    l = List.range' m l.length ∧ n = m + l.length := by
  have hlen : n = m + l.length := by
    have := congrArg List.length h
    simpa using this.symm
  refine ⟨?_, hlen⟩
  rw [hlen, List.range_add, List.append_cancel_left_eq] at h
  rw [List.range'_eq_map_range]
  exact h

/-- **Accounts that continue each other.** -/
theorem sequential_of_accounted (hcoll : CollisionFree E.keccak256 strings)
    (h : Accounted E strings w.core) (h' : Accounted E strings w'.core)
    (hlog : w.core.log <+: w'.core.log) : ∃ new, Sequential w w' new := by
  obtain ⟨new, hnew⟩ := hlog
  have hsends : sendings w'.core.log = sendings w.core.log ++ sendings new := by
    rw [← hnew, sendings_append]
  have hids := h'.nodup hcoll
  have hrange : ∀ chain, List.range (w.core.gate.nonceTo chain).toNat ++ noncesTo chain new =
      List.range (w'.core.gate.nonceTo chain).toNat := by
    intro chain
    rw [← h.nonces chain, ← h'.nonces chain, ← hnew, noncesTo_append]
  refine ⟨new, hnew.symm, fun chain => (eq_range'_of_append (hrange chain)).1,
    fun chain => (eq_range'_of_append (hrange chain)).2, hids, ?_, ?_, ?_⟩
  · intro s hs
    by_contra hne
    obtain ⟨s', hs', hid, -⟩ := h.listed _ hne
    rw [hsends, List.map_append, List.nodup_append] at hids
    exact hids.2.2 _ (List.mem_map_of_mem hs') _ (List.mem_map_of_mem hs) hid
  · intro s hs
    exact h'.kept s (by rw [hsends]; exact List.mem_append_right _ hs)
  · intro id hne
    obtain ⟨s, hs, rfl, hsender⟩ := h.listed id hne
    rcases h'.kept s (by rw [hsends]; exact List.mem_append_left _ hs) with hrefunded | hsender'
    · exact .inl hrefunded
    · exact .inr (addressBytes_inj.mp (hsender'.symm.trans hsender))

/-- **Nonces stay sequential under reentrancy.** From any state between transactions to any state
thereafter, the end of a transaction or not, and whatever the tokens called back in between, to
any depth, and whatever of it reverted: the sends that were committed continue the nonces of their
corridors, their ids are pairwise distinct, no sender is overwritten, and a send whose balance
delta is not its amount leaves no trace. -/
theorem nonces_sequential (h₀ : Deployed w₀) (hrun : Run (nestExec E) w₀ tr w)
    (hstart : w.stack = []) (htx : Run (nestExec E) w tr' w')
    (hcoll : CollisionFree E.keccak256 (nestHashedIn E (tr ++ tr'))) :
    (∃ new, Sequential w w' new) ∧ LeavesNoTrace E tr' := by
  have hin : ∀ bs ∈ nestHashedIn E tr, bs ∈ nestHashedIn E (tr ++ tr') := by
    intro bs hbs
    rw [nestHashedIn, List.flatMap_append]
    exact List.mem_append_left _ hbs
  have hin' : ∀ bs ∈ nestHashedIn E tr', bs ∈ nestHashedIn E (tr ++ tr') := by
    intro bs hbs
    rw [nestHashedIn, List.flatMap_append]
    exact List.mem_append_right _ hbs
  have hinit : Accounted E (nestHashedIn E (tr ++ tr')) w₀.core := by
    have hacc := h₀.initial.accounted (E := E) (nestHashedIn E (tr ++ tr'))
    rw [← h₀.log] at hacc
    exact hacc
  have hsound : Sound (Continues E (nestHashedIn E (tr ++ tr')) []) w.core w.stack := by
    refine sound_run hcoll ?_ hrun hin
    rw [h₀.stack]
    exact ⟨hinit, List.nil_prefix⟩
  have hacc := hsound.now.1
  have hsound' : Sound (Continues E (nestHashedIn E (tr ++ tr')) w.core.log) w'.core w'.stack := by
    refine sound_run hcoll ?_ htx hin'
    rw [hstart]
    exact ⟨hacc, List.prefix_rfl⟩
  obtain ⟨hacc', hlog⟩ := hsound'.now
  exact ⟨sequential_of_accounted hcoll hacc hacc' hlog, leavesNoTrace htx⟩

/-! ### A token that calls back -/

/-- The gate of the concrete runs, with nobody calling. -/
def startedNest (tokens : Ledger) : Nest Ledger :=
  ⟨⟨(started tokens).gate, tokens, false, []⟩, [], 1000⟩

/-- The token and the corridor are set up. -/
def settingUp : List (NestStep Ledger) × Nest Ledger :=
  traceOf (nestExec (tableChain 1 0xf1)) (startedNest funded)
    [.other (.govern (callAt 0x0a 1001) (.setBridgeDecimals 0xaa 6)),
      .other (.govern (callAt 0x0a 1002) (.setSupportedChain 2 true))]

/-- A send, from whose token call another is made, and goes through; the token then takes its
word back, so that the outer one goes through as well. -/
def sentTwice : List (NestStep Ledger) × Nest Ledger :=
  traceOf (nestExec (tableChain 1 0xf1)) settingUp.2
    [.enter (callAt 0xcc 1003) lockedSend, .foreign, .enter (callAt 0xcc 1003) lockedSend, .move,
      .resume, .resume, .other (.tokens funded), .move, .resume]

/-- **Two sends, one in the other**: both are committed, with the corridor's first two nonces. -/
theorem nonces_sequential_sentTwice :
    (sentTwice.2.stack.length = 0 ∧ noncesTo 2 sentTwice.2.core.log = [0, 1]) ∧
      (∃ new, Sequential settingUp.2 sentTwice.2 new) ∧
      LeavesNoTrace (tableChain 1 0xf1) sentTwice.1 := by
  refine ⟨by decide +kernel, @nonces_sequential Ledger (tableChain 1 0xf1) (startedNest funded)
    settingUp.2 sentTwice.2 settingUp.1 sentTwice.1 ⟨initial_started funded, rfl, rfl⟩
    (run_traceOf ?_) ?_ (run_traceOf ?_) ?_⟩
  · decide +kernel
  · have hlength : settingUp.2.stack.length = 0 := by decide +kernel
    exact List.length_eq_zero_iff.mp hlength
  · decide +kernel
  · decide +kernel

end Gate

end SelendraBridge
