import SelendraBridge.Gate.Sends
import SelendraBridge.Lib.Frames

/-!
# The gate, called back

`send` writes its effects – the nonce, the sender, the event – before it calls the token, and
looks at the balance after. A token is a contract of its own, and what it does in between may
be anything, another `send` among it. So a send is not one step here but three, with anything
in between:

| step | what it does |
|---|---|
| `enter` | the checks and the effects, and the balance before |
| `move` | the token does its work |
| `resume` | the balance again: the send is over if it grew by the amount |

A call that reverts undoes all that happened in it; so does a call of another contract, and the
frames of those are there as well. The gate's other calls are one step each at any depth: their
token call, if they have one, comes last, so what is called back in it might as well be called
after them, in one frame with them.

The machine is the one of `SelendraBridge.Gate.exec` when nothing is called back
(`SelendraBridge.Gate.runFrom_sendAlone`).
-/

namespace SelendraBridge

namespace Gate

open Revert Transition Frames

variable {σ : Type} (E : Chain σ) (c : Call) (g : Gate) (tokens : σ)

/-! ### A send, cut at its token call -/

/-- `send`, up to its token call: the storage, the event and the id. -/
def startSend (a : SendArgs) : Except Error (Gate × Event × Bytes32) := do
  whenNotPaused g
  revertIf (a.amount = 0) .zeroAmount
  let minAmount := g.minSendAmount a.token
  revertIf (a.amount < minAmount) (.belowMinSendAmount a.amount minAmount)
  revertIf (a.autoParams.length > MAX_AUTO_PARAMS_LENGTH)
    (.autoParamsTooLong a.autoParams.length MAX_AUTO_PARAMS_LENGTH)
  revertIf (g.supportedChain a.chainIdTo = false) (.unsupportedChain a.chainIdTo)
  let wireAmount ← toBridgeAmount g a.token a.amount
  revertIf (a.receiver.length ≠ 20 ∧ a.receiver.length ≠ 32) .badReceiver
  revertIf (a.receiver.length = 32 ∧ wireAmount.toNat ≥ 2 ^ 64) (.amountTooWide wireAmount)
  let p := sendParams E c g a wireAmount
  let id ← idFor E.keccak256 g.bridgeDomain p
  let nonce ← checked .panic (p.nonce.toNat + 1)
  return ({ g with
      nonceTo := Function.update g.nonceTo a.chainIdTo nonce
      sentBy := Function.update g.sentBy id c.sender },
    .sent id p.debridgeId wireAmount p.bridgeDecimals E.chainId a.chainIdTo a.receiver p.nonce
      a.autoParams p.nativeSender a.token, id)

/-- `send`, after its token call. -/
def finishSend (a : SendArgs) (balBefore : U256) : Except Error Unit := do
  let received ← checkedSub .panic (E.tokens.balanceOf tokens a.token E.gate) balBefore
  revertIf (received ≠ a.amount) (.unsupportedTokenBehavior a.amount received)

/-- **The two halves make up the call.** -/
theorem send_eq (a : SendArgs) : send E c g tokens a = (do
    let r ← startSend E c g a
    let tokens' ← orRevert (.tokenCallFailed a.token)
      (E.tokens.transferFrom a.token E.gate c.sender E.gate a.amount tokens)
    finishSend E tokens' a (E.tokens.balanceOf tokens a.token E.gate)
    return ⟨r.1, tokens', [r.2.1], r.2.2⟩) := by
  simp only [send, startSend, finishSend, bind_assoc, pure_bind]

/-! ### The machine -/

/-- What a revert brings back. -/
structure Core (σ : Type) where
  gate : Gate
  tokens : σ
  /-- Whether the gate's code has been replaced. -/
  upgraded : Bool
  /-- The gate's events. -/
  log : List Event

/-- **A call under way**: a send at its token call, `moved` once the token has moved what it was
asked to, or a call of another contract. -/
inductive Frame
  | send (c : Call) (a : SendArgs) (balBefore : U256) (moved : Bool)
  | foreign

/-- The frames under way, innermost first, each with what there was when it began. -/
structure Nest (σ : Type) where
  core : Core σ
  stack : List (Frame × Core σ)
  now : ℕ

/-- What can happen next. -/
inductive Move (σ : Type)
  /-- A send begins, of a transaction or of a token that was called. -/
  | enter (c : Call) (a : SendArgs)
  /-- Another contract is called. -/
  | foreign
  /-- The innermost call's token does its work. -/
  | move
  /-- The innermost call goes on, and ends. -/
  | resume
  /-- The innermost call reverts. -/
  | revert
  /-- A step other than a send. -/
  | other (l : Label σ)

/-- Is the step a send? -/
def Label.isSend : Label σ → Bool
  | .transfer _ (.send _) => true
  | _ => false

/-- **The token moves** what the innermost call asked it to. -/
def Frame.move (s : σ) : Frame → Option (Frame × σ)
  | .send c a balBefore false =>
    (E.tokens.transferFrom a.token E.gate c.sender E.gate a.amount s).map fun s =>
      (.send c a balBefore true, s)
  | _ => none

/-- **A call goes on** after its token call, and ends. -/
def Frame.resume (s : σ) : Frame → Except Error Unit
  | .send _ a balBefore true => finishSend E s a balBefore
  | .send _ _ _ false => .error .panic
  | .foreign => .ok ()

/-- **One step.** -/
def nestExec (w : Nest σ) : Move σ → Option (Nest σ × Unit)
  | .enter c a =>
    if w.core.upgraded = true ∨ c.timestamp < w.now then none
    else match startSend E c w.core.gate a with
      | .ok (gate, event, _) =>
        some (⟨{ w.core with gate, log := w.core.log ++ [event] },
          (.send c a (E.tokens.balanceOf w.core.tokens a.token E.gate) false, w.core) :: w.stack,
          c.timestamp⟩, ())
      | .error _ => none
  | .foreign => some ({ w with stack := (.foreign, w.core) :: w.stack }, ())
  | .move =>
    match w.stack with
    | [] => none
    | (f, saved) :: rest => (f.move E w.core.tokens).map fun r =>
        (⟨{ w.core with tokens := r.2 }, (r.1, saved) :: rest, w.now⟩, ())
  | .resume =>
    match w.stack with
    | [] => none
    | (f, _) :: rest =>
      match f.resume E w.core.tokens with
      | .ok () => some (⟨w.core, rest, w.now⟩, ())
      | .error _ => none
  | .revert =>
    match w.stack with
    | [] => none
    | (_, saved) :: rest => some (⟨saved, rest, w.now⟩, ())
  | .other l =>
    if l.isSend = true then none
    else (exec E ⟨w.core.gate, w.core.tokens, w.now, w.core.upgraded⟩ l).map fun r =>
      (⟨⟨r.1.gate, r.1.tokens, r.1.upgraded, w.core.log ++ r.2.log⟩, w.stack, r.1.now⟩, ())

/-- A step of a run. -/
abbrev NestStep (σ : Type) := Entry (Nest σ) (Move σ) Unit

variable {E c g tokens} {w : Nest σ} {a : SendArgs}

/-! ### Nothing is called back -/

/-- **Without callbacks the two machines do the same**: what a send comes to, the steps it is cut
into come to, log included. -/
theorem runFrom_sendAlone {r : Done σ} (hup : w.core.upgraded = false) (hnow : w.now ≤ c.timestamp)
    (h : send E c w.core.gate w.core.tokens a = .ok r) :
    ∃ tr, runFrom (nestExec E) w [.enter c a, .move, .resume] =
      some (tr, ⟨⟨r.gate, r.tokens, false, w.core.log ++ r.log⟩, w.stack, c.timestamp⟩) := by
  rw [send_eq] at h
  simp only [bind_eq_ok, exists_unit, orRevert_eq_ok, pure_eq_ok] at h
  obtain ⟨⟨gate, event, id⟩, hstart, tokens', hmoved, hfinish, rfl⟩ := h
  set before := E.tokens.balanceOf w.core.tokens a.token E.gate
  set log := w.core.log ++ [event]
  have henter : nestExec E w (.enter c a) = some (⟨⟨gate, w.core.tokens, w.core.upgraded, log⟩,
      (.send c a before false, w.core) :: w.stack, c.timestamp⟩, ()) := by
    have hopen : ¬(w.core.upgraded = true ∨ c.timestamp < w.now) := by
      rintro (hu | hlt)
      · rw [hup] at hu
        cases hu
      · omega
    rw [nestExec, if_neg hopen, hstart]
  have hmove : nestExec E ⟨⟨gate, w.core.tokens, w.core.upgraded, log⟩,
      (.send c a before false, w.core) :: w.stack, c.timestamp⟩ .move =
      some (⟨⟨gate, tokens', w.core.upgraded, log⟩,
        (.send c a before true, w.core) :: w.stack, c.timestamp⟩, ()) := by
    simp only [nestExec, Frame.move, hmoved, Option.map_some]
  have hresume : nestExec E ⟨⟨gate, tokens', w.core.upgraded, log⟩,
      (.send c a before true, w.core) :: w.stack, c.timestamp⟩ .resume =
      some (⟨⟨gate, tokens', w.core.upgraded, log⟩, w.stack, c.timestamp⟩, ()) := by
    simp only [nestExec, Frame.resume, hfinish]
  rw [← hup]
  exact ⟨_, runFrom_cons henter (runFrom_cons hmove (runFrom_cons hresume rfl))⟩

/-! ### What a step does -/

/-- **What a send writes before its token call.** -/
structure Starts (E : Chain σ) (c : Call) (g : Gate) (a : SendArgs) (wire : U256) (g' : Gate)
    (id : Bytes32) : Prop where
  id_eq : idFor E.keccak256 g.bridgeDomain (sendParams E c g a wire) = .ok id
  wire_eq : toBridgeAmount g a.token a.amount = .ok wire
  nonce : (g'.nonceTo a.chainIdTo).toNat = (g.nonceTo a.chainIdTo).toNat + 1
  gate : g' = { g with
    nonceTo := Function.update g.nonceTo a.chainIdTo (g'.nonceTo a.chainIdTo)
    sentBy := Function.update g.sentBy id c.sender }

theorem starts_of_startSend {event : Event} {g' : Gate} {id : Bytes32}
    (h : startSend E c g a = .ok (g', event, id)) : ∃ wire, Starts E c g a wire g' id ∧
      event = .sent id (BridgeHash.getDebridgeId E.keccak256 E.chainId a.token) wire
        (g.bridgeDecimalsOf a.token).bridgeDecimals E.chainId a.chainIdTo a.receiver
        (g.nonceTo a.chainIdTo) a.autoParams (addressBytes c.sender) a.token := by
  simp only [startSend, bind_eq_ok, exists_unit, checked_eq_ok, pure_eq_ok, Prod.mk.injEq] at h
  obtain ⟨-, -, -, -, -, wire, hwire, -, -, id, hid, nonce, hnonce, rfl, rfl, rfl⟩ := h
  refine ⟨wire, ⟨hid, hwire, ?_, ?_⟩, rfl⟩
  · dsimp only
    rw [Function.update_self, hnonce]
    rfl
  · dsimp only
    rw [Function.update_self]

/-- **What can become of the frames and of what is under them.** -/
inductive Stepped (E : Chain σ) (w : Nest σ) : Move σ → Nest σ → Prop
  | enter {c : Call} {a : SendArgs} {gate : Gate} {event : Event} {id : Bytes32}
      (start : startSend E c w.core.gate a = .ok (gate, event, id)) :
      Stepped E w (.enter c a) ⟨{ w.core with gate, log := w.core.log ++ [event] },
        (.send c a (E.tokens.balanceOf w.core.tokens a.token E.gate) false, w.core) :: w.stack,
        c.timestamp⟩
  | foreign : Stepped E w .foreign { w with stack := (.foreign, w.core) :: w.stack }
  | move {c : Call} {a : SendArgs} {balBefore : U256} {saved : Core σ}
      {rest : List (Frame × Core σ)} {s : σ}
      (stack : w.stack = (.send c a balBefore false, saved) :: rest) :
      Stepped E w .move
        ⟨{ w.core with tokens := s }, (.send c a balBefore true, saved) :: rest, w.now⟩
  | resume {f : Frame} {saved : Core σ} {rest : List (Frame × Core σ)}
      (stack : w.stack = (f, saved) :: rest) (finished : f.resume E w.core.tokens = .ok ()) :
      Stepped E w .resume ⟨w.core, rest, w.now⟩
  | revert {f : Frame} {saved : Core σ} {rest : List (Frame × Core σ)}
      (stack : w.stack = (f, saved) :: rest) : Stepped E w .revert ⟨saved, rest, w.now⟩
  | other {l : Label σ} {v : World σ} {o : Out} (send : l.isSend = false)
      (step : exec E ⟨w.core.gate, w.core.tokens, w.now, w.core.upgraded⟩ l = some (v, o)) :
      Stepped E w (.other l) ⟨⟨v.gate, v.tokens, v.upgraded, w.core.log ++ o.log⟩, w.stack, v.now⟩

theorem stepped_of_exec {w' : Nest σ} {l : Move σ} {o : Unit}
    (h : nestExec E w l = some (w', o)) : Stepped E w l w' := by
  obtain ⟨core, stack, now⟩ := w
  cases l with
  | enter c a =>
    rw [nestExec, Option.ite_none_left_eq_some] at h
    obtain ⟨-, h⟩ := h
    split at h
    · next hstart =>
      obtain ⟨rfl, -⟩ := Prod.mk.inj (Option.some.inj h)
      exact .enter hstart
    · cases h
  | foreign =>
    obtain ⟨rfl, -⟩ := Prod.mk.inj (Option.some.inj h)
    exact .foreign
  | move =>
    rcases stack with _ | ⟨⟨f, saved⟩, rest⟩
    · cases h
    · simp only [nestExec, Option.map_eq_some_iff, Prod.mk.injEq] at h
      obtain ⟨⟨f', s⟩, hmove, rfl, -⟩ := h
      cases f with
      | foreign => cases hmove
      | send c a balBefore moved =>
        cases moved with
        | true => cases hmove
        | false =>
          obtain ⟨s', -, heq⟩ := Option.map_eq_some_iff.mp hmove
          obtain ⟨rfl, rfl⟩ := Prod.mk.inj heq
          exact .move rfl
  | resume =>
    rcases stack with _ | ⟨⟨f, saved⟩, rest⟩
    · cases h
    · simp only [nestExec] at h
      split at h
      · next hover =>
        obtain ⟨rfl, -⟩ := Prod.mk.inj (Option.some.inj h)
        exact .resume rfl hover
      · cases h
  | revert =>
    rcases stack with _ | ⟨⟨f, saved⟩, rest⟩
    · cases h
    · obtain ⟨rfl, -⟩ := Prod.mk.inj (Option.some.inj h)
      exact .revert rfl
  | other l =>
    rw [nestExec, Option.ite_none_left_eq_some] at h
    obtain ⟨hsend, h⟩ := h
    obtain ⟨⟨v, o⟩, hstep, heq⟩ := Option.map_eq_some_iff.mp h
    obtain ⟨rfl, -⟩ := Prod.mk.inj heq
    exact .other (Bool.not_eq_true _ ▸ hsend) hstep

end Gate

end SelendraBridge
