import SelendraBridge.Gate.Ids
import SelendraBridge.Gate.Quorum
import SelendraBridge.Gate.Scale

/-!
# The four calls of a transfer

| call | where | takes | leaves in the books |
|---|---|---|---|
| `send` | source | the sender's tokens | the sender under the id, the corridor's next nonce |
| `claim` | target | a quorum on the id | the id executed |
| `cancel` | target | a quorum on the id's cancel digest | the id executed and cancelled |
| `refund` | source | a quorum on the id's refund digest | the id refunded, its sender gone |

Each function returns the storage, the tokens, the events and the id. What a call that
went through says about the state before and after it is inverted once, here
(`SelendraBridge.Gate.sends_of_send` and its three siblings), and nothing after this file
unfolds them.
-/

namespace SelendraBridge

namespace Gate

open Revert

variable {σ : Type} (E : Chain σ) (c : Call) (g : Gate) (tokens : σ)

/-- What a transfer call returns: storage, tokens, events and the submission id. -/
structure Done (σ : Type) where
  gate : Gate
  tokens : σ
  log : List Event
  id : Bytes32

/-- `whenNotPaused`. -/
def whenNotPaused : Except Error Unit := revertIf (g.paused = true) .enforcedPause

/-- The arguments of `send`. -/
structure SendArgs where
  token : Address
  amount : U256
  chainIdTo : U256
  receiver : Bytes
  autoParams : Bytes
  deriving DecidableEq, Repr

/-- The arguments of `claim` and of `cancel`. -/
structure ClaimArgs where
  debridgeId : Bytes32
  amount : U256
  bridgeDecimals : UInt8
  chainIdFrom : U256
  nonce : U256
  receiver : Bytes
  autoParams : Bytes
  nativeSender : Bytes
  signatures : List Bytes
  deriving DecidableEq, Repr

/-- The arguments of `refund`. -/
structure RefundArgs where
  token : Address
  debridgeId : Bytes32
  amount : U256
  bridgeDecimals : UInt8
  chainIdTo : U256
  nonce : U256
  receiver : Bytes
  autoParams : Bytes
  nativeSender : Bytes
  signatures : List Bytes
  deriving DecidableEq, Repr

/-- The id parameters of a send of `wire` at the token's scale. -/
def sendParams (a : SendArgs) (wire : U256) : IdParams where
  debridgeId := BridgeHash.getDebridgeId E.keccak256 E.chainId a.token
  bridgeDecimals := (g.bridgeDecimalsOf a.token).bridgeDecimals
  amount := wire
  chainIdFrom := E.chainId
  chainIdTo := a.chainIdTo
  nonce := g.nonceTo a.chainIdTo
  receiver := a.receiver
  autoParams := a.autoParams
  nativeSender := addressBytes c.sender

/-- The id parameters of a claim or a cancellation: this chain is the target. -/
def claimParams (a : ClaimArgs) : IdParams where
  debridgeId := a.debridgeId
  bridgeDecimals := a.bridgeDecimals
  amount := a.amount
  chainIdFrom := a.chainIdFrom
  chainIdTo := E.chainId
  nonce := a.nonce
  receiver := a.receiver
  autoParams := a.autoParams
  nativeSender := a.nativeSender

/-- The id parameters of a refund: this chain is the source. -/
def refundParams (a : RefundArgs) : IdParams where
  debridgeId := a.debridgeId
  bridgeDecimals := a.bridgeDecimals
  amount := a.amount
  chainIdFrom := E.chainId
  chainIdTo := a.chainIdTo
  nonce := a.nonce
  receiver := a.receiver
  autoParams := a.autoParams
  nativeSender := a.nativeSender

/-- `_toAddress`. -/
def toAddress (receiver : Bytes) : Except Error Address :=
  orRevert .badReceiver (BigEndian.toWord 20 receiver)

/-! ### The calls -/

/-- `send`. -/
def send (a : SendArgs) : Except Error (Done σ) := do
  whenNotPaused g
  revertIf (a.amount = 0) .zeroAmount
  let minAmount := g.minSendAmount a.token
  revertIf (a.amount < minAmount) (.belowMinSendAmount a.amount minAmount)
  revertIf (a.autoParams.length > MAX_AUTO_PARAMS_LENGTH)
    (.autoParamsTooLong a.autoParams.length MAX_AUTO_PARAMS_LENGTH)
  revertIf (g.supportedChain a.chainIdTo = false) (.unsupportedChain a.chainIdTo)
  let wireAmount ← toBridgeAmount g a.token a.amount
  revertIf (a.receiver.length ≠ 20 ∧ a.receiver.length ≠ 32) .badReceiver
  revertIf (a.receiver.length = 32 ∧ wireAmount.toNat ≥ 2 ^ 64) (.amountTooWide wireAmount)
  let p := sendParams E c g a wireAmount
  let id ← idFor E.keccak256 g.bridgeDomain p
  let nonce ← checked .panic (p.nonce.toNat + 1)
  let g := { g with
    nonceTo := Function.update g.nonceTo a.chainIdTo nonce
    sentBy := Function.update g.sentBy id c.sender }
  let balBefore := E.tokens.balanceOf tokens a.token E.gate
  let tokens ← orRevert (.tokenCallFailed a.token)
    (E.tokens.transferFrom a.token E.gate c.sender E.gate a.amount tokens)
  let received ← checkedSub .panic (E.tokens.balanceOf tokens a.token E.gate) balBefore
  revertIf (received ≠ a.amount) (.unsupportedTokenBehavior a.amount received)
  return ⟨g, tokens,
    [.sent id p.debridgeId wireAmount p.bridgeDecimals E.chainId a.chainIdTo a.receiver p.nonce
      a.autoParams p.nativeSender a.token], id⟩

/-- `claim`. -/
def claim (a : ClaimArgs) : Except Error (Done σ) := do
  whenNotPaused g
  revertIf (g.isSealed = false) .notSealed
  let id ← idFor E.keccak256 g.bridgeDomain (claimParams E a)
  revertIf (g.executed id = true) .alreadyExecuted
  verifySignatures E g id a.signatures
  let g := { g with executed := Function.update g.executed id true }
  let localToken := g.tokenOf a.debridgeId
  revertIf (localToken = 0) (.unknownAsset a.debridgeId)
  let scale := g.bridgeDecimalsOf localToken
  revertIf (scale.set = false) (.bridgeDecimalsUnset localToken)
  revertIf (scale.bridgeDecimals ≠ a.bridgeDecimals)
    (.bridgeScaleMismatch a.debridgeId a.bridgeDecimals scale.bridgeDecimals)
  let recipient ← toAddress a.receiver
  let localAmount ← toLocalAmount g localToken a.amount
  let tokens ← orRevert (.tokenCallFailed localToken)
    (E.tokens.transfer localToken E.gate recipient localAmount tokens)
  return ⟨g, tokens, [.claimed id a.debridgeId recipient localAmount], id⟩

/-- `cancel`. -/
def cancel (a : ClaimArgs) : Except Error (Done σ) := do
  whenNotPaused g
  let id ← idFor E.keccak256 g.bridgeDomain (claimParams E a)
  revertIf (g.executed id = true) .alreadyExecuted
  verifySignatures E g (BridgeHash.getCancelId E.keccak256 id) a.signatures
  return ⟨{ g with
      executed := Function.update g.executed id true
      cancelled := Function.update g.cancelled id true }, tokens,
    [.cancelled id a.debridgeId a.chainIdFrom a.nonce], id⟩

/-- `refund`, which a pause does not stop. -/
def refund (a : RefundArgs) : Except Error (Done σ) := do
  let id ← idFor E.keccak256 g.bridgeDomain (refundParams E a)
  revertIf (g.refunded id = true) (.alreadyRefunded id)
  let sender := g.sentBy id
  revertIf (sender = 0) (.notSent id)
  revertIf (BridgeHash.getDebridgeId E.keccak256 E.chainId a.token ≠ a.debridgeId)
    (.tokenMismatch a.debridgeId a.token)
  verifySignatures E g (BridgeHash.getRefundId E.keccak256 id) a.signatures
  let g := { g with
    refunded := Function.update g.refunded id true
    sentBy := Function.update g.sentBy id 0 }
  let localAmount ← refundLocalAmount g a.token a.amount
  let tokens ← orRevert (.tokenCallFailed a.token)
    (E.tokens.transfer a.token E.gate sender localAmount tokens)
  return ⟨g, tokens, [.refunded id a.debridgeId sender localAmount], id⟩

/-! ### What a call that went through says -/

variable {E c g tokens}

/-- **A send that went through**: what it checked, what it wrote and what it moved. -/
structure Sends (E : Chain σ) (c : Call) (g : Gate) (tokens : σ) (a : SendArgs) (wire : U256)
    (r : Done σ) : Prop where
  paused : g.paused = false
  amount_ne : a.amount ≠ 0
  min : ¬a.amount < g.minSendAmount a.token
  autoParams : a.autoParams.length ≤ MAX_AUTO_PARAMS_LENGTH
  supported : g.supportedChain a.chainIdTo = true
  wire_eq : toBridgeAmount g a.token a.amount = .ok wire
  narrow : a.receiver.length = 32 → wire.toNat < 2 ^ 64
  id : idFor E.keccak256 g.bridgeDomain (sendParams E c g a wire) = .ok r.id
  nonce : (r.gate.nonceTo a.chainIdTo).toNat = (g.nonceTo a.chainIdTo).toNat + 1
  gate : r.gate = { g with
    nonceTo := Function.update g.nonceTo a.chainIdTo (r.gate.nonceTo a.chainIdTo)
    sentBy := Function.update g.sentBy r.id c.sender }
  moved : E.tokens.transferFrom a.token E.gate c.sender E.gate a.amount tokens = some r.tokens
  received : a.amount.toNat + (E.tokens.balanceOf tokens a.token E.gate).toNat =
    (E.tokens.balanceOf r.tokens a.token E.gate).toNat
  log : r.log = [.sent r.id (BridgeHash.getDebridgeId E.keccak256 E.chainId a.token) wire
    (g.bridgeDecimalsOf a.token).bridgeDecimals E.chainId a.chainIdTo a.receiver
    (g.nonceTo a.chainIdTo) a.autoParams (addressBytes c.sender) a.token]

theorem sends_of_send {a : SendArgs} {r : Done σ} (h : send E c g tokens a = .ok r) :
    ∃ wire, Sends E c g tokens a wire r := by
  simp only [send, whenNotPaused, bind_eq_ok, exists_unit, revertIf_eq_ok, checked_eq_ok,
    orRevert_eq_ok, checkedSub_eq_ok, pure_eq_ok, Bool.not_eq_true, not_lt, not_not,
    Bool.not_eq_false] at h
  obtain ⟨hpaused, hamount, hmin, hauto, hsupp, wire, hwire, -, hnarrow, id, hid, nonce, hnonce,
    tokens', hmoved, received, hrec, hreceived, rfl⟩ := h
  refine ⟨wire, hpaused, hamount, hmin, hauto, hsupp, hwire, ?_, hid, ?_, ?_,
    hmoved, hreceived ▸ hrec, rfl⟩
  · intro hlen
    by_contra hlt
    exact hnarrow ⟨hlen, not_lt.mp hlt⟩
  · simp only [Function.update_self]
    exact hnonce
  · simp only [Function.update_self]

/-- **A claim that went through.** -/
structure Claims (E : Chain σ) (g : Gate) (tokens : σ) (a : ClaimArgs) (localAmount : U256)
    (recipient : Address) (r : Done σ) : Prop where
  paused : g.paused = false
  isSealed : g.isSealed = true
  id : idFor E.keccak256 g.bridgeDomain (claimParams E a) = .ok r.id
  executed : g.executed r.id = false
  quorum : verifySignatures E g r.id a.signatures = .ok ()
  token_ne : g.tokenOf a.debridgeId ≠ 0
  scale : (g.bridgeDecimalsOf (g.tokenOf a.debridgeId)).bridgeDecimals = a.bridgeDecimals
  recipient_eq : toAddress a.receiver = .ok recipient
  localAmount_eq : toLocalAmount g (g.tokenOf a.debridgeId) a.amount = .ok localAmount
  gate : r.gate = { g with executed := Function.update g.executed r.id true }
  moved : E.tokens.transfer (g.tokenOf a.debridgeId) E.gate recipient localAmount tokens =
    some r.tokens
  log : r.log = [.claimed r.id a.debridgeId recipient localAmount]

theorem claims_of_claim {a : ClaimArgs} {r : Done σ} (h : claim E g tokens a = .ok r) :
    ∃ localAmount recipient, Claims E g tokens a localAmount recipient r := by
  simp only [claim, whenNotPaused, bind_eq_ok, exists_unit, revertIf_eq_ok, orRevert_eq_ok,
    pure_eq_ok, Bool.not_eq_true, not_not, Bool.not_eq_false] at h
  obtain ⟨hpaused, hsealed, id, hid, hex, hq, htok, -, hscale, recipient, hto, localAmount,
    hlocal, tokens', hmoved, rfl⟩ := h
  exact ⟨localAmount, recipient, hpaused, hsealed, hid, hex, hq, htok, hscale, hto, hlocal, rfl,
    hmoved, rfl⟩

/-- **A cancellation that went through.** -/
structure Cancels (E : Chain σ) (g : Gate) (tokens : σ) (a : ClaimArgs) (r : Done σ) : Prop where
  paused : g.paused = false
  id : idFor E.keccak256 g.bridgeDomain (claimParams E a) = .ok r.id
  executed : g.executed r.id = false
  quorum : verifySignatures E g (BridgeHash.getCancelId E.keccak256 r.id) a.signatures = .ok ()
  gate : r.gate = { g with
    executed := Function.update g.executed r.id true
    cancelled := Function.update g.cancelled r.id true }
  tokens : r.tokens = tokens
  log : r.log = [.cancelled r.id a.debridgeId a.chainIdFrom a.nonce]

theorem cancels_of_cancel {a : ClaimArgs} {r : Done σ} (h : cancel E g tokens a = .ok r) :
    Cancels E g tokens a r := by
  simp only [cancel, whenNotPaused, bind_eq_ok, exists_unit, revertIf_eq_ok, pure_eq_ok,
    Bool.not_eq_true] at h
  obtain ⟨hpaused, id, hid, hex, hq, rfl⟩ := h
  exact ⟨hpaused, hid, hex, hq, rfl, rfl, rfl⟩

/-- **A refund that went through.** -/
structure Refunds (E : Chain σ) (g : Gate) (tokens : σ) (a : RefundArgs) (localAmount : U256)
    (r : Done σ) : Prop where
  id : idFor E.keccak256 g.bridgeDomain (refundParams E a) = .ok r.id
  refunded : g.refunded r.id = false
  sent : g.sentBy r.id ≠ 0
  token : BridgeHash.getDebridgeId E.keccak256 E.chainId a.token = a.debridgeId
  quorum : verifySignatures E g (BridgeHash.getRefundId E.keccak256 r.id) a.signatures = .ok ()
  localAmount_eq : refundLocalAmount g a.token a.amount = .ok localAmount
  gate : r.gate = { g with
    refunded := Function.update g.refunded r.id true
    sentBy := Function.update g.sentBy r.id 0 }
  moved : E.tokens.transfer a.token E.gate (g.sentBy r.id) localAmount tokens = some r.tokens
  log : r.log = [.refunded r.id a.debridgeId (g.sentBy r.id) localAmount]

theorem refunds_of_refund {a : RefundArgs} {r : Done σ} (h : refund E g tokens a = .ok r) :
    ∃ localAmount, Refunds E g tokens a localAmount r := by
  simp only [refund, bind_eq_ok, exists_unit, revertIf_eq_ok, orRevert_eq_ok, pure_eq_ok,
    Bool.not_eq_true, not_not] at h
  obtain ⟨id, hid, href, hsent, htok, hq, localAmount, hlocal, tokens', hmoved, rfl⟩ := h
  exact ⟨localAmount, hid, href, hsent, htok, hq, hlocal, rfl, hmoved, rfl⟩

end Gate

end SelendraBridge
