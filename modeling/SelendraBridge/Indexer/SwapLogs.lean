import SelendraBridge.Indexer.GateLog
import SelendraBridge.Store.Standard

/-!
# What the indexer makes of a log of the router, and of the pool

`handle_router_log` and `handle_pool_log` write into tables of their own:

| log | call | may fail for |
|:----|:-----|:-------------|
| `SwapBridged` | `record_swap_bridge_intent` | a submission that is not there |
| `Finalized`, `FinalizeFallback` | `record_finalized`, which parks | – |
| `FinalizeDeferred` | nothing | – |
| `Swapped` | `record_swap` | – |

The texts are made from the log's own fields, so no check refuses one. What is left is the foreign
key: a swap that crosses refers to the submission it crosses with, and the write fails as long as
that row is not there (`SelendraBridge.Indexer.handleRouterLog_of_lacks`). The row comes from the
gate's log of the same transaction – unless that one was passed over.
-/

namespace SelendraBridge

namespace Indexer

open Revert Store Db

/-! ### Logs -/

/-- A log of the router, as its decoders read it. -/
inductive RouterLog
  | swapBridged (submissionId : Bytes32) (tokenIn : Address) (amountIn stableOut : U256)
    (finalToken finalReceiver : Address)
  | finalized (submissionId : Bytes32) (tx : Option Bytes32) (amountOut : U256)
  | finalizeDeferred
  | finalizeFallback (submissionId : Bytes32) (tx : Option Bytes32) (stableAmount : U256)
  | other

/-- The submission that a log says a swap crosses with. -/
def RouterLog.crosses : RouterLog → Option Bytes32
  | .swapBridged submissionId .. => some submissionId
  | _ => none

/-- `SwapPool.Swapped`, with its `to` as the receiver. -/
structure Swapped where
  sender : Address
  tokenIn : Address
  tokenOut : Address
  amountIn : U256
  amountOut : U256
  receiver : Address

/-- A log of the pool, with its position if the node gave one. -/
inductive PoolLog
  | swapped (ev : Swapped) (tx : Option Bytes32) (logIndex blockNumber : Option U64)
  | other

/-! ### The calls -/

/-- The checks of `record_swap_bridge_intent`, with the key and the row. -/
def checkedIntent (submissionId tokenIn amountIn stableOut finalToken finalReceiver : Text) :
    Except DbError (Text × Intent) := do
  let id ← checkedId submissionId
  let tokenIn ← checkedAccountText "token_in" tokenIn
  let finalToken ← checkedAccountText "final_token" finalToken
  let finalReceiver ← checkedAccountText "final_receiver" finalReceiver
  let amountIn ← checkedAmount "amount_in" amountIn
  let stableOut ← checkedAmount "stable_out" stableOut
  return (id, ⟨lower tokenIn.text, amountIn, stableOut, lower finalToken.text,
    lower finalReceiver.text⟩)

/-- **`Db::record_swap_bridge_intent`.** A row that is there already is left alone; a new one needs
its submission. -/
def recordSwapBridgeIntent
    (submissionId tokenIn amountIn stableOut finalToken finalReceiver : Text) (reply : DbReply)
    (m : Mirror) : Outcome :=
  match checkedIntent submissionId tokenIn amountIn stableOut finalToken finalReceiver with
  | .error e => (.error (.refused e), m)
  | .ok (id, intent) =>
    match reply with
    | .fails left => (.error .outage, left)
    | .answers _ =>
      -- `ON CONFLICT DO NOTHING` comes before the foreign key is looked at.
      if (m.intents id).isNone ∧ (m.submissions id).isNone then (.error .foreignKey, m)
      else
        (.ok (), { m with
          intents := Function.update m.intents id (some ((m.intents id).getD intent))
          outcomes := Function.update m.outcomes id (Db.recordSwapBridgeIntent (m.outcomes id)) })

/-- The checks of `record_finalized`, with the key and the outcome. -/
def checkedOutcome (submissionId finalizeTx amountOut : Text) (fallback : Bool) :
    Except DbError (Text × Db.Outcome) := do
  let id ← checkedId submissionId
  let tx ← checkedTxRef "finalize_tx" finalizeTx
  let amount ← checkedAmount "finalize_amount_out" amountOut
  return (id, ⟨tx, amount, fallback⟩)

/-- **`Db::record_finalized`.** -/
def recordFinalized (submissionId finalizeTx amountOut : Text) (fallback : Bool) (reply : DbReply)
    (m : Mirror) : Outcome :=
  match checkedOutcome submissionId finalizeTx amountOut fallback with
  | .error e => (.error (.refused e), m)
  | .ok (id, outcome) => query reply fun _ =>
      { m with
        outcomes := Function.update m.outcomes id (Db.recordFinalized outcome (m.outcomes id)) }

/-- The checks of `record_swap`, with the row and the transaction it is keyed by. -/
def checkedSwap (txHash sender receiver tokenIn tokenOut amountIn amountOut : Text)
    (blockNumber : U64) : Except DbError (Text × SwapRow) := do
  let tx ← checkedTxRef "tx_hash" txHash
  let sender ← checkedAccountText "sender" sender
  let receiver ← checkedAccountText "receiver" receiver
  let tokenIn ← checkedAccountText "token_in" tokenIn
  let tokenOut ← checkedAccountText "token_out" tokenOut
  let amountIn ← checkedAmount "amount_in" amountIn
  let amountOut ← checkedAmount "amount_out" amountOut
  return (lower tx.text, ⟨lower sender.text, lower receiver.text, lower tokenIn.text,
    lower tokenOut.text, amountIn, amountOut, blockNumber⟩)

/-- **`Db::record_swap`**, which leaves a row alone that is there already. -/
def recordSwap (chainId : U64) (txHash : Text) (logIndex : BitVec 32)
    (sender receiver tokenIn tokenOut amountIn amountOut : Text) (blockNumber : U64)
    (reply : DbReply) (m : Mirror) : Outcome :=
  match checkedSwap txHash sender receiver tokenIn tokenOut amountIn amountOut blockNumber with
  | .error e => (.error (.refused e), m)
  | .ok (tx, row) => query reply fun _ =>
      { m with
        swaps := Function.update m.swaps ⟨chainId, tx, logIndex⟩
          (some ((m.swaps ⟨chainId, tx, logIndex⟩).getD row)) }

/-- **`handle_router_log`.** -/
def handleRouterLog (log : RouterLog) (reply : DbReply) (m : Mirror) : Outcome :=
  match log with
  | .swapBridged submissionId tokenIn amountIn stableOut finalToken finalReceiver =>
    recordSwapBridgeIntent (hexText (wordBytes submissionId)) (hexText (addressBytes tokenIn))
      (decimalText amountIn.toNat) (decimalText stableOut.toNat) (hexText (addressBytes finalToken))
      (hexText (addressBytes finalReceiver)) reply m
  | .finalized submissionId tx amountOut =>
    recordFinalized (hexText (wordBytes submissionId)) (txHash tx) (decimalText amountOut.toNat)
      false reply m
  -- Nothing settled.
  | .finalizeDeferred => (.ok (), m)
  | .finalizeFallback submissionId tx stableAmount =>
    recordFinalized (hexText (wordBytes submissionId)) (txHash tx) (decimalText stableAmount.toNat)
      true reply m
  | .other => (.ok (), m)

/-- **`handle_pool_log`.** -/
def handlePoolLog (cfg : Config) (log : PoolLog) (reply : DbReply) (m : Mirror) : Outcome :=
  match log with
  | .swapped ev tx logIndex blockNumber =>
    recordSwap cfg.chainId (txHash tx) ((logIndex.getD 0).setWidth 32)
      (hexText (addressBytes ev.sender)) (hexText (addressBytes ev.receiver))
      (hexText (addressBytes ev.tokenIn)) (hexText (addressBytes ev.tokenOut))
      (decimalText ev.amountIn.toNat) (decimalText ev.amountOut.toNat) (blockNumber.getD 0) reply m
  | .other => (.ok (), m)

/-! ### No text of a log is refused -/

variable {cfg : Config} {m : Mirror} {now : ℕ}

theorem checkedAccountText_hexText (field : String) (a : Address) :
    ∃ t, checkedAccountText field (hexText (addressBytes a)) = .ok t := by
  have hwell : isAccountText (hexText (addressBytes a)) = true := by
    have hdigits : Hex.digits.all isAlphanumeric = true := by decide
    rw [isAccountText, stripHexPrefix_hexText, Bool.and_eq_true, decide_eq_true_eq,
      List.all_eq_true]
    refine ⟨?_, fun c hc => List.all_eq_true.mp hdigits c (Hex.mem_digits_of_mem_encode hc)⟩
    rw [hexText, List.length_cons, List.length_cons, Hex.length_encode, length_addressBytes]
    decide
  exact ⟨_, dif_pos hwell⟩

theorem checkedAmount_decimalText (field : String) (n : U256) :
    ∃ t, checkedAmount field (decimalText n.toNat) = .ok t := by
  have hwell : isAmount (decimalText n.toNat) = true := by
    have hne : (decimalText n.toNat).isEmpty = false := by
      rw [List.isEmpty_eq_false_iff]
      exact Nat.toDigits_ne_nil
    rw [isAmount, hne, decide_eq_true (length_decimalText_le n), all_isDigit_decimalText]
    rfl
  exact ⟨_, dif_pos hwell⟩

theorem exists_checkedIntent (id : Bytes32) (tokenIn : Address) (amountIn stableOut : U256)
    (finalToken finalReceiver : Address) : ∃ intent,
      checkedIntent (hexText (wordBytes id)) (hexText (addressBytes tokenIn))
        (decimalText amountIn.toNat) (decimalText stableOut.toNat)
        (hexText (addressBytes finalToken)) (hexText (addressBytes finalReceiver)) =
          .ok (key id, intent) := by
  obtain ⟨t₁, h₁⟩ := checkedAccountText_hexText "token_in" tokenIn
  obtain ⟨t₂, h₂⟩ := checkedAccountText_hexText "final_token" finalToken
  obtain ⟨t₃, h₃⟩ := checkedAccountText_hexText "final_receiver" finalReceiver
  obtain ⟨t₄, h₄⟩ := checkedAmount_decimalText "amount_in" amountIn
  obtain ⟨t₅, h₅⟩ := checkedAmount_decimalText "stable_out" stableOut
  exact ⟨_, by rw [checkedIntent, checkedId_hexText, h₁, h₂, h₃, h₄, h₅]; rfl⟩

theorem answered_recordFinalized (id : Bytes32) (tx : Option Bytes32) (amountOut : U256)
    (fallback : Bool) : Answered (recordFinalized (hexText (wordBytes id)) (txHash tx)
      (decimalText amountOut.toNat) fallback) := by
  intro reply m
  obtain ⟨t, ht⟩ := checkedAmount_decimalText "finalize_amount_out" amountOut
  have hchecked : checkedOutcome (hexText (wordBytes id)) (txHash tx) (decimalText amountOut.toNat)
      fallback = .ok (key id, ⟨⟨txHash tx, isTxRef_txHash tx⟩, t, fallback⟩) := by
    rw [checkedOutcome, checkedId_hexText, checkedTxRef_txHash, ht]
    rfl
  exact ⟨_, by rw [recordFinalized, hchecked]⟩

/-- **The pool's logs go through**, but for an outage. -/
theorem answered_handlePoolLog {ev : Swapped} {tx : Option Bytes32}
    {logIndex blockNumber : Option U64} :
    Answered (handlePoolLog cfg (.swapped ev tx logIndex blockNumber)) := by
  intro reply m
  obtain ⟨t₁, h₁⟩ := checkedAccountText_hexText "sender" ev.sender
  obtain ⟨t₂, h₂⟩ := checkedAccountText_hexText "receiver" ev.receiver
  obtain ⟨t₃, h₃⟩ := checkedAccountText_hexText "token_in" ev.tokenIn
  obtain ⟨t₄, h₄⟩ := checkedAccountText_hexText "token_out" ev.tokenOut
  obtain ⟨t₅, h₅⟩ := checkedAmount_decimalText "amount_in" ev.amountIn
  obtain ⟨t₆, h₆⟩ := checkedAmount_decimalText "amount_out" ev.amountOut
  have hchecked : ∃ r, checkedSwap (txHash tx) (hexText (addressBytes ev.sender))
      (hexText (addressBytes ev.receiver)) (hexText (addressBytes ev.tokenIn))
      (hexText (addressBytes ev.tokenOut)) (decimalText ev.amountIn.toNat)
      (decimalText ev.amountOut.toNat) (blockNumber.getD 0) = .ok r :=
    ⟨_, by rw [checkedSwap, checkedTxRef_txHash, h₁, h₂, h₃, h₄, h₅, h₆]; rfl⟩
  obtain ⟨⟨tx', row⟩, hr⟩ := hchecked
  exact ⟨_, by rw [handlePoolLog, recordSwap, hr]⟩

theorem handlePoolLog_ok (cfg : Config) (log : PoolLog) (now : ℕ) (m : Mirror) :
    (handlePoolLog cfg log (.answers now) m).1 = .ok () := by
  cases log with
  | swapped ev tx logIndex blockNumber => exact answered_handlePoolLog.ok now m
  | other => rfl

/-! ### What the calls do -/

/-- **Neither the submission nor the row of a swap** is there under a key. -/
structure Mirror.Lacks (m : Mirror) (k : Text) : Prop where
  submission : m.submissions k = none
  intent : m.intents k = none

theorem submissions_recordFinalized (submissionId tx amountOut : Text) (fallback : Bool) :
    (recordFinalized submissionId tx amountOut fallback (.answers now) m).2.submissions =
      m.submissions := by
  unfold recordFinalized
  split <;> rfl

theorem intents_recordFinalized (submissionId tx amountOut : Text) (fallback : Bool) :
    (recordFinalized submissionId tx amountOut fallback (.answers now) m).2.intents =
      m.intents := by
  unfold recordFinalized
  split <;> rfl

/-- **A swap that crosses goes through** where its submission is. -/
theorem handleRouterLog_ok {log : RouterLog}
    (h : ∀ id, log.crosses = some id → (m.submissions (key id)).isSome = true) :
    (handleRouterLog log (.answers now) m).1 = .ok () := by
  cases log with
  | swapBridged id tokenIn amountIn stableOut finalToken finalReceiver =>
    obtain ⟨intent, hintent⟩ :=
      exists_checkedIntent id tokenIn amountIn stableOut finalToken finalReceiver
    have hthere : (m.submissions (key id)).isNone = false := by
      rw [← Option.not_isSome, h id rfl]
      rfl
    simp only [handleRouterLog, recordSwapBridgeIntent, hintent, hthere, Bool.false_eq_true,
      and_false, if_false]
  | finalized id tx amountOut => exact (answered_recordFinalized id tx amountOut false).ok now m
  | finalizeFallback id tx amount => exact (answered_recordFinalized id tx amount true).ok now m
  | finalizeDeferred => rfl
  | other => rfl

/-- **A swap that crosses fails** for as long as nothing is there. -/
theorem handleRouterLog_of_lacks {log : RouterLog} {id : Bytes32} (hlog : log.crosses = some id)
    (h : m.Lacks (key id)) : handleRouterLog log (.answers now) m = (.error .foreignKey, m) := by
  cases log with
  | swapBridged id' tokenIn amountIn stableOut finalToken finalReceiver =>
    obtain rfl := Option.some.inj hlog
    obtain ⟨intent, hintent⟩ :=
      exists_checkedIntent id' tokenIn amountIn stableOut finalToken finalReceiver
    simp only [handleRouterLog, recordSwapBridgeIntent, hintent, h.submission, h.intent,
      Option.isNone_none, and_self, if_true]
  | _ => cases hlog

/-- The router has no part in the submissions. -/
theorem submissions_handleRouterLog (log : RouterLog) (now : ℕ) (m : Mirror) :
    (handleRouterLog log (.answers now) m).2.submissions = m.submissions := by
  cases log with
  | swapBridged id tokenIn amountIn stableOut finalToken finalReceiver =>
    obtain ⟨intent, hintent⟩ :=
      exists_checkedIntent id tokenIn amountIn stableOut finalToken finalReceiver
    simp only [handleRouterLog, recordSwapBridgeIntent, hintent]
    split <;> rfl
  | finalized | finalizeFallback => rw [handleRouterLog, submissions_recordFinalized]
  | finalizeDeferred => rfl
  | other => rfl

/-- **What is not there does not come from the router.** -/
theorem lacks_handleRouterLog {k : Text} (log : RouterLog) (h : m.Lacks k) :
    (handleRouterLog log (.answers now) m).2.Lacks k := by
  refine ⟨by rw [submissions_handleRouterLog]; exact h.submission, ?_⟩
  cases log with
  | swapBridged id tokenIn amountIn stableOut finalToken finalReceiver =>
    obtain ⟨intent, hintent⟩ :=
      exists_checkedIntent id tokenIn amountIn stableOut finalToken finalReceiver
    simp only [handleRouterLog, recordSwapBridgeIntent, hintent]
    split
    · exact h.intent
    · next hthere =>
      have hne : k ≠ key id := by
        rintro rfl
        exact hthere ⟨by rw [h.intent]; rfl, by rw [h.submission]; rfl⟩
      exact (Function.update_of_ne hne _ _).trans h.intent
  | finalized | finalizeFallback =>
    rw [handleRouterLog, intents_recordFinalized]
    exact h.intent
  | finalizeDeferred => exact h.intent
  | other => exact h.intent

/-- The pool has no part in either. -/
theorem submissions_handlePoolLog (cfg : Config) (log : PoolLog) (now : ℕ) (m : Mirror) :
    (handlePoolLog cfg log (.answers now) m).2.submissions = m.submissions ∧
      (handlePoolLog cfg log (.answers now) m).2.intents = m.intents := by
  cases log with
  | swapped ev tx logIndex blockNumber =>
    rw [handlePoolLog, recordSwap]
    split <;> exact ⟨rfl, rfl⟩
  | other => exact ⟨rfl, rfl⟩

end Indexer

end SelendraBridge
