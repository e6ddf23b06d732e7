import SelendraBridge.Db.Lifecycle

/-!
# What the indexer writes into

The indexer reads three contracts of a chain into one database, and its writes meet four tables:

| table | key | from |
|:------|:----|:-----|
| `submissions` | the id | `Sent`; marked by `Claimed`, `Cancelled`, `Refunded` |
| `swap_bridges` | the id, which refers to `submissions` | `SwapBridged` |
| `pending_lifecycle`, `pending_finalize` | the id | reports that come before their row |
| `swaps` | chain, transaction, position | `Swapped` |

A write that goes wrong does so in one of three ways (`SelendraBridge.Indexer.Failure`). The
database does not answer, and another attempt may go through. A check refuses the text, and every
attempt is refused. Or a row of `swap_bridges` refers to a submission that is not there, and then it
depends on whether that submission ever comes.
-/

namespace SelendraBridge

namespace Indexer

open Revert Db

/-! ### Account text -/

/-- `MAX_ACCOUNT_TEXT_LEN`. -/
def MAX_ACCOUNT_TEXT_LEN : ℕ := 128

/-- Alphanumeric after an optional `0x`, and not too long. -/
def isAccountText (s : Text) : Bool :=
  decide (s.length ≤ MAX_ACCOUNT_TEXT_LEN) && (stripHexPrefix s).all isAlphanumeric

/-- **An account as text** that has passed its check. -/
structure AccountText where
  text : Text
  wellFormed : isAccountText text = true
  deriving DecidableEq

/-- `checked_account_text`, naming the column it is for. -/
def checkedAccountText (field : String) (s : Text) : Except DbError AccountText :=
  if h : isAccountText s = true then .ok ⟨s, h⟩ else .error (.badField field)

/-! ### The tables -/

/-- The intent columns of a `swap_bridges` row. -/
structure Intent where
  tokenIn : Text
  amountIn : AmountText
  stableOut : AmountText
  finalToken : Text
  finalReceiver : Text
  deriving DecidableEq

/-- A row of `swaps`, but for its key. -/
structure SwapRow where
  sender : Text
  receiver : Text
  tokenIn : Text
  tokenOut : Text
  amountIn : AmountText
  amountOut : AmountText
  blockNumber : U64
  deriving DecidableEq

/-- The key of a row of `swaps`. -/
structure SwapKey where
  chainId : U64
  txHash : Text
  logIndex : BitVec 32
  deriving DecidableEq

/-- **What the indexer's writes are about.** -/
structure Mirror where
  /-- The parameters of the rows of `submissions`. -/
  submissions : Text → Option SubmissionRow
  /-- Under each id its lifecycle, and what is parked for it. -/
  lifecycle : Text → Rows
  /-- The intents of the rows of `swap_bridges`. -/
  intents : Text → Option Intent
  /-- Under each id its outcome, and what is parked for it. -/
  outcomes : Text → SwapRows
  swaps : SwapKey → Option SwapRow

/-- A database with nothing in it. -/
def Mirror.empty : Mirror :=
  ⟨fun _ => none, fun _ => .empty, fun _ => none, fun _ => ⟨none, none⟩, fun _ => none⟩

/-! ### Calls -/

/-- Why a log is not handled. -/
inductive Failure
  /-- The write checks refuse it. -/
  | refused (e : DbError)
  /-- The submission that a row refers to is not there. -/
  | foreignKey
  /-- The database does not answer. -/
  | outage
  deriving DecidableEq, Repr

/-- What the database does with a call: it answers, at a time, or fails and leaves what it
leaves. -/
inductive DbReply
  | answers (now : ℕ)
  | fails (left : Mirror)

/-- The outcome of a call, and the database after it. -/
abbrev Outcome := Except Failure Unit × Mirror

/-- A call that goes through if the database answers. -/
def query (reply : DbReply) (write : ℕ → Mirror) : Outcome :=
  match reply with
  | .answers now => (.ok (), write now)
  | .fails left => (.error .outage, left)

/-- **A call that only an outage fails.** -/
def Answered (call : DbReply → Mirror → Outcome) : Prop :=
  ∀ reply m, ∃ write, call reply m = query reply write

namespace Answered

variable {call : DbReply → Mirror → Outcome}

theorem ok (h : Answered call) (now : ℕ) (m : Mirror) : (call (.answers now) m).1 = .ok () := by
  obtain ⟨write, hwrite⟩ := h (.answers now) m
  rw [hwrite]
  rfl

theorem ok_or (h : Answered call) (reply : DbReply) (m : Mirror) :
    (call reply m).1 = .ok () ∨ (call reply m).1 = .error .outage := by
  obtain ⟨write, hwrite⟩ := h reply m
  rw [hwrite]
  cases reply with
  | answers now => exact .inl rfl
  | fails left => exact .inr rfl

end Answered

/-- The database after a call keeps the submissions that were there before. -/
def Mirror.Keeps (m m' : Mirror) : Prop :=
  ∀ id, (m.submissions id).isSome = true → (m'.submissions id).isSome = true

namespace Mirror.Keeps

theorem refl (m : Mirror) : m.Keeps m := fun _ h => h

theorem trans {m m' m'' : Mirror} (h : m.Keeps m') (h' : m'.Keeps m'') : m.Keeps m'' :=
  fun id hid => h' id (h id hid)

end Mirror.Keeps

end Indexer

end SelendraBridge
