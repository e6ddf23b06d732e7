import SelendraBridge.Lib.Sequence
import SelendraBridge.Text

/-!
# What a scanner remembers

The state a validator keeps for one source chain: the block cursor, the last nonce of each
corridor, and whether it is paused and why. It lives in memory behind a lock and, as a
copy, in a file that is read back when the process starts
(`SelendraBridge.Validator.Runtime`). The operations are the ones the scan loop and the
operator's interface call while they hold the lock; nothing here waits for anything.

The file system is taken to keep what a successful write put there. Whether a write
succeeds is up to it, and the code never asks.
-/

namespace SelendraBridge

namespace Validator

/-- The last accepted nonce of each corridor, source chain first. -/
abbrev Nonces := U64 × U64 → Option U64

/-- Why a scanner is paused. -/
inductive PauseReason
  | operator
  | missedNonce (chainFrom chainTo expected got : U64)
  | duplicatedNonce (chainFrom chainTo last got : U64)
  | idMismatch (submissionId : Text)
  deriving DecidableEq, Repr

/-- The part that survives a restart. -/
structure Persist where
  /-- The last block whose logs were fully processed. -/
  lastBlock : ℕ
  nonces : Nonces
  paused : Bool
  pauseReason : Option PauseReason

/-- What the nonce checker decides for a freshly seen event. -/
inductive NonceDecision
  | accept
  | duplicated
  | missed
  deriving DecidableEq, Repr

/-- The state in memory, with the contents of the file at its path. -/
structure Runtime where
  persist : Persist
  file : Option Persist

/-- What a scanner starts from when there is no file. -/
def Persist.fresh (startBlock : ℕ) : Persist where
  lastBlock := startBlock - 1
  nonces := fun _ => none
  paused := false
  pauseReason := none

/-- The persisted state if there is one, and a fresh one otherwise. -/
def loadOrInit (file : Option Persist) (startBlock : ℕ) : Runtime where
  persist := file.getD (.fresh startBlock)
  file

namespace Runtime

variable (rt : Runtime)

def paused : Bool := rt.persist.paused

def nextBlock : ℕ := rt.persist.lastBlock + 1

/-- Writes the file, if the disk lets it: callers go on either way. -/
def save (disk : Bool) : Runtime := if disk then { rt with file := some rt.persist } else rt

def lastNonce (chainFrom chainTo : U64) : Option U64 := rt.persist.nonces (chainFrom, chainTo)

/-- **Whether a nonce is the expected one** of its corridor. The first event seen of a
corridor is always accepted: the scanner may be starting in mid-stream. -/
def checkNonce (chainFrom chainTo nonce : U64) : NonceDecision :=
  match rt.lastNonce chainFrom chainTo with
  | none => .accept
  | some last =>
    if nonce = last + 1 then .accept
    else if nonce ≤ last then .duplicated
    else .missed

def acceptNonce (chainFrom chainTo nonce : U64) : Runtime :=
  { rt with persist := { rt.persist with
      nonces := Function.update rt.persist.nonces (chainFrom, chainTo) (some nonce) } }

def nonceSnapshot : Nonces := rt.persist.nonces

def restoreNonces (snapshot : Nonces) : Runtime :=
  { rt with persist := { rt.persist with nonces := snapshot } }

/-- `persist.last_block = scanned_to`. -/
def advanceTo (scannedTo : ℕ) : Runtime :=
  { rt with persist := { rt.persist with lastBlock := scannedTo } }

def pause (reason : PauseReason) : Runtime :=
  { rt with persist := { rt.persist with paused := true, pauseReason := some reason } }

/-- Clears the pause. -/
def resume : Runtime :=
  { rt with persist := { rt.persist with paused := false, pauseReason := none } }

/-- Scans again from `fromBlock`, with nothing remembered of any corridor. -/
def rescanFrom (fromBlock : ℕ) : Runtime :=
  resume { rt with persist := { rt.persist with
    lastBlock := fromBlock - 1, nonces := fun _ => none } }

/-! ### What an operation leaves alone -/

@[simp] theorem persist_save (disk : Bool) : (rt.save disk).persist = rt.persist := by
  cases disk <;> rfl

@[simp] theorem lastBlock_acceptNonce (f t n : U64) :
    (rt.acceptNonce f t n).persist.lastBlock = rt.persist.lastBlock := rfl

@[simp] theorem file_acceptNonce (f t n : U64) : (rt.acceptNonce f t n).file = rt.file := rfl

@[simp] theorem nonces_acceptNonce (f t n : U64) :
    (rt.acceptNonce f t n).persist.nonces =
      Function.update rt.persist.nonces (f, t) (some n) := rfl

@[simp] theorem lastBlock_pause (reason : PauseReason) :
    (rt.pause reason).persist.lastBlock = rt.persist.lastBlock := rfl

@[simp] theorem nonces_pause (reason : PauseReason) :
    (rt.pause reason).persist.nonces = rt.persist.nonces := rfl

@[simp] theorem file_pause (reason : PauseReason) : (rt.pause reason).file = rt.file := rfl

@[simp] theorem lastBlock_resume : rt.resume.persist.lastBlock = rt.persist.lastBlock := rfl

@[simp] theorem nonces_resume : rt.resume.persist.nonces = rt.persist.nonces := rfl

@[simp] theorem file_resume : rt.resume.file = rt.file := rfl

@[simp] theorem lastBlock_restoreNonces (ns : Nonces) :
    (rt.restoreNonces ns).persist.lastBlock = rt.persist.lastBlock := rfl

@[simp] theorem nonces_restoreNonces (ns : Nonces) :
    (rt.restoreNonces ns).persist.nonces = ns := rfl

@[simp] theorem file_restoreNonces (ns : Nonces) : (rt.restoreNonces ns).file = rt.file := rfl

@[simp] theorem lastBlock_advanceTo (n : ℕ) :
    (rt.advanceTo n).persist.lastBlock = n := rfl

@[simp] theorem nonces_advanceTo (n : ℕ) :
    (rt.advanceTo n).persist.nonces = rt.persist.nonces := rfl

@[simp] theorem file_advanceTo (n : ℕ) : (rt.advanceTo n).file = rt.file := rfl

@[simp] theorem lastBlock_rescanFrom (n : ℕ) :
    (rt.rescanFrom n).persist.lastBlock = n - 1 := rfl

@[simp] theorem nonces_rescanFrom (n : ℕ) :
    (rt.rescanFrom n).persist.nonces = fun _ => none := rfl

@[simp] theorem file_rescanFrom (n : ℕ) : (rt.rescanFrom n).file = rt.file := rfl

/-- **What is accepted** is the first of its corridor or the one after the last. -/
theorem checkNonce_eq_accept {f t n : U64} (h : rt.persist.nonces (f, t) = none ∨
    ∃ m, rt.persist.nonces (f, t) = some m ∧ n.toNat = m.toNat + 1) :
    rt.checkNonce f t n = .accept := by
  rcases h with hnone | ⟨m, hm, hn⟩
  · simp only [checkNonce, lastNonce, hnone]
  · -- The successor does not wrap, because the number after it was read as 64 bits.
    have hlt := n.isLt
    have hone : (1 : U64).toNat = 1 := rfl
    have hsucc : n = m + 1 := by
      apply BitVec.eq_of_toNat_eq
      rw [BitVec.toNat_add, hone, hn, Nat.mod_eq_of_lt (by omega)]
    simp only [checkNonce, lastNonce, hm, if_pos hsucc]

end Runtime

end Validator

end SelendraBridge
