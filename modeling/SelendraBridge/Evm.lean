import SelendraBridge.Basic

/-!
# What a contract sees of its chain

A contract call reads the chain it runs on – its id, the contract's own address, the
hash function, signature recovery – and moves tokens that are contracts of their own.
None of these is in the repository, and all of them are parameters here: a token's
state is of any type, and its calls may fail. Where a result needs a token to move
exactly what it is asked to move, it says so by `SelendraBridge.Erc20.Exact`, for the
tokens it needs it of.
-/

namespace SelendraBridge

/-- The tokens of a chain, over a state of any kind. A call that reverts is `none`. -/
structure Erc20 (σ : Type) where
  /-- `balanceOf(account)` of a token. -/
  balanceOf : σ → Address → Address → U256
  /-- `safeTransfer(to, amount)` of a token, by the account it is taken from. -/
  transfer : Address → Address → Address → U256 → σ → Option σ
  /-- `safeTransferFrom(from, to, amount)` of a token, by a spender. -/
  transferFrom : Address → Address → Address → Address → U256 → σ → Option σ
  /-- `forceApprove(spender, amount)` of a token, by its owner. -/
  approve : Address → Address → Address → U256 → σ → Option σ
  /-- `decimals()` of a token. -/
  decimals : σ → Address → Option UInt8

namespace Erc20

variable {σ : Type} (E : Erc20 σ)

/-- **A move of exactly the amount**: what one account loses the other gains, and no
other balance of any token changes. -/
structure Moved (token source target : Address) (amount : U256) (s s' : σ) : Prop where
  /-- The source had it. -/
  le : amount.toNat ≤ (E.balanceOf s token source).toNat
  source_eq : source ≠ target →
    (E.balanceOf s' token source).toNat + amount.toNat = (E.balanceOf s token source).toNat
  target_eq : source ≠ target →
    (E.balanceOf s' token target).toNat = (E.balanceOf s token target).toNat + amount.toNat
  self_eq : source = target → E.balanceOf s' token target = E.balanceOf s token target
  other : ∀ account, account ≠ source → account ≠ target →
    E.balanceOf s' token account = E.balanceOf s token account
  otherToken : ∀ token', token' ≠ token → ∀ account,
    E.balanceOf s' token' account = E.balanceOf s token' account

/-- **A token that transfers exactly**: a transfer that goes through moves what it was
asked to move. -/
structure Exact (token : Address) : Prop where
  transfer : ∀ {source target amount s s'}, E.transfer token source target amount s = some s' →
    E.Moved token source target amount s s'
  transferFrom : ∀ {spender source target amount s s'},
    E.transferFrom token spender source target amount s = some s' →
    E.Moved token source target amount s s'

end Erc20

/-- The chain a contract runs on. -/
structure Chain (σ : Type) where
  /-- `block.chainid`. -/
  chainId : U256
  /-- The address of the chain's gate. -/
  gate : Address
  /-- `keccak256`. -/
  keccak256 : Bytes → Bytes32
  /-- `ECDSA.recover`; `none` is a revert. -/
  recover : Bytes32 → Bytes → Option Address
  /-- The tokens. -/
  tokens : Erc20 σ

/-- One call as the contract sees it. -/
structure Call where
  /-- `msg.sender`. -/
  sender : Address
  /-- `block.timestamp`. -/
  timestamp : ℕ
  /-- Whether an account has code: `account.code.length ≠ 0`. -/
  hasCode : Address → Bool
  /-- `account.codehash`. -/
  codehash : Address → Bytes32

/-- `MessageHashUtils.toEthSignedMessageHash`: the digest a wallet signs for a
message. -/
def toEthSignedMessageHash (keccak256 : Bytes → Bytes32) (message : Bytes32) : Bytes32 :=
  keccak256 ((25 : UInt8) :: ascii "Ethereum Signed Message:\n32" ++ wordBytes message)

end SelendraBridge
