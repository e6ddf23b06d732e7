import SelendraBridge.Digest
import SelendraBridge.Evm

/-!
# Tokens that keep a ledger

The plain kind of token: balances, allowances, and transfers that fail when the
balance, the allowance or the word does not suffice. It is what the results about
arbitrary tokens are instantiated with, and it moves exactly what it is asked to
move (`SelendraBridge.Ledger.exact`).
-/

namespace SelendraBridge

/-- The state of the tokens of a chain. -/
structure Ledger where
  /-- By token and account. -/
  balance : Address → Address → U256
  /-- By token, owner and spender. -/
  allowance : Address → Address → Address → U256
  /-- By token; `none` for an account that is not one. -/
  decimals : Address → Option UInt8

namespace Ledger

/-- Set one balance of one token. -/
def setBalance (s : Ledger) (token account : Address) (v : U256) : Ledger :=
  { s with
    balance := Function.update s.balance token (Function.update (s.balance token) account v) }

/-- Set one allowance of one token. -/
def setAllowance (s : Ledger) (token owner spender : Address) (v : U256) : Ledger :=
  { s with
    allowance := Function.update s.allowance token
      (Function.update (s.allowance token) owner
        (Function.update (s.allowance token owner) spender v)) }

/-- Move an amount: first out of the source, then into the target. -/
def move (token source target : Address) (amount : U256) (s : Ledger) : Option Ledger :=
  if s.balance token source < amount then none
  else
    let s₁ := s.setBalance token source (s.balance token source - amount)
    if (s₁.balance token target).toNat + amount.toNat < 2 ^ 256 then
      some (s₁.setBalance token target (s₁.balance token target + amount))
    else none

/-- Move an amount by a spender, out of the allowance. -/
def moveFrom (token spender source target : Address) (amount : U256) (s : Ledger) : Option Ledger :=
  if s.allowance token source spender < amount then none
  else
    move token source target amount
      (s.setAllowance token source spender (s.allowance token source spender - amount))

/-- **The tokens of a ledger.** -/
def tokens : Erc20 Ledger where
  balanceOf s token account := s.balance token account
  transfer := move
  transferFrom := moveFrom
  approve token owner spender amount s := some (s.setAllowance token owner spender amount)
  decimals s token := s.decimals token

variable {s s' : Ledger} {token source target account : Address} {amount v : U256}

@[simp] theorem balance_setBalance_self :
    (s.setBalance token account v).balance token account = v := by
  simp [setBalance]

theorem balance_setBalance_account {account' : Address} (h : account' ≠ account) :
    (s.setBalance token account v).balance token account' = s.balance token account' := by
  simp [setBalance, h]

theorem balance_setBalance_token {token' account' : Address} (h : token' ≠ token) :
    (s.setBalance token account v).balance token' account' = s.balance token' account' := by
  simp [setBalance, h]

@[simp] theorem balance_setAllowance {owner spender : Address} :
    (s.setAllowance token owner spender v).balance = s.balance := rfl

/-- A move that goes through moves exactly the amount. -/
theorem moved_of_move (h : move token source target amount s = some s') :
    tokens.Moved token source target amount s s' := by
  rw [move] at h
  split at h
  · exact absurd h (by simp)
  · next hle =>
    have hle' : amount.toNat ≤ (s.balance token source).toNat := not_lt.mp hle
    have hsub : (s.balance token source - amount).toNat =
        (s.balance token source).toNat - amount.toNat := BitVec.toNat_sub_of_le hle'
    dsimp only at h
    split at h
    · next hlt =>
      obtain rfl := Option.some.inj h
      refine ⟨hle', ?_, ?_, ?_, ?_, ?_⟩
      · intro hne
        show BitVec.toNat (((s.setBalance token source _).setBalance token target _).balance token
          source) + _ = (s.balance token source).toNat
        rw [balance_setBalance_account hne, balance_setBalance_self, hsub]
        omega
      · intro hne
        rw [balance_setBalance_account hne.symm] at hlt
        show BitVec.toNat (((s.setBalance token source _).setBalance token target _).balance token
          target) = (s.balance token target).toNat + _
        rw [balance_setBalance_self, balance_setBalance_account hne.symm, BitVec.toNat_add,
          Nat.mod_eq_of_lt hlt]
      · rintro rfl
        show ((s.setBalance token source _).setBalance token source _).balance token source =
          s.balance token source
        rw [balance_setBalance_self, balance_setBalance_self, BitVec.sub_add_cancel]
      · intro account hsrc htgt
        show ((s.setBalance token source _).setBalance token target _).balance token account =
          s.balance token account
        rw [balance_setBalance_account htgt, balance_setBalance_account hsrc]
      · intro token' hne account
        show ((s.setBalance token source _).setBalance token target _).balance token' account =
          s.balance token' account
        rw [balance_setBalance_token hne, balance_setBalance_token hne]
    · exact absurd h (by simp)

/-- **The tokens of a ledger transfer exactly.** -/
theorem exact (token : Address) : tokens.Exact token where
  transfer h := moved_of_move h
  transferFrom := by
    intro spender source target amount s s' h
    rw [show tokens.transferFrom token spender source target amount s =
      moveFrom token spender source target amount s from rfl, moveFrom] at h
    split at h
    · exact absurd h (by simp)
    · have hm := moved_of_move h
      exact ⟨hm.le, hm.source_eq, hm.target_eq, hm.self_eq, hm.other, hm.otherToken⟩

end Ledger

/-- A chain with ledger tokens, and the digests and signatures of the tables. -/
def tableChain (chainId : U256) (gate : Address) : Chain Ledger where
  chainId
  gate
  keccak256 := digestOf
  recover := recoverOf
  tokens := Ledger.tokens

end SelendraBridge
