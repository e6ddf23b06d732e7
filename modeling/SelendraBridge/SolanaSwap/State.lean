import SelendraBridge.Refresh.Plan
import SelendraBridge.Solana.Frame

/-!
# What the Solana swap pool stores

| account | seeds | holds |
|---|---|---|
| pool | `pool` | who governs it, the hub, the fee and the guards of prices |
| token | `token`, mint | a listed mint: its price, its vault, and what is in reserve |

Both are Borsh in accounts with room to spare, so what follows the record is not looked at. The
vaults are token accounts of the one authority that the program derives.
-/

namespace SelendraBridge

namespace SolanaSwap

open Borsh Revert SwapMath
open Solana (AccountInfo Accounts ProgramError LoaderState)
open Refresh (saturatingAdd saturatingSub)

/-! ### Failures and the runtime -/

/-- `SwapError`. -/
inductive SwapError
  | tokenNotListed
  | tokenAlreadyListed
  | sameToken
  | zeroAmount
  | zeroPrice
  | slippage
  | exceedsLock
  | hubRepriceForbidden
  | priceDeviationTooHigh
  | priceUpdateTooSoon
  | paused
  | notAuthorizedToPause
  | overflow
  | vaultNotOwned
  | vaultNotExclusive
  | accountMismatch
  | stalePrice
  | feeTooHigh
  | priceChanged
  | setPriceRemoved
  deriving DecidableEq, Repr

/-- Why an instruction fails: an error of the program's own, or one of the runtime's. -/
inductive Failure
  | swap (e : SwapError)
  | runtime (e : ProgramError)
  deriving DecidableEq, Repr

/-- **What the program runs on**, with a transfer of tokens that names the mint and its decimals:
source, mint, target, authority, whether the authority signed, amount and decimals. -/
structure Runtime extends Solana.Runtime where
  splTransferChecked : Pubkey → Pubkey → Pubkey → Pubkey → Bool → U64 → UInt8 → Accounts →
    Option Accounts

/-- **The rules of the runtime.** -/
structure Runtime.Lawful (R : Runtime) : Prop where
  toLawful : R.toRuntime.Lawful
  /-- Only token accounts are touched, and they stay token accounts. -/
  splTransferChecked : ∀ {source mint target authority signed amount decimals s s'},
    R.splTransferChecked source mint target authority signed amount decimals s = some s' →
      (s source).owner = R.splTokenId ∧ (s target).owner = R.splTokenId ∧
      (∀ k, (s' k).owner = (s k).owner) ∧
      Solana.TokensMoved R.toRuntime source target amount s s'

/-- `Clock::get()?.unix_timestamp`, if it can be read. -/
abbrev Clock := Option Int64

/-- A check that fails with an error of the program. -/
def check (p : Prop) [Decidable p] (e : SwapError) : Except Failure Unit := revertIf (¬p) (.swap e)

/-- A call of another program. -/
def invoke (r : Option Accounts) : Except Failure Accounts := orRevert (.runtime .crossProgram) r

/-! ### Records -/

/-- `DEFAULT_MAX_PRICE_AGE`. -/
def DEFAULT_MAX_PRICE_AGE : Int64 := 86400

/-- `PoolState`. -/
structure Pool where
  owner : Pubkey
  oracle : Pubkey
  guardian : Pubkey
  hubMint : Pubkey
  feeBps : UInt16
  maxPriceDeviationBps : UInt16
  minPriceUpdateInterval : Int64
  paused : Bool
  maxPriceAge : Int64
  deriving DecidableEq

/-- `TokenState`. -/
structure TokenRec where
  mint : Pubkey
  vault : Pubkey
  decimals : UInt8
  price : U128
  reserve : U64
  /-- Zero until the price is moved. -/
  lastPriceUpdate : Int64
  listed : Bool
  priceSetAt : Int64
  deriving DecidableEq

/-- `effective_max_price_age`. -/
def Pool.effectiveMaxPriceAge (p : Pool) : Int64 :=
  if p.maxPriceAge > 0 then p.maxPriceAge else DEFAULT_MAX_PRICE_AGE

/-- `price_is_fresh`. -/
def Pool.priceIsFresh (p : Pool) (token : TokenRec) (now : Int64) : Bool :=
  token.mint == p.hubMint ||
    decide (saturatingSub now token.priceSetAt ≤ p.effectiveMaxPriceAge)

/-- The codec of an `i64`. -/
def i64 : Codec Int64 := Solana.u64.iso Int64.ofBitVec Int64.toBitVec fun _ => rfl

/-- The codec of a `u16`. -/
def u16 : Codec UInt16 := Codec.iso (.uint 2) UInt16.ofBitVec UInt16.toBitVec fun _ => rfl

/-- The codec of a `u128`. -/
def u128 : Codec U128 := .uint 16

/-- The codec of a pool. -/
def poolCodec : Codec Pool :=
  (Solana.word.pair <| Solana.word.pair <| Solana.word.pair <| Solana.word.pair <| u16.pair <|
    u16.pair <| i64.pair <| Codec.bool.pair i64).iso
    (fun (owner, oracle, guardian, hubMint, feeBps, maxPriceDeviationBps, minPriceUpdateInterval,
        paused, maxPriceAge) =>
      ⟨owner, oracle, guardian, hubMint, feeBps, maxPriceDeviationBps, minPriceUpdateInterval,
        paused, maxPriceAge⟩)
    (fun p => (p.owner, p.oracle, p.guardian, p.hubMint, p.feeBps, p.maxPriceDeviationBps,
      p.minPriceUpdateInterval, p.paused, p.maxPriceAge))
    fun _ => rfl

/-- The codec of a token's record. -/
def tokenCodec : Codec TokenRec :=
  (Solana.word.pair <| Solana.word.pair <| Codec.u8.pair <| u128.pair <| Solana.u64.pair <|
    i64.pair <| Codec.bool.pair i64).iso
    (fun (mint, vault, decimals, price, reserve, lastPriceUpdate, listed, priceSetAt) =>
      ⟨mint, vault, decimals, price, reserve, lastPriceUpdate, listed, priceSetAt⟩)
    (fun t => (t.mint, t.vault, t.decimals, t.price, t.reserve, t.lastPriceUpdate, t.listed,
      t.priceSetAt))
    fun _ => rfl

/-- A pool, at the front of an account. -/
def decodePool (data : Bytes) : Option Pool := (poolCodec.get data).map Prod.fst

/-- A record, at the front of an account. -/
def decodeToken (data : Bytes) : Option TokenRec := (tokenCodec.get data).map Prod.fst

/-- `POOL_SPACE`. -/
def POOL_SPACE : ℕ := 32 * 4 + 2 + 2 + 8 + 1 + 32

/-- `TOKEN_SPACE`. -/
def TOKEN_SPACE : ℕ := 32 + 32 + 1 + 16 + 8 + 8 + 1 + 32

/-- What was written is read back, whatever follows it. -/
theorem decodePool_put (p : Pool) (rest : Bytes) :
    decodePool (poolCodec.put p ++ rest) = some p := by
  have hget := poolCodec.get_put (a := p) rest
    ⟨trivial, trivial, trivial, trivial, trivial, trivial, trivial, trivial, trivial⟩
  rw [decodePool, hget, Option.map_some]

theorem decodeToken_put (t : TokenRec) (rest : Bytes) :
    decodeToken (tokenCodec.put t ++ rest) = some t := by
  have hget := tokenCodec.get_put (a := t) rest
    ⟨trivial, trivial, trivial, trivial, trivial, trivial, trivial, trivial⟩
  rw [decodeToken, hget, Option.map_some]

@[simp] theorem length_put_pool (p : Pool) : (poolCodec.put p).length = 149 := by
  have hput : poolCodec.put p = Solana.word.put p.owner ++ (Solana.word.put p.oracle ++
      (Solana.word.put p.guardian ++ (Solana.word.put p.hubMint ++
        ((Codec.uint 2).put p.feeBps.toBitVec ++
          ((Codec.uint 2).put p.maxPriceDeviationBps.toBitVec ++
            ((Codec.uint 8).put p.minPriceUpdateInterval.toBitVec ++ (Codec.bool.put p.paused ++
              (Codec.uint 8).put p.maxPriceAge.toBitVec))))))) := rfl
  rw [hput]
  simp only [List.length_append, Solana.length_put_word, Codec.length_put_bool]
  rw [Codec.length_put_uint, Codec.length_put_uint, Codec.length_put_uint, Codec.length_put_uint]

@[simp] theorem length_put_token (t : TokenRec) : (tokenCodec.put t).length = 106 := by
  have hput : tokenCodec.put t = Solana.word.put t.mint ++ (Solana.word.put t.vault ++
      (Codec.u8.put t.decimals ++ ((Codec.uint 16).put t.price ++ ((Codec.uint 8).put t.reserve ++
        ((Codec.uint 8).put t.lastPriceUpdate.toBitVec ++ (Codec.bool.put t.listed ++
          (Codec.uint 8).put t.priceSetAt.toBitVec)))))) := rfl
  have hbyte : (Codec.u8.put t.decimals).length = 1 := rfl
  rw [hput]
  simp only [List.length_append, Solana.length_put_word, Codec.length_put_bool, hbyte]
  rw [Codec.length_put_uint, Codec.length_put_uint, Codec.length_put_uint, Codec.length_put_uint]

/-! ### Seeds -/

/-- `["pool"]`. -/
def poolSeeds : List Bytes := [ascii "pool"]

/-- `["token", mint]`. -/
def tokenSeeds (mint : Pubkey) : List Bytes := [ascii "token", wordBytes mint]

/-- `["vault_authority"]`. -/
def vaultAuthoritySeeds : List Bytes := [ascii "vault_authority"]

section Accounts

variable (R : Runtime) (s : Accounts)

/-! ### Accounts of the program's own -/

/-- `load_pool`. -/
def loadPool (ai : AccountInfo) : Except Failure Pool := do
  check (ai.key = R.findProgramAddress poolSeeds ∧ (s ai.key).owner = R.programId) .accountMismatch
  orRevert (.runtime .invalidAccountData) (decodePool (s ai.key).data)

/-- `load_token`. -/
def loadToken (ai : AccountInfo) (mint : Pubkey) : Except Failure TokenRec := do
  check (ai.key = R.findProgramAddress (tokenSeeds mint) ∧ (s ai.key).owner = R.programId)
    .accountMismatch
  let token ← orRevert (.runtime .invalidAccountData) (decodeToken (s ai.key).data)
  check (token.listed = true) .tokenNotListed
  return token

/-- `store`. -/
def store (ai : AccountInfo) (bytes : Bytes) : Except Failure Accounts :=
  withReason .runtime (Solana.writeFront R.toRuntime s ai bytes)

/-- `require_owner`. -/
def requireOwner (pool : Pool) (signer : AccountInfo) : Except Failure Unit :=
  revertIf (signer.key ≠ pool.owner ∨ signer.isSigner = false) (.runtime .missingRequiredSignature)

/-- `require_upgrade_authority`. -/
def requireUpgradeAuthority (programAi programDataAi : AccountInfo) (who : Pubkey) :
    Except Failure Unit := do
  revertIf (programAi.key ≠ R.programId ∨ (s programAi.key).owner ≠ R.loaderId)
    (.runtime .incorrectProgramId)
  revertIf (programDataAi.key ≠ R.programDataAddress) (.runtime .invalidArgument)
  let state ← orRevert (.runtime .invalidAccountData) (R.loaderState (s programDataAi.key).data)
  match state with
  | .programData authority =>
    revertIf (authority ≠ some who) (.runtime .missingRequiredSignature)
  | .other => .error (.runtime .invalidAccountData)

/-- `check_vault`. -/
def checkVault (vault : AccountInfo) (mint tokenProgram : Pubkey) : Except Failure Unit := do
  revertIf ((s vault.key).owner ≠ tokenProgram) (.runtime .illegalOwner)
  let state ← orRevert (.runtime .invalidAccountData) (R.unpackTokenAccount (s vault.key).data)
  check (state.mint = mint) .accountMismatch
  check (state.owner = R.findProgramAddress vaultAuthoritySeeds) .vaultNotOwned
  check (state.delegate = none ∧ state.closeAuthority = none) .vaultNotExclusive

/-- `vault_balance`. -/
def vaultBalance (vault : AccountInfo) : Except Failure U64 := do
  let state ← orRevert (.runtime .invalidAccountData) (R.unpackTokenAccount (s vault.key).data)
  return state.amount

/-- `create_pda`. -/
def createPda (payer account systemProgram : AccountInfo) (space : ℕ) :
    Except Failure Accounts := do
  revertIf ((s account.key).data ≠ [] ∨ (s account.key).owner ≠ R.systemId)
    (.runtime .accountAlreadyInitialized)
  revertIf (systemProgram.key ≠ R.systemId) (.runtime .incorrectProgramId)
  withReason .runtime (Solana.createPdaAccount R.toRuntime s payer account space)

end Accounts

end SolanaSwap

end SelendraBridge
