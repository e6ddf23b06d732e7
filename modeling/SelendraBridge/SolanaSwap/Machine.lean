import SelendraBridge.Lib.Transition
import SelendraBridge.Solana.Machine
import SelendraBridge.SolanaSwap.State

/-!
# The Solana swap pool as a machine

One instruction after another, each with a clock and a list of accounts that whoever submits it
made up, and everybody else in between, within the rules of the runtime. What an instruction that
went through leaves of the records is said once for all of them
(`SelendraBridge.SolanaSwap.Leaves`):

| instruction | the pool | records |
|---|---|---|
| `Init` | is made | the hub's, at one |
| a setter of the owner, `Pause`, `Unpause` | one field | |
| `ListToken` | | a new one |
| `SetPriceFrom` | | one, with another price |
| `SeedLiquidity`, `WithdrawLiquidity` | | one, with another reserve |
| `Swap` | | two, with other reserves |
-/

namespace SelendraBridge

namespace SolanaSwap

open Borsh Revert SwapMath Transition
open Solana (AccountInfo Accounts ProgramError)
open Refresh (saturatingAdd saturatingSub)

/-! ### Arguments and accounts -/

/-- `InitPoolArgs`. -/
structure InitPoolArgs where
  feeBps : UInt16
  maxPriceDeviationBps : UInt16
  minPriceUpdateInterval : Int64
  guardian : Pubkey
  oracle : Pubkey
  deriving DecidableEq

/-- `SwapInstruction`. -/
inductive SwapInstruction
  | init (a : InitPoolArgs)
  | listToken (price : U128)
  /-- Removed: always fails. -/
  | setPrice (price : U128)
  | seedLiquidity (amount : U64)
  | withdrawLiquidity (amount : U64)
  | swap (amountIn minAmountOut : U64)
  | pause
  | unpause
  | setGuardian (guardian : Pubkey)
  | setOracle (oracle : Pubkey)
  | setFee (feeBps : UInt16)
  | setMaxPriceDeviation (bps : UInt16)
  | setMaxPriceAge (seconds : Int64)
  | setMinPriceUpdateInterval (seconds : Int64)
  | setPriceFrom (expected price : U128)
  deriving DecidableEq

/-- `SwappedEvent`. -/
structure SwappedEvent where
  version : UInt8
  sender : Pubkey
  mintIn : Pubkey
  mintOut : Pubkey
  amountIn : U64
  amountOut : U64
  target : Pubkey
  deriving DecidableEq

/-- What an instruction returns: the accounts, and what it logs. -/
abbrev Result := Except Failure (Accounts × List SwappedEvent)

/-- An instruction that logs nothing. -/
def quiet (r : Except Failure Accounts) : Result := r.map fun s => (s, [])

/-- A list of accounts that is too short. -/
def tooFew {α : Type} : Except Failure α := .error (.runtime .notEnoughAccountKeys)

/-- The accounts of `Init`. -/
structure InitAccounts where
  pool : AccountInfo
  payer : AccountInfo
  hubMint : AccountInfo
  hubVault : AccountInfo
  hubRec : AccountInfo
  tokenProgram : AccountInfo
  systemProgram : AccountInfo
  program : AccountInfo
  programData : AccountInfo

def InitAccounts.next : List AccountInfo → Except Failure InitAccounts
  | pool :: payer :: hubMint :: hubVault :: hubRec :: tokenProgram :: systemProgram :: program ::
      programData :: _ =>
    .ok ⟨pool, payer, hubMint, hubVault, hubRec, tokenProgram, systemProgram, program, programData⟩
  | _ => tooFew

/-- The accounts of `ListToken`. -/
structure ListAccounts where
  pool : AccountInfo
  owner : AccountInfo
  mint : AccountInfo
  vault : AccountInfo
  record : AccountInfo
  tokenProgram : AccountInfo
  systemProgram : AccountInfo

def ListAccounts.next : List AccountInfo → Except Failure ListAccounts
  | pool :: owner :: mint :: vault :: record :: tokenProgram :: systemProgram :: _ =>
    .ok ⟨pool, owner, mint, vault, record, tokenProgram, systemProgram⟩
  | _ => tooFew

/-- The accounts of `SetPriceFrom`. -/
structure PriceAccounts where
  pool : AccountInfo
  oracle : AccountInfo
  record : AccountInfo

def PriceAccounts.next : List AccountInfo → Except Failure PriceAccounts
  | pool :: oracle :: record :: _ => .ok ⟨pool, oracle, record⟩
  | _ => tooFew

/-- The accounts of `SeedLiquidity` and `WithdrawLiquidity`. -/
structure LiquidityAccounts where
  pool : AccountInfo
  owner : AccountInfo
  record : AccountInfo
  ownerAta : AccountInfo
  vault : AccountInfo
  mint : AccountInfo
  vaultAuthority : AccountInfo
  tokenProgram : AccountInfo

def LiquidityAccounts.next : List AccountInfo → Except Failure LiquidityAccounts
  | pool :: owner :: record :: ownerAta :: vault :: mint :: vaultAuthority :: tokenProgram :: _ =>
    .ok ⟨pool, owner, record, ownerAta, vault, mint, vaultAuthority, tokenProgram⟩
  | _ => tooFew

/-- The accounts of `Swap`. -/
structure SwapAccounts where
  pool : AccountInfo
  user : AccountInfo
  recIn : AccountInfo
  recOut : AccountInfo
  userIn : AccountInfo
  userOut : AccountInfo
  vaultIn : AccountInfo
  vaultOut : AccountInfo
  mintIn : AccountInfo
  mintOut : AccountInfo
  vaultAuthority : AccountInfo
  tokenProgram : AccountInfo

def SwapAccounts.next : List AccountInfo → Except Failure SwapAccounts
  | pool :: user :: recIn :: recOut :: userIn :: userOut :: vaultIn :: vaultOut :: mintIn ::
      mintOut :: vaultAuthority :: tokenProgram :: _ =>
    .ok ⟨pool, user, recIn, recOut, userIn, userOut, vaultIn, vaultOut, mintIn, mintOut,
      vaultAuthority, tokenProgram⟩
  | _ => tooFew

/-- The accounts of a setter: the pool, and who asks. -/
structure RoleAccounts where
  pool : AccountInfo
  who : AccountInfo

def RoleAccounts.next : List AccountInfo → Except Failure RoleAccounts
  | pool :: who :: _ => .ok ⟨pool, who⟩
  | _ => tooFew

section Instructions

variable (R : Runtime) (clock : Clock) (s : Accounts) (accounts : List AccountInfo)

/-- The clock, read. -/
def unixTimestamp : Except Failure Int64 := orRevert (.runtime .unsupportedSysvar) clock

/-! ### Bounds -/

/-- `check_fee_bps`. -/
def checkFeeBps (bps : UInt16) : Except Failure Unit := check (bps ≤ MAX_FEE_BPS) .feeTooHigh

/-- `check_deviation_bps`. -/
def checkDeviationBps (bps : UInt16) : Except Failure Unit :=
  revertIf (bps = 0 ∨ bps > BPS_DENOM) (.runtime .invalidArgument)

/-- `validate_init_args`. -/
def validateInitArgs (a : InitPoolArgs) : Except Failure Unit := do
  checkDeviationBps a.maxPriceDeviationBps
  checkFeeBps a.feeBps
  revertIf (a.minPriceUpdateInterval < 0) (.runtime .invalidArgument)

/-! ### Making the pool, and listings -/

/-- The pool that `Init` writes. -/
def initialPool (payer hubMint : Pubkey) (a : InitPoolArgs) : Pool where
  owner := payer
  oracle := if a.oracle = 0 then payer else a.oracle
  guardian := a.guardian
  hubMint := hubMint
  feeBps := a.feeBps
  maxPriceDeviationBps := a.maxPriceDeviationBps
  minPriceUpdateInterval := a.minPriceUpdateInterval
  paused := false
  maxPriceAge := DEFAULT_MAX_PRICE_AGE

/-- The record of a mint that was just listed. -/
def freshRec (mint vault : Pubkey) (decimals : UInt8) (price : U128) (now : Int64) : TokenRec where
  mint := mint
  vault := vault
  decimals := decimals
  price := price
  reserve := 0
  lastPriceUpdate := 0
  listed := true
  priceSetAt := now

/-- `process_init`. -/
def processInit (a : InitPoolArgs) : Except Failure Accounts := do
  let x ← InitAccounts.next accounts
  revertIf (x.payer.isSigner = false) (.runtime .missingRequiredSignature)
  requireUpgradeAuthority R s x.program x.programData x.payer.key
  revertIf (x.tokenProgram.key ≠ R.splTokenId) (.runtime .incorrectProgramId)
  validateInitArgs a
  revertIf (x.pool.key ≠ R.findProgramAddress poolSeeds) (.runtime .invalidSeeds)
  let s ← createPda R s x.payer x.pool x.systemProgram POOL_SPACE
  let s ← store R s x.pool (poolCodec.put (initialPool x.payer.key x.hubMint.key a))
  let now ← unixTimestamp clock
  let decimals ← orRevert (.runtime .invalidAccountData) (R.unpackMint (s x.hubMint.key).data)
  checkVault R s x.hubVault x.hubMint.key x.tokenProgram.key
  let s ← createHubRec R s x
  store R s x.hubRec
    (tokenCodec.put (freshRec x.hubMint.key x.hubVault.key decimals PRICE_ONE now))
where
  /-- The account of the hub's record, created with the seeds of its mint. Nothing here checks that
  it is the address of these seeds: the system program takes it if it signed itself, too. -/
  createHubRec (R : Runtime) (s : Accounts) (x : InitAccounts) : Except Failure Accounts := do
    revertIf (x.hubRec.key ≠ R.findProgramAddress (tokenSeeds x.hubMint.key) ∧
      x.hubRec.isSigner = false) (.runtime .crossProgram)
    createPda R s x.payer x.hubRec x.systemProgram TOKEN_SPACE

/-- `process_list_token`. -/
def processListToken (price : U128) : Except Failure Accounts := do
  let x ← ListAccounts.next accounts
  let pool ← loadPool R s x.pool
  requireOwner pool x.owner
  check (price ≠ 0) .zeroPrice
  revertIf (x.tokenProgram.key ≠ R.splTokenId) (.runtime .incorrectProgramId)
  check ((s x.record.key).data = [] ∧ (s x.record.key).owner ≠ R.programId) .tokenAlreadyListed
  checkVault R s x.vault x.mint.key x.tokenProgram.key
  let decimals ← orRevert (.runtime .invalidAccountData) (R.unpackMint (s x.mint.key).data)
  revertIf (x.record.key ≠ R.findProgramAddress (tokenSeeds x.mint.key)) (.runtime .invalidSeeds)
  let s ← createPda R s x.owner x.record x.systemProgram TOKEN_SPACE
  let now ← unixTimestamp clock
  store R s x.record (tokenCodec.put (freshRec x.mint.key x.vault.key decimals price now))

/-! ### Prices -/

/-- The cooldown between two moves of a price. -/
def checkCooldown (pool : Pool) (token : TokenRec) (now : Int64) : Except Failure Unit :=
  revertIf (token.lastPriceUpdate ≠ 0 ∧
    now < saturatingAdd token.lastPriceUpdate pool.minPriceUpdateInterval)
    (.swap .priceUpdateTooSoon)

/-- The widest move of a price. -/
def checkStep (pool : Pool) (old price : U128) : Except Failure Unit := do
  let diff := if price > old then price - old else old - price
  let cap ← orRevert (.swap .overflow)
    (mulDivFloor old (BitVec.ofNat 128 pool.maxPriceDeviationBps.toNat)
      (BitVec.ofNat 128 BPS_DENOM.toNat))
  check (diff ≤ cap) .priceDeviationTooHigh

/-- `process_set_price`. -/
def processSetPrice (expected price : U128) : Except Failure Accounts := do
  let x ← PriceAccounts.next accounts
  let pool ← loadPool R s x.pool
  revertIf (x.oracle.key ≠ pool.oracle ∨ x.oracle.isSigner = false)
    (.runtime .missingRequiredSignature)
  check (price ≠ 0) .zeroPrice
  let token ← orRevert (.runtime .invalidAccountData) (decodeToken (s x.record.key).data)
  let tokenCheck ← loadToken R s x.record token.mint
  check (tokenCheck.mint = token.mint) .accountMismatch
  check (token.mint ≠ pool.hubMint) .hubRepriceForbidden
  check (token.price = expected) .priceChanged
  let now ← unixTimestamp clock
  checkCooldown pool token now
  checkStep pool token.price price
  store R s x.record
    (tokenCodec.put { token with price, lastPriceUpdate := now, priceSetAt := now })

/-! ### Liquidity and swaps -/

/-- `u64::checked_add`. -/
def checkedAdd (a b : U64) : Except Failure U64 := checked (.swap .overflow) (a.toNat + b.toNat)

/-- `u64::checked_sub`. -/
def checkedSub (a b : U64) : Except Failure U64 := Revert.checkedSub (.swap .overflow) a b

/-- What arrived in a vault in the course of a transfer, with the accounts after it. -/
def pull (vault : AccountInfo) (transfer : Option Accounts) : Except Failure (U64 × Accounts) := do
  let before ← vaultBalance R s vault
  let s ← invoke transfer
  let after ← vaultBalance R s vault
  let received ← checkedSub after before
  return (received, s)

/-- The inward half of `process_liquidity`. -/
def seed (x : LiquidityAccounts) (token : TokenRec) (amount : U64) : Except Failure Accounts := do
  let r ← pull R s x.vault (R.splTransferChecked x.ownerAta.key x.mint.key x.vault.key x.owner.key
    x.owner.isSigner amount token.decimals s)
  let reserve ← checkedAdd token.reserve r.1
  store R r.2 x.record (tokenCodec.put { token with reserve })

/-- The outward half of `process_liquidity`. -/
def withdraw (x : LiquidityAccounts) (token : TokenRec) (amount : U64) :
    Except Failure Accounts := do
  let _ ← vaultBalance R s x.vault
  check (amount ≤ token.reserve) .exceedsLock
  check (x.vaultAuthority.key = R.findProgramAddress vaultAuthoritySeeds) .vaultNotOwned
  let s ← invoke (R.splTransferChecked x.vault.key x.mint.key x.ownerAta.key
    (R.findProgramAddress vaultAuthoritySeeds) true amount token.decimals s)
  store R s x.record (tokenCodec.put { token with reserve := token.reserve - amount })

/-- `process_liquidity`. -/
def processLiquidity (amount : U64) (inward : Bool) : Except Failure Accounts := do
  let x ← LiquidityAccounts.next accounts
  let pool ← loadPool R s x.pool
  requireOwner pool x.owner
  check (amount ≠ 0) .zeroAmount
  let token ← loadToken R s x.record x.mint.key
  check (token.vault = x.vault.key) .accountMismatch
  revertIf (x.tokenProgram.key ≠ R.splTokenId) (.runtime .incorrectProgramId)
  if inward = true then seed R s x token amount else withdraw R s x token amount

/-- `process_swap`. -/
def processSwap (amountIn minAmountOut : U64) : Result := do
  let x ← SwapAccounts.next accounts
  let pool ← loadPool R s x.pool
  check (pool.paused = false) .paused
  revertIf (x.user.isSigner = false) (.runtime .missingRequiredSignature)
  check (x.mintIn.key ≠ x.mintOut.key) .sameToken
  check (amountIn ≠ 0) .zeroAmount
  revertIf (x.tokenProgram.key ≠ R.splTokenId) (.runtime .incorrectProgramId)
  let recIn ← loadToken R s x.recIn x.mintIn.key
  let recOut ← loadToken R s x.recOut x.mintOut.key
  check (recIn.vault = x.vaultIn.key ∧ recOut.vault = x.vaultOut.key) .accountMismatch
  let now ← unixTimestamp clock
  check (pool.priceIsFresh recIn now = true ∧ pool.priceIsFresh recOut now = true) .stalePrice
  let r ← pull R s x.vaultIn (R.splTransferChecked x.userIn.key x.mintIn.key x.vaultIn.key
    x.user.key x.user.isSigner amountIn recIn.decimals s)
  check (r.1 ≠ 0) .zeroAmount
  let out ← orRevert (.swap .overflow) (amountOut r.1 recIn.price recIn.decimals recOut.price
    recOut.decimals pool.feeBps)
  check (out ≠ 0) .zeroAmount
  check (minAmountOut ≤ out) .slippage
  check (out ≤ recOut.reserve) .exceedsLock
  let reserveIn ← checkedAdd recIn.reserve r.1
  let s ← store R r.2 x.recIn (tokenCodec.put { recIn with reserve := reserveIn })
  let s ← store R s x.recOut (tokenCodec.put { recOut with reserve := recOut.reserve - out })
  check (x.vaultAuthority.key = R.findProgramAddress vaultAuthoritySeeds) .vaultNotOwned
  let s ← invoke (R.splTransferChecked x.vaultOut.key x.mintOut.key x.userOut.key
    (R.findProgramAddress vaultAuthoritySeeds) true out recOut.decimals s)
  return (s, [⟨1, x.user.key, x.mintIn.key, x.mintOut.key, r.1, out, x.userOut.key⟩])

/-! ### Setters -/

/-- `process_set_paused`. -/
def processSetPaused (paused : Bool) : Except Failure Accounts := do
  let x ← RoleAccounts.next accounts
  let pool ← loadPool R s x.pool
  revertIf (x.who.isSigner = false) (.runtime .missingRequiredSignature)
  -- a guardian may stop the pool, and not start it
  check (x.who.key = pool.owner ∨
    (paused = true ∧ pool.guardian ≠ 0 ∧ x.who.key = pool.guardian)) .notAuthorizedToPause
  store R s x.pool (poolCodec.put { pool with paused })

/-- `Role`. -/
inductive Role
  | guardian (g : Pubkey)
  | oracle (o : Pubkey)
  | fee (f : UInt16)
  | maxPriceDeviation (bps : UInt16)
  | maxPriceAge (seconds : Int64)
  | minPriceUpdateInterval (seconds : Int64)

/-- The pool with a role set, if the value is within its bounds. -/
def Role.set (pool : Pool) : Role → Except Failure Pool
  | .guardian g => .ok { pool with guardian := g }
  | .oracle o => .ok { pool with oracle := o }
  | .fee f => do
    checkFeeBps f
    return { pool with feeBps := f }
  | .maxPriceDeviation bps => do
    checkDeviationBps bps
    return { pool with maxPriceDeviationBps := bps }
  | .maxPriceAge seconds => do
    revertIf (seconds ≤ 0) (.runtime .invalidArgument)
    return { pool with maxPriceAge := seconds }
  | .minPriceUpdateInterval seconds => do
    revertIf (seconds < 0) (.runtime .invalidArgument)
    return { pool with minPriceUpdateInterval := seconds }

/-- `process_set_role`. -/
def processSetRole (role : Role) : Except Failure Accounts := do
  let x ← RoleAccounts.next accounts
  let pool ← loadPool R s x.pool
  requireOwner pool x.who
  let pool ← role.set pool
  store R s x.pool (poolCodec.put pool)

/-- `process_instruction`. -/
def processInstruction : SwapInstruction → Result
  | .init a => quiet (processInit R clock s accounts a)
  | .listToken price => quiet (processListToken R clock s accounts price)
  | .setPrice _ => .error (.swap .setPriceRemoved)
  | .setPriceFrom expected price => quiet (processSetPrice R clock s accounts expected price)
  | .seedLiquidity amount => quiet (processLiquidity R s accounts amount true)
  | .withdrawLiquidity amount => quiet (processLiquidity R s accounts amount false)
  | .swap amountIn minAmountOut => processSwap R clock s accounts amountIn minAmountOut
  | .pause => quiet (processSetPaused R s accounts true)
  | .unpause => quiet (processSetPaused R s accounts false)
  | .setGuardian guardian => quiet (processSetRole R s accounts (.guardian guardian))
  | .setOracle oracle => quiet (processSetRole R s accounts (.oracle oracle))
  | .setFee feeBps => quiet (processSetRole R s accounts (.fee feeBps))
  | .setMaxPriceDeviation bps => quiet (processSetRole R s accounts (.maxPriceDeviation bps))
  | .setMaxPriceAge seconds => quiet (processSetRole R s accounts (.maxPriceAge seconds))
  | .setMinPriceUpdateInterval seconds =>
    quiet (processSetRole R s accounts (.minPriceUpdateInterval seconds))

end Instructions

/-! ### The machine -/

/-- What can happen next. -/
inductive Label
  /-- An instruction, with the clock and the accounts it is given. -/
  | instruction (clock : Clock) (accounts : List AccountInfo) (ix : SwapInstruction)
  /-- Others have their way with the accounts. -/
  | others (s : Accounts)

variable (R : Runtime)

/-- **One step.** -/
def exec (s : Accounts) : Label → Option (Accounts × List SwappedEvent)
  | .instruction clock accounts ix =>
    match processInstruction R clock s accounts ix with
    | .ok r => some r
    | .error _ => none
  | .others want => some (Solana.others R.toRuntime s want, [])

/-- A step of a run. -/
abbrev Step := Entry Accounts Label (List SwappedEvent)

end SolanaSwap

end SelendraBridge
