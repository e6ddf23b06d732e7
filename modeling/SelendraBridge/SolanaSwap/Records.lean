import SelendraBridge.SolanaSwap.Machine

/-!
# What an instruction leaves of the accounts

An account that the program has, keeps its owner, and either its data or a record of the same kind:
a pool with one field set, a token's record with another reserve, or one with another price
(`SelendraBridge.SolanaSwap.leaves_of_exec`). An account that the program takes holds a pool or the
record of a mint that was just listed (`SelendraBridge.SolanaSwap.born_of_exec`). Everything that is
said of runs starts from these two.
-/

namespace SelendraBridge

namespace SolanaSwap

open Borsh Revert SwapMath Transition
open Solana (AccountInfo Accounts ProgramError Deployed)
open Refresh (saturatingAdd saturatingSub)

variable {R : Runtime} {s s' s'' : Accounts} {clock : Clock} {accounts : List AccountInfo}

/-! ### The primitives, inverted -/

theorem check_eq_ok {p : Prop} [Decidable p] {e : SwapError} {u : Unit} :
    check p e = .ok u ↔ p := by
  rw [check, revertIf_eq_ok, not_not]

theorem invoke_eq_ok {r : Option Accounts} : invoke r = .ok s ↔ r = some s := orRevert_eq_ok

theorem unixTimestamp_eq_ok {now : Int64} : unixTimestamp clock = .ok now ↔ clock = some now :=
  orRevert_eq_ok

/-- **Writing some accounts**, and no others but token accounts. -/
abbrev Wrote (R : Runtime) (keys : List Pubkey) (s s' : Accounts) : Prop :=
  Solana.Wrote R.toRuntime keys s s'

/-- **A record stored** at the front of an account of the program's. -/
structure Stored (R : Runtime) (key : Pubkey) (bytes : Bytes) (s s' : Accounts) : Prop where
  owner : (s key).owner = R.programId
  state : s' = Function.update s key
    { s key with data := bytes ++ (s key).data.drop bytes.length }

theorem stored_of_store {ai : AccountInfo} {bytes : Bytes} (h : store R s ai bytes = .ok s') :
    Stored R ai.key bytes s s' := by
  rw [store, withReason_eq_ok, Solana.writeFront_eq_ok, Solana.writeData_eq_ok] at h
  exact ⟨h.2.2.1, h.2.2.2⟩

theorem wrote_of_store {ai : AccountInfo} {bytes : Bytes} (h : store R s ai bytes = .ok s') :
    Wrote R [ai.key] s s' := by
  rw [store, withReason_eq_ok] at h
  exact Solana.wrote_of_writeFront h

theorem Stored.data {key : Pubkey} {bytes : Bytes} (h : Stored R key bytes s s') :
    (s' key).data = bytes ++ (s key).data.drop bytes.length := by
  rw [h.state, Function.update_self]

theorem Stored.other {key : Pubkey} {bytes : Bytes} (h : Stored R key bytes s s') {k : Pubkey}
    (hk : k ≠ key) : s' k = s k := by
  rw [h.state, Function.update_of_ne hk]

/-- **A transfer writes token accounts only.** -/
theorem wrote_of_transfer (hR : R.Lawful) {source mint target authority : Pubkey} {signed : Bool}
    {amount : U64} {decimals : UInt8}
    (h : R.splTransferChecked source mint target authority signed amount decimals s = some s') :
    Wrote R [] s s' := by
  obtain ⟨hsource, htarget, howner, hmoved⟩ := hR.splTransferChecked h
  have hother : ∀ k, (s k).owner ≠ R.splTokenId → s' k = s k := by
    intro k hk
    refine hmoved.other k ?_ ?_
    · rintro rfl
      exact hk hsource
    · rintro rfl
      exact hk htarget
  refine ⟨fun k hk _ => ?_, fun k hk => ?_⟩
  · rw [hother k hk]
  · have hne : (s k).owner ≠ R.splTokenId := hk ▸ hR.toLawful.programId_ne_splTokenId
    rw [hother k hne]
    exact ⟨hk, le_rfl⟩

/-- What the program has keeps its data, if it is not written. -/
theorem data_of_wrote (hR : R.Lawful) {keys : List Pubkey} (h : Wrote R keys s s') {k : Pubkey}
    (hk : (s k).owner = R.programId) (hkey : k ∉ keys) : (s' k).data = (s k).data :=
  (h.same k (hk ▸ hR.toLawful.programId_ne_splTokenId) hkey).data

theorem loadPool_eq_ok {ai : AccountInfo} {p : Pool} : loadPool R s ai = .ok p ↔
    (ai.key = R.findProgramAddress poolSeeds ∧ (s ai.key).owner = R.programId) ∧
      decodePool (s ai.key).data = some p := by
  simp only [loadPool, bind_eq_ok, exists_unit, check_eq_ok, orRevert_eq_ok]

theorem loadToken_eq_ok {ai : AccountInfo} {mint : Pubkey} {t : TokenRec} :
    loadToken R s ai mint = .ok t ↔
      (ai.key = R.findProgramAddress (tokenSeeds mint) ∧ (s ai.key).owner = R.programId) ∧
        decodeToken (s ai.key).data = some t ∧ t.listed = true := by
  simp only [loadToken, bind_eq_ok, exists_unit, check_eq_ok, orRevert_eq_ok, pure_eq_ok]
  constructor
  · rintro ⟨hkey, t', ht, hlisted, rfl⟩
    exact ⟨hkey, ht, hlisted⟩
  · rintro ⟨hkey, ht, hlisted⟩
    exact ⟨hkey, t, ht, hlisted, rfl⟩

/-- **Taking an account** writes it. -/
theorem took_of_createPda (hR : R.Lawful) {payer account systemProgram : AccountInfo} {space : ℕ}
    (h : createPda R s payer account systemProgram space = .ok s') :
    Solana.Took R.toRuntime account.key (List.replicate space 0) s s' := by
  simp only [createPda, bind_eq_ok, exists_unit, withReason_eq_ok] at h
  exact Solana.took_of_createPdaAccount hR.toLawful h.2.2

/-! ### Instructions, inverted -/

/-- **What arrived.** -/
structure Pulled (R : Runtime) (vault : Pubkey) (transfer : Option Accounts) (s : Accounts)
    (received : U64) (s' : Accounts) : Prop where
  moved : transfer = some s'
  arrived : ∃ before after, R.unpackTokenAccount (s vault).data = some before ∧
    R.unpackTokenAccount (s' vault).data = some after ∧
    received.toNat + before.amount.toNat = after.amount.toNat

theorem pulled_of_pull {vault : AccountInfo} {transfer : Option Accounts} {r : U64 × Accounts}
    (h : pull R s vault transfer = .ok r) : Pulled R vault.key transfer s r.1 r.2 := by
  simp only [pull, vaultBalance, bind_eq_ok, invoke_eq_ok, orRevert_eq_ok, pure_eq_ok, checkedSub,
    checkedSub_eq_ok] at h
  obtain ⟨_, ⟨before, hbefore, rfl⟩, s₁, hmoved, _, ⟨after, hafter, rfl⟩, received, hreceived,
    rfl⟩ := h
  exact ⟨hmoved, before, after, hbefore, hafter, hreceived⟩

/-- **A price moved.** -/
structure SetsPrice (R : Runtime) (clock : Clock) (s : Accounts) (x : PriceAccounts) (pool : Pool)
    (token : TokenRec) (now : Int64) (expected price : U128) (s' : Accounts) : Prop where
  pool_load : loadPool R s x.pool = .ok pool
  oracle : x.oracle.key = pool.oracle ∧ x.oracle.isSigner = true
  price_ne : price ≠ 0
  token_load : loadToken R s x.record token.mint = .ok token
  not_hub : token.mint ≠ pool.hubMint
  expected_eq : token.price = expected
  clock_eq : clock = some now
  cooldown : token.lastPriceUpdate = 0 ∨
    (saturatingAdd token.lastPriceUpdate pool.minPriceUpdateInterval).toInt ≤ now.toInt
  step : checkStep pool token.price price = .ok ()
  stored : Stored R x.record.key
    (tokenCodec.put { token with price, lastPriceUpdate := now, priceSetAt := now }) s s'

theorem setsPrice_of_processSetPrice {expected price : U128}
    (h : processSetPrice R clock s accounts expected price = .ok s') :
    ∃ x pool token now, PriceAccounts.next accounts = .ok x ∧
      SetsPrice R clock s x pool token now expected price s' := by
  simp only [processSetPrice, checkCooldown, bind_eq_ok, exists_unit, revertIf_eq_ok, check_eq_ok,
    orRevert_eq_ok, unixTimestamp_eq_ok, not_or, not_not, Bool.not_eq_false, not_and] at h
  obtain ⟨x, hx, pool, hpool, horacle, hprice, token, htoken, token', hload, -, hhub, hexpected,
    now, hclock, hcooldown, hstep, hstore⟩ := h
  obtain ⟨hkey, htoken', hlisted⟩ := loadToken_eq_ok.mp hload
  obtain rfl : token = token' := Option.some.inj (htoken.symm.trans htoken')
  refine ⟨x, pool, token, now, hx, hpool, horacle, hprice, hload, hhub, hexpected, hclock, ?_,
    hstep, stored_of_store hstore⟩
  by_cases hlast : token.lastPriceUpdate = 0
  · exact .inl hlast
  · exact .inr (Int64.le_iff_toInt_le.mp (Int64.not_lt.mp (hcooldown hlast)))

/-- The transfer of a seed. -/
def seedTransfer (R : Runtime) (s : Accounts) (x : LiquidityAccounts) (token : TokenRec)
    (amount : U64) : Option Accounts :=
  R.splTransferChecked x.ownerAta.key x.mint.key x.vault.key x.owner.key x.owner.isSigner amount
    token.decimals s

/-- A transfer out of a vault. -/
def vaultTransfer (R : Runtime) (s : Accounts) (vault mint target : AccountInfo) (token : TokenRec)
    (amount : U64) : Option Accounts :=
  R.splTransferChecked vault.key mint.key target.key (R.findProgramAddress vaultAuthoritySeeds) true
    amount token.decimals s

/-- The transfer into the pool of a swap. -/
def swapTransfer (R : Runtime) (s : Accounts) (x : SwapAccounts) (token : TokenRec) (amount : U64) :
    Option Accounts :=
  R.splTransferChecked x.userIn.key x.mintIn.key x.vaultIn.key x.user.key x.user.isSigner amount
    token.decimals s

/-- **What both directions check.** -/
structure Handles (R : Runtime) (s : Accounts) (x : LiquidityAccounts) (pool : Pool)
    (token : TokenRec) (amount : U64) : Prop where
  pool_load : loadPool R s x.pool = .ok pool
  owner : x.owner.key = pool.owner ∧ x.owner.isSigner = true
  amount_ne : amount ≠ 0
  token_load : loadToken R s x.record x.mint.key = .ok token
  vault_eq : token.vault = x.vault.key

/-- **Liquidity seeded.** -/
structure Seeds (R : Runtime) (s : Accounts) (x : LiquidityAccounts) (token : TokenRec)
    (amount received reserve : U64) (s₁ s' : Accounts) : Prop where
  pulled : Pulled R x.vault.key (seedTransfer R s x token amount) s received s₁
  reserve_eq : reserve.toNat = token.reserve.toNat + received.toNat
  stored : Stored R x.record.key (tokenCodec.put { token with reserve }) s₁ s'

/-- **Liquidity withdrawn.** -/
structure Withdraws (R : Runtime) (s : Accounts) (x : LiquidityAccounts) (token : TokenRec)
    (amount : U64) (s₁ s' : Accounts) : Prop where
  within : amount ≤ token.reserve
  moved : vaultTransfer R s x.vault x.mint x.ownerAta token amount = some s₁
  stored : Stored R x.record.key (tokenCodec.put { token with reserve := token.reserve - amount })
    s₁ s'

theorem seeds_of_processLiquidity {amount : U64}
    (h : processLiquidity R s accounts amount true = .ok s') :
    ∃ x pool token received reserve s₁, LiquidityAccounts.next accounts = .ok x ∧
      Handles R s x pool token amount ∧ Seeds R s x token amount received reserve s₁ s' := by
  simp only [processLiquidity, seed, requireOwner, bind_eq_ok, exists_unit, revertIf_eq_ok,
    check_eq_ok, checkedAdd, checked_eq_ok, if_true, not_or, not_not, Bool.not_eq_false] at h
  obtain ⟨x, hx, pool, hpool, howner, hamount, token, htoken, hvault, -, r, hr, reserve, hreserve,
    hstore⟩ := h
  exact ⟨x, pool, token, r.1, reserve, r.2, hx, ⟨hpool, howner, hamount, htoken, hvault⟩,
    pulled_of_pull hr, hreserve, stored_of_store hstore⟩

theorem withdraws_of_processLiquidity {amount : U64}
    (h : processLiquidity R s accounts amount false = .ok s') :
    ∃ x pool token s₁, LiquidityAccounts.next accounts = .ok x ∧
      Handles R s x pool token amount ∧ Withdraws R s x token amount s₁ s' := by
  simp only [processLiquidity, withdraw, requireOwner, bind_eq_ok, exists_unit, revertIf_eq_ok,
    check_eq_ok, invoke_eq_ok, Bool.false_eq_true, if_false, not_or, not_not,
    Bool.not_eq_false] at h
  obtain ⟨x, hx, pool, hpool, howner, hamount, token, htoken, hvault, -, _, -, hle, -, s₁, hmoved,
    hstore⟩ := h
  exact ⟨x, pool, token, s₁, hx, ⟨hpool, howner, hamount, htoken, hvault⟩, hle, hmoved,
    stored_of_store hstore⟩

/-- **A swap.** -/
structure Swaps (R : Runtime) (clock : Clock) (s : Accounts) (x : SwapAccounts) (pool : Pool)
    (recIn recOut : TokenRec) (now : Int64) (amountIn minAmountOut received out reserveIn : U64)
    (s₁ s₂ s₃ s' : Accounts) : Prop where
  pool_load : loadPool R s x.pool = .ok pool
  mints_ne : x.mintIn.key ≠ x.mintOut.key
  in_load : loadToken R s x.recIn x.mintIn.key = .ok recIn
  out_load : loadToken R s x.recOut x.mintOut.key = .ok recOut
  vaultIn_eq : recIn.vault = x.vaultIn.key
  vaultOut_eq : recOut.vault = x.vaultOut.key
  clock_eq : clock = some now
  fresh : pool.priceIsFresh recIn now = true ∧ pool.priceIsFresh recOut now = true
  pulled : Pulled R x.vaultIn.key (swapTransfer R s x recIn amountIn) s received s₁
  received_ne : received ≠ 0
  out_eq : amountOut received recIn.price recIn.decimals recOut.price recOut.decimals pool.feeBps =
    some out
  out_ne : out ≠ 0
  enough : minAmountOut ≤ out
  locked : out ≤ recOut.reserve
  reserveIn_eq : reserveIn.toNat = recIn.reserve.toNat + received.toNat
  storedIn : Stored R x.recIn.key (tokenCodec.put { recIn with reserve := reserveIn }) s₁ s₂
  storedOut : Stored R x.recOut.key
    (tokenCodec.put { recOut with reserve := recOut.reserve - out }) s₂ s₃
  paid : vaultTransfer R s₃ x.vaultOut x.mintOut x.userOut recOut out = some s'

theorem swaps_of_processSwap {amountIn minAmountOut : U64} {log : List SwappedEvent}
    (h : processSwap R clock s accounts amountIn minAmountOut = .ok (s', log)) :
    ∃ x pool recIn recOut now received out reserveIn s₁ s₂ s₃,
      SwapAccounts.next accounts = .ok x ∧ Swaps R clock s x pool recIn recOut now amountIn
        minAmountOut received out reserveIn s₁ s₂ s₃ s' ∧
      log = [⟨1, x.user.key, x.mintIn.key, x.mintOut.key, received, out, x.userOut.key⟩] := by
  simp only [processSwap, bind_eq_ok, exists_unit, revertIf_eq_ok, check_eq_ok, orRevert_eq_ok,
    unixTimestamp_eq_ok, checkedAdd, checked_eq_ok, invoke_eq_ok, pure_eq_ok, Prod.mk.injEq] at h
  obtain ⟨x, hx, pool, hpool, -, -, hmints, -, -, recIn, hin, recOut, hout, ⟨hvin, hvout⟩, now,
    hclock, hfresh, r, hr, hreceived, out, houtEq, houtNe, henough, hlocked, reserveIn, hreserve,
    s₂, hs₂, s₃, hs₃, -, s₄, hpaid, rfl, rfl⟩ := h
  exact ⟨x, pool, recIn, recOut, now, r.1, out, reserveIn, r.2, s₂, s₃, hx, ⟨hpool, hmints, hin,
    hout, hvin, hvout, hclock, hfresh, pulled_of_pull hr, hreceived, houtEq, houtNe, henough,
    hlocked, hreserve, stored_of_store hs₂, stored_of_store hs₃, hpaid⟩, rfl⟩

/-- What a setter makes of the pool. -/
def SwapInstruction.govern (pool : Pool) : SwapInstruction → Pool
  | .pause => { pool with paused := true }
  | .unpause => { pool with paused := false }
  | .setGuardian guardian => { pool with guardian }
  | .setOracle oracle => { pool with oracle }
  | .setFee feeBps => { pool with feeBps }
  | .setMaxPriceDeviation bps => { pool with maxPriceDeviationBps := bps }
  | .setMaxPriceAge seconds => { pool with maxPriceAge := seconds }
  | .setMinPriceUpdateInterval seconds => { pool with minPriceUpdateInterval := seconds }
  | _ => pool

/-- Is it a setter? -/
def SwapInstruction.governs : SwapInstruction → Bool
  | .pause | .unpause | .setGuardian _ | .setOracle _ | .setFee _ | .setMaxPriceDeviation _
  | .setMaxPriceAge _ | .setMinPriceUpdateInterval _ => true
  | _ => false

/-- **The bounds of a pool**, which its setters check. -/
structure Pool.Bounded (pool : Pool) : Prop where
  fee : pool.feeBps.toNat ≤ 1000
  deviation : pool.maxPriceDeviationBps ≠ 0 ∧ pool.maxPriceDeviationBps.toNat ≤ 10000
  interval : 0 ≤ pool.minPriceUpdateInterval.toInt

/-- **A pool stored** by a setter: one field is set, within its bounds. -/
structure Governs (R : Runtime) (s : Accounts) (ix : SwapInstruction) (x : RoleAccounts)
    (pool : Pool) (s' : Accounts) : Prop where
  pool_load : loadPool R s x.pool = .ok pool
  bounded : pool.Bounded → (ix.govern pool).Bounded
  stored : Stored R x.pool.key (poolCodec.put (ix.govern pool)) s s'

theorem deviation_of_check {bps : UInt16} {u : Unit} (h : checkDeviationBps bps = .ok u) :
    bps ≠ 0 ∧ bps.toNat ≤ 10000 := by
  rw [checkDeviationBps, revertIf_eq_ok, not_or, gt_iff_lt, UInt16.not_lt] at h
  exact ⟨h.1, UInt16.le_iff_toNat_le.mp h.2⟩

theorem fee_of_check {bps : UInt16} {u : Unit} (h : checkFeeBps bps = .ok u) :
    bps.toNat ≤ 1000 := by
  rw [checkFeeBps, check_eq_ok] at h
  exact UInt16.le_iff_toNat_le.mp h

theorem governs_of_processSetRole {role : Role} {ix : SwapInstruction}
    (hix : ∀ pool, ∀ pool', role.set pool = .ok pool' → pool' = ix.govern pool ∧
      (pool.Bounded → pool'.Bounded))
    (h : processSetRole R s accounts role = .ok s') :
    ∃ x pool, Governs R s ix x pool s' := by
  simp only [processSetRole, bind_eq_ok, exists_unit] at h
  obtain ⟨x, -, pool, hpool, -, pool', hset, hstore⟩ := h
  obtain ⟨rfl, hbounded⟩ := hix pool pool' hset
  exact ⟨x, pool, hpool, hbounded, stored_of_store hstore⟩

theorem governs_of_processSetPaused {paused : Bool} {ix : SwapInstruction}
    (hix : ∀ pool, ix.govern pool = { pool with paused })
    (h : processSetPaused R s accounts paused = .ok s') :
    ∃ x pool, Governs R s ix x pool s' := by
  simp only [processSetPaused, bind_eq_ok, exists_unit] at h
  obtain ⟨x, -, pool, hpool, -, -, hstore⟩ := h
  refine ⟨x, pool, hpool, fun hb => ?_, hix pool ▸ stored_of_store hstore⟩
  rw [hix]
  exact ⟨hb.fee, hb.deviation, hb.interval⟩

theorem quiet_eq_ok {r : Except Failure Accounts} {log : List SwappedEvent} :
    quiet r = .ok (s', log) ↔ r = .ok s' ∧ log = [] := by
  cases r with
  | error e => simp [quiet, Except.map]
  | ok s => simp [quiet, Except.map, eq_comm]

/-- **What a setter does.** -/
theorem governs_of_instruction {ix : SwapInstruction} {log : List SwappedEvent}
    (hix : ix.governs = true) (h : processInstruction R clock s accounts ix = .ok (s', log)) :
    ∃ x pool, Governs R s ix x pool s' := by
  cases ix with
  | pause | unpause =>
    exact governs_of_processSetPaused (fun _ => rfl) (quiet_eq_ok.mp h).1
  | setGuardian g | setOracle o =>
    refine governs_of_processSetRole (fun pool pool' hset => ?_) (quiet_eq_ok.mp h).1
    obtain rfl := Except.ok.inj hset
    exact ⟨rfl, fun hb => ⟨hb.fee, hb.deviation, hb.interval⟩⟩
  | setFee f =>
    refine governs_of_processSetRole (fun pool pool' hset => ?_) (quiet_eq_ok.mp h).1
    simp only [Role.set, bind_eq_ok, exists_unit, pure_eq_ok] at hset
    obtain ⟨hfee, rfl⟩ := hset
    exact ⟨rfl, fun hb => ⟨fee_of_check hfee, hb.deviation, hb.interval⟩⟩
  | setMaxPriceDeviation bps =>
    refine governs_of_processSetRole (fun pool pool' hset => ?_) (quiet_eq_ok.mp h).1
    simp only [Role.set, bind_eq_ok, exists_unit, pure_eq_ok] at hset
    obtain ⟨hdeviation, rfl⟩ := hset
    exact ⟨rfl, fun hb => ⟨hb.fee, deviation_of_check hdeviation, hb.interval⟩⟩
  | setMaxPriceAge seconds =>
    refine governs_of_processSetRole (fun pool pool' hset => ?_) (quiet_eq_ok.mp h).1
    simp only [Role.set, bind_eq_ok, exists_unit, pure_eq_ok] at hset
    obtain ⟨-, rfl⟩ := hset
    exact ⟨rfl, fun hb => ⟨hb.fee, hb.deviation, hb.interval⟩⟩
  | setMinPriceUpdateInterval seconds =>
    refine governs_of_processSetRole (fun pool pool' hset => ?_) (quiet_eq_ok.mp h).1
    simp only [Role.set, bind_eq_ok, exists_unit, revertIf_eq_ok, pure_eq_ok, Int64.not_lt] at hset
    obtain ⟨hle, rfl⟩ := hset
    exact ⟨rfl, fun hb => ⟨hb.fee, hb.deviation, Int64.le_iff_toInt_le.mp hle⟩⟩
  | _ => exact absurd hix (by simp [SwapInstruction.governs])

/-- **A vault as it has to be**: a token account of the mint, held by the authority of the program
and controlled by nobody else. -/
structure Vault (R : Runtime) (s : Accounts) (vault mint : Pubkey) : Prop where
  owner : (s vault).owner = R.splTokenId
  state : ∃ t, R.unpackTokenAccount (s vault).data = some t ∧ t.mint = mint ∧
    t.owner = R.findProgramAddress vaultAuthoritySeeds ∧ t.delegate = none ∧
    t.closeAuthority = none

theorem vault_of_checkVault {vault : AccountInfo} {mint tokenProgram : Pubkey} {u : Unit}
    (h : checkVault R s vault mint tokenProgram = .ok u) (hp : tokenProgram = R.splTokenId) :
    Vault R s vault.key mint := by
  simp only [checkVault, bind_eq_ok, exists_unit, revertIf_eq_ok, check_eq_ok, orRevert_eq_ok,
    not_not] at h
  obtain ⟨howner, t, ht, hmint, hauth, hdelegate, hclose⟩ := h
  exact ⟨howner.trans hp, t, ht, hmint, hauth, hdelegate, hclose⟩

/-- **A mint listed.** -/
structure Lists (R : Runtime) (s : Accounts) (x : ListAccounts) (pool : Pool) (decimals : UInt8)
    (price : U128) (now : Int64) (s₁ s' : Accounts) : Prop where
  pool_load : loadPool R s x.pool = .ok pool
  owner : x.owner.key = pool.owner ∧ x.owner.isSigner = true
  price_ne : price ≠ 0
  vault : Vault R s x.vault.key x.mint.key
  key : x.record.key = R.findProgramAddress (tokenSeeds x.mint.key)
  took : Solana.Took R.toRuntime x.record.key (List.replicate TOKEN_SPACE 0) s s₁
  stored : Stored R x.record.key
    (tokenCodec.put (freshRec x.mint.key x.vault.key decimals price now)) s₁ s'

theorem lists_of_processListToken (hR : R.Lawful) {price : U128}
    (h : processListToken R clock s accounts price = .ok s') :
    ∃ x pool decimals now s₁, ListAccounts.next accounts = .ok x ∧
      Lists R s x pool decimals price now s₁ s' := by
  simp only [processListToken, requireOwner, bind_eq_ok, exists_unit, revertIf_eq_ok, check_eq_ok,
    orRevert_eq_ok, unixTimestamp_eq_ok, not_or, not_not, Bool.not_eq_false] at h
  obtain ⟨x, hx, pool, hpool, howner, hprice, hspl, -, hvault, decimals, -, hkey, s₁, hcreate, now,
    -, hstore⟩ := h
  exact ⟨x, pool, decimals, now, s₁, hx, hpool, howner, hprice, vault_of_checkVault hvault hspl,
    hkey, took_of_createPda hR hcreate, stored_of_store hstore⟩

/-- **A pool made**, with its hub. -/
structure Makes (R : Runtime) (s : Accounts) (x : InitAccounts) (a : InitPoolArgs)
    (decimals : UInt8) (now : Int64) (s₁ s₂ s₃ s' : Accounts) : Prop where
  bounded : (initialPool x.payer.key x.hubMint.key a).Bounded
  key : x.pool.key = R.findProgramAddress poolSeeds
  tookPool : Solana.Took R.toRuntime x.pool.key (List.replicate POOL_SPACE 0) s s₁
  storedPool : Stored R x.pool.key (poolCodec.put (initialPool x.payer.key x.hubMint.key a)) s₁ s₂
  vault : Vault R s₂ x.hubVault.key x.hubMint.key
  tookHub : Solana.Took R.toRuntime x.hubRec.key (List.replicate TOKEN_SPACE 0) s₂ s₃
  storedHub : Stored R x.hubRec.key
    (tokenCodec.put (freshRec x.hubMint.key x.hubVault.key decimals PRICE_ONE now)) s₃ s'

theorem makes_of_processInit (hR : R.Lawful) {a : InitPoolArgs}
    (h : processInit R clock s accounts a = .ok s') :
    ∃ x decimals now s₁ s₂ s₃, InitAccounts.next accounts = .ok x ∧
      Makes R s x a decimals now s₁ s₂ s₃ s' := by
  simp only [processInit, processInit.createHubRec, validateInitArgs, bind_eq_ok, exists_unit,
    revertIf_eq_ok, orRevert_eq_ok, unixTimestamp_eq_ok, not_not, Int64.not_lt] at h
  obtain ⟨x, hx, -, -, hspl, ⟨hdeviation, hfee, hinterval⟩, hkey, s₁, hcreate, s₂, hstore, now, -,
    decimals, -, hvault, s₃, ⟨-, hcreate'⟩, hstore'⟩ := h
  exact ⟨x, decimals, now, s₁, s₂, s₃, hx, ⟨fee_of_check hfee, deviation_of_check hdeviation,
    Int64.le_iff_toInt_le.mp hinterval⟩, hkey, took_of_createPda hR hcreate, stored_of_store hstore,
    vault_of_checkVault hvault hspl, took_of_createPda hR hcreate', stored_of_store hstore'⟩

/-! ### One step -/

theorem exec_instruction {ix : SwapInstruction} {log : List SwappedEvent}
    (h : exec R s (.instruction clock accounts ix) = some (s', log)) :
    processInstruction R clock s accounts ix = .ok (s', log) := by
  rw [exec] at h
  split at h
  · next r hr =>
    obtain rfl := Option.some.inj h
    exact hr
  · exact absurd h (by simp)

/-- The mints whose records a step can write. -/
def mintsOf (s : Accounts) : Label → List Pubkey
  | .instruction _ accounts (.listToken _) =>
    (ListAccounts.next accounts).toOption.toList.map fun x => x.mint.key
  | .instruction _ accounts (.setPriceFrom _ _) =>
    (PriceAccounts.next accounts).toOption.toList.flatMap fun x =>
      ((decodeToken (s x.record.key).data).map TokenRec.mint).toList
  | .instruction _ accounts (.seedLiquidity _) =>
    (LiquidityAccounts.next accounts).toOption.toList.map fun x => x.mint.key
  | .instruction _ accounts (.withdrawLiquidity _) =>
    (LiquidityAccounts.next accounts).toOption.toList.map fun x => x.mint.key
  | .instruction _ accounts (.swap _ _) =>
    (SwapAccounts.next accounts).toOption.toList.flatMap fun x => [x.mintIn.key, x.mintOut.key]
  | _ => []

/-- **What a step leaves of an account** that the program has. -/
inductive Leaves (R : Runtime) (l : Label) (s : Accounts) (k : Pubkey) (s' : Accounts) : Prop
  | same (data : (s' k).data = (s k).data)
  | pool {clock : Clock} {accounts : List AccountInfo} {ix : SwapInstruction} {pool : Pool}
      (label : l = .instruction clock accounts ix) (key : k = R.findProgramAddress poolSeeds)
      (old : decodePool (s k).data = some pool)
      (new : decodePool (s' k).data = some (ix.govern pool))
      (bounded : pool.Bounded → (ix.govern pool).Bounded)
  | reserve {mint : Pubkey} {t : TokenRec} {reserve : U64} (mem : mint ∈ mintsOf s l)
      (key : k = R.findProgramAddress (tokenSeeds mint)) (old : decodeToken (s k).data = some t)
      (new : decodeToken (s' k).data = some { t with reserve })
  | price {clock : Clock} {accounts : List AccountInfo} {x : PriceAccounts} {pool : Pool}
      {t : TokenRec} {now : Int64} {expected price : U128}
      (label : l = .instruction clock accounts (.setPriceFrom expected price))
      (next : PriceAccounts.next accounts = .ok x) (key : x.record.key = k)
      (spec : SetsPrice R clock s x pool t now expected price s')
      (mem : t.mint ∈ mintsOf s l)
      (new : decodeToken (s' k).data =
        some { t with price, lastPriceUpdate := now, priceSetAt := now })

/-- A record stored is the one that is read. -/
theorem Stored.decodeToken {key : Pubkey} {t : TokenRec}
    (h : Stored R key (tokenCodec.put t) s s') : decodeToken (s' key).data = some t := by
  rw [h.data, decodeToken_put]

theorem Stored.decodePool {key : Pubkey} {p : Pool} (h : Stored R key (poolCodec.put p) s s') :
    decodePool (s' key).data = some p := by
  rw [h.data, decodePool_put]

/-- A stored record keeps its owner, and so does every other account. -/
theorem Stored.owner_eq {key : Pubkey} {bytes : Bytes} (h : Stored R key bytes s s') (k : Pubkey) :
    (s' k).owner = (s k).owner := by
  rcases eq_or_ne k key with rfl | hne
  · rw [h.state, Function.update_self]
  · rw [h.other hne]

/-- What is taken was not the program's. -/
theorem Took.ne (hR : R.Lawful) {target k : Pubkey} {data : Bytes}
    (h : Solana.Took R.toRuntime target data s s') (hk : (s k).owner = R.programId) :
    k ≠ target := by
  rintro rfl
  exact hR.toLawful.programId_ne_systemId (hk.symm.trans h.free.owner)

/-- **What a step leaves of what the program has.** -/
theorem leaves_of_exec (hR : R.Lawful) {l : Label} {log : List SwappedEvent}
    (h : exec R s l = some (s', log)) {k : Pubkey} (hk : (s k).owner = R.programId) :
    (s' k).owner = R.programId ∧ Leaves R l s k s' := by
  cases l with
  | others want =>
    simp only [exec, Option.some.injEq, Prod.mk.injEq] at h
    have hkeeps : s' k = { s k with lamports := (want k).lamports } := by
      rw [← h.1, Solana.others, if_pos (.inr hk)]
    exact ⟨by rw [hkeeps]; exact hk, .same (by rw [hkeeps])⟩
  | instruction clock accounts ix =>
    have h := exec_instruction h
    by_cases hix : ix.governs = true
    · obtain ⟨x, pool, hg⟩ := governs_of_instruction hix h
      refine ⟨(hg.stored.owner_eq k).trans hk, ?_⟩
      rcases eq_or_ne k x.pool.key with rfl | hne
      · obtain ⟨⟨hkey, -⟩, hold⟩ := loadPool_eq_ok.mp hg.pool_load
        exact .pool rfl hkey hold hg.stored.decodePool hg.bounded
      · exact .same (by rw [hg.stored.other hne])
    · cases ix with
      | init a =>
        obtain ⟨x, decimals, now, s₁, s₂, s₃, -, hm⟩ := makes_of_processInit hR (quiet_eq_ok.mp h).1
        have hne := Took.ne hR hm.tookPool hk
        have hsame := hm.tookPool.other k hne
        have hk₁ : (s₁ k).owner = R.programId := hsame.owner.trans hk
        have hk₂ : (s₂ k).owner = R.programId := (hm.storedPool.owner_eq k).trans hk₁
        have hne' := Took.ne hR hm.tookHub hk₂
        have hsame' := hm.tookHub.other k hne'
        refine ⟨(hm.storedHub.owner_eq k).trans (hsame'.owner.trans hk₂), .same ?_⟩
        rw [hm.storedHub.other hne', hsame'.data, hm.storedPool.other hne, hsame.data]
      | listToken price =>
        obtain ⟨x, pool, decimals, now, s₁, -, hl⟩ :=
          lists_of_processListToken hR (quiet_eq_ok.mp h).1
        have hne := Took.ne hR hl.took hk
        have hsame := hl.took.other k hne
        refine ⟨(hl.stored.owner_eq k).trans (hsame.owner.trans hk), .same ?_⟩
        rw [hl.stored.other hne, hsame.data]
      | setPrice price => exact absurd h (by simp [processInstruction])
      | setPriceFrom expected price =>
        obtain ⟨x, pool, t, now, hx, hp⟩ :=
          setsPrice_of_processSetPrice (quiet_eq_ok.mp h).1
        refine ⟨(hp.stored.owner_eq k).trans hk, ?_⟩
        rcases eq_or_ne k x.record.key with rfl | hne
        · refine .price rfl hx rfl hp ?_ hp.stored.decodeToken
          have hload := (loadToken_eq_ok.mp hp.token_load).2.1
          simp [mintsOf, hx, hload, Except.toOption]
        · exact .same (by rw [hp.stored.other hne])
      | seedLiquidity amount =>
        obtain ⟨x, pool, t, received, reserve, s₁, hx, hh, hs⟩ :=
          seeds_of_processLiquidity (quiet_eq_ok.mp h).1
        have hw := wrote_of_transfer hR hs.pulled.moved
        refine ⟨(hs.stored.owner_eq k).trans (hw.kept k hk).1, ?_⟩
        rcases eq_or_ne k x.record.key with rfl | hne
        · obtain ⟨⟨hkey, -⟩, hold, -⟩ := loadToken_eq_ok.mp hh.token_load
          exact .reserve (by simp [mintsOf, hx, Except.toOption]) hkey hold hs.stored.decodeToken
        · exact .same (by rw [hs.stored.other hne, data_of_wrote hR hw hk (by simp)])
      | withdrawLiquidity amount =>
        obtain ⟨x, pool, t, s₁, hx, hh, hw'⟩ :=
          withdraws_of_processLiquidity (quiet_eq_ok.mp h).1
        have hw := wrote_of_transfer hR hw'.moved
        refine ⟨(hw'.stored.owner_eq k).trans (hw.kept k hk).1, ?_⟩
        rcases eq_or_ne k x.record.key with rfl | hne
        · obtain ⟨⟨hkey, -⟩, hold, -⟩ := loadToken_eq_ok.mp hh.token_load
          exact .reserve (by simp [mintsOf, hx, Except.toOption]) hkey hold hw'.stored.decodeToken
        · exact .same (by rw [hw'.stored.other hne, data_of_wrote hR hw hk (by simp)])
      | swap amountIn minAmountOut =>
        obtain ⟨x, pool, recIn, recOut, now, received, out, reserveIn, s₁, s₂, s₃, hx, hs, -⟩ :=
          swaps_of_processSwap h
        have hw₁ := wrote_of_transfer hR hs.pulled.moved
        have hw₄ := wrote_of_transfer hR hs.paid
        have hk₁ := (hw₁.kept k hk).1
        have hk₃ : (s₃ k).owner = R.programId :=
          (hs.storedOut.owner_eq k).trans ((hs.storedIn.owner_eq k).trans hk₁)
        have hdata : (s' k).data = (s₃ k).data := data_of_wrote hR hw₄ hk₃ (by simp)
        refine ⟨(hw₄.kept k hk₃).1, ?_⟩
        rcases eq_or_ne k x.recOut.key with rfl | hneOut
        · obtain ⟨⟨hkey, -⟩, hold, -⟩ := loadToken_eq_ok.mp hs.out_load
          exact .reserve (by simp [mintsOf, hx, Except.toOption]) hkey hold
            (by rw [hdata, hs.storedOut.decodeToken])
        · rcases eq_or_ne k x.recIn.key with rfl | hneIn
          · obtain ⟨⟨hkey, -⟩, hold, -⟩ := loadToken_eq_ok.mp hs.in_load
            exact .reserve (by simp [mintsOf, hx, Except.toOption]) hkey hold
              (by rw [hdata, hs.storedOut.other hneOut, hs.storedIn.decodeToken])
          · refine .same ?_
            rw [hdata, hs.storedOut.other hneOut, hs.storedIn.other hneIn,
              data_of_wrote hR hw₁ hk (by simp)]
      | _ => exact absurd rfl hix

/-- **What a step makes of an account** that the program takes, at an address of its own. -/
inductive Born (R : Runtime) (l : Label) (s : Accounts) (k : Pubkey) (s' : Accounts) : Prop
  | pool {p : Pool} (key : k = R.findProgramAddress poolSeeds) (bounded : p.Bounded)
      (new : decodePool (s' k).data = some p)
  | token {mint vault : Pubkey} {decimals : UInt8} {price : U128} {now : Int64}
      (key : (mint ∈ mintsOf s l ∧ k = R.findProgramAddress (tokenSeeds mint)) ∨
        k ≠ R.findProgramAddress poolSeeds)
      (price_ne : price ≠ 0) (vault_ok : Vault R s vault mint)
      (new : decodeToken (s' k).data = some (freshRec mint vault decimals price now))

/-- A vault stays what it is while the program takes an account. -/
theorem Vault.of_same {s s' : Accounts} {vault mint : Pubkey} (h : Vault R s' vault mint)
    (hsame : (s vault).Same (s' vault)) : Vault R s vault mint :=
  ⟨hsame.owner.symm.trans h.owner, by rw [← hsame.data]; exact h.state⟩

/-- A transfer takes no account. -/
theorem owner_of_transfer (hR : R.Lawful) {source mint target authority : Pubkey} {signed : Bool}
    {amount : U64} {decimals : UInt8}
    (h : R.splTransferChecked source mint target authority signed amount decimals s = some s')
    (k : Pubkey) : (s' k).owner = (s k).owner :=
  (hR.splTransferChecked h).2.2.1 k

/-- **What a step makes of what the program takes.** -/
theorem born_of_exec (hR : R.Lawful) {l : Label} {log : List SwappedEvent}
    (h : exec R s l = some (s', log)) {k : Pubkey} (hderived : R.isDerived k = true)
    (hk : (s k).owner ≠ R.programId) (hk' : (s' k).owner = R.programId) : Born R l s k s' := by
  cases l with
  | others want =>
    simp only [exec, Option.some.injEq, Prod.mk.injEq] at h
    have hkeeps : s' k = { s k with lamports := (want k).lamports } := by
      rw [← h.1, Solana.others, if_pos (.inl hderived)]
    rw [hkeeps] at hk'
    exact absurd hk' hk
  | instruction clock accounts ix =>
    have h := exec_instruction h
    by_cases hix : ix.governs = true
    · obtain ⟨x, pool, hg⟩ := governs_of_instruction hix h
      exact absurd ((hg.stored.owner_eq k).symm.trans hk') hk
    · cases ix with
      | init a =>
        obtain ⟨x, decimals, now, s₁, s₂, s₃, -, hm⟩ := makes_of_processInit hR (quiet_eq_ok.mp h).1
        have hpool₂ : (s₂ x.pool.key).owner = R.programId :=
          (hm.storedPool.owner_eq _).trans hm.tookPool.owner
        have hhub : x.pool.key ≠ x.hubRec.key := Took.ne hR hm.tookHub hpool₂
        rcases eq_or_ne k x.pool.key with rfl | hne
        · refine .pool hm.key hm.bounded ?_
          rw [hm.storedHub.other hhub, (hm.tookHub.other _ hhub).data, hm.storedPool.decodePool]
        · rcases eq_or_ne k x.hubRec.key with rfl | hne'
          · have hone : PRICE_ONE ≠ 0 := by decide
            refine .token (.inr (hm.key ▸ hne)) hone ?_ hm.storedHub.decodeToken
            -- the vault is a token account, so it is not what was taken for the pool
            have hvault : x.hubVault.key ≠ x.pool.key := by
              intro heq
              have howner := hm.vault.owner
              rw [heq, hpool₂] at howner
              exact hR.toLawful.programId_ne_splTokenId howner
            refine hm.vault.of_same ?_
            rw [hm.storedPool.other hvault]
            exact hm.tookPool.other _ hvault
          · have howner : (s' k).owner = (s k).owner := by
              rw [hm.storedHub.owner_eq, (hm.tookHub.other k hne').owner, hm.storedPool.owner_eq,
                (hm.tookPool.other k hne).owner]
            exact absurd (howner.symm.trans hk') hk
      | listToken price =>
        obtain ⟨x, pool, decimals, now, s₁, hx, hl⟩ :=
          lists_of_processListToken hR (quiet_eq_ok.mp h).1
        rcases eq_or_ne k x.record.key with rfl | hne
        · exact .token (.inl ⟨by simp [mintsOf, hx, Except.toOption], hl.key⟩) hl.price_ne hl.vault
            hl.stored.decodeToken
        · have howner : (s' k).owner = (s k).owner := by
            rw [hl.stored.owner_eq, (hl.took.other k hne).owner]
          exact absurd (howner.symm.trans hk') hk
      | setPrice price => exact absurd h (by simp [processInstruction])
      | setPriceFrom expected price =>
        obtain ⟨x, pool, t, now, hx, hp⟩ := setsPrice_of_processSetPrice (quiet_eq_ok.mp h).1
        exact absurd ((hp.stored.owner_eq k).symm.trans hk') hk
      | seedLiquidity amount =>
        obtain ⟨x, pool, t, received, reserve, s₁, hx, hh, hs⟩ :=
          seeds_of_processLiquidity (quiet_eq_ok.mp h).1
        have howner : (s' k).owner = (s k).owner :=
          (hs.stored.owner_eq k).trans (owner_of_transfer hR hs.pulled.moved k)
        exact absurd (howner.symm.trans hk') hk
      | withdrawLiquidity amount =>
        obtain ⟨x, pool, t, s₁, hx, hh, hw⟩ :=
          withdraws_of_processLiquidity (quiet_eq_ok.mp h).1
        have howner : (s' k).owner = (s k).owner :=
          (hw.stored.owner_eq k).trans (owner_of_transfer hR hw.moved k)
        exact absurd (howner.symm.trans hk') hk
      | swap amountIn minAmountOut =>
        obtain ⟨x, pool, recIn, recOut, now, received, out, reserveIn, s₁, s₂, s₃, hx, hs, -⟩ :=
          swaps_of_processSwap h
        have howner : (s' k).owner = (s k).owner := by
          rw [owner_of_transfer hR hs.paid, hs.storedOut.owner_eq, hs.storedIn.owner_eq,
            owner_of_transfer hR hs.pulled.moved]
        exact absurd (howner.symm.trans hk') hk
      | _ => exact absurd rfl hix

end SolanaSwap

end SelendraBridge
