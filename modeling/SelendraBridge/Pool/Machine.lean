import SelendraBridge.Ledger
import SelendraBridge.Lib.Transition
import SelendraBridge.Pool.State

/-!
# The swap pool as a machine

| call | who | what it changes |
|---|---|---|
| `swap` | anybody | two reserves, one up and one down |
| `setPrice` | the oracle | one price, by at most the step cap |
| `listToken`, `delistToken` | the owner | one listing |
| `setFee` and the other setters | the owner | one parameter |
| `seedLiquidity`, `withdrawLiquidity` | the owner | one reserve |

A step is one call by anybody at a time that does not run backwards, or a move of tokens by
somebody else. What a swap and a move of a price say about the state before and after them
is inverted once (`SelendraBridge.SwapPool.swaps_of_swap`,
`SelendraBridge.SwapPool.repriced_of_setPrice`), and all other calls by what they leave
alone: only three kinds of calls touch what tokens are quoted at
(`SelendraBridge.SwapPool.quotes_of_call`).
-/

namespace SelendraBridge

namespace SwapPool

open Revert Transition

variable {σ : Type} (E : Erc20 σ) (here : Address) (c : Call) (p : SwapPool) (tokens : σ)

/-- What a call that moves no tokens returns. -/
abbrev Result := Except Error (SwapPool × List Event)

/-- What a call that moves tokens returns. -/
structure Done (σ : Type) where
  pool : SwapPool
  tokens : σ
  log : List Event

/-! ### Governance -/

/-- `onlyOwner`. -/
def onlyOwner : Except Error Unit := revertIf (c.sender ≠ p.owner) .notOwner

/-- `onlyOracle`. -/
def onlyOracle : Except Error Unit := revertIf (c.sender ≠ p.oracle) .notOracle

/-- `whenNotPaused`. -/
def whenNotPaused : Except Error Unit := revertIf (p.paused = true) .enforcedPause

/-- `transferOwnership`. -/
def transferOwnership (newOwner : Address) : Result := do
  onlyOwner c p
  revertIf (newOwner = 0) .zeroAddress
  return ({ p with pendingOwner := newOwner }, [.ownershipTransferStarted p.owner newOwner])

/-- `acceptOwnership`. -/
def acceptOwnership : Result := do
  revertIf (c.sender ≠ p.pendingOwner) .notOwner
  return ({ p with owner := p.pendingOwner, pendingOwner := 0 },
    [.ownershipTransferred p.owner p.pendingOwner])

/-- `setOracle`. -/
def setOracle (newOracle : Address) : Result := do
  onlyOwner c p
  revertIf (newOracle = 0) .zeroAddress
  return ({ p with oracle := newOracle }, [.oracleSet newOracle])

/-- `setGuardian`. -/
def setGuardian (newGuardian : Address) : Result := do
  onlyOwner c p
  return ({ p with guardian := newGuardian }, [.guardianSet newGuardian])

/-- `setFee`. -/
def setFee (newFeeBps : UInt16) : Result := do
  onlyOwner c p
  revertIf (newFeeBps.toNat > 1000) .feeTooHigh
  return ({ p with feeBps := newFeeBps }, [.feeSet newFeeBps])

/-- `setMaxPriceDeviation`. -/
def setMaxPriceDeviation (bps : UInt16) : Result := do
  onlyOwner c p
  revertIf (bps = 0 ∨ bps.toNat > BPS_DENOM) .deviationTooHigh
  return ({ p with maxPriceDeviationBps := bps }, [.maxPriceDeviationSet bps])

/-- `setMinPriceUpdateInterval`. -/
def setMinPriceUpdateInterval (interval : U256) : Result := do
  onlyOwner c p
  return ({ p with minPriceUpdateInterval := interval }, [.minPriceUpdateIntervalSet interval])

/-- `setMaxPriceAge`. -/
def setMaxPriceAge (maxAge : U256) : Result := do
  onlyOwner c p
  return ({ p with maxPriceAge := maxAge }, [.maxPriceAgeSet maxAge])

/-- `pause`. -/
def pause : Result := do
  revertIf (c.sender ≠ p.owner ∧ c.sender ≠ p.guardian) .notAuthorizedToPause
  return if p.paused then (p, []) else ({ p with paused := true }, [.paused c.sender])

/-- `unpause`. -/
def unpause : Result := do
  onlyOwner c p
  return if p.paused then ({ p with paused := false }, [.unpaused c.sender]) else (p, [])

/-! ### Listings and prices -/

/-- Store a token's record. -/
def setToken (token : Address) (t : TokenInfo) : SwapPool :=
  { p with tokens := Function.update p.tokens token t }

/-- How far two prices are apart. -/
def priceDiff (newPrice oldPrice : U256) : U256 :=
  if newPrice > oldPrice then newPrice - oldPrice else oldPrice - newPrice

/-- A move that is wider than a share of the old price. -/
def checkDeviation (oldPrice newPrice : U256) (bps : UInt16) : Except Error Unit := do
  let cap ← mulDiv oldPrice (BitVec.ofNat 256 bps.toNat) (BitVec.ofNat 256 BPS_DENOM)
  revertIf (priceDiff newPrice oldPrice > cap) (.priceDeviationTooHigh oldPrice newPrice bps)

/-- The check of a listing at a price, against the price of an earlier one. -/
def checkRelisting (previous price : U256) : Except Error Unit :=
  if previous = 0 then .ok () else checkDeviation previous price p.maxPriceDeviationBps

/-- `listToken`. -/
def listToken (token : Address) (price : U256) : Result := do
  onlyOwner c p
  revertIf (token = 0) .zeroAddress
  let t := p.tokens token
  revertIf (t.listed = true) (.tokenAlreadyListed token)
  revertIf (price = 0) .zeroPrice
  checkRelisting p t.price price
  let decimals ← orRevert (.tokenCallFailed token) (E.decimals tokens token)
  let p := p.setToken token { t with listed := true, decimals, price }
  return ({ p with priceSetAt := Function.update p.priceSetAt token c.timestamp },
    [.tokenListed token price decimals])

/-- `priceStepCapBps`. -/
def priceStepCapBps : UInt16 :=
  if p.feeBps < p.maxPriceDeviationBps then p.feeBps else p.maxPriceDeviationBps

/-- The cooldown between two moves of a price. -/
def checkCooldown (token : Address) : Except Error Unit :=
  if p.lastPriceUpdate token = 0 then .ok ()
  else do
    let nextAllowed := p.lastPriceUpdate token + p.minPriceUpdateInterval.toNat
    revertIf (2 ^ 256 ≤ nextAllowed) .panic
    revertIf (c.timestamp < nextAllowed) (.priceUpdateTooSoon token nextAllowed)

/-- `setPrice`. -/
def setPrice (token : Address) (expectedOld newPrice : U256) : Result := do
  onlyOracle c p
  let t := p.tokens token
  revertIf (t.listed = false) (.tokenNotListed token)
  revertIf (token = p.stable) .stableRepriceForbidden
  revertIf (newPrice = 0) .zeroPrice
  revertIf (t.price ≠ expectedOld) (.priceChanged token expectedOld t.price)
  checkCooldown c p token
  checkDeviation t.price newPrice p.priceStepCapBps
  let p := p.setToken token { t with price := newPrice }
  return ({ p with
      lastPriceUpdate := Function.update p.lastPriceUpdate token c.timestamp
      priceSetAt := Function.update p.priceSetAt token c.timestamp },
    [.priceSet token t.price newPrice])

/-- `delistToken`. -/
def delistToken (token : Address) : Result := do
  onlyOwner c p
  revertIf (token = p.stable) .stableDelistForbidden
  let t := p.tokens token
  revertIf (t.listed = false) (.tokenNotListed token)
  revertIf (t.reserve ≠ 0) .reserveNonZero
  let p := p.setToken token { t with listed := false }
  return ({ p with
      priceSetAt := Function.update p.priceSetAt token 0
      lastPriceUpdate := Function.update p.lastPriceUpdate token 0 },
    [.tokenDelisted token])

/-! ### Liquidity and swaps -/

/-- `seedLiquidity`. -/
def seedLiquidity (token : Address) (amount : U256) : Except Error (Done σ) := do
  onlyOwner c p
  let t := p.tokens token
  revertIf (t.listed = false) (.tokenNotListed token)
  revertIf (amount = 0) .zeroAmount
  let before := E.balanceOf tokens token here
  let tokens ← orRevert (.tokenCallFailed token)
    (E.transferFrom token here c.sender here amount tokens)
  let received ← checkedSub .panic (E.balanceOf tokens token here) before
  let reserve ← checked .panic (t.reserve.toNat + received.toNat)
  return ⟨p.setToken token { t with reserve }, tokens, [.liquiditySeeded token received reserve]⟩

/-- `withdrawLiquidity`. -/
def withdrawLiquidity (token : Address) (amount : U256) (target : Address) :
    Except Error (Done σ) := do
  onlyOwner c p
  let t := p.tokens token
  revertIf (t.listed = false) (.tokenNotListed token)
  revertIf (amount = 0) .zeroAmount
  revertIf (target = 0) .zeroAddress
  revertIf (amount > t.reserve) (.exceedsLock amount t.reserve)
  let reserve ← checkedSub .panic t.reserve amount
  let tokens ← orRevert (.tokenCallFailed token) (E.transfer token here target amount tokens)
  return ⟨p.setToken token { t with reserve }, tokens,
    [.liquidityWithdrawn token amount reserve target]⟩

/-- `_requireFreshPrice`. -/
def requireFreshPrice (token : Address) : Except Error Unit :=
  if p.maxPriceAge = 0 ∨ token = p.stable then .ok ()
  else do
    let setAt := p.priceSetAt token
    revertIf (c.timestamp < setAt) .panic
    revertIf (c.timestamp - setAt > p.maxPriceAge.toNat) (.stalePrice token setAt p.maxPriceAge)

/-- `quote`. -/
def quote (tokenIn tokenOut : Address) (amountIn : U256) : Except Error U256 := do
  let i := p.tokens tokenIn
  let o := p.tokens tokenOut
  revertIf (i.listed = false) (.tokenNotListed tokenIn)
  revertIf (o.listed = false) (.tokenNotListed tokenOut)
  requireFreshPrice c p tokenIn
  requireFreshPrice c p tokenOut
  amountOut amountIn i.price i.decimals o.price o.decimals p.feeBps

/-- `swap`, with the amount it returns. -/
def swap (tokenIn tokenOut : Address) (amountIn minAmountOut : U256) (target : Address) :
    Except Error (U256 × Done σ) := do
  whenNotPaused p
  revertIf (tokenIn = tokenOut) .sameToken
  revertIf (amountIn = 0) .zeroAmount
  revertIf (target = 0) .zeroAddress
  let i := p.tokens tokenIn
  let o := p.tokens tokenOut
  revertIf (i.listed = false) (.tokenNotListed tokenIn)
  revertIf (o.listed = false) (.tokenNotListed tokenOut)
  requireFreshPrice c p tokenIn
  requireFreshPrice c p tokenOut
  let balBefore := E.balanceOf tokens tokenIn here
  let tokens ← orRevert (.tokenCallFailed tokenIn)
    (E.transferFrom tokenIn here c.sender here amountIn tokens)
  let received ← checkedSub .panic (E.balanceOf tokens tokenIn here) balBefore
  revertIf (received = 0) .zeroAmount
  let out ← amountOut received i.price i.decimals o.price o.decimals p.feeBps
  revertIf (out = 0) .zeroAmount
  revertIf (out < minAmountOut) (.slippage out minAmountOut)
  revertIf (out > o.reserve) (.exceedsLock out o.reserve)
  let reserveIn ← checked .panic (i.reserve.toNat + received.toNat)
  let reserveOut ← checkedSub .panic o.reserve out
  let tokens ← orRevert (.tokenCallFailed tokenOut) (E.transfer tokenOut here target out tokens)
  return (out,
    ⟨(p.setToken tokenIn { i with reserve := reserveIn }).setToken tokenOut
        { o with reserve := reserveOut },
      tokens, [.swapped c.sender tokenIn tokenOut received out target]⟩)

/-! ### The machine -/

/-- The calls of the pool, with their arguments. -/
inductive PoolCall
  | transferOwnership (newOwner : Address)
  | acceptOwnership
  | setOracle (newOracle : Address)
  | setGuardian (newGuardian : Address)
  | setFee (newFeeBps : UInt16)
  | setMaxPriceDeviation (bps : UInt16)
  | setMinPriceUpdateInterval (interval : U256)
  | setMaxPriceAge (maxAge : U256)
  | pause
  | unpause
  | listToken (token : Address) (price : U256)
  | setPrice (token : Address) (expectedOld newPrice : U256)
  | delistToken (token : Address)
  | seedLiquidity (token : Address) (amount : U256)
  | withdrawLiquidity (token : Address) (amount : U256) (target : Address)
  | swap (tokenIn tokenOut : Address) (amountIn minAmountOut : U256) (target : Address)
  deriving DecidableEq, Repr

/-- A call that moved no tokens. -/
def keepTokens : SwapPool × List Event → Done σ := fun r => ⟨r.1, tokens, r.2⟩

/-- A call. -/
def call : PoolCall → Except Error (Done σ)
  | .transferOwnership newOwner => (transferOwnership c p newOwner).map (keepTokens tokens)
  | .acceptOwnership => (acceptOwnership c p).map (keepTokens tokens)
  | .setOracle newOracle => (setOracle c p newOracle).map (keepTokens tokens)
  | .setGuardian newGuardian => (setGuardian c p newGuardian).map (keepTokens tokens)
  | .setFee newFeeBps => (setFee c p newFeeBps).map (keepTokens tokens)
  | .setMaxPriceDeviation bps => (setMaxPriceDeviation c p bps).map (keepTokens tokens)
  | .setMinPriceUpdateInterval interval =>
    (setMinPriceUpdateInterval c p interval).map (keepTokens tokens)
  | .setMaxPriceAge maxAge => (setMaxPriceAge c p maxAge).map (keepTokens tokens)
  | .pause => (pause c p).map (keepTokens tokens)
  | .unpause => (unpause c p).map (keepTokens tokens)
  | .listToken token price => (listToken E c p tokens token price).map (keepTokens tokens)
  | .setPrice token expectedOld newPrice =>
    (setPrice c p token expectedOld newPrice).map (keepTokens tokens)
  | .delistToken token => (delistToken c p token).map (keepTokens tokens)
  | .seedLiquidity token amount => seedLiquidity E here c p tokens token amount
  | .withdrawLiquidity token amount target =>
    withdrawLiquidity E here c p tokens token amount target
  | .swap tokenIn tokenOut amountIn minAmountOut target =>
    (swap E here c p tokens tokenIn tokenOut amountIn minAmountOut target).map Prod.snd

/-- A pool on its chain, at a time. -/
structure World (σ : Type) where
  pool : SwapPool
  tokens : σ
  now : ℕ

/-- What can happen next. -/
inductive Label (σ : Type)
  | call (c : Call) (x : PoolCall)
  /-- Somebody else moves tokens. -/
  | tokens (s : σ)

/-- **One step.** -/
def exec (w : World σ) : Label σ → Option (World σ × List Event)
  | .call c x =>
    if c.timestamp < w.now then none
    else match call E here c w.pool w.tokens x with
      | .ok r => some (⟨r.pool, r.tokens, c.timestamp⟩, r.log)
      | .error _ => none
  | .tokens s => some ({ w with tokens := s }, [])

/-- A step of a run. -/
abbrev Step (σ : Type) := Entry (World σ) (Label σ) (List Event)

variable {E here c p tokens}

theorem exec_call {w w' : World σ} {x : PoolCall} {log : List Event}
    (h : exec E here w (.call c x) = some (w', log)) :
    w.now ≤ c.timestamp ∧ ∃ r, call E here c w.pool w.tokens x = .ok r ∧
      w' = ⟨r.pool, r.tokens, c.timestamp⟩ ∧ log = r.log := by
  rw [exec] at h
  split at h
  · exact absurd h (by simp)
  · next hnow =>
    split at h
    · next r hr =>
      simp only [Option.some.injEq, Prod.mk.injEq] at h
      exact ⟨not_lt.mp hnow, r, hr, h.1.symm, h.2.symm⟩
    · exact absurd h (by simp)

theorem map_eq_ok {ε α β : Type} {f : α → β} {x : Except ε α} {b : β} :
    x.map f = .ok b ↔ ∃ a, x = .ok a ∧ f a = b := by
  cases x <;> simp [Except.map]

/-! ### What a swap and a move of a price say -/

/-- **A swap that went through**: what it read, what it moved, and what it wrote. -/
structure Swaps (E : Erc20 σ) (here : Address) (c : Call) (p : SwapPool) (tokens : σ)
    (tokenIn tokenOut : Address) (amountIn minAmountOut : U256) (target : Address)
    (received out : U256) (r : Done σ) : Prop where
  paused : p.paused = false
  ne : tokenIn ≠ tokenOut
  target_ne : target ≠ 0
  listedIn : (p.tokens tokenIn).listed = true
  listedOut : (p.tokens tokenOut).listed = true
  freshIn : requireFreshPrice c p tokenIn = .ok ()
  freshOut : requireFreshPrice c p tokenOut = .ok ()
  out_eq : amountOut received (p.tokens tokenIn).price (p.tokens tokenIn).decimals
    (p.tokens tokenOut).price (p.tokens tokenOut).decimals p.feeBps = .ok out
  out_ne : out ≠ 0
  min : ¬out < minAmountOut
  /-- The tokens come in, then the output goes out. -/
  moved : ∃ s, E.transferFrom tokenIn here c.sender here amountIn tokens = some s ∧
    received.toNat + (E.balanceOf tokens tokenIn here).toNat =
      (E.balanceOf s tokenIn here).toNat ∧
    E.transfer tokenOut here target out s = some r.tokens
  written : ∃ reserveIn reserveOut : U256,
    reserveIn.toNat = (p.tokens tokenIn).reserve.toNat + received.toNat ∧
    reserveOut.toNat + out.toNat = (p.tokens tokenOut).reserve.toNat ∧
    r.pool = (p.setToken tokenIn { p.tokens tokenIn with reserve := reserveIn }).setToken tokenOut
      { p.tokens tokenOut with reserve := reserveOut }
  log : r.log = [.swapped c.sender tokenIn tokenOut received out target]

theorem swaps_of_swap {tokenIn tokenOut target : Address} {amountIn minAmountOut out : U256}
    {r : Done σ}
    (h : swap E here c p tokens tokenIn tokenOut amountIn minAmountOut target = .ok (out, r)) :
    ∃ received, Swaps E here c p tokens tokenIn tokenOut amountIn minAmountOut target received out
      r := by
  simp only [swap, whenNotPaused, bind_eq_ok, exists_unit, revertIf_eq_ok, orRevert_eq_ok,
    checkedSub_eq_ok, checked_eq_ok, pure_eq_ok, Bool.not_eq_true, Bool.not_eq_false,
    Prod.mk.injEq] at h
  obtain ⟨hpaused, hne, -, htarget, hin, hout, hfin, hfout, s, hs, received, hrec, -, o, ho, hone,
    hmin, -, reserveIn, hri, reserveOut, hro, s', hs', rfl, rfl⟩ := h
  exact ⟨received, hpaused, hne, htarget, hin, hout, hfin, hfout, ho, hone, hmin, ⟨s, hs, hrec, hs'⟩,
    ⟨reserveIn, reserveOut, hri, hro, rfl⟩, rfl⟩

/-- **A move of a price that went through.** -/
structure Repriced (c : Call) (p : SwapPool) (token : Address) (newPrice : U256)
    (p' : SwapPool) : Prop where
  sender : c.sender = p.oracle
  ne_stable : token ≠ p.stable
  newPrice_ne : newPrice ≠ 0
  /-- At most the step cap, as a share of the old price. -/
  step : (priceDiff newPrice (p.tokens token).price).toNat * BPS_DENOM ≤
    (p.tokens token).price.toNat * p.priceStepCapBps.toNat
  tokens : p'.tokens = Function.update p.tokens token { p.tokens token with price := newPrice }
  feeBps : p'.feeBps = p.feeBps

theorem repriced_of_setPrice {token : Address} {expectedOld newPrice : U256} {p' : SwapPool}
    {log : List Event} (h : setPrice c p token expectedOld newPrice = .ok (p', log)) :
    Repriced c p token newPrice p' := by
  simp only [setPrice, onlyOracle, checkDeviation, bind_eq_ok, exists_unit, revertIf_eq_ok,
    pure_eq_ok, not_not, Prod.mk.injEq] at h
  obtain ⟨hsender, -, hne, hnew, -, -, ⟨cap, hcap, hdiff⟩, rfl, -⟩ := h
  refine ⟨hsender, hne, hnew, ?_, rfl, rfl⟩
  have hdiff : (priceDiff newPrice (p.tokens token).price).toNat ≤ cap.toNat := not_lt.mp hdiff
  have hle := mulDiv_mul_le hcap
  have hlt := p.priceStepCapBps.toNat_lt
  have hwide : (BitVec.ofNat 256 p.priceStepCapBps.toNat).toNat = p.priceStepCapBps.toNat := by
    rw [BitVec.toNat_ofNat, Nat.mod_eq_of_lt (by omega)]
  have hdenom : (BitVec.ofNat 256 BPS_DENOM).toNat = BPS_DENOM := by decide
  rw [hwide, hdenom] at hle
  exact (Nat.mul_le_mul_right _ hdiff).trans hle

/-! ### What tokens are quoted at -/

/-- What a token is quoted at here. -/
def quotes (p : SwapPool) (token : Address) : Market.Listing := (p.tokens token).listing

/-- Can the call change a quote or the fee? -/
def PoolCall.reprices : PoolCall → Bool
  | .setFee _ => true
  | .listToken _ _ => true
  | .setPrice _ _ _ => true
  | _ => false

/-- A record that is stored with the same price and decimals leaves the quotes alone. -/
theorem quotes_setToken {token : Address} {t : TokenInfo}
    (h : t.listing = (p.tokens token).listing) : (p.setToken token t).quotes = p.quotes := by
  funext x
  rcases eq_or_ne x token with rfl | hne
  · simp only [quotes, setToken, Function.update_self, h]
  · simp only [quotes, setToken, Function.update_of_ne hne]

/-- **All other calls leave the quotes and the fee alone.** -/
theorem quotes_of_call {x : PoolCall} (hx : x.reprices = false) {r : Done σ}
    (h : call E here c p tokens x = .ok r) :
    r.pool.quotes = p.quotes ∧ r.pool.feeBps = p.feeBps := by
  cases x with
  | setFee _ => exact absurd hx (by simp [PoolCall.reprices])
  | listToken _ _ => exact absurd hx (by simp [PoolCall.reprices])
  | setPrice _ _ _ => exact absurd hx (by simp [PoolCall.reprices])
  | pause =>
    obtain ⟨a, ha, rfl⟩ := map_eq_ok.mp h
    simp only [pause, bind_eq_ok, exists_unit, pure_eq_ok] at ha
    obtain ⟨-, rfl⟩ := ha
    split <;> exact ⟨rfl, rfl⟩
  | unpause =>
    obtain ⟨a, ha, rfl⟩ := map_eq_ok.mp h
    simp only [unpause, bind_eq_ok, exists_unit, pure_eq_ok] at ha
    obtain ⟨-, rfl⟩ := ha
    split <;> exact ⟨rfl, rfl⟩
  | delistToken token =>
    obtain ⟨a, ha, rfl⟩ := map_eq_ok.mp h
    simp only [delistToken, bind_eq_ok, exists_unit, pure_eq_ok] at ha
    obtain ⟨-, -, -, -, rfl⟩ := ha
    exact ⟨quotes_setToken rfl, rfl⟩
  | seedLiquidity token amount =>
    simp only [call, seedLiquidity, bind_eq_ok, exists_unit, pure_eq_ok] at h
    obtain ⟨-, -, -, s, -, received, -, reserve, -, rfl⟩ := h
    exact ⟨quotes_setToken rfl, rfl⟩
  | withdrawLiquidity token amount target =>
    simp only [call, withdrawLiquidity, bind_eq_ok, exists_unit, pure_eq_ok] at h
    obtain ⟨-, -, -, -, -, reserve, -, s, -, rfl⟩ := h
    exact ⟨quotes_setToken rfl, rfl⟩
  | swap tokenIn tokenOut amountIn minAmountOut target =>
    obtain ⟨⟨out, r⟩, hr, rfl⟩ := map_eq_ok.mp h
    obtain ⟨received, S⟩ := swaps_of_swap hr
    obtain ⟨reserveIn, reserveOut, -, -, hpool⟩ := S.written
    dsimp only
    rw [hpool]
    refine ⟨(quotes_setToken ?_).trans (quotes_setToken rfl), rfl⟩
    simp only [setToken, Function.update_of_ne S.ne.symm]
    rfl
  | transferOwnership _ | setOracle _ | setMaxPriceDeviation _ =>
    obtain ⟨a, ha, rfl⟩ := map_eq_ok.mp h
    simp only [transferOwnership, setOracle, setMaxPriceDeviation, bind_eq_ok, exists_unit,
      pure_eq_ok] at ha
    obtain ⟨-, -, rfl⟩ := ha
    exact ⟨rfl, rfl⟩
  | acceptOwnership | setGuardian _ | setMinPriceUpdateInterval _ | setMaxPriceAge _ =>
    obtain ⟨a, ha, rfl⟩ := map_eq_ok.mp h
    simp only [acceptOwnership, setGuardian, setMinPriceUpdateInterval, setMaxPriceAge, bind_eq_ok,
      exists_unit, pure_eq_ok] at ha
    obtain ⟨-, rfl⟩ := ha
    exact ⟨rfl, rfl⟩

/-- **The stable is never replaced.** -/
theorem stable_of_call {x : PoolCall} {r : Done σ} (h : call E here c p tokens x = .ok r) :
    r.pool.stable = p.stable := by
  cases x with
  | pause | unpause =>
    obtain ⟨a, ha, rfl⟩ := map_eq_ok.mp h
    simp only [pause, unpause, bind_eq_ok, exists_unit, pure_eq_ok] at ha
    obtain ⟨-, rfl⟩ := ha
    split <;> rfl
  | seedLiquidity token amount =>
    simp only [call, seedLiquidity, bind_eq_ok, exists_unit, pure_eq_ok] at h
    obtain ⟨-, -, -, s, -, received, -, reserve, -, rfl⟩ := h
    rfl
  | withdrawLiquidity token amount target =>
    simp only [call, withdrawLiquidity, bind_eq_ok, exists_unit, pure_eq_ok] at h
    obtain ⟨-, -, -, -, -, reserve, -, s, -, rfl⟩ := h
    rfl
  | swap tokenIn tokenOut amountIn minAmountOut target =>
    obtain ⟨⟨out, r⟩, hr, rfl⟩ := map_eq_ok.mp h
    obtain ⟨received, S⟩ := swaps_of_swap hr
    obtain ⟨reserveIn, reserveOut, -, -, hpool⟩ := S.written
    dsimp only
    rw [hpool]
    rfl
  | setPrice _ _ _ =>
    obtain ⟨a, ha, rfl⟩ := map_eq_ok.mp h
    simp only [setPrice, bind_eq_ok, exists_unit, pure_eq_ok] at ha
    obtain ⟨-, -, -, -, -, -, -, rfl⟩ := ha
    rfl
  | listToken _ _ =>
    obtain ⟨a, ha, rfl⟩ := map_eq_ok.mp h
    simp only [listToken, bind_eq_ok, exists_unit, pure_eq_ok] at ha
    obtain ⟨-, -, -, -, -, _, -, rfl⟩ := ha
    rfl
  | delistToken _ =>
    obtain ⟨a, ha, rfl⟩ := map_eq_ok.mp h
    simp only [delistToken, bind_eq_ok, exists_unit, pure_eq_ok] at ha
    obtain ⟨-, -, -, -, rfl⟩ := ha
    rfl
  | transferOwnership _ | setOracle _ | setMaxPriceDeviation _ | setFee _ =>
    obtain ⟨a, ha, rfl⟩ := map_eq_ok.mp h
    simp only [transferOwnership, setOracle, setMaxPriceDeviation, setFee, bind_eq_ok, exists_unit,
      pure_eq_ok] at ha
    obtain ⟨-, -, rfl⟩ := ha
    rfl
  | acceptOwnership | setGuardian _ | setMinPriceUpdateInterval _ | setMaxPriceAge _ =>
    obtain ⟨a, ha, rfl⟩ := map_eq_ok.mp h
    simp only [acceptOwnership, setGuardian, setMinPriceUpdateInterval, setMaxPriceAge, bind_eq_ok,
      exists_unit, pure_eq_ok] at ha
    obtain ⟨-, rfl⟩ := ha
    rfl

end SwapPool

end SelendraBridge
