import SelendraBridge.Evm
import SelendraBridge.Lib.Market
import SelendraBridge.Lib.Revert

/-!
# The swap pool: storage, reverts, events and prices

A pool trades listed tokens at prices that an oracle sets, and holds a reserve of each. One
of them is the stable, whose price never moves. What a swap gives for an amount is computed
in three steps – the worth of the input, the fee off it, the output it buys – and every step
rounds against the trader: behind each amount that the pool computes there is a trade of
`Market.Quoted` (`SelendraBridge.SwapPool.quoted_of_amountOut`).
-/

namespace SelendraBridge

/-- A listing, with the reserve behind it. -/
structure TokenInfo where
  listed : Bool
  decimals : UInt8
  price : U256
  reserve : U256
  deriving DecidableEq, Repr

/-- What a token is quoted at. -/
def TokenInfo.listing (t : TokenInfo) : Market.Listing := ⟨t.price.toNat, 10 ^ t.decimals.toNat⟩

/-- **The storage of a swap pool.** -/
structure SwapPool where
  tokens : Address → TokenInfo
  stable : Address
  owner : Address
  pendingOwner : Address
  oracle : Address
  paused : Bool
  guardian : Address
  feeBps : UInt16
  maxPriceDeviationBps : UInt16
  minPriceUpdateInterval : U256
  /-- When the price was moved; zero until it is. -/
  lastPriceUpdate : Address → ℕ
  /-- When the price was set, by a listing or a move. -/
  priceSetAt : Address → ℕ
  maxPriceAge : U256

namespace SwapPool

/-- The price of the stable. -/
def PRICE_ONE : U256 := 1000000000000000000

/-- A whole, in basis points. -/
def BPS_DENOM : ℕ := 10000

/-- Why a call reverts. The last two are what reverts outside the contract's own checks. -/
inductive Error
  | notOwner
  | notOracle
  | zeroAddress
  | tokenNotListed (token : Address)
  | tokenAlreadyListed (token : Address)
  | sameToken
  | zeroAmount
  | zeroPrice
  | exceedsLock (want reserve : U256)
  | slippage (got min : U256)
  | stableRepriceForbidden
  | stableDelistForbidden
  | priceDeviationTooHigh (oldPrice newPrice : U256) (maxBps : UInt16)
  | priceChanged (token : Address) (expected actual : U256)
  | priceUpdateTooSoon (token : Address) (nextAllowed : ℕ)
  | stalePrice (token : Address) (setAt : ℕ) (maxAge : U256)
  | reserveNonZero
  | feeTooHigh
  | deviationTooHigh
  | enforcedPause
  | notAuthorizedToPause
  | panic
  | tokenCallFailed (token : Address)
  deriving DecidableEq, Repr

/-- What a call emits. -/
inductive Event
  | tokenListed (token : Address) (price : U256) (decimals : UInt8)
  | tokenDelisted (token : Address)
  | priceSet (token : Address) (oldPrice newPrice : U256)
  | liquiditySeeded (token : Address) (amount reserve : U256)
  | liquidityWithdrawn (token : Address) (amount reserve : U256) (target : Address)
  | swapped (sender tokenIn tokenOut : Address) (amountIn amountOut : U256) (target : Address)
  | feeSet (feeBps : UInt16)
  | maxPriceDeviationSet (bps : UInt16)
  | minPriceUpdateIntervalSet (interval : U256)
  | maxPriceAgeSet (maxAge : U256)
  | oracleSet (oracle : Address)
  | ownershipTransferStarted (previousOwner newOwner : Address)
  | ownershipTransferred (previousOwner newOwner : Address)
  | guardianSet (guardian : Address)
  | paused (account : Address)
  | unpaused (account : Address)
  deriving DecidableEq, Repr

open Revert

/-! ### Prices -/

/-- `Math.mulDiv`. -/
def mulDiv (x y denominator : U256) : Except Error U256 := do
  revertIf (denominator = 0) .panic
  checked .panic (x.toNat * y.toNat / denominator.toNat)

/-- `Math.mulDiv`, rounded up. -/
def mulDivUp (x y denominator : U256) : Except Error U256 := do
  let down ← mulDiv x y denominator
  checked .panic (down.toNat + if x.toNat * y.toNat % denominator.toNat ≠ 0 then 1 else 0)

/-- The worth of an input, less the fee. -/
def lessFee (usd : U256) (fee : UInt16) : Except Error U256 :=
  if fee = 0 then .ok usd
  else do
    let feeUsd ← mulDivUp usd (BitVec.ofNat 256 fee.toNat) (BitVec.ofNat 256 BPS_DENOM)
    checkedSub .panic usd feeUsd

/-- `_amountOut`. -/
def amountOut (amountIn priceIn : U256) (decIn : UInt8) (priceOut : U256) (decOut : UInt8)
    (fee : UInt16) : Except Error U256 := do
  let unitIn ← checked .panic (10 ^ decIn.toNat)
  let usd ← mulDiv amountIn priceIn unitIn
  let net ← lessFee usd fee
  let unitOut ← checked .panic (10 ^ decOut.toNat)
  mulDiv net unitOut priceOut

theorem mulDiv_eq_ok {x y d r : U256} :
    mulDiv x y d = .ok r ↔ d ≠ 0 ∧ r.toNat = x.toNat * y.toNat / d.toNat := by
  rw [mulDiv, revertIf_bind_eq_ok, checked_eq_ok]

/-- Rounding down leaves no more than there was. -/
theorem mulDiv_mul_le {x y d r : U256} (h : mulDiv x y d = .ok r) :
    r.toNat * d.toNat ≤ x.toNat * y.toNat := by
  rw [(mulDiv_eq_ok.mp h).2]
  exact Nat.div_mul_le_self _ _

/-- Rounding up leaves no less. -/
theorem le_mulDivUp_mul {x y d r : U256} (h : mulDivUp x y d = .ok r) :
    x.toNat * y.toNat ≤ r.toNat * d.toNat := by
  simp only [mulDivUp, bind_eq_ok, checked_eq_ok] at h
  obtain ⟨down, hdown, hr⟩ := h
  have hdiv := Nat.div_add_mod (x.toNat * y.toNat) d.toNat
  obtain ⟨hd, hdown⟩ := mulDiv_eq_ok.mp hdown
  have hpos : 0 < d.toNat := Nat.pos_of_ne_zero fun h0 => hd (BitVec.eq_of_toNat_eq h0)
  have hmod := Nat.mod_lt (x.toNat * y.toNat) hpos
  rw [hr, hdown, Nat.add_mul, Nat.mul_comm (x.toNat * y.toNat / d.toNat)]
  split <;> omega

/-- The fee is at least its share of the worth. -/
theorem lessFee_le {usd net : U256} {fee : UInt16} (h : lessFee usd fee = .ok net) :
    net.toNat * BPS_DENOM + usd.toNat * fee.toNat ≤ usd.toNat * BPS_DENOM := by
  unfold lessFee at h
  split at h
  · next hfee =>
    obtain rfl := Except.ok.inj h
    rw [hfee]
    exact le_of_eq (Nat.add_zero _)
  · simp only [bind_eq_ok, checkedSub_eq_ok] at h
    obtain ⟨feeUsd, hfee, hsub⟩ := h
    have hle := le_mulDivUp_mul hfee
    have hlt := fee.toNat_lt
    have hwide : (BitVec.ofNat 256 fee.toNat).toNat = fee.toNat := by
      rw [BitVec.toNat_ofNat, Nat.mod_eq_of_lt (by omega)]
    have hdenom : (BitVec.ofNat 256 BPS_DENOM).toNat = BPS_DENOM := by decide
    rw [hwide, hdenom] at hle
    rw [← hsub, Nat.add_mul _ _ BPS_DENOM]
    rw [← hsub] at hle
    omega

/-- **What the pool computes is a trade at its quotes.** -/
theorem quoted_of_amountOut {i o : TokenInfo} {amountIn out : U256} {fee : UInt16}
    (h : amountOut amountIn i.price i.decimals o.price o.decimals fee = .ok out) :
    Market.Quoted BPS_DENOM fee.toNat i.listing o.listing amountIn.toNat out.toNat := by
  simp only [amountOut, bind_eq_ok, checked_eq_ok] at h
  obtain ⟨unitIn, hunitIn, usd, husd, net, hnet, unitOut, hunitOut, hout⟩ := h
  obtain ⟨hprice, -⟩ := mulDiv_eq_ok.mp hout
  have hin := mulDiv_mul_le husd
  have hout' := mulDiv_mul_le hout
  rw [hunitIn] at hin
  rw [hunitOut] at hout'
  have hten : ∀ n : ℕ, 0 < 10 ^ n := fun n => by positivity
  refine ⟨hten _, hten _, ?_, usd.toNat, net.toNat, hin, lessFee_le hnet, hout'⟩
  exact Nat.pos_of_ne_zero fun h0 => hprice (BitVec.eq_of_toNat_eq h0)

end SwapPool

end SelendraBridge
