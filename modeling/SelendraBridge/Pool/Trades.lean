import SelendraBridge.Pool.Machine
import Mathlib.Data.FinEnum

/-!
# Nobody trades against the pool at a gain

A swap that went through is a trade at the quotes of the pool, and settles in its reserves
(`SelendraBridge.SwapPool.trade_of_exec`). What `Market` says of trades is then said of
runs of the pool: as long as no price and no fee is changed, its reserves never lose worth
and no cycle of swaps pays (`SelendraBridge.SwapPool.no_cycle_pays`), and neither does a
round trip around one move of a price that the pool accepts
(`SelendraBridge.SwapPool.no_sandwich_pays`).
-/

namespace SelendraBridge

namespace SwapPool

open Revert Transition Market

variable {σ : Type} {E : Erc20 σ} {here : Address}

/-- The reserve of a token. -/
def held (p : SwapPool) (token : Address) : ℕ := (p.tokens token).reserve.toNat

/-- **The exact worth of all reserves.** -/
def worth (p : SwapPool) : ℚ := Market.value p.quotes Finset.univ p.held

/-- The trade that a swap logged. -/
def tradeOf : Label σ → List Event → Option (Trade Address)
  | .call _ (.swap _ _ _ _ _), [.swapped _ tokenIn tokenOut amountIn amountOut _] =>
    some ⟨tokenIn, tokenOut, amountIn.toNat, amountOut.toNat⟩
  | _, _ => none

/-- The trades of a run, in order. -/
def trades (tr : List (Step σ)) : List (Trade Address) :=
  tr.filterMap fun e => tradeOf e.label e.out

/-- Is it a swap, or nothing that the pool does? -/
def Label.isTrading : Label σ → Bool
  | .call _ (.swap _ _ _ _ _) => true
  | .call _ _ => false
  | .tokens _ => true

/-- Can it change a quote or the fee? -/
def Label.reprices : Label σ → Bool
  | .call _ x => x.reprices
  | .tokens _ => false

theorem Label.reprices_of_isTrading {l : Label σ} (h : l.isTrading = true) :
    l.reprices = false := by
  cases l with
  | tokens s => rfl
  | call c x => cases x <;> first | rfl | exact absurd h (by simp [isTrading])

variable {w w' w₀ : World σ} {l : Label σ} {log : List Event} {tr : List (Step σ)}

/-! ### Single steps -/

/-- **A swap is a trade at the pool's quotes**, and settles in its reserves. -/
theorem Swaps.trade {c : Call} {p : SwapPool} {tokens : σ} {tokenIn tokenOut target : Address}
    {amountIn minAmountOut received out : U256} {r : Done σ}
    (S : Swaps E here c p tokens tokenIn tokenOut amountIn minAmountOut target received out r) :
    Trade.At BPS_DENOM p.feeBps.toNat p.quotes ⟨tokenIn, tokenOut, received.toNat, out.toNat⟩ ∧
      Trade.Settles ⟨tokenIn, tokenOut, received.toNat, out.toNat⟩ p.held r.pool.held := by
  refine ⟨quoted_of_amountOut S.out_eq, ?_⟩
  obtain ⟨reserveIn, reserveOut, hin, hout, hpool⟩ := S.written
  refine ⟨S.ne, ?_, ?_, ?_⟩
  · rw [hpool]
    simp only [held, setToken, Function.update_of_ne S.ne, Function.update_self]
    exact hin
  · rw [hpool]
    simp only [held, setToken, Function.update_self]
    exact hout
  · intro x hxin hxout
    rw [hpool]
    simp only [held, setToken, Function.update_of_ne hxin, Function.update_of_ne hxout]

/-- **What was traded, was traded at the quotes before the step.** -/
theorem trade_of_exec (h : exec E here w l = some (w', log)) {t : Trade Address}
    (ht : tradeOf l log = some t) :
    t.At BPS_DENOM w.pool.feeBps.toNat w.pool.quotes ∧ t.Settles w.pool.held w'.pool.held := by
  unfold tradeOf at ht
  split at ht
  · next c tokenIn tokenOut amountIn minAmountOut target sender i o received out target' =>
    obtain ⟨-, r, hr, rfl, hlog⟩ := exec_call h
    obtain ⟨⟨out', r⟩, hswap, rfl⟩ := map_eq_ok.mp hr
    obtain ⟨received', S⟩ := swaps_of_swap hswap
    have hlog := hlog.trans S.log
    simp only [List.cons.injEq, Event.swapped.injEq, and_true] at hlog
    obtain ⟨-, rfl, rfl, rfl, rfl, -⟩ := hlog
    rw [Option.some.injEq] at ht
    rw [← ht]
    exact S.trade
  · exact absurd ht (by simp)

/-- A step that is no repricing leaves the quotes and the fee alone. -/
theorem quotes_of_exec (h : exec E here w l = some (w', log)) (hl : l.reprices = false) :
    w'.pool.quotes = w.pool.quotes ∧ w'.pool.feeBps = w.pool.feeBps := by
  cases l with
  | tokens s =>
    simp only [exec, Option.some.injEq, Prod.mk.injEq] at h
    rw [← h.1]
    exact ⟨rfl, rfl⟩
  | call c x =>
    obtain ⟨-, r, hr, rfl, rfl⟩ := exec_call h
    exact quotes_of_call hl hr

/-- **A swap never costs the pool worth.** -/
theorem worth_le_of_exec (h : exec E here w l = some (w', log)) (hl : l.isTrading = true) :
    w.pool.worth ≤ w'.pool.worth := by
  have hquotes := quotes_of_exec h (Label.reprices_of_isTrading hl)
  cases l with
  | tokens s =>
    simp only [exec, Option.some.injEq, Prod.mk.injEq] at h
    rw [← h.1]
  | call c x =>
    obtain ⟨-, r, hr, rfl, rfl⟩ := exec_call h
    cases x with
    | swap tokenIn tokenOut amountIn minAmountOut target =>
      obtain ⟨⟨out, r⟩, hswap, rfl⟩ := map_eq_ok.mp hr
      obtain ⟨received, S⟩ := swaps_of_swap hswap
      obtain ⟨hat, hsettles⟩ := S.trade
      rw [worth, worth, hquotes.1]
      exact value_le_of_trade (by decide) hat hsettles (Finset.mem_univ _) (Finset.mem_univ _)
    | _ => exact absurd hl (by simp [Label.isTrading])

/-! ### Runs -/

/-- Without a repricing the quotes are those of the start, before every step and at the
end. -/
theorem quotes_of_run (hrun : Run (exec E here) w₀ tr w)
    (hfixed : ∀ e ∈ tr, e.label.reprices = false) :
    w.pool.quotes = w₀.pool.quotes ∧ w.pool.feeBps = w₀.pool.feeBps := by
  induction hrun with
  | nil => exact ⟨rfl, rfl⟩
  | snoc hr he ih =>
    obtain ⟨hq, hf⟩ := ih fun e hmem => hfixed e (List.mem_append_left _ hmem)
    obtain ⟨hq', hf'⟩ := quotes_of_exec he
      (hfixed _ (List.mem_append_right _ (List.mem_singleton_self _)))
    exact ⟨hq'.trans hq, hf'.trans hf⟩

/-- Every trade of such a run is at the quotes of the start. -/
theorem at_of_run (hrun : Run (exec E here) w₀ tr w)
    (hfixed : ∀ e ∈ tr, e.label.reprices = false) :
    ∀ t ∈ trades tr, t.At BPS_DENOM w₀.pool.feeBps.toNat w₀.pool.quotes := by
  intro t ht
  obtain ⟨e, he, hlog⟩ := List.mem_filterMap.mp ht
  obtain ⟨t₁, t₂, rfl⟩ := List.append_of_mem he
  obtain ⟨hbefore, hexec, -⟩ := hrun.split
  obtain ⟨hq, hf⟩ := quotes_of_run hbefore fun e hmem => hfixed e (List.mem_append_left _ hmem)
  rw [← hq, ← hf]
  exact (trade_of_exec hexec hlog).1

/-- The worth of the reserves never falls along a run of swaps. -/
theorem worth_le_of_run (hrun : Run (exec E here) w₀ tr w)
    (hswaps : ∀ e ∈ tr, e.label.isTrading = true) : w₀.pool.worth ≤ w.pool.worth := by
  induction hrun with
  | nil => exact le_rfl
  | snoc hr he ih =>
    have hl := hswaps _ (List.mem_append_right _ (List.mem_singleton_self _))
    exact (ih fun e hmem => hswaps e (List.mem_append_left _ hmem)).trans (worth_le_of_exec he hl)

/-- **Nobody trades at a gain at fixed prices.** Along a run of swaps by anybody, the exact
worth of the reserves never falls. No cycle of swaps among them gives back more than it
started with; and whatever anybody did, unless some other token was paid in for it there is
no less of a token with a price. -/
theorem no_cycle_pays (hrun : Run (exec E here) w₀ tr w)
    (hswaps : ∀ e ∈ tr, e.label.isTrading = true) :
    (∀ e ∈ tr, e.pre.pool.worth ≤ e.post.pool.worth) ∧
    (∀ t ts, (t :: ts).Sublist (trades tr) → Cycle t ts →
      ((t :: ts).getLast (by simp)).amountOut ≤ t.amountIn) ∧
    ∀ token, (w₀.pool.tokens token).price ≠ 0 →
      (∀ other, other ≠ token → w.pool.held other ≤ w₀.pool.held other) →
      w₀.pool.held token ≤ w.pool.held token := by
  have hfixed : ∀ e ∈ tr, e.label.reprices = false :=
    fun e he => Label.reprices_of_isTrading (hswaps e he)
  refine ⟨?_, ?_, ?_⟩
  · intro e he
    exact worth_le_of_exec (hrun.exec_of_mem he) (hswaps e he)
  · intro t ts hsub hcycle
    exact hcycle.le (by decide) fun u hu => at_of_run hrun hfixed u (hsub.subset hu)
  · intro token hprice hother
    have hle := worth_le_of_run hrun hswaps
    rw [worth, worth, (quotes_of_run hrun hfixed).1] at hle
    refine le_of_value_le (Finset.mem_univ token) ?_ ?_ hle fun x _ hne => hother x hne
    · exact Nat.pos_of_ne_zero fun h0 => hprice (BitVec.eq_of_toNat_eq h0)
    · exact Nat.pow_pos (by decide)

/-! ### A pool to run -/

/-- A stable of six decimals and a token of eight at two dollars, with a fee of 30 basis
points. -/
def stocked : SwapPool where
  tokens token :=
    if token = 0x05 then ⟨true, 6, PRICE_ONE, 1000000000⟩
    else if token = 0xaa then ⟨true, 8, 2 * PRICE_ONE, 100000000000⟩
    else ⟨false, 0, 0, 0⟩
  stable := 0x05
  owner := 0x0a
  pendingOwner := 0
  oracle := 0x0c
  paused := false
  guardian := 0
  feeBps := 30
  maxPriceDeviationBps := 1000
  minPriceUpdateInterval := 3600
  lastPriceUpdate _ := 0
  priceSetAt _ := 1000
  maxPriceAge := 86400

/-- The tokens behind the reserves, and a dollar that somebody wants to trade. -/
def dollar : Ledger where
  balance token account :=
    if account = 0xf2 then 100000000000
    else if account = 0xcc ∧ token = 0x05 then 1000000
    else 0
  allowance _ owner spender := if owner = 0xcc ∧ spender = 0xf2 then 100000000000 else 0
  decimals _ := some 8

/-- A call that somebody makes at a time. -/
def callAt (sender : Address) (timestamp : ℕ) : Call :=
  ⟨sender, timestamp, fun _ => true, fun _ => 0⟩

/-- The dollar for the token, and all of that back for dollars. -/
def there : Label Ledger := .call (callAt 0xcc 2000) (.swap 0x05 0xaa 1000000 0 0xcc)

/-- All of that back. -/
def back : Label Ledger := .call (callAt 0xcc 2002) (.swap 0xaa 0x05 49850000 0 0xcc)

/-- The run of both. -/
def thereAndBack : List (Step Ledger) × World Ledger :=
  traceOf (exec Ledger.tokens 0xf2) ⟨stocked, dollar, 1000⟩ [there, back]

/-- The dollar comes back as 99.4 cents. -/
theorem no_cycle_pays_thereAndBack :
    (trades thereAndBack.1).map (fun t => (t.amountIn, t.amountOut)) =
      [(1000000, 49850000), (49850000, 994009)] ∧
    (∀ e ∈ thereAndBack.1, e.pre.pool.worth ≤ e.post.pool.worth) ∧
    ∀ t ts, (t :: ts).Sublist (trades thereAndBack.1) → Cycle t ts →
      ((t :: ts).getLast (by simp)).amountOut ≤ t.amountIn := by
  have hrun : Run (exec Ledger.tokens 0xf2) ⟨stocked, dollar, 1000⟩ thereAndBack.1
    thereAndBack.2 := run_traceOf (by decide +kernel)
  have hswaps : ∀ e ∈ thereAndBack.1, e.label.isTrading = true := by
    rw [← List.all_eq_true]
    decide +kernel
  obtain ⟨hworth, hcycles, -⟩ := no_cycle_pays hrun hswaps
  exact ⟨by decide +kernel, hworth, hcycles⟩

/-! ### Around one move of a price -/

/-- The step cap is at most the fee. -/
theorem priceStepCapBps_le (p : SwapPool) : p.priceStepCapBps.toNat ≤ p.feeBps.toNat := by
  unfold priceStepCapBps
  split
  · exact le_rfl
  · next h =>
    rw [UInt16.lt_iff_toNat_lt] at h
    exact not_lt.mp h

/-- A move is at most the fee, up or down, as a share of the old price. -/
theorem Repriced.move_le {c : Call} {p p' : SwapPool} {token : Address} {newPrice : U256}
    (h : Repriced c p token newPrice p') :
    newPrice.toNat * BPS_DENOM ≤ (p.tokens token).price.toNat * (BPS_DENOM + p.feeBps.toNat) ∧
      (p.tokens token).price.toNat * BPS_DENOM ≤
        newPrice.toNat * BPS_DENOM + (p.tokens token).price.toNat * p.feeBps.toNat := by
  have hcap : (p.tokens token).price.toNat * p.priceStepCapBps.toNat ≤
      (p.tokens token).price.toNat * p.feeBps.toNat := Nat.mul_le_mul_left _ p.priceStepCapBps_le
  have hstep := h.step.trans hcap
  rw [Nat.mul_add]
  generalize hold : (p.tokens token).price = old at hstep ⊢
  unfold priceDiff at hstep
  split at hstep
  · next hgt =>
    have hlt : old.toNat < newPrice.toNat := hgt
    rw [BitVec.toNat_sub_of_le (BitVec.le_of_lt hgt), Nat.sub_mul] at hstep
    have hmul := Nat.mul_le_mul_right BPS_DENOM hlt.le
    exact ⟨by omega, by omega⟩
  · next hle =>
    have hle' : newPrice.toNat ≤ old.toNat := not_lt.mp hle
    rw [BitVec.toNat_sub_of_le (BitVec.le_def.mpr hle'), Nat.sub_mul] at hstep
    have hmul := Nat.mul_le_mul_right BPS_DENOM hle'
    exact ⟨by omega, by omega⟩

/-- What a move changes in the quotes: the price of the one token. -/
theorem Repriced.quotes {c : Call} {p p' : SwapPool} {token : Address} {newPrice : U256}
    (h : Repriced c p token newPrice p') :
    (p'.quotes token).price = newPrice.toNat ∧ (p'.quotes token).unit = (p.quotes token).unit ∧
      ∀ other, other ≠ token → p'.quotes other = p.quotes other := by
  refine ⟨?_, ?_, ?_⟩
  · simp only [SwapPool.quotes, h.tokens, Function.update_self, TokenInfo.listing]
  · simp only [SwapPool.quotes, h.tokens, Function.update_self, TokenInfo.listing]
  · intro other hne
    simp only [SwapPool.quotes, h.tokens, Function.update_of_ne hne]

theorem repriced_of_exec {c : Call} {token : Address} {expectedOld newPrice : U256}
    (h : exec E here w (.call c (.setPrice token expectedOld newPrice)) = some (w', log)) :
    Repriced c w.pool token newPrice w'.pool := by
  obtain ⟨-, r, hr, rfl, rfl⟩ := exec_call h
  obtain ⟨⟨p', log'⟩, hset, rfl⟩ := map_eq_ok.mp hr
  exact repriced_of_setPrice hset

theorem isTrading_of_tradeOf {t : Trade Address} (h : tradeOf l log = some t) :
    l.isTrading = true := by
  unfold tradeOf at h
  split at h
  · rfl
  · exact absurd h (by simp)

/-- **A round trip around one move of a price does not pay**, whatever is traded in between.
Somebody swaps before the oracle moves a price, and swaps what came out of it back after;
then no more comes back than went in, whether the price is that of the token that was
bought or of the one that was sold, and whichever way it moved. -/
theorem no_sandwich_pays {t₁ t₂ t₃ t₄ : List (Step σ)} {e₁ u e₂ : Step σ}
    (hrun : Run (exec E here) w₀ (t₁ ++ e₁ :: (t₂ ++ u :: (t₃ ++ e₂ :: t₄))) w)
    {there back : Trade Address} (h₁ : tradeOf e₁.label e₁.out = some there)
    (h₂ : tradeOf e₂.label e₂.out = some back) {c : Call} {token : Address}
    {expectedOld newPrice : U256} (hu : u.label = .call c (.setPrice token expectedOld newPrice))
    (hquiet : ∀ e ∈ t₂ ++ t₃, e.label.reprices = false) (hfeeds : there.Feeds back)
    (hcloses : back.tokenOut = there.tokenIn) : back.amountOut ≤ there.amountIn := by
  obtain ⟨-, hex₁, hrest⟩ := hrun.split
  obtain ⟨hrun₂, hexu, hrest⟩ := hrest.split
  obtain ⟨hrun₃, hex₂, -⟩ := hrest.split
  -- The quotes before the move are those of the first swap, and those after it of the second.
  obtain ⟨hq₁, hf₁⟩ := quotes_of_exec hex₁ (Label.reprices_of_isTrading (isTrading_of_tradeOf h₁))
  obtain ⟨hq₂, hf₂⟩ := quotes_of_run hrun₂ fun e he => hquiet e (List.mem_append_left _ he)
  obtain ⟨hq₃, hf₃⟩ := quotes_of_run hrun₃ fun e he => hquiet e (List.mem_append_right _ he)
  rw [hu] at hexu
  have hmove := repriced_of_exec hexu
  obtain ⟨hprice, hunit, hother⟩ := hmove.quotes
  obtain ⟨hraise, hcut⟩ := hmove.move_le
  have hquotes : u.pre.pool.quotes = e₁.pre.pool.quotes := hq₂.trans hq₁
  have hfee : u.pre.pool.feeBps = e₁.pre.pool.feeBps := hf₂.trans hf₁
  obtain ⟨hat₁, hsettles⟩ := trade_of_exec hex₁ h₁
  obtain ⟨hat₂, -⟩ := trade_of_exec hex₂ h₂
  obtain ⟨htoken, hamount⟩ := hfeeds
  have hne : there.tokenIn ≠ there.tokenOut := hsettles.ne
  rw [hq₃, hf₃, hmove.feeBps, hfee, Trade.At, htoken, hcloses] at hat₂
  rw [← hquotes, Trade.At] at hat₁
  have hD : 0 < BPS_DENOM := by decide
  rcases eq_or_ne there.tokenOut token with rfl | hout
  · rw [hother _ hne] at hat₂
    refine Quoted.buy_sell_le hD hunit ?_ hat₁ hamount hat₂
    rw [hprice, ← hfee]
    exact hraise
  · rw [hother _ hout] at hat₂
    rcases eq_or_ne there.tokenIn token with rfl | hin
    · refine Quoted.sell_buy_le hD hunit ?_ hat₁ hamount hat₂
      rw [hprice, ← hfee]
      exact hcut
    · rw [hother _ hin] at hat₂
      refine Quoted.buy_sell_le hD rfl ?_ hat₁ hamount hat₂
      exact Nat.mul_le_mul_left _ (Nat.le_add_right _ _)

/-- The oracle raises the token by all of the fee in between. -/
def raise : Label Ledger :=
  .call (callAt 0x0c 2001) (.setPrice 0xaa (2 * PRICE_ONE) (2006000000000000000))

/-- The run with it. -/
def sandwich : List (Step Ledger) × World Ledger :=
  traceOf (exec Ledger.tokens 0xf2) ⟨stocked, dollar, 1000⟩ [there, raise, back]

/-- What the raise adds is less than the two fees take: 99.7 cents come back. -/
theorem no_sandwich_pays_raise : ∃ e₁ u e₂ b₁ b₂, sandwich.1 = [e₁, u, e₂] ∧
    tradeOf e₁.label e₁.out = some b₁ ∧ tradeOf e₂.label e₂.out = some b₂ ∧
    (b₁.amountIn = 1000000 ∧ b₂.amountOut = 996991) ∧ b₂.amountOut ≤ b₁.amountIn := by
  have hsome : (runFrom (exec Ledger.tokens 0xf2) ⟨stocked, dollar, 1000⟩
      [there, raise, back]).isSome = true := by decide +kernel
  have hrun : Run (exec Ledger.tokens 0xf2) ⟨stocked, dollar, 1000⟩ sandwich.1 sandwich.2 :=
    run_traceOf hsome
  have hlabels : sandwich.1.map Entry.label = [there, raise, back] := label_traceOf hsome
  have htrades : sandwich.1.map (fun e => (tradeOf e.label e.out).map fun t =>
      (t.tokenIn, t.tokenOut, t.amountIn, t.amountOut)) =
      [some (0x05, 0xaa, 1000000, 49850000), none, some (0xaa, 0x05, 49850000, 996991)] := by
    decide +kernel
  obtain ⟨e₁, u, e₂, hsteps⟩ := List.length_eq_three.mp
    (by rw [← List.length_map (f := Entry.label), hlabels]; rfl : sandwich.1.length = 3)
  rw [hsteps] at hrun hlabels htrades
  simp only [List.map_cons, List.map_nil, List.cons.injEq, and_true] at hlabels htrades
  obtain ⟨b₁, h₁, hb₁⟩ := Option.map_eq_some_iff.mp htrades.1
  obtain ⟨b₂, h₂, hb₂⟩ := Option.map_eq_some_iff.mp htrades.2.2
  simp only [Prod.mk.injEq] at hb₁ hb₂
  obtain ⟨hin₁, hout₁, ha₁, ho₁⟩ := hb₁
  obtain ⟨hin₂, hout₂, ha₂, ho₂⟩ := hb₂
  refine ⟨e₁, u, e₂, b₁, b₂, hsteps, h₁, h₂, ⟨ha₁, ho₂⟩, ?_⟩
  exact @no_sandwich_pays _ _ _ _ _ [] [] [] [] e₁ u e₂ hrun b₁ b₂ h₁ h₂ _ _ _ _ hlabels.2.1
    (by simp) ⟨hin₂.trans hout₁.symm, by rw [ha₂, ho₁]⟩ (hout₂.trans hin₁.symm)

end SwapPool

end SelendraBridge
