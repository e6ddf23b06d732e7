import SelendraBridge.Pool.Reentrant

/-!
# What a call leaves of a price

What a pool keeps of the price of a token is four fields, and what it holds prices to are six that
all tokens share. Each call touches little of it
(`SelendraBridge.SwapPool.record_of_call`, `SelendraBridge.SwapPool.rules_of_call`):

| the call | the record of the token | the rules |
|---|---|---|
| a move of its price | a new price, set and updated now | |
| a listing of it | a new price, set now | |
| a delisting of it | no longer listed, never set or updated | |
| a setter of the owner | | one of them |
| any other | | |

What holds of every pool that was ever deployed follows at once
(`SelendraBridge.SwapPool.lawful_of_run`).
-/

namespace SelendraBridge

namespace SwapPool

open Revert Transition

variable {σ : Type} {E : Erc20 σ} {here : Address} {c : Call} {p : SwapPool} {tokens : σ}

/-! ### Records and rules -/

/-- What a pool keeps of the price of a token. -/
@[ext] structure PriceRecord where
  listed : Bool
  price : U256
  lastPriceUpdate : ℕ
  priceSetAt : ℕ

/-- The record of a token. -/
def record (p : SwapPool) (token : Address) : PriceRecord :=
  ⟨(p.tokens token).listed, (p.tokens token).price, p.lastPriceUpdate token, p.priceSetAt token⟩

/-- What a pool holds prices to, and who sets them. -/
structure PriceRules where
  stable : Address
  oracle : Address
  feeBps : UInt16
  maxPriceDeviationBps : UInt16
  minPriceUpdateInterval : U256
  maxPriceAge : U256

/-- The rules of a pool. -/
def rules (p : SwapPool) : PriceRules :=
  ⟨p.stable, p.oracle, p.feeBps, p.maxPriceDeviationBps, p.minPriceUpdateInterval, p.maxPriceAge⟩

/-- Is it about the price of the token? -/
def PoolCall.prices (token : Address) : PoolCall → Bool
  | .listToken t _ => decide (t = token)
  | .setPrice t _ _ => decide (t = token)
  | .delistToken t => decide (t = token)
  | _ => false

/-- The rules once a call went through. -/
def PoolCall.rewrite (r : PriceRules) : PoolCall → PriceRules
  | .setOracle newOracle => { r with oracle := newOracle }
  | .setFee newFeeBps => { r with feeBps := newFeeBps }
  | .setMaxPriceDeviation bps => { r with maxPriceDeviationBps := bps }
  | .setMinPriceUpdateInterval interval => { r with minPriceUpdateInterval := interval }
  | .setMaxPriceAge maxAge => { r with maxPriceAge := maxAge }
  | _ => r

/-- A token's record, stored with the same listing and price. -/
theorem record_setToken {token : Address} {t : TokenInfo}
    (hlisted : t.listed = (p.tokens token).listed) (hprice : t.price = (p.tokens token).price) :
    (p.setToken token t).record = p.record := by
  funext x
  rcases eq_or_ne x token with rfl | hne
  · simp only [record, setToken, Function.update_self, hlisted, hprice]
  · simp only [record, setToken, Function.update_of_ne hne]

/-- A swap stores two records with other reserves. -/
theorem record_of_swap {tokenIn tokenOut target : Address}
    {amountIn minAmountOut received out : U256} {r : Done σ}
    (S : Swaps E here c p tokens tokenIn tokenOut amountIn minAmountOut target received out r) :
    r.pool.record = p.record := by
  obtain ⟨reserveIn, reserveOut, -, -, hpool⟩ := S.written
  rw [hpool]
  refine (record_setToken ?_ ?_).trans (record_setToken rfl rfl)
  · simp only [setToken, Function.update_of_ne S.ne.symm]
  · simp only [setToken, Function.update_of_ne S.ne.symm]

/-! ### One call -/

/-- **A call about another token, or about none, leaves the record alone.** -/
theorem record_of_call {x : PoolCall} {token : Address} (hx : x.prices token = false) {r : Done σ}
    (h : call E here c p tokens x = .ok r) : r.pool.record token = p.record token := by
  cases x with
  | pause | unpause =>
    obtain ⟨a, ha, rfl⟩ := map_eq_ok.mp h
    simp only [pause, unpause, bind_eq_ok, exists_unit, pure_eq_ok] at ha
    obtain ⟨-, rfl⟩ := ha
    split <;> rfl
  | seedLiquidity t amount =>
    simp only [call, seedLiquidity, bind_eq_ok, exists_unit, pure_eq_ok] at h
    obtain ⟨-, -, -, s, -, received, -, reserve, -, rfl⟩ := h
    have hkept := record_setToken (p := p) (t := { p.tokens t with reserve := reserve }) rfl rfl
    exact congrFun hkept token
  | withdrawLiquidity t amount target =>
    simp only [call, withdrawLiquidity, bind_eq_ok, exists_unit, pure_eq_ok] at h
    obtain ⟨-, -, -, -, -, reserve, -, s, -, rfl⟩ := h
    have hkept := record_setToken (p := p) (t := { p.tokens t with reserve := reserve }) rfl rfl
    exact congrFun hkept token
  | swap tokenIn tokenOut amountIn minAmountOut target =>
    obtain ⟨⟨out, r⟩, hr, rfl⟩ := map_eq_ok.mp h
    obtain ⟨received, S⟩ := swaps_of_swap hr
    exact congrFun (record_of_swap S) token
  | setPrice t expectedOld newPrice =>
    have hne : token ≠ t := fun heq => by simp [PoolCall.prices, heq] at hx
    obtain ⟨a, ha, rfl⟩ := map_eq_ok.mp h
    simp only [setPrice, bind_eq_ok, exists_unit, pure_eq_ok] at ha
    obtain ⟨-, -, -, -, -, -, -, rfl⟩ := ha
    simp only [record, keepTokens, setToken, Function.update_of_ne hne]
  | listToken t price =>
    have hne : token ≠ t := fun heq => by simp [PoolCall.prices, heq] at hx
    obtain ⟨a, ha, rfl⟩ := map_eq_ok.mp h
    simp only [listToken, bind_eq_ok, exists_unit, pure_eq_ok] at ha
    obtain ⟨-, -, -, -, -, _, -, rfl⟩ := ha
    simp only [record, keepTokens, setToken, Function.update_of_ne hne]
  | delistToken t =>
    have hne : token ≠ t := fun heq => by simp [PoolCall.prices, heq] at hx
    obtain ⟨a, ha, rfl⟩ := map_eq_ok.mp h
    simp only [delistToken, bind_eq_ok, exists_unit, pure_eq_ok] at ha
    obtain ⟨-, -, -, -, rfl⟩ := ha
    simp only [record, keepTokens, setToken, Function.update_of_ne hne]
  | transferOwnership _ | setOracle _ | setMaxPriceDeviation _ | setFee _ =>
    obtain ⟨a, ha, rfl⟩ := map_eq_ok.mp h
    simp only [transferOwnership, setOracle, setMaxPriceDeviation, setFee, bind_eq_ok, exists_unit,
      pure_eq_ok] at ha
    obtain ⟨-, -, rfl⟩ := ha
    rfl
  | acceptOwnership | setGuardian _ | setMinPriceUpdateInterval _ | setMaxPriceAge _ =>
    obtain ⟨a, ha, rfl⟩ := map_eq_ok.mp h
    simp only [acceptOwnership, setGuardian, setMinPriceUpdateInterval, setMaxPriceAge, bind_eq_ok,
      exists_unit, pure_eq_ok] at ha
    obtain ⟨-, rfl⟩ := ha
    rfl

/-- **What a call makes of the rules.** -/
theorem rules_of_call {x : PoolCall} {r : Done σ} (h : call E here c p tokens x = .ok r) :
    r.pool.rules = x.rewrite p.rules := by
  cases x with
  | pause | unpause =>
    obtain ⟨a, ha, rfl⟩ := map_eq_ok.mp h
    simp only [pause, unpause, bind_eq_ok, exists_unit, pure_eq_ok] at ha
    obtain ⟨-, rfl⟩ := ha
    split <;> rfl
  | seedLiquidity t amount =>
    simp only [call, seedLiquidity, bind_eq_ok, exists_unit, pure_eq_ok] at h
    obtain ⟨-, -, -, s, -, received, -, reserve, -, rfl⟩ := h
    rfl
  | withdrawLiquidity t amount target =>
    simp only [call, withdrawLiquidity, bind_eq_ok, exists_unit, pure_eq_ok] at h
    obtain ⟨-, -, -, -, -, reserve, -, s, -, rfl⟩ := h
    rfl
  | swap tokenIn tokenOut amountIn minAmountOut target =>
    obtain ⟨⟨out, r⟩, hr, rfl⟩ := map_eq_ok.mp h
    obtain ⟨received, S⟩ := swaps_of_swap hr
    obtain ⟨reserveIn, reserveOut, -, -, hpool⟩ := S.written
    dsimp only
    rw [hpool]
    rfl
  | setPrice t expectedOld newPrice =>
    obtain ⟨a, ha, rfl⟩ := map_eq_ok.mp h
    simp only [setPrice, bind_eq_ok, exists_unit, pure_eq_ok] at ha
    obtain ⟨-, -, -, -, -, -, -, rfl⟩ := ha
    rfl
  | listToken t price =>
    obtain ⟨a, ha, rfl⟩ := map_eq_ok.mp h
    simp only [listToken, bind_eq_ok, exists_unit, pure_eq_ok] at ha
    obtain ⟨-, -, -, -, -, _, -, rfl⟩ := ha
    rfl
  | delistToken t =>
    obtain ⟨a, ha, rfl⟩ := map_eq_ok.mp h
    simp only [delistToken, bind_eq_ok, exists_unit, pure_eq_ok] at ha
    obtain ⟨-, -, -, -, rfl⟩ := ha
    rfl
  | transferOwnership _ | setOracle _ | setMaxPriceDeviation _ | setFee _ =>
    obtain ⟨a, ha, rfl⟩ := map_eq_ok.mp h
    simp only [transferOwnership, setOracle, setMaxPriceDeviation, setFee, bind_eq_ok, exists_unit,
      pure_eq_ok] at ha
    obtain ⟨-, -, rfl⟩ := ha
    rfl
  | acceptOwnership | setGuardian _ | setMinPriceUpdateInterval _ | setMaxPriceAge _ =>
    obtain ⟨a, ha, rfl⟩ := map_eq_ok.mp h
    simp only [acceptOwnership, setGuardian, setMinPriceUpdateInterval, setMaxPriceAge, bind_eq_ok,
      exists_unit, pure_eq_ok] at ha
    obtain ⟨-, rfl⟩ := ha
    rfl

/-- **What can become of a record** in a call at some time. -/
inductive Written (now : ℕ) (old : PriceRecord) : PriceRecord → Prop
  | kept : Written now old old
  | set {price : U256} (price_ne : price ≠ 0) (listed : old.listed = true) :
    Written now old ⟨true, price, now, now⟩
  | listed {price : U256} (price_ne : price ≠ 0) :
    Written now old ⟨true, price, old.lastPriceUpdate, now⟩
  | delisted : Written now old ⟨false, old.price, 0, 0⟩

theorem written_of_call {x : PoolCall} {r : Done σ} (h : call E here c p tokens x = .ok r)
    (token : Address) : Written c.timestamp (p.record token) (r.pool.record token) := by
  by_cases hx : x.prices token = true
  · cases x with
    | listToken t price =>
      obtain rfl : t = token := of_decide_eq_true hx
      obtain ⟨a, ha, rfl⟩ := map_eq_ok.mp h
      simp only [listToken, bind_eq_ok, exists_unit, revertIf_eq_ok, pure_eq_ok] at ha
      obtain ⟨-, -, -, hprice, -, _, -, rfl⟩ := ha
      simpa only [record, keepTokens, setToken, Function.update_self] using
        @Written.listed c.timestamp (p.record t) price hprice
    | setPrice t expectedOld newPrice =>
      obtain rfl : t = token := of_decide_eq_true hx
      obtain ⟨a, ha, rfl⟩ := map_eq_ok.mp h
      simp only [setPrice, bind_eq_ok, exists_unit, revertIf_eq_ok, pure_eq_ok,
        Bool.not_eq_false] at ha
      obtain ⟨-, hlisted, -, hprice, -, -, -, rfl⟩ := ha
      simpa only [record, keepTokens, setToken, Function.update_self, hlisted] using
        @Written.set c.timestamp (p.record t) newPrice hprice hlisted
    | delistToken t =>
      obtain rfl : t = token := of_decide_eq_true hx
      obtain ⟨a, ha, rfl⟩ := map_eq_ok.mp h
      simp only [delistToken, bind_eq_ok, exists_unit, pure_eq_ok] at ha
      obtain ⟨-, -, -, -, rfl⟩ := ha
      simpa only [record, keepTokens, setToken, Function.update_self] using
        @Written.delisted c.timestamp (p.record t)
    | _ => exact absurd hx (by simp [PoolCall.prices])
  · rw [record_of_call (Bool.eq_false_iff.mpr hx) h]
    exact .kept

/-! ### What holds of every pool -/

/-- **A record in order**: a listed token has a price, and no price was updated after it was set, or
set after now. -/
structure PriceRecord.Dated (now : ℕ) (r : PriceRecord) : Prop where
  price : r.listed = true → r.price ≠ 0
  updated : r.lastPriceUpdate ≤ r.priceSetAt
  setBefore : r.priceSetAt ≤ now

theorem PriceRecord.Dated.later {now later : ℕ} {r : PriceRecord} (h : r.Dated now)
    (hle : now ≤ later) : r.Dated later :=
  { h with setBefore := h.setBefore.trans hle }

/-- Whatever becomes of a record, it stays in order. -/
theorem Written.dated {now : ℕ} {old new : PriceRecord} (h : Written now old new)
    (hold : old.Dated now) : new.Dated now := by
  cases h with
  | kept => exact hold
  | set price_ne listed => exact ⟨fun _ => price_ne, le_rfl, le_rfl⟩
  | listed price_ne => exact ⟨fun _ => price_ne, hold.updated.trans hold.setBefore, le_rfl⟩
  | delisted => exact ⟨fun hlisted => absurd hlisted (by simp), le_rfl, Nat.zero_le _⟩

/-- **What holds of every pool** at a time: its rules are within their bounds, and every record is
in order. -/
structure Lawful (p : SwapPool) (now : ℕ) : Prop where
  fee : p.feeBps.toNat ≤ 1000
  deviation : p.maxPriceDeviationBps ≠ 0 ∧ p.maxPriceDeviationBps.toNat ≤ BPS_DENOM
  dated : ∀ token, (p.record token).Dated now

/-- A pool is deployed lawful. -/
theorem lawful_of_construct {stable_ : Address} {bps : UInt16} {log : List Event}
    (h : construct E c tokens stable_ bps = .ok (p, log)) : Lawful p c.timestamp := by
  simp only [construct, bind_eq_ok, exists_unit, revertIf_eq_ok, pure_eq_ok, Prod.mk.injEq,
    not_or] at h
  obtain ⟨-, ⟨hne, hle⟩, dec, -, rfl, -⟩ := h
  refine ⟨Nat.zero_le _, ⟨hne, not_lt.mp hle⟩, fun token => ⟨?_, Nat.zero_le _, ?_⟩⟩
  · intro hlisted
    simp only [record, Function.update_apply] at hlisted ⊢
    split at hlisted
    · next heq =>
      have hprice : PRICE_ONE ≠ 0 := by decide
      rwa [if_pos heq]
    · exact absurd hlisted (by simp)
  · simp only [record, Function.update_apply]
    split
    · exact le_rfl
    · exact Nat.zero_le _

/-- What a setter stores, it has checked. -/
theorem bounds_of_call {x : PoolCall} {r : Done σ} (h : call E here c p tokens x = .ok r)
    (hfee : p.feeBps.toNat ≤ 1000)
    (hdeviation : p.maxPriceDeviationBps ≠ 0 ∧ p.maxPriceDeviationBps.toNat ≤ BPS_DENOM) :
    r.pool.feeBps.toNat ≤ 1000 ∧
      r.pool.maxPriceDeviationBps ≠ 0 ∧ r.pool.maxPriceDeviationBps.toNat ≤ BPS_DENOM := by
  have hrules := rules_of_call h
  have hfee' : r.pool.feeBps = (x.rewrite p.rules).feeBps := by rw [← hrules, rules]
  have hdeviation' : r.pool.maxPriceDeviationBps = (x.rewrite p.rules).maxPriceDeviationBps := by
    rw [← hrules, rules]
  rw [hfee', hdeviation']
  cases x with
  | setFee b =>
    obtain ⟨a, ha, rfl⟩ := map_eq_ok.mp h
    simp only [setFee, bind_eq_ok, exists_unit, revertIf_eq_ok, pure_eq_ok] at ha
    exact ⟨not_lt.mp ha.2.1, hdeviation⟩
  | setMaxPriceDeviation b =>
    obtain ⟨a, ha, rfl⟩ := map_eq_ok.mp h
    simp only [setMaxPriceDeviation, bind_eq_ok, exists_unit, revertIf_eq_ok, pure_eq_ok, not_or]
      at ha
    exact ⟨hfee, ha.2.1.1, not_lt.mp ha.2.1.2⟩
  | _ => exact ⟨hfee, hdeviation⟩

/-- **Every call keeps a pool lawful.** -/
theorem Lawful.call {now : ℕ} {x : PoolCall} {r : Done σ} (hp : Lawful p now)
    (hnow : now ≤ c.timestamp) (h : call E here c p tokens x = .ok r) :
    Lawful r.pool c.timestamp := by
  obtain ⟨hfee, hdeviation⟩ := bounds_of_call h hp.fee hp.deviation
  exact ⟨hfee, hdeviation, fun token =>
    (written_of_call h token).dated ((hp.dated token).later hnow)⟩

theorem Lawful.step {w w' : World σ} {l : Label σ} {log : List Event}
    (hw : Lawful w.pool w.now) (h : exec E here w l = some (w', log)) : Lawful w'.pool w'.now := by
  cases l with
  | tokens s =>
    simp only [exec, Option.some.injEq, Prod.mk.injEq] at h
    rwa [← h.1]
  | call c x =>
    obtain ⟨hnow, r, hr, rfl, -⟩ := exec_call h
    exact hw.call hnow hr

/-- **Every pool that was ever deployed is lawful.** -/
theorem lawful_of_run {stable_ : Address} {bps : UInt16} {log : List Event} {w : World σ}
    {tr : List (Step σ)} (h : construct E c tokens stable_ bps = .ok (p, log))
    (hrun : Run (exec E here) ⟨p, tokens, c.timestamp⟩ tr w) : Lawful w.pool w.now :=
  hrun.invariant (P := fun w => Lawful w.pool w.now) (lawful_of_construct h)
    fun _ _ _ _ hw he => hw.step he

end SwapPool

end SelendraBridge
