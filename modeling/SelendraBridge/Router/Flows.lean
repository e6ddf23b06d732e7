import SelendraBridge.Router.Calls

/-!
# What flows into the router and out of it

The router's stable is one balance that many things move: claims and refunds of the gate,
swaps at the pool, its own payments. Each move is bounded from one side by a
`SelendraBridge.SwapRouter.Flows`: what came in for sure, and what went out at most. Moves
one after the other add up.

The stable is taken to be a token that moves exactly what it is asked to move. Of the other
tokens, which may be anything, one thing is asked: that a call of theirs takes no stable
from the router.
-/

namespace SelendraBridge

namespace SwapRouter

open Revert Scene

variable {σ : Type} {S : Site σ} {c : Call} {s : Scene σ} {stable token source target : Address}
  {amount : U256} {t t' t'' : σ}

/-- **What flows**: at least so much in, and at most so much out. -/
def Flows (S : Site σ) (stable : Address) (gain cost : ℕ) (t t' : σ) : Prop :=
  (S.chain.tokens.balanceOf t stable S.here).toNat + gain ≤
    (S.chain.tokens.balanceOf t' stable S.here).toNat + cost

/-- **A standard stable**, seen from the router. -/
structure Standard (S : Site σ) (stable : Address) : Prop where
  exact : S.chain.tokens.Exact stable
  /-- Approvals move nothing. -/
  approve : ∀ {token spender amount t t'},
    S.chain.tokens.approve token S.here spender amount t = some t' → Flows S stable 0 0 t t'
  /-- Other tokens have a ledger of their own. -/
  transfer : ∀ {token source target amount t t'}, token ≠ stable →
    S.chain.tokens.transfer token source target amount t = some t' → Flows S stable 0 0 t t'
  transferFrom : ∀ {token spender source target amount t t'}, token ≠ stable →
    S.chain.tokens.transferFrom token spender source target amount t = some t' →
      Flows S stable 0 0 t t'

variable {g k g' k' : ℕ}

theorem Flows.refl : Flows S stable 0 0 t t := le_rfl

/-- **Moves add up.** -/
theorem Flows.trans (h : Flows S stable g k t t') (h' : Flows S stable g' k' t' t'') :
    Flows S stable (g + g') (k + k') t t'' := by
  simp only [Flows] at h h' ⊢
  omega

/-- Less in, or more out, holds as well. -/
theorem Flows.weaken (h : Flows S stable g k t t') (hg : g' ≤ g) (hk : k ≤ k') :
    Flows S stable g' k' t t' := by
  simp only [Flows] at h ⊢
  omega

/-- What comes in and goes out again cancels. -/
theorem Flows.cancel {n : ℕ} (h : Flows S stable (g + n) (k + n) t t') :
    Flows S stable g k t t' := by
  simp only [Flows] at h ⊢
  omega

/-! ### Single moves -/

section Moves

variable (hstd : Standard S stable)

include hstd

/-- A payment of stable by the router. -/
theorem flows_pay (h : S.chain.tokens.transfer stable S.here target amount t = some t') :
    Flows S stable 0 amount.toNat t t' := by
  have hm := hstd.exact.transfer h
  rcases eq_or_ne S.here target with heq | hne
  · have hself := hm.self_eq heq
    rw [← heq] at hself
    rw [Flows, hself]
    omega
  · have hsource := hm.source_eq hne
    rw [Flows]
    omega

/-- A payment of stable to the router by somebody else. -/
theorem flows_receive (hsource : source ≠ S.here)
    (h : S.chain.tokens.transfer stable source S.here amount t = some t') :
    Flows S stable amount.toNat 0 t t' := by
  have htarget := (hstd.exact.transfer h).target_eq hsource
  rw [Flows]
  omega

/-- Any transfer by somebody else takes nothing. -/
theorem flows_transfer (hsource : source ≠ S.here)
    (h : S.chain.tokens.transfer token source target amount t = some t') :
    Flows S stable 0 0 t t' := by
  rcases eq_or_ne token stable with rfl | hne
  · have hm := hstd.exact.transfer h
    rcases eq_or_ne S.here target with rfl | htarget
    · exact (flows_receive hstd hsource h).weaken (Nat.zero_le _) le_rfl
    · rw [Flows, hm.other S.here hsource.symm htarget]
  · exact hstd.transfer hne h

/-- Nor does a transfer of somebody else's tokens by a spender. -/
theorem flows_transferFrom {spender : Address} (hsource : source ≠ S.here)
    (h : S.chain.tokens.transferFrom token spender source target amount t = some t') :
    Flows S stable 0 0 t t' := by
  rcases eq_or_ne token stable with rfl | hne
  · have hm := hstd.exact.transferFrom h
    rcases eq_or_ne S.here target with rfl | htarget
    · have heq := hm.target_eq hsource
      rw [Flows]
      omega
    · rw [Flows, hm.other S.here hsource.symm htarget]
  · exact hstd.transferFrom hne h

/-- The router's stable, taken by a spender. -/
theorem flows_spend {spender : Address}
    (h : S.chain.tokens.transferFrom stable spender S.here target amount t = some t') :
    Flows S stable 0 amount.toNat t t' := by
  have hm := hstd.exact.transferFrom h
  rcases eq_or_ne S.here target with heq | hne
  · have hself := hm.self_eq heq
    rw [← heq] at hself
    rw [Flows, hself]
    omega
  · have hsource := hm.source_eq hne
    rw [Flows]
    omega

/-! ### Calls of the pool and the gate -/

/-- A swap that the router pays for with stable. -/
theorem flows_sell {p : SwapPool} {tokenOut : Address} {out minAmountOut : U256}
    {d : SwapPool.Done σ} (hne : tokenOut ≠ stable)
    (h : SwapPool.swap S.chain.tokens S.pool (acting S c) p t stable tokenOut amount minAmountOut
      target = .ok (out, d)) : Flows S stable 0 amount.toNat t d.tokens := by
  obtain ⟨received, W⟩ := SwapPool.swaps_of_swap h
  obtain ⟨u, hin, -, hout⟩ := W.moved
  exact (flows_spend hstd hin).trans (hstd.transfer hne hout)

/-- A swap that gets the router some stable. -/
theorem flows_buy {p : SwapPool} {tokenIn : Address} {out minAmountOut : U256}
    {d : SwapPool.Done σ} (hne : tokenIn ≠ stable)
    (h : SwapPool.swap S.chain.tokens S.pool (acting S c) p t tokenIn stable amount minAmountOut
      S.here = .ok (out, d)) : Flows S stable out.toNat 0 t d.tokens := by
  obtain ⟨received, W⟩ := SwapPool.swaps_of_swap h
  obtain ⟨u, hin, -, hout⟩ := W.moved
  have hpull : Flows S stable 0 0 t u := hstd.transferFrom hne hin
  exact (hpull.trans (flows_receive hstd S.pool_ne hout)).weaken (by omega) le_rfl

/-- **Calls of the pool by others** take nothing from the router. -/
theorem flows_pool {p : SwapPool} {x : SwapPool.PoolCall} {d : SwapPool.Done σ}
    (hsender : c.sender ≠ S.here)
    (h : SwapPool.call S.chain.tokens S.pool c p t x = .ok d) :
    Flows S stable 0 0 t d.tokens := by
  cases x with
  | seedLiquidity token amount =>
    simp only [SwapPool.call, SwapPool.seedLiquidity, bind_eq_ok, exists_unit, orRevert_eq_ok,
      pure_eq_ok] at h
    obtain ⟨-, -, -, u, hmoved, _, -, _, -, rfl⟩ := h
    exact flows_transferFrom hstd hsender hmoved
  | withdrawLiquidity token amount target =>
    simp only [SwapPool.call, SwapPool.withdrawLiquidity, bind_eq_ok, exists_unit, orRevert_eq_ok,
      pure_eq_ok] at h
    obtain ⟨-, -, -, -, -, _, -, u, hmoved, rfl⟩ := h
    exact flows_transfer hstd S.pool_ne hmoved
  | swap tokenIn tokenOut amountIn minAmountOut target =>
    obtain ⟨⟨out, d'⟩, hswap, rfl⟩ := SwapPool.map_eq_ok.mp h
    obtain ⟨received, W⟩ := SwapPool.swaps_of_swap hswap
    obtain ⟨u, hin, -, hout⟩ := W.moved
    exact (flows_transferFrom hstd hsender hin).trans (flows_transfer hstd S.pool_ne hout)
  | _ =>
    -- The other calls move no tokens.
    obtain ⟨x, -, rfl⟩ := SwapPool.map_eq_ok.mp h
    exact Flows.refl

/-- A claim in stable to the router. -/
theorem flows_claim {a : Gate.ClaimArgs} {n : U256} {r : Gate.Done σ}
    (h : Gate.Claims S.chain s.gate t a n S.here r)
    (htoken : s.gate.tokenOf a.debridgeId = stable) :
    Flows S stable n.toNat 0 t r.tokens := by
  have hmoved := h.moved
  rw [htoken] at hmoved
  exact flows_receive hstd S.gate_ne hmoved

/-- A refund in stable to the router. -/
theorem flows_refund {a : Gate.RefundArgs} {n : U256} {r : Gate.Done σ}
    (h : Gate.Refunds S.chain s.gate t a n r) (htoken : a.token = stable)
    (hsent : s.gate.sentBy r.id = S.here) : Flows S stable n.toNat 0 t r.tokens := by
  have hmoved := h.moved
  rw [htoken, hsent] at hmoved
  exact flows_receive hstd S.gate_ne hmoved

/-- **Calls of the gate** take nothing from the router, unless it sends. -/
theorem flows_gate {x : Gate.TransferCall} {r : Gate.Done σ}
    (hown : ∀ a, x = .send a → c.sender ≠ S.here)
    (h : Gate.transfer S.chain c s.gate t x = .ok r) : Flows S stable 0 0 t r.tokens := by
  cases x with
  | send a =>
    obtain ⟨wire, W⟩ := Gate.sends_of_send h
    exact flows_transferFrom hstd (hown a rfl) W.moved
  | claim a =>
    obtain ⟨n, recipient, W⟩ := Gate.claims_of_claim h
    exact flows_transfer hstd S.gate_ne W.moved
  | cancel a =>
    rw [(Gate.cancels_of_cancel h).tokens]
    exact Flows.refl
  | refund a =>
    obtain ⟨n, W⟩ := Gate.refunds_of_refund h
    exact flows_transfer hstd S.gate_ne W.moved

/-! ### Calls of the router -/

/-- What an attempt at a delivery costs: the amount when it settles, and nothing otherwise. -/
theorem Ends.flows {id : Bytes32} {i : Intent} {may : Bool} {d : Attempt σ}
    (hstable : s.router.stable = stable) (h : Ends S c s id amount i may d) :
    Flows S stable 0 (if d.settled then amount.toNat else 0) s.tokens d.scene.tokens := by
  subst hstable
  have htried : ∀ u, (u = s.tokens ∨ ∃ v,
      S.chain.tokens.approve s.router.stable S.here S.pool amount s.tokens = some v ∧
        S.chain.tokens.approve s.router.stable S.here S.pool 0 v = some u) →
      Flows S s.router.stable 0 0 s.tokens u := by
    rintro u (rfl | ⟨v, h₁, h₂⟩)
    · exact Flows.refl
    · have hv : Flows S s.router.stable 0 0 s.tokens v := hstd.approve h₁
      exact hv.trans (hstd.approve h₂)
  cases h with
  | stable token moved => exact flows_pay hstd moved
  | swapped token approved swap =>
    have hv : Flows S s.router.stable 0 0 s.tokens _ := hstd.approve approved
    exact (hv.trans (flows_sell hstd token swap)).weaken le_rfl (by simp)
  | fellBack token tried since grace may moved =>
    exact ((htried _ tried).trans (flows_pay hstd moved)).weaken le_rfl (by simp)
  | deferred token tried => exact htried _ tried

/-- **A transfer that is ready** is funded: the router has more by what it sends. -/
theorem Prepares.flows {a : BridgeArgs} {leg : PoolReply σ} {dust : U256} {p : Prepared σ}
    (hstable : s.router.stable = stable) (h : Prepares S c s a leg dust t p) :
    Flows S stable p.send.amount.toNat 0 s.tokens p.scene.tokens := by
  subst hstable
  have hleg : Flows S s.router.stable leg.out.toNat 0 s.tokens leg.scene.tokens := by
    cases h.acquired with
    | pulled token moved received =>
      simp only [Scene.balance] at received
      rw [Flows]
      dsimp only
      omega
    | bought token moved approved swap =>
      have hpull : Flows S s.router.stable 0 0 s.tokens _ := hstd.transferFrom token moved
      have happrove : Flows S s.router.stable 0 0 _ _ := hpull.trans (hstd.approve approved)
      exact (happrove.trans (flows_buy hstd token swap)).weaken (by dsimp only; omega) le_rfl
  have hdust : dust.toNat ≤ leg.out.toNat := by
    obtain ⟨unit, -, hdust⟩ := h.dust_eq
    rw [hdust, BitVec.toNat_umod]
    exact Nat.mod_le _ _
  have hreturned : Flows S s.router.stable 0 dust.toNat leg.scene.tokens t := by
    rcases h.returned with ⟨-, rfl⟩ | hmoved
    · exact Flows.refl.weaken le_rfl (Nat.zero_le _)
    · exact flows_pay hstd hmoved
  have hall := (hleg.trans hreturned).trans (hstd.approve h.approved)
  have hamount : p.send.amount.toNat + dust.toNat = leg.out.toNat := by
    rw [h.send, BitVec.toNat_sub_of_le hdust]
    omega
  rw [Flows] at hall ⊢
  omega

/-- **A transfer that was sent** costs the router nothing. -/
theorem flows_swapAndBridge {a : BridgeArgs} {s' : Scene σ} {log : List Event}
    (hstable : s.router.stable = stable) (h : swapAndBridge S c s a = .ok (s', log)) :
    Flows S stable 0 0 s.tokens s'.tokens := by
  obtain ⟨leg, dust, u, p, g, -, P, hg, rfl, -⟩ := prepares_of_swapAndBridge h
  obtain ⟨wire, W⟩ := Gate.sends_of_send hg
  have hmoved := W.moved
  have htoken : p.send.token = stable := by rw [P.send, hstable]
  rw [htoken] at hmoved
  exact (((P.flows hstd hstable).trans (flows_spend hstd hmoved)).weaken (by omega)
    le_rfl).cancel

end Moves

end SwapRouter

end SelendraBridge
