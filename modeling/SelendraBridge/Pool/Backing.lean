import SelendraBridge.Pool.Reentrant
import SelendraBridge.Pool.Trades

/-!
# Reserves are backed, unless a token is booked twice

What `seedLiquidity` and the pull of a `swap` book is what a balance grew by during a token
call. Another booking of the same token in that time is in the growth as well, so it is
booked twice, and the reserve goes past the balance: `swap` carries the guard against
re-entry and `seedLiquidity` does not (`SelendraBridge.SwapPool.booked_twice`).

That is the only way. In every run in which no booking of a token is done while another one
of it waits for its token call, the recorded reserve of every listed token is at most the
pool's balance of it, in every state, whatever else is called back and whatever reverts
(`SelendraBridge.SwapPool.reserves_backed`). The invariant behind it also counts what the
calls under way have taken off a reserve and not paid yet, and bounds the reserve by what
each waiting booking read as the balance.
-/

namespace SelendraBridge

namespace SwapPool

open Revert Transition Frames

variable {σ : Type}

/-! ### What a frame stands for -/

/-- The token that a waiting booking is about, and the balance it read. -/
def Frame.window : Frame → Option (Address × U256)
  | .seed _ token _ before _ => some (token, before)
  | .swapIn _ tokenIn _ _ _ _ before _ => some (tokenIn, before)
  | _ => none

/-- What a call has taken off the reserve of a token and not paid yet. -/
def Frame.owes (t : Address) : Frame → ℕ
  | .withdraw token amount _ false => if token = t then amount.toNat else 0
  | .swapOut tokenOut out _ false => if tokenOut = t then out.toNat else 0
  | _ => 0

/-- The tokens that a call moves. -/
def Frame.touches : Frame → List Address
  | .seed _ token _ _ _ => [token]
  | .withdraw token _ _ _ => [token]
  | .swapIn _ tokenIn tokenOut _ _ _ _ _ => [tokenIn, tokenOut]
  | .swapOut tokenOut _ _ _ => [tokenOut]
  | .foreign => []

/-- A swap is between two tokens. -/
def Frame.Distinct : Frame → Prop
  | .swapIn _ tokenIn tokenOut _ _ _ _ _ => tokenIn ≠ tokenOut
  | _ => True

/-- What all calls under way have yet to pay. -/
def owed (frames : List Frame) (t : Address) : ℕ := (frames.map (Frame.owes t)).sum

theorem owed_cons (f : Frame) (frames : List Frame) (t : Address) :
    owed (f :: frames) t = f.owes t + owed frames t := by
  rw [owed, List.map_cons, List.sum_cons, owed]

/-- **The reserves of some tokens are backed.** -/
structure Backed (E : Erc20 σ) (here : Address) (T : Set Address) (k : Core σ)
    (frames : List Frame) : Prop where
  covered : ∀ t ∈ T, k.pool.held t + owed frames t ≤ (E.balanceOf k.tokens t here).toNat
  windows : ∀ f ∈ frames, ∀ t before, f.window = some (t, before) →
    k.pool.held t + owed frames t ≤ before.toNat
  touched : ∀ f ∈ frames, ∀ t ∈ f.touches, t ∈ T
  distinct : ∀ f ∈ frames, f.Distinct

variable {E : Erc20 σ} {here : Address} {T : Set Address} {k k' : Core σ} {frames : List Frame}
  {c : Call} {p : SwapPool} {f f' : Frame} {log : List Event}

theorem held_setToken (token : Address) (info : TokenInfo) (t : Address) :
    (p.setToken token info).held t = if t = token then info.reserve.toNat else p.held t := by
  simp only [held, setToken, Function.update_apply]
  split <;> rfl

/-- Storing a record with the same reserve. -/
theorem held_setToken_same {token : Address} {info : TokenInfo}
    (h : info.reserve = (p.tokens token).reserve) (t : Address) :
    (p.setToken token info).held t = p.held t := by
  rw [held_setToken]
  split
  · next ht => rw [h, ht, held]
  · rfl

/-- The same reserves and tokens, under the same frames. -/
theorem Backed.same (h : Backed E here T k frames) (hheld : ∀ t, k'.pool.held t = k.pool.held t)
    (htokens : k'.tokens = k.tokens) : Backed E here T k' frames := by
  refine ⟨fun t ht => ?_, fun f hf t before hw => ?_, h.touched, h.distinct⟩
  · rw [hheld, htokens]
    exact h.covered t ht
  · rw [hheld]
    exact h.windows f hf t before hw

/-- One more frame, which owes nothing yet. -/
theorem Backed.cons (h : Backed E here T k frames) (howes : ∀ t, f.owes t = 0)
    (hwindow : ∀ t before, f.window = some (t, before) →
      t ∈ T ∧ before = E.balanceOf k.tokens t here)
    (htouched : ∀ t ∈ f.touches, t ∈ T) (hdistinct : f.Distinct) :
    Backed E here T k (f :: frames) := by
  have howed : ∀ t, owed (f :: frames) t = owed frames t := fun t => by
    rw [owed_cons, howes, Nat.zero_add]
  refine ⟨fun t ht => ?_, fun g hg t before hw => ?_, ?_, ?_⟩
  · rw [howed]
    exact h.covered t ht
  · rw [howed]
    rcases List.mem_cons.mp hg with rfl | hg
    · obtain ⟨ht, rfl⟩ := hwindow t before hw
      exact h.covered t ht
    · exact h.windows g hg t before hw
  · exact List.forall_mem_cons.mpr ⟨htouched, h.touched⟩
  · exact List.forall_mem_cons.mpr ⟨hdistinct, h.distinct⟩

/-! ### A call begins -/

/-- Does a call move tokens? -/
def PoolCall.moves : PoolCall → Bool
  | .seedLiquidity .. => true
  | .withdrawLiquidity .. => true
  | .swap .. => true
  | _ => false

/-- **A call that moves no tokens leaves every reserve alone.** -/
theorem held_of_call {tokens : σ} {x : PoolCall} (hx : x.moves = false) {r : Done σ}
    (h : call E here c p tokens x = .ok r) :
    (∀ t, r.pool.held t = p.held t) ∧ r.tokens = tokens := by
  cases x with
  | seedLiquidity _ _ => exact absurd hx (by simp [PoolCall.moves])
  | withdrawLiquidity _ _ _ => exact absurd hx (by simp [PoolCall.moves])
  | swap _ _ _ _ _ => exact absurd hx (by simp [PoolCall.moves])
  | listToken token price =>
    obtain ⟨a, ha, rfl⟩ := map_eq_ok.mp h
    simp only [listToken, bind_eq_ok, exists_unit, pure_eq_ok] at ha
    obtain ⟨-, -, -, -, -, decimals, -, rfl⟩ := ha
    exact ⟨held_setToken_same rfl, rfl⟩
  | setPrice token expectedOld newPrice =>
    obtain ⟨a, ha, rfl⟩ := map_eq_ok.mp h
    simp only [setPrice, bind_eq_ok, exists_unit, pure_eq_ok] at ha
    obtain ⟨-, -, -, -, -, -, -, rfl⟩ := ha
    exact ⟨held_setToken_same rfl, rfl⟩
  | delistToken token =>
    obtain ⟨a, ha, rfl⟩ := map_eq_ok.mp h
    simp only [delistToken, bind_eq_ok, exists_unit, pure_eq_ok] at ha
    obtain ⟨-, -, -, -, rfl⟩ := ha
    exact ⟨held_setToken_same rfl, rfl⟩
  | pause =>
    obtain ⟨a, ha, rfl⟩ := map_eq_ok.mp h
    simp only [pause, bind_eq_ok, exists_unit, pure_eq_ok] at ha
    obtain ⟨-, rfl⟩ := ha
    split <;> exact ⟨fun _ => rfl, rfl⟩
  | unpause =>
    obtain ⟨a, ha, rfl⟩ := map_eq_ok.mp h
    simp only [unpause, bind_eq_ok, exists_unit, pure_eq_ok] at ha
    obtain ⟨-, rfl⟩ := ha
    split <;> exact ⟨fun _ => rfl, rfl⟩
  | transferOwnership _ | setOracle _ | setMaxPriceDeviation _ | setFee _ =>
    obtain ⟨a, ha, rfl⟩ := map_eq_ok.mp h
    simp only [transferOwnership, setOracle, setMaxPriceDeviation, setFee, bind_eq_ok, exists_unit,
      pure_eq_ok] at ha
    obtain ⟨-, -, rfl⟩ := ha
    exact ⟨fun _ => rfl, rfl⟩
  | acceptOwnership | setGuardian _ | setMinPriceUpdateInterval _ | setMaxPriceAge _ =>
    obtain ⟨a, ha, rfl⟩ := map_eq_ok.mp h
    simp only [acceptOwnership, setGuardian, setMinPriceUpdateInterval, setMaxPriceAge, bind_eq_ok,
      exists_unit, pure_eq_ok] at ha
    obtain ⟨-, rfl⟩ := ha
    exact ⟨fun _ => rfl, rfl⟩

/-- Taking an amount off a reserve, for a call that now owes it. -/
theorem Backed.take (h : Backed E here T k frames) {token : Address} {reserve amount : U256}
    (hres : reserve.toNat + amount.toNat = k.pool.held token) (htoken : token ∈ T)
    (howes : ∀ t, f.owes t = if token = t then amount.toNat else 0) (hwindow : f.window = none)
    (htouches : f.touches = [token]) (hdistinct : f.Distinct) : Backed E here T
      { k with pool := k.pool.setToken token { k.pool.tokens token with reserve } }
      (f :: frames) := by
  have hsum : ∀ t, (k.pool.setToken token { k.pool.tokens token with reserve }).held t +
      owed (f :: frames) t = k.pool.held t + owed frames t := by
    intro t
    rw [owed_cons, held_setToken, howes]
    by_cases ht : t = token
    · subst ht
      simp only [if_true]
      omega
    · rw [if_neg ht, if_neg (Ne.symm ht), Nat.zero_add]
  refine ⟨fun t ht => ?_, fun g hg t before hw => ?_, ?_, ?_⟩
  · rw [hsum]
    exact h.covered t ht
  · rw [hsum]
    rcases List.mem_cons.mp hg with rfl | hg
    · exact absurd (hwindow.symm.trans hw) (by simp)
    · exact h.windows g hg t before hw
  · exact List.forall_mem_cons.mpr ⟨by simpa [htouches] using htoken, h.touched⟩
  · exact List.forall_mem_cons.mpr ⟨hdistinct, h.distinct⟩

/-- **A call that begins** keeps the reserves backed, under its frame if it waits. -/
theorem backed_begin (h : Backed E here T k frames)
    (hlisted : ∀ t, (k.pool.tokens t).listed = true → t ∈ T) {x : PoolCall} {o : Option Frame}
    (hb : begin E here c k x = .ok (k', o, log)) : Backed E here T k' (o.toList ++ frames) := by
  have hplain : x.moves = false → (∃ r, call E here c k.pool k.tokens x = .ok r ∧
      ({ k with pool := r.pool, tokens := r.tokens }, none, r.log) = (k', o, log)) →
      Backed E here T k' (o.toList ++ frames) := by
    rintro hx ⟨r, hr, heq⟩
    obtain ⟨rfl, rfl, -⟩ := by simpa only [Prod.mk.injEq] using heq
    obtain ⟨hheld, htokens⟩ := held_of_call hx hr
    exact h.same hheld htokens
  cases x with
  | seedLiquidity token amount =>
    simp only [begin, startSeed, bind_eq_ok, exists_unit, revertIf_eq_ok, pure_eq_ok,
      Prod.mk.injEq, Bool.not_eq_false] at hb
    obtain ⟨⟨-, hl, -⟩, rfl, rfl, -⟩ := hb
    have htoken := hlisted token hl
    refine h.cons (fun _ => rfl) ?_ (by simpa [Frame.touches] using htoken) trivial
    rintro t before hw
    obtain ⟨rfl, rfl⟩ := by simpa [Frame.window] using hw
    exact ⟨htoken, rfl⟩
  | withdrawLiquidity token amount target =>
    simp only [begin, startWithdraw, bind_eq_ok, exists_unit, revertIf_eq_ok, checkedSub_eq_ok,
      pure_eq_ok, Prod.mk.injEq, Bool.not_eq_false] at hb
    obtain ⟨pool, ⟨-, hl, -, -, -, reserve, hres, rfl⟩, rfl, rfl, -⟩ := hb
    exact h.take hres (hlisted token hl) (fun _ => rfl) rfl rfl trivial
  | swap tokenIn tokenOut amountIn minAmountOut target =>
    simp only [begin, startSwap, bind_eq_ok, exists_unit, revertIf_eq_ok, pure_eq_ok,
      Prod.mk.injEq, Bool.not_eq_false] at hb
    obtain ⟨⟨-, hne, -, -, hin, hout, -, -⟩, rfl, rfl, -⟩ := hb
    have hlast := h.cons (f := .swapIn c tokenIn tokenOut amountIn minAmountOut target
      (E.balanceOf k.tokens tokenIn here) false) (fun _ => rfl) ?_ ?_ hne
    · exact hlast.same (fun _ => rfl) rfl
    · rintro t before hw
      obtain ⟨rfl, rfl⟩ := by simpa [Frame.window] using hw
      exact ⟨hlisted _ hin, rfl⟩
    · simpa [Frame.touches] using ⟨hlisted _ hin, hlisted _ hout⟩
  | _ => exact hplain rfl (by simpa only [begin, bind_eq_ok, pure_eq_ok] using hb)

/-! ### A token moves -/

/-- A token comes in, or stays where it was. -/
theorem le_balance_of_pulled {token source t : Address} {amount : U256} {s s' : σ}
    (h : E.Moved token source here amount s s') :
    (E.balanceOf s t here).toNat ≤ (E.balanceOf s' t here).toNat := by
  rcases eq_or_ne t token with rfl | ht
  · rcases eq_or_ne source here with heq | hne
    · rw [h.self_eq heq]
    · rw [h.target_eq hne]
      omega
  · rw [h.otherToken t ht]

/-- A token goes out, or stays where it was: at most the amount. -/
theorem balance_le_of_paid {token target t : Address} {amount : U256} {s s' : σ}
    (h : E.Moved token here target amount s s') :
    (E.balanceOf s t here).toNat ≤
      (E.balanceOf s' t here).toNat + if token = t then amount.toNat else 0 := by
  rcases eq_or_ne t token with rfl | ht
  · rw [if_pos rfl]
    rcases eq_or_ne here target with rfl | hne
    · rw [h.self_eq rfl]
      omega
    · rw [h.source_eq hne]
  · rw [h.otherToken t ht]
    omega

/-- The token has moved: what it was owed is paid. -/
theorem Backed.moved (h : Backed E here T k (f :: frames)) {s : σ}
    (hbalance : ∀ t ∈ T, (E.balanceOf k.tokens t here).toNat ≤
      (E.balanceOf s t here).toNat + f.owes t) (howes : ∀ t, f'.owes t = 0)
    (hwindow : f'.window = f.window) (htouches : f'.touches = f.touches)
    (hdistinct : f'.Distinct ↔ f.Distinct) :
    Backed E here T { k with tokens := s } (f' :: frames) := by
  have howed : ∀ t, owed (f' :: frames) t + f.owes t = owed (f :: frames) t := fun t => by
    rw [owed_cons, owed_cons, howes]
    omega
  refine ⟨fun t ht => ?_, fun g hg t before hw => ?_, ?_, ?_⟩
  · have hc := h.covered t ht
    have hb := hbalance t ht
    have ho := howed t
    show k.pool.held t + _ ≤ _
    dsimp only
    omega
  · have ho := howed t
    have hw' : k.pool.held t + owed (f :: frames) t ≤ before.toNat := by
      rcases List.mem_cons.mp hg with rfl | hg
      · exact h.windows f List.mem_cons_self t before (hwindow ▸ hw)
      · exact h.windows g (List.mem_cons_of_mem _ hg) t before hw
    show k.pool.held t + _ ≤ _
    omega
  · obtain ⟨hf, hrest⟩ := List.forall_mem_cons.mp h.touched
    exact List.forall_mem_cons.mpr ⟨htouches ▸ hf, hrest⟩
  · obtain ⟨hf, hrest⟩ := List.forall_mem_cons.mp h.distinct
    exact List.forall_mem_cons.mpr ⟨hdistinct.mpr hf, hrest⟩

/-- **The innermost call's token moves**, and the reserves stay backed. -/
theorem backed_move (hexact : ∀ t ∈ T, E.Exact t) (h : Backed E here T k (f :: frames)) {s : σ}
    (hm : f.move E here k.tokens = some (f', s)) :
    Backed E here T { k with tokens := s } (f' :: frames) := by
  have htouched := h.touched f List.mem_cons_self
  rcases f with ⟨c, token, amount, before, _ | _⟩ | ⟨token, amount, target, _ | _⟩ |
    ⟨c, tokenIn, tokenOut, amountIn, minAmountOut, target, before, _ | _⟩ |
    ⟨tokenOut, out, target, _ | _⟩ | _ <;>
    simp only [Frame.move, Option.map_eq_some_iff, Prod.mk.injEq, reduceCtorEq] at hm
  · obtain ⟨s', hs, rfl, rfl⟩ := hm
    have hmoved := (hexact token (htouched token (by simp [Frame.touches]))).transferFrom hs
    exact h.moved (fun t _ => (le_balance_of_pulled hmoved).trans (Nat.le_add_right _ _))
      (fun _ => rfl) rfl rfl Iff.rfl
  · obtain ⟨s', hs, rfl, rfl⟩ := hm
    have hmoved := (hexact token (htouched token (by simp [Frame.touches]))).transfer hs
    exact h.moved (fun t _ => balance_le_of_paid hmoved) (fun _ => rfl) rfl rfl Iff.rfl
  · obtain ⟨s', hs, rfl, rfl⟩ := hm
    have hmoved := (hexact tokenIn (htouched tokenIn (by simp [Frame.touches]))).transferFrom hs
    exact h.moved (fun t _ => (le_balance_of_pulled hmoved).trans (Nat.le_add_right _ _))
      (fun _ => rfl) rfl rfl Iff.rfl
  · obtain ⟨s', hs, rfl, rfl⟩ := hm
    have hmoved := (hexact tokenOut (htouched tokenOut (by simp [Frame.touches]))).transfer hs
    exact h.moved (fun t _ => balance_le_of_paid hmoved) (fun _ => rfl) rfl rfl Iff.rfl

/-! ### A call goes on -/

/-- A call that owes nothing returns. -/
theorem Backed.pop (h : Backed E here T k (f :: frames)) (howes : ∀ t, f.owes t = 0) :
    Backed E here T k frames := by
  have howed : ∀ t, owed (f :: frames) t = owed frames t := fun t => by
    rw [owed_cons, howes, Nat.zero_add]
  refine ⟨fun t ht => ?_, fun g hg t before hw => ?_, ?_, ?_⟩
  · rw [← howed]
    exact h.covered t ht
  · rw [← howed]
    exact h.windows g (List.mem_cons_of_mem _ hg) t before hw
  · exact (List.forall_mem_cons.mp h.touched).2
  · exact (List.forall_mem_cons.mp h.distinct).2

/-- Do two bookings wait for the same token? -/
def Frame.meets (f g : Frame) : Bool :=
  match f.window, g.window with
  | some a, some b => a.1 == b.1
  | _, _ => false

/-- **A booking** of what the balance grew by since it was read: the reserve was no more than
what was read, so it is no more than the balance now. -/
theorem Backed.book (h : Backed E here T k (f :: frames)) (howes : ∀ t, f.owes t = 0)
    {token : Address} {before received reserve : U256} (hwindow : f.window = some (token, before))
    (hrec : received.toNat + before.toNat = (E.balanceOf k.tokens token here).toNat)
    (hres : reserve.toNat = k.pool.held token + received.toNat)
    (hapart : ∀ g ∈ frames, f.meets g = false) : Backed E here T
      { k with pool := k.pool.setToken token { k.pool.tokens token with reserve } } frames := by
  have hread := h.windows f List.mem_cons_self token before hwindow
  rw [owed_cons, howes, Nat.zero_add] at hread
  have hp := h.pop howes
  refine ⟨fun t ht => ?_, fun g hg t b hw => ?_, hp.touched, hp.distinct⟩
  · rw [held_setToken]
    split
    · next heq =>
      subst heq
      dsimp only
      omega
    · exact hp.covered t ht
  · -- Nobody else waits for this token.
    have hne : t ≠ token := by
      rintro rfl
      have hmeets := hapart g hg
      rw [Frame.meets, hwindow, hw] at hmeets
      exact absurd hmeets (by simp)
    rw [held_setToken, if_neg hne]
    exact hp.windows g hg t b hw

/-- **The innermost call goes on**, and the reserves stay backed, unless another booking
waits for the same token. -/
theorem backed_resume (h : Backed E here T k (f :: frames)) {o : Option Frame}
    (hapart : ∀ g ∈ frames, f.meets g = false) (hr : f.resume E here k = .ok (k', o, log)) :
    Backed E here T k' (o.toList ++ frames) := by
  have htouched := h.touched f List.mem_cons_self
  have hdistinct := h.distinct f List.mem_cons_self
  rcases f with ⟨c, token, amount, before, _ | _⟩ | ⟨token, amount, target, _ | _⟩ |
    ⟨c, tokenIn, tokenOut, amountIn, minAmountOut, target, before, _ | _⟩ |
    ⟨tokenOut, out, target, _ | _⟩ | _ <;>
    simp only [Frame.resume, reduceCtorEq, Except.ok.injEq, Prod.mk.injEq] at hr
  · simp only [finishSeed, bind_eq_ok, checkedSub_eq_ok, checked_eq_ok, pure_eq_ok,
      Prod.mk.injEq] at hr
    obtain ⟨r, ⟨received, hrec, reserve, hres, rfl⟩, rfl, rfl, -⟩ := hr
    exact h.book (fun _ => rfl) rfl hrec hres hapart
  · obtain ⟨rfl, rfl, -⟩ := hr
    exact h.pop fun _ => rfl
  · simp only [bookSwap, bind_eq_ok, exists_unit, checkedSub_eq_ok, checked_eq_ok, pure_eq_ok,
      Prod.mk.injEq] at hr
    obtain ⟨r, ⟨received, hrec, -, out, -, -, -, -, reserveIn, hin, reserveOut, hout, rfl⟩, rfl,
      rfl, -⟩ := hr
    have hb := h.book (fun _ => rfl) rfl hrec hin hapart
    have hne : tokenIn ≠ tokenOut := hdistinct
    let pool := k.pool.setToken tokenIn { k.pool.tokens tokenIn with reserve := reserveIn }
    have hsame : pool.tokens tokenOut = k.pool.tokens tokenOut := by
      simp only [pool, setToken, Function.update_of_ne hne.symm]
    have hheld : reserveOut.toNat + out.toNat = pool.held tokenOut := by
      rw [held, hsame]
      exact hout
    have ht := hb.take (f := .swapOut tokenOut out target false) hheld
      (htouched tokenOut (by simp [Frame.touches])) (fun _ => rfl) rfl rfl trivial
    rw [hsame] at ht
    exact ht
  · obtain ⟨rfl, rfl, -⟩ := hr
    exact (h.pop fun _ => rfl).same (fun _ => rfl) rfl
  · obtain ⟨rfl, rfl, -⟩ := hr
    exact h.pop fun _ => rfl

/-! ### Over a run -/

/-- A step in a run. -/
abbrev NestStep (σ : Type) := Entry (Nest σ) (Move σ) (List Event)

/-- **A booking is nested in another**: a call goes on that waited for a token which an outer
call is waiting for, too. -/
def bookedTwice (e : NestStep σ) : Bool :=
  match e.label, e.pre.stack with
  | .resume, (f, _) :: rest => rest.any fun g => f.meets g.1
  | _, _ => false

/-- Is a token listed at a step of a run, before or after it? -/
def EverListed (tr : List (NestStep σ)) (t : Address) : Prop :=
  ∃ e ∈ tr, (e.pre.core.pool.tokens t).listed = true ∨ (e.post.core.pool.tokens t).listed = true

/-- **A pool as it is deployed**: nothing in reserve, and no call under way. -/
structure Fresh (w : Nest σ) : Prop where
  stack : w.stack = []
  reserve : ∀ t, (w.core.pool.tokens t).reserve = 0

/-- What the constructor returns is fresh. -/
theorem fresh_of_construct {tokens : σ} {stable_ : Address} {bps : UInt16} {now : ℕ}
    (h : construct E c tokens stable_ bps = .ok (p, log)) :
    Fresh ⟨⟨p, tokens, false⟩, [], now⟩ := by
  simp only [construct, bind_eq_ok, exists_unit, pure_eq_ok, Prod.mk.injEq] at h
  obtain ⟨-, -, dec, -, rfl, -⟩ := h
  refine ⟨rfl, fun t => ?_⟩
  simp only [Function.update_apply]
  split <;> rfl

/-- **One step keeps the reserves backed**, now and after every revert to come. -/
theorem sound_step (hexact : ∀ t ∈ T, E.Exact t) {w w' : Nest σ} {l : Move σ}
    (h : Sound (Backed E here T) w.core w.stack)
    (hlisted : ∀ t, (w.core.pool.tokens t).listed = true → t ∈ T)
    (he : nestExec E here w l = some (w', log))
    (hothers : ∀ s, l = .others s → ∀ t ∈ T,
      (E.balanceOf w.core.tokens t here).toNat ≤ (E.balanceOf s t here).toNat)
    (hnest : bookedTwice (⟨w, l, log, w'⟩ : NestStep σ) = false) :
    Sound (Backed E here T) w'.core w'.stack := by
  rcases w with ⟨k, stack, now⟩
  cases l with
  | enter c x =>
    rw [nestExec, Option.ite_none_left_eq_some] at he
    obtain ⟨-, he⟩ := he
    split at he
    · next hb =>
      simp only [Option.some.injEq, Prod.mk.injEq] at he
      obtain ⟨rfl, rfl⟩ := he
      exact h.change (backed_begin h.now hlisted hb)
    · next hb =>
      simp only [Option.some.injEq, Prod.mk.injEq] at he
      obtain ⟨rfl, rfl⟩ := he
      exact h.push (backed_begin h.now hlisted hb)
    · exact absurd he (by simp)
  | foreign =>
    simp only [nestExec, Option.some.injEq, Prod.mk.injEq] at he
    obtain ⟨rfl, -⟩ := he
    exact h.push (h.now.cons (fun _ => rfl) (by simp [Frame.window]) (by simp [Frame.touches])
      trivial)
  | move =>
    rcases stack with _ | ⟨⟨f, saved⟩, rest⟩
    · exact absurd he (by simp [nestExec])
    · simp only [nestExec, Option.map_eq_some_iff, Prod.mk.injEq] at he
      obtain ⟨⟨f', s⟩, hm, rfl, -⟩ := he
      exact h.replace (backed_move hexact h.now hm)
  | resume =>
    rcases stack with _ | ⟨⟨f, saved⟩, rest⟩
    · exact absurd he (by simp [nestExec])
    · have hapart : ∀ g ∈ rest.map Prod.fst, f.meets g = false := by
        intro g hg
        obtain ⟨r, hr, rfl⟩ := List.mem_map.mp hg
        exact Bool.eq_false_iff.mpr (List.any_eq_false.mp hnest r hr)
      simp only [nestExec] at he
      split at he
      · next hr =>
        simp only [Option.some.injEq, Prod.mk.injEq] at he
        obtain ⟨rfl, rfl⟩ := he
        exact h.pop (backed_resume h.now hapart hr)
      · next hr =>
        simp only [Option.some.injEq, Prod.mk.injEq] at he
        obtain ⟨rfl, rfl⟩ := he
        exact h.replace (backed_resume h.now hapart hr)
      · exact absurd he (by simp)
  | revert =>
    rcases stack with _ | ⟨⟨f, saved⟩, rest⟩
    · exact absurd he (by simp [nestExec])
    · simp only [nestExec, Option.some.injEq, Prod.mk.injEq] at he
      obtain ⟨rfl, -⟩ := he
      exact h.revert
  | others s =>
    simp only [nestExec, Option.some.injEq, Prod.mk.injEq] at he
    obtain ⟨rfl, -⟩ := he
    have hn := h.now
    exact h.change ⟨fun t ht => (hn.covered t ht).trans (hothers s rfl t ht), hn.windows,
      hn.touched, hn.distinct⟩

theorem sound_run (hexact : ∀ t ∈ T, E.Exact t) {w₀ w : Nest σ} {tr : List (NestStep σ)}
    (hrun : Run (nestExec E here) w₀ tr w) (h₀ : Fresh w₀)
    (hlisted : ∀ e ∈ tr, ∀ t, (e.pre.core.pool.tokens t).listed = true → t ∈ T)
    (hothers : ∀ e ∈ tr, ∀ s, e.label = .others s → ∀ t ∈ T,
      (E.balanceOf e.pre.core.tokens t here).toNat ≤ (E.balanceOf s t here).toNat)
    (hnest : ∀ e ∈ tr, bookedTwice e = false) : Sound (Backed E here T) w.core w.stack := by
  induction hrun with
  | nil =>
    rw [h₀.stack]
    refine ⟨fun t _ => ?_, by simp, by simp, by simp⟩
    rw [held, h₀.reserve]
    exact Nat.zero_le _
  | @snoc tr s s' l log _ he ih =>
    have hmem : (⟨s, l, log, s'⟩ : NestStep σ) ∈ tr ++ [⟨s, l, log, s'⟩] := by simp
    have hs := ih (fun e h => hlisted e (List.mem_append_left _ h))
      (fun e h => hothers e (List.mem_append_left _ h))
      fun e h => hnest e (List.mem_append_left _ h)
    exact sound_step hexact hs (hlisted _ hmem) he (hothers _ hmem) (hnest _ hmem)

/-- **Reserves are backed** at the end of every transaction – and at every other point –
of a run in which no booking of a token is nested in another booking of it. Listed tokens
move exactly what they are asked to, and leave the pool by its own calls only; they may
call back whatever they like. -/
theorem reserves_backed {w₀ w : Nest σ} {tr : List (NestStep σ)}
    (hrun : Run (nestExec E here) w₀ tr w) (h₀ : Fresh w₀)
    (hexact : ∀ t, EverListed tr t → E.Exact t)
    (hothers : ∀ e ∈ tr, ∀ s, e.label = .others s → ∀ t, EverListed tr t →
      (E.balanceOf e.pre.core.tokens t here).toNat ≤ (E.balanceOf s t here).toNat)
    (hnest : ∀ e ∈ tr, bookedTwice e = false) (t : Address)
    (ht : (w.core.pool.tokens t).listed = true) :
    (w.core.pool.tokens t).reserve.toNat ≤ (E.balanceOf w.core.tokens t here).toNat := by
  have hs := sound_run (T := {t | EverListed tr t}) hexact hrun h₀
    (fun e he t hl => ⟨e, he, .inl hl⟩) hothers hnest
  cases hrun with
  | nil =>
    rw [h₀.reserve]
    exact Nat.zero_le _
  | @snoc tr s s' l log _ he =>
    have hc := hs.now.covered t ⟨⟨s, l, log, w⟩, by simp, .inr ht⟩
    exact (Nat.le_add_right _ _).trans hc

/-! ### Two bookings, one inside the other -/

/-- A pool just deployed, with a stable. -/
def newPool : SwapPool where
  tokens := Function.update (fun _ => ⟨false, 0, 0, 0⟩) 0x05 ⟨true, 6, PRICE_ONE, 0⟩
  stable := 0x05
  owner := 0x0a
  pendingOwner := 0
  oracle := 0x0a
  paused := false
  guardian := 0
  feeBps := 0
  maxPriceDeviationBps := 1000
  minPriceUpdateInterval := 3600
  lastPriceUpdate := fun _ => 0
  priceSetAt := Function.update (fun _ => 0) 0x05 1000
  maxPriceAge := 86400

/-- The owner and a user have a thousand of both tokens, and let the pool have them. -/
def purses : Ledger where
  balance _ account := if account = 0x0a ∨ account = 0xcc then 1000 else 0
  allowance _ _ spender := if spender = 0xf2 then 1000 else 0
  decimals _ := some 6

/-- It is the constructor that makes such a pool. -/
theorem construct_newPool : ∃ log,
    construct Ledger.tokens (callAt 0x0a 1000) purses 0x05 1000 = .ok (newPool, log) :=
  ⟨_, rfl⟩

/-- The owner lists a token and seeds it and the stable, and begins to seed it again. -/
def seeding : List (Move Ledger) :=
  [.enter (callAt 0x0a 1001) (.listToken 0xaa PRICE_ONE),
    .enter (callAt 0x0a 1002) (.seedLiquidity 0x05 500), .move, .resume,
    .enter (callAt 0x0a 1003) (.seedLiquidity 0xaa 60), .move, .resume,
    .enter (callAt 0x0a 1004) (.seedLiquidity 0xaa 40)]

/-- A swap by the user, with nothing in between. -/
def swapping (tokenIn tokenOut : Address) : List (Move Ledger) :=
  [.enter (callAt 0xcc 1004) (.swap tokenIn tokenOut 10 0 0xcc), .move, .resume, .move, .resume]

/-- What becomes of a pool whose token, called by the owner's second seeding, calls back. -/
def calledBack (during : List (Move Ledger)) : List (NestStep Ledger) × Nest Ledger :=
  traceOf (nestExec Ledger.tokens 0xf2) ⟨⟨newPool, purses, false⟩, [], 1000⟩
    (seeding ++ during ++ [.move, .resume])

/-- Nobody else moves tokens in such a run. -/
theorem label_calledBack {tokenIn tokenOut : Address}
    (h : (runFrom (nestExec Ledger.tokens 0xf2) ⟨⟨newPool, purses, false⟩, [], 1000⟩
      (seeding ++ swapping tokenIn tokenOut ++ [.move, .resume])).isSome = true) :
    ∀ e ∈ (calledBack (swapping tokenIn tokenOut)).1, ∀ s, e.label ≠ .others s := by
  intro e he s hs
  have hmem : e.label ∈ (calledBack (swapping tokenIn tokenOut)).1.map Entry.label :=
    List.mem_map_of_mem he
  rw [calledBack, label_traceOf h, hs] at hmem
  simp [seeding, swapping] at hmem

/-- A token that is swapped for the one being seeded is fine: the owner is credited less. -/
theorem reserves_backed_calledBack :
    ((calledBack (swapping 0x05 0xaa)).2.core.pool.tokens 0xaa).reserve = 80 ∧
      ((calledBack (swapping 0x05 0xaa)).2.core.pool.tokens 0xaa).reserve.toNat ≤
        (Ledger.tokens.balanceOf (calledBack (swapping 0x05 0xaa)).2.core.tokens 0xaa
          0xf2).toNat := by
  have hsome : (runFrom (nestExec Ledger.tokens 0xf2) ⟨⟨newPool, purses, false⟩, [], 1000⟩
      (seeding ++ swapping 0x05 0xaa ++ [.move, .resume])).isSome = true := by decide +kernel
  have hnone : ((calledBack (swapping 0x05 0xaa)).1.all fun e => !bookedTwice e) = true := by
    decide +kernel
  obtain ⟨log, hnew⟩ := construct_newPool
  refine ⟨by decide +kernel, reserves_backed (run_traceOf hsome) (fresh_of_construct hnew)
    (fun t _ => Ledger.exact t) ?_ ?_ 0xaa (by decide +kernel)⟩
  · exact fun e he s hs => absurd hs (label_calledBack hsome e he s)
  · intro e he
    simpa using List.all_eq_true.mp hnone e he

/-- **A swap of the token being seeded is booked twice**: the reserve says 120, and the pool
has 110. So it is not true that reserves are backed in every run. -/
theorem booked_twice : ¬∀ (tr : List (NestStep Ledger)) (w : Nest Ledger),
    Run (nestExec Ledger.tokens 0xf2) ⟨⟨newPool, purses, false⟩, [], 1000⟩ tr w →
      (∀ e ∈ tr, ∀ s, e.label ≠ .others s) → w.stack = [] → ∀ t,
        (w.core.pool.tokens t).listed = true →
          (w.core.pool.tokens t).reserve.toNat ≤
            (Ledger.tokens.balanceOf w.core.tokens t 0xf2).toNat := by
  intro hall
  have hsome : (runFrom (nestExec Ledger.tokens 0xf2) ⟨⟨newPool, purses, false⟩, [], 1000⟩
      (seeding ++ swapping 0xaa 0x05 ++ [.move, .resume])).isSome = true := by decide +kernel
  have hle := hall _ _ (run_traceOf hsome) (label_calledBack hsome)
    (List.isEmpty_iff.mp (by decide +kernel)) 0xaa (by decide +kernel)
  exact absurd hle (by decide +kernel)

end SwapPool

end SelendraBridge
