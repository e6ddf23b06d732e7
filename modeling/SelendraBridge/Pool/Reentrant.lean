import SelendraBridge.Lib.Frames
import SelendraBridge.Pool.Machine

/-!
# The swap pool, called back

A token is a contract of its own, and a call of it may call the pool back. So a call of the
pool that moves tokens is not one step but a few, with anything in between:

| call | before its token call | after it |
|---|---|---|
| `seedLiquidity` | reads the balance | books what the balance grew by |
| `withdrawLiquidity` | takes the amount off the reserve | – |
| `swap`, the pull | reads the balance | prices and books what it grew by |
| `swap`, the payment | – | lets go of the guard |

Only `swap` carries the guard against re-entry. Storage is read again after a token call, as
the source reads it through storage pointers. A call that reverts undoes all that happened
in it; so does a call of another contract, and the frames of those are there as well.

The machine is the one of `SelendraBridge.SwapPool.exec` when nothing is called back
(`SelendraBridge.SwapPool.runFrom_alone`).
-/

namespace SelendraBridge

namespace SwapPool

open Revert Transition

variable {σ : Type} (E : Erc20 σ) (here : Address) (c : Call) (p : SwapPool) (tokens : σ)

/-- The constructor. -/
def construct (stable_ : Address) (maxPriceDeviationBps_ : UInt16) : Result := do
  revertIf (stable_ = 0) .zeroAddress
  revertIf (maxPriceDeviationBps_ = 0 ∨ maxPriceDeviationBps_.toNat > BPS_DENOM) .deviationTooHigh
  let dec ← orRevert (.tokenCallFailed stable_) (E.decimals tokens stable_)
  return ({
    tokens := Function.update (fun _ => ⟨false, 0, 0, 0⟩) stable_ ⟨true, dec, PRICE_ONE, 0⟩
    stable := stable_
    owner := c.sender
    pendingOwner := 0
    oracle := c.sender
    paused := false
    guardian := 0
    feeBps := 0
    maxPriceDeviationBps := maxPriceDeviationBps_
    minPriceUpdateInterval := 3600
    lastPriceUpdate := fun _ => 0
    priceSetAt := Function.update (fun _ => 0) stable_ c.timestamp
    maxPriceAge := 86400 },
    [.ownershipTransferred 0 c.sender, .oracleSet c.sender,
      .maxPriceDeviationSet maxPriceDeviationBps_, .minPriceUpdateIntervalSet 3600,
      .maxPriceAgeSet 86400, .tokenListed stable_ PRICE_ONE dec])

/-! ### The calls that move tokens, cut at their token calls -/

/-- `seedLiquidity`, up to its token call. -/
def startSeed (token : Address) (amount : U256) : Except Error Unit := do
  onlyOwner c p
  revertIf ((p.tokens token).listed = false) (.tokenNotListed token)
  revertIf (amount = 0) .zeroAmount

/-- `seedLiquidity`, after its token call. -/
def finishSeed (token : Address) (before : U256) : Result := do
  let received ← checkedSub .panic (E.balanceOf tokens token here) before
  let t := p.tokens token
  let reserve ← checked .panic (t.reserve.toNat + received.toNat)
  return (p.setToken token { t with reserve }, [.liquiditySeeded token received reserve])

/-- `withdrawLiquidity`, up to its token call. -/
def startWithdraw (token : Address) (amount : U256) (target : Address) :
    Except Error SwapPool := do
  onlyOwner c p
  let t := p.tokens token
  revertIf (t.listed = false) (.tokenNotListed token)
  revertIf (amount = 0) .zeroAmount
  revertIf (target = 0) .zeroAddress
  revertIf (amount > t.reserve) (.exceedsLock amount t.reserve)
  let reserve ← checkedSub .panic t.reserve amount
  return p.setToken token { t with reserve }

/-- `swap`, up to its first token call. -/
def startSwap (tokenIn tokenOut : Address) (amountIn : U256) (target : Address) :
    Except Error Unit := do
  whenNotPaused p
  revertIf (tokenIn = tokenOut) .sameToken
  revertIf (amountIn = 0) .zeroAmount
  revertIf (target = 0) .zeroAddress
  revertIf ((p.tokens tokenIn).listed = false) (.tokenNotListed tokenIn)
  revertIf ((p.tokens tokenOut).listed = false) (.tokenNotListed tokenOut)
  requireFreshPrice c p tokenIn
  requireFreshPrice c p tokenOut

/-- `swap`, between its two token calls: the output, and the pool with both reserves booked. -/
def bookSwap (tokenIn tokenOut : Address) (minAmountOut : U256) (target : Address)
    (before : U256) : Except Error (U256 × SwapPool × List Event) := do
  let received ← checkedSub .panic (E.balanceOf tokens tokenIn here) before
  revertIf (received = 0) .zeroAmount
  let i := p.tokens tokenIn
  let o := p.tokens tokenOut
  let out ← amountOut received i.price i.decimals o.price o.decimals p.feeBps
  revertIf (out = 0) .zeroAmount
  revertIf (out < minAmountOut) (.slippage out minAmountOut)
  revertIf (out > o.reserve) (.exceedsLock out o.reserve)
  let reserveIn ← checked .panic (i.reserve.toNat + received.toNat)
  let reserveOut ← checkedSub .panic o.reserve out
  return (out,
    (p.setToken tokenIn { i with reserve := reserveIn }).setToken tokenOut
      { o with reserve := reserveOut },
    [.swapped c.sender tokenIn tokenOut received out target])

/-! ### The machine -/

/-- What a revert brings back. -/
structure Core (σ : Type) where
  pool : SwapPool
  tokens : σ
  /-- Is a call that carries the guard under way? -/
  entered : Bool

/-- **A call under way**, at the token call it waits for: `moved` once the token has moved
what it was asked to. -/
inductive Frame
  | seed (c : Call) (token : Address) (amount before : U256) (moved : Bool)
  | withdraw (token : Address) (amount : U256) (target : Address) (moved : Bool)
  | swapIn (c : Call) (tokenIn tokenOut : Address) (amountIn minAmountOut : U256)
    (target : Address) (before : U256) (moved : Bool)
  | swapOut (tokenOut : Address) (out : U256) (target : Address) (moved : Bool)
  /-- A call of another contract. -/
  | foreign

/-- The frames under way, innermost first, each with what there was when it began. -/
structure Nest (σ : Type) where
  core : Core σ
  stack : List (Frame × Core σ)
  now : ℕ

/-- `nonReentrant`. -/
def PoolCall.guarded : PoolCall → Bool
  | .swap .. => true
  | _ => false

/-- **A call begins**: it is done, or it waits for a token. -/
def begin (k : Core σ) : PoolCall → Except Error (Core σ × Option Frame × List Event)
  | .seedLiquidity token amount => do
    startSeed c k.pool token amount
    return (k, some (.seed c token amount (E.balanceOf k.tokens token here) false), [])
  | .withdrawLiquidity token amount target => do
    let pool ← startWithdraw c k.pool token amount target
    return ({ k with pool }, some (.withdraw token amount target false), [])
  | .swap tokenIn tokenOut amountIn minAmountOut target => do
    startSwap c k.pool tokenIn tokenOut amountIn target
    let before := E.balanceOf k.tokens tokenIn here
    return ({ k with entered := true },
      some (.swapIn c tokenIn tokenOut amountIn minAmountOut target before false), [])
  | x => do
    let r ← call E here c k.pool k.tokens x
    return ({ k with pool := r.pool, tokens := r.tokens }, none, r.log)

/-- **The token moves** what the innermost call asked it to. -/
def Frame.move (s : σ) : Frame → Option (Frame × σ)
  | .seed c token amount before false =>
    (E.transferFrom token here c.sender here amount s).map fun s =>
      (.seed c token amount before true, s)
  | .withdraw token amount target false =>
    (E.transfer token here target amount s).map fun s => (.withdraw token amount target true, s)
  | .swapIn c tokenIn tokenOut amountIn minAmountOut target before false =>
    (E.transferFrom tokenIn here c.sender here amountIn s).map fun s =>
      (.swapIn c tokenIn tokenOut amountIn minAmountOut target before true, s)
  | .swapOut tokenOut out target false =>
    (E.transfer tokenOut here target out s).map fun s => (.swapOut tokenOut out target true, s)
  | _ => none

/-- **A call goes on** after its token call: it is done, or it waits for another. -/
def Frame.resume (k : Core σ) : Frame → Except Error (Core σ × Option Frame × List Event)
  | .seed _ token _ before true => do
    let r ← finishSeed E here k.pool k.tokens token before
    return ({ k with pool := r.1 }, none, r.2)
  | .withdraw token amount target true =>
    .ok (k, none, [.liquidityWithdrawn token amount (k.pool.tokens token).reserve target])
  | .swapIn c tokenIn tokenOut _ minAmountOut target before true => do
    let r ← bookSwap E here c k.pool k.tokens tokenIn tokenOut minAmountOut target before
    return ({ k with pool := r.2.1 }, some (.swapOut tokenOut r.1 target false), r.2.2)
  | .swapOut _ _ _ true => .ok ({ k with entered := false }, none, [])
  | .foreign => .ok (k, none, [])
  | _ => .error .panic

/-- What can happen next. -/
inductive Move (σ : Type)
  /-- The pool is called, by a transaction or by a token that was called. -/
  | enter (c : Call) (x : PoolCall)
  /-- Another contract is called. -/
  | foreign
  /-- The innermost call's token does its work. -/
  | move
  /-- The innermost call goes on. -/
  | resume
  /-- The innermost call reverts. -/
  | revert
  /-- Others move tokens. -/
  | others (s : σ)

/-- **One step.** -/
def nestExec (w : Nest σ) : Move σ → Option (Nest σ × List Event)
  | .enter c x =>
    if c.timestamp < w.now ∨ (x.guarded = true ∧ w.core.entered = true) then none
    else match begin E here c w.core x with
      | .ok (k, none, log) => some (⟨k, w.stack, c.timestamp⟩, log)
      | .ok (k, some f, log) => some (⟨k, (f, w.core) :: w.stack, c.timestamp⟩, log)
      | .error _ => none
  | .foreign => some ({ w with stack := (.foreign, w.core) :: w.stack }, [])
  | .move =>
    match w.stack with
    | [] => none
    | (f, saved) :: rest => (f.move E here w.core.tokens).map fun r =>
        (⟨{ w.core with tokens := r.2 }, (r.1, saved) :: rest, w.now⟩, [])
  | .resume =>
    match w.stack with
    | [] => none
    | (f, saved) :: rest =>
      match f.resume E here w.core with
      | .ok (k, none, log) => some (⟨k, rest, w.now⟩, log)
      | .ok (k, some f', log) => some (⟨k, (f', saved) :: rest, w.now⟩, log)
      | .error _ => none
  | .revert =>
    match w.stack with
    | [] => none
    | (_, saved) :: rest => some (⟨saved, rest, w.now⟩, [])
  | .others s => some ({ w with core := { w.core with tokens := s } }, [])

/-! ### Nothing is called back -/

variable {E here c p tokens}

/-- The steps of a call during which nothing else happens. -/
def alone (c : Call) : PoolCall → List (Move σ)
  | .seedLiquidity token amount => [.enter c (.seedLiquidity token amount), .move, .resume]
  | .withdrawLiquidity token amount target =>
    [.enter c (.withdrawLiquidity token amount target), .move, .resume]
  | .swap tokenIn tokenOut amountIn minAmountOut target =>
    [.enter c (.swap tokenIn tokenOut amountIn minAmountOut target), .move, .resume, .move, .resume]
  | x => [.enter c x]

section Steps

variable {w : Nest σ} {x : PoolCall} {k : Core σ} {f f' : Frame} {saved : Core σ}
  {rest : List (Frame × Core σ)} {log : List Event} {s : σ}

/-- A call that is done at once. -/
theorem nestExec_enter (hnow : w.now ≤ c.timestamp)
    (hguard : ¬(x.guarded = true ∧ w.core.entered = true))
    (h : begin E here c w.core x = .ok (k, none, log)) :
    nestExec E here w (.enter c x) = some (⟨k, w.stack, c.timestamp⟩, log) := by
  rw [nestExec, if_neg (by rintro (hlt | hg) <;> [omega; exact hguard hg]), h]

/-- A call that waits for a token. -/
theorem nestExec_enter_wait (hnow : w.now ≤ c.timestamp)
    (hguard : ¬(x.guarded = true ∧ w.core.entered = true))
    (h : begin E here c w.core x = .ok (k, some f, log)) :
    nestExec E here w (.enter c x) = some (⟨k, (f, w.core) :: w.stack, c.timestamp⟩, log) := by
  rw [nestExec, if_neg (by rintro (hlt | hg) <;> [omega; exact hguard hg]), h]

theorem nestExec_move (hw : w.stack = (f, saved) :: rest)
    (h : f.move E here w.core.tokens = some (f', s)) :
    nestExec E here w .move =
      some (⟨{ w.core with tokens := s }, (f', saved) :: rest, w.now⟩, []) := by
  simp only [nestExec, hw, h, Option.map_some]

theorem nestExec_resume (hw : w.stack = (f, saved) :: rest)
    (h : f.resume E here w.core = .ok (k, none, log)) :
    nestExec E here w .resume = some (⟨k, rest, w.now⟩, log) := by
  simp only [nestExec, hw, h]

theorem nestExec_resume_wait (hw : w.stack = (f, saved) :: rest)
    (h : f.resume E here w.core = .ok (k, some f', log)) :
    nestExec E here w .resume = some (⟨k, (f', saved) :: rest, w.now⟩, log) := by
  simp only [nestExec, hw, h]

end Steps

/-- What a call leads to when nothing is called back. -/
def Alone (E : Erc20 σ) (here : Address) (c : Call) (p : SwapPool) (tokens : σ) (x : PoolCall)
    (now : ℕ) (r : Done σ) : Prop :=
  ∃ tr, runFrom (nestExec E here) ⟨⟨p, tokens, false⟩, [], now⟩ (alone c x) =
      some (tr, ⟨⟨r.pool, r.tokens, false⟩, [], c.timestamp⟩) ∧ tr.flatMap Entry.out = r.log

theorem alone_of_seedLiquidity {token : Address} {amount : U256} {now : ℕ} {r : Done σ}
    (hnow : now ≤ c.timestamp) (h : seedLiquidity E here c p tokens token amount = .ok r) :
    Alone E here c p tokens (.seedLiquidity token amount) now r := by
  simp only [seedLiquidity, bind_eq_ok, exists_unit, orRevert_eq_ok, pure_eq_ok] at h
  obtain ⟨howner, hlisted, hamount, s, hs, received, hrec, reserve, hres, rfl⟩ := h
  have hbegin : begin E here c ⟨p, tokens, false⟩ (.seedLiquidity token amount) = .ok
      (⟨p, tokens, false⟩, some (.seed c token amount (E.balanceOf tokens token here) false),
        []) := by
    simp only [begin, startSeed, bind_eq_ok, exists_unit, pure_eq_ok]
    exact ⟨⟨howner, hlisted, hamount⟩, trivial⟩
  have hmove : (Frame.seed c token amount (E.balanceOf tokens token here) false).move E here
      tokens = some (.seed c token amount (E.balanceOf tokens token here) true, s) := by
    rw [Frame.move, hs, Option.map_some]
  have hresume : (Frame.seed c token amount (E.balanceOf tokens token here) true).resume E here
      ⟨p, s, false⟩ = .ok (⟨p.setToken token { p.tokens token with reserve }, s, false⟩, none,
        [.liquiditySeeded token received reserve]) := by
    simp only [Frame.resume, finishSeed, bind_eq_ok, pure_eq_ok]
    exact ⟨_, ⟨received, hrec, reserve, hres, rfl⟩, rfl⟩
  exact ⟨_, runFrom_cons (nestExec_enter_wait hnow (by simp) hbegin)
    (runFrom_cons (nestExec_move rfl hmove) (runFrom_cons (nestExec_resume rfl hresume) rfl)), rfl⟩

theorem alone_of_withdrawLiquidity {token target : Address} {amount : U256} {now : ℕ} {r : Done σ}
    (hnow : now ≤ c.timestamp)
    (h : withdrawLiquidity E here c p tokens token amount target = .ok r) :
    Alone E here c p tokens (.withdrawLiquidity token amount target) now r := by
  simp only [withdrawLiquidity, bind_eq_ok, exists_unit, orRevert_eq_ok, pure_eq_ok] at h
  obtain ⟨howner, hlisted, hamount, htarget, hlock, reserve, hres, s, hs, rfl⟩ := h
  have hbegin : begin E here c ⟨p, tokens, false⟩ (.withdrawLiquidity token amount target) = .ok
      (⟨p.setToken token { p.tokens token with reserve }, tokens, false⟩,
        some (.withdraw token amount target false), []) := by
    simp only [begin, startWithdraw, bind_eq_ok, exists_unit, pure_eq_ok]
    exact ⟨_, ⟨howner, hlisted, hamount, htarget, hlock, reserve, hres, rfl⟩, rfl⟩
  have hmove : (Frame.withdraw token amount target false).move E here tokens =
      some (.withdraw token amount target true, s) := by
    rw [Frame.move, hs, Option.map_some]
  have hresume : (Frame.withdraw token amount target true).resume E here
      ⟨p.setToken token { p.tokens token with reserve }, s, false⟩ =
      .ok (⟨p.setToken token { p.tokens token with reserve }, s, false⟩, none,
        [.liquidityWithdrawn token amount reserve target]) := by
    simp only [Frame.resume, setToken, Function.update_self]
  exact ⟨_, runFrom_cons (nestExec_enter_wait hnow (by simp [PoolCall.guarded]) hbegin)
    (runFrom_cons (nestExec_move rfl hmove) (runFrom_cons (nestExec_resume rfl hresume) rfl)), rfl⟩

theorem alone_of_swap {tokenIn tokenOut target : Address} {amountIn minAmountOut : U256} {now : ℕ}
    {r : U256 × Done σ} (hnow : now ≤ c.timestamp)
    (h : swap E here c p tokens tokenIn tokenOut amountIn minAmountOut target = .ok r) :
    Alone E here c p tokens (.swap tokenIn tokenOut amountIn minAmountOut target) now r.2 := by
  simp only [swap, bind_eq_ok, exists_unit, orRevert_eq_ok, pure_eq_ok] at h
  obtain ⟨hpaused, hne, hamount, htarget, hin, hout, hfin, hfout, s, hs, received, hrec, hzero, out,
    ho, hone, hmin, hlock, reserveIn, hri, reserveOut, hro, s', hs', rfl⟩ := h
  let before := E.balanceOf tokens tokenIn here
  let booked := (p.setToken tokenIn { p.tokens tokenIn with reserve := reserveIn }).setToken
    tokenOut { p.tokens tokenOut with reserve := reserveOut }
  have hbegin : begin E here c ⟨p, tokens, false⟩
      (.swap tokenIn tokenOut amountIn minAmountOut target) = .ok (⟨p, tokens, true⟩,
        some (.swapIn c tokenIn tokenOut amountIn minAmountOut target before false), []) := by
    simp only [begin, startSwap, bind_eq_ok, exists_unit, pure_eq_ok]
    exact ⟨⟨hpaused, hne, hamount, htarget, hin, hout, hfin, hfout⟩, rfl⟩
  have hpull : (Frame.swapIn c tokenIn tokenOut amountIn minAmountOut target before false).move E
      here tokens =
      some (.swapIn c tokenIn tokenOut amountIn minAmountOut target before true, s) := by
    rw [Frame.move, hs, Option.map_some]
  have hbook : (Frame.swapIn c tokenIn tokenOut amountIn minAmountOut target before true).resume E
      here ⟨p, s, true⟩ = .ok (⟨booked, s, true⟩, some (.swapOut tokenOut out target false),
        [.swapped c.sender tokenIn tokenOut received out target]) := by
    simp only [Frame.resume, bookSwap, bind_eq_ok, exists_unit, pure_eq_ok]
    exact ⟨_, ⟨received, hrec, hzero, out, ho, hone, hmin, hlock, reserveIn, hri, reserveOut, hro,
      rfl⟩, rfl⟩
  have hpay : (Frame.swapOut tokenOut out target false).move E here s =
      some (.swapOut tokenOut out target true, s') := by
    rw [Frame.move, hs', Option.map_some]
  exact ⟨_, runFrom_cons (nestExec_enter_wait hnow (by simp) hbegin)
    (runFrom_cons (nestExec_move rfl hpull) (runFrom_cons (nestExec_resume_wait rfl hbook)
      (runFrom_cons (nestExec_move rfl hpay) (runFrom_cons (nestExec_resume rfl rfl) rfl)))), rfl⟩

/-- **Without callbacks the two machines do the same**: what a call of the pool comes to,
the steps it is cut into come to, log included. -/
theorem runFrom_alone {x : PoolCall} {now : ℕ} {r : Done σ} (hnow : now ≤ c.timestamp)
    (h : call E here c p tokens x = .ok r) : Alone E here c p tokens x now r := by
  have hplain : alone c x = ([.enter c x] : List (Move σ)) →
      begin E here c ⟨p, tokens, false⟩ x = .ok (⟨r.pool, r.tokens, false⟩, none, r.log) →
      Alone E here c p tokens x now r := by
    intro halone hbegin
    rw [Alone, halone]
    exact ⟨_, runFrom_cons (nestExec_enter hnow (by simp) hbegin) rfl, by simp⟩
  cases x with
  | seedLiquidity token amount => exact alone_of_seedLiquidity hnow h
  | withdrawLiquidity token amount target => exact alone_of_withdrawLiquidity hnow h
  | swap tokenIn tokenOut amountIn minAmountOut target =>
    obtain ⟨r, hr, rfl⟩ := map_eq_ok.mp h
    exact alone_of_swap hnow hr
  | _ => exact hplain rfl (by simp only [begin, h]; rfl)

end SwapPool

end SelendraBridge
