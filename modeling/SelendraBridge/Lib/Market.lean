import Mathlib.Algebra.BigOperators.Group.Finset.Basic
import Mathlib.Algebra.Order.BigOperators.Group.Finset
import Mathlib.Data.List.Chain
import Mathlib.Data.Rat.Defs
import Mathlib.Algebra.Order.Ring.Rat
import Mathlib.Tactic.FieldSimp
import Mathlib.Tactic.Linarith
import Mathlib.Tactic.Ring

/-!
# Trading at quoted prices

A market quotes every token at a price for a unit of it, and trades one token for another
at the ratio of the two quotes, less a fee. All of it is done on whole numbers: the worth
of the input rounds down, the fee rounds up, the output rounds down
(`Market.Quoted`). Whatever the roundings do in detail, each of them is against the trader,
and two consequences need nothing else:

* at fixed quotes a trade never gives out more worth than it takes in
  (`Market.Quoted.worth_le`), so that the holdings of the market never lose worth
  (`Market.value_le_of_trade`) and no cycle of trades pays (`Market.Cycle.le`);
* a round trip around one move of a quote does not pay either, if the move is at most the
  fee, whether the quoted token is bought before it is raised
  (`Market.Quoted.buy_sell_le`) or sold before it is lowered
  (`Market.Quoted.sell_buy_le`).

The second is `(1 - f)² (1 + d) ≤ 1` and `(1 - f)² / (1 - d) ≤ 1` for `d ≤ f`, with the
denominators cleared.
-/

namespace Market

/-- What a token is quoted at: a price for so many of it. -/
structure Listing where
  price : ℕ
  unit : ℕ

/-- The exact worth of an amount. -/
def Listing.worth (l : Listing) (a : ℕ) : ℚ := a * l.price / l.unit

/-- **A trade of `a` for `b`** between two quotes at a fee of `f` in `D`: for some worth of
the input, rounded down, and some rest of it after the fee, rounded down. -/
structure Quoted (D f : ℕ) (i o : Listing) (a b : ℕ) : Prop where
  unitIn : 0 < i.unit
  unitOut : 0 < o.unit
  priceOut : 0 < o.price
  net : ∃ usd net : ℕ, usd * i.unit ≤ a * i.price ∧ net * D + usd * f ≤ usd * D ∧
    b * o.price ≤ net * o.unit

variable {D f a b c : ℕ} {i o o' : Listing}

/-! ### One trade -/

/-- **A trade does not give out more worth than it takes in.** -/
theorem Quoted.worth_le (hD : 0 < D) (h : Quoted D f i o a b) : o.worth b ≤ i.worth a := by
  obtain ⟨usd, net, hin, hfee, hout⟩ := h.net
  have hnet : net ≤ usd := Nat.le_of_mul_le_mul_right (by omega : net * D ≤ usd * D) hD
  have hi : (0 : ℚ) < i.unit := by exact_mod_cast h.unitIn
  have ho : (0 : ℚ) < o.unit := by exact_mod_cast h.unitOut
  have hin' : (usd : ℚ) * i.unit ≤ a * i.price := by exact_mod_cast hin
  have hout' : (b : ℚ) * o.price ≤ net * o.unit := by exact_mod_cast hout
  calc o.worth b ≤ net := (div_le_iff₀ ho).mpr hout'
    _ ≤ usd := by exact_mod_cast hnet
    _ ≤ i.worth a := (le_div_iff₀ hi).mpr hin'

/-- What a fee leaves is at most the rest, on both sides of a factor. -/
theorem net_mul_le {usd net : ℕ} (h : net * D + usd * f ≤ usd * D) :
    net * D * (D + f) ≤ usd * D * D := by
  have hmul : (net * D + usd * f) * (D + f) ≤ usd * D * (D + f) := Nat.mul_le_mul_right _ h
  have hexpand : usd * D * (D + f) = usd * D * D + usd * f * D := by ring
  have hleft : (net * D + usd * f) * (D + f) = net * D * (D + f) + usd * f * D + usd * f * f := by
    ring
  omega

/-! ### A round trip around one move -/

/-- **Buying before a raise does not pay**: `a` of a token for the quoted one, then all of
that back at a price that is higher by at most the fee. -/
theorem Quoted.buy_sell_le (hD : 0 < D) (hunit : o'.unit = o.unit)
    (hstep : o'.price * D ≤ o.price * (D + f)) (h₁ : Quoted D f i o a b) {b' : ℕ} (hb : b' ≤ b)
    (h₂ : Quoted D f o' i b' c) : c ≤ a := by
  obtain ⟨u₁, v₁, hin₁, hfee₁, hout₁⟩ := h₁.net
  obtain ⟨u₂, v₂, hin₂, hfee₂, hout₂⟩ := h₂.net
  rw [hunit] at hin₂
  -- What the second leg is worth, in terms of what the first one bought with.
  have hworth : u₂ * o.price ≤ v₁ * o'.price := by
    refine Nat.le_of_mul_le_mul_right ?_ h₁.unitOut
    calc u₂ * o.price * o.unit = u₂ * o.unit * o.price := by ring
      _ ≤ b' * o'.price * o.price := Nat.mul_le_mul_right _ hin₂
      _ ≤ b * o'.price * o.price := Nat.mul_le_mul_right _ (Nat.mul_le_mul_right _ hb)
      _ = b * o.price * o'.price := by ring
      _ ≤ v₁ * o.unit * o'.price := Nat.mul_le_mul_right _ hout₁
      _ = v₁ * o'.price * o.unit := by ring
  have hraised : u₂ * D ≤ v₁ * (D + f) := by
    refine Nat.le_of_mul_le_mul_right ?_ h₁.priceOut
    calc u₂ * D * o.price = u₂ * o.price * D := by ring
      _ ≤ v₁ * o'.price * D := Nat.mul_le_mul_right _ hworth
      _ = v₁ * (o'.price * D) := by ring
      _ ≤ v₁ * (o.price * (D + f)) := Nat.mul_le_mul_left _ hstep
      _ = v₁ * (D + f) * o.price := by ring
  -- One fee undoes the raise.
  have hle : u₂ ≤ u₁ := by
    refine Nat.le_of_mul_le_mul_right ?_ hD
    refine Nat.le_of_mul_le_mul_right ?_ hD
    calc u₂ * D * D ≤ v₁ * (D + f) * D := Nat.mul_le_mul_right _ hraised
      _ = v₁ * D * (D + f) := by ring
      _ ≤ u₁ * D * D := net_mul_le hfee₁
  have hnet : v₂ ≤ u₂ := Nat.le_of_mul_le_mul_right (by omega : v₂ * D ≤ u₂ * D) hD
  refine Nat.le_of_mul_le_mul_right ?_ h₂.priceOut
  calc c * i.price ≤ v₂ * i.unit := hout₂
    _ ≤ u₁ * i.unit := Nat.mul_le_mul_right _ (hnet.trans hle)
    _ ≤ a * i.price := hin₁

/-- **Selling before a cut does not pay**: `a` of the quoted token for another, then all of
that back at a price that is lower by at most the fee. -/
theorem Quoted.sell_buy_le {x : Listing} (hD : 0 < D) (hunit : o'.unit = o.unit)
    (hstep : o.price * D ≤ o'.price * D + o.price * f) (h₁ : Quoted D f o x a b) {b' : ℕ}
    (hb : b' ≤ b) (h₂ : Quoted D f x o' b' c) : c ≤ a := by
  obtain ⟨u₁, v₁, hin₁, hfee₁, hout₁⟩ := h₁.net
  obtain ⟨u₂, v₂, hin₂, hfee₂, hout₂⟩ := h₂.net
  rw [hunit] at hout₂
  -- At the price that did not move, the second leg is worth what the first one left.
  have hworth : u₂ ≤ v₁ := by
    refine Nat.le_of_mul_le_mul_right ?_ h₁.unitOut
    calc u₂ * x.unit ≤ b' * x.price := hin₂
      _ ≤ b * x.price := Nat.mul_le_mul_right _ hb
      _ ≤ v₁ * x.unit := hout₁
  have hnet : v₁ ≤ u₁ := Nat.le_of_mul_le_mul_right (by omega : v₁ * D ≤ u₁ * D) hD
  rcases lt_or_ge D f with hlt | hle
  · -- A fee of more than everything leaves nothing.
    have hmul : u₂ * (D + 1) ≤ u₂ * f := Nat.mul_le_mul_left _ hlt
    rw [Nat.mul_succ] at hmul
    have hv : v₂ * D = 0 := by omega
    obtain rfl : v₂ = 0 := (Nat.mul_eq_zero.mp hv).resolve_right hD.ne'
    have hc : c * o'.price = 0 := by omega
    have hzero : c = 0 := (Nat.mul_eq_zero.mp hc).resolve_right h₂.priceOut.ne'
    omega
  · obtain ⟨g, rfl⟩ := Nat.exists_eq_add_of_le hle
    have hrest : v₂ * (f + g) ≤ u₂ * g := by
      rw [Nat.mul_add u₂] at hfee₂
      omega
    have hcut : o.price * g ≤ o'.price * (f + g) := by
      rw [Nat.mul_add o.price] at hstep
      omega
    refine Nat.le_of_mul_le_mul_right ?_ hD
    refine Nat.le_of_mul_le_mul_right ?_ h₂.priceOut
    calc c * (f + g) * o'.price = c * o'.price * (f + g) := by ring
      _ ≤ v₂ * o.unit * (f + g) := Nat.mul_le_mul_right _ hout₂
      _ = v₂ * (f + g) * o.unit := by ring
      _ ≤ u₂ * g * o.unit := Nat.mul_le_mul_right _ hrest
      _ ≤ u₁ * g * o.unit := Nat.mul_le_mul_right _ (Nat.mul_le_mul_right _ (hworth.trans hnet))
      _ = u₁ * o.unit * g := by ring
      _ ≤ a * o.price * g := Nat.mul_le_mul_right _ hin₁
      _ = a * (o.price * g) := by ring
      _ ≤ a * (o'.price * (f + g)) := Nat.mul_le_mul_left _ hcut
      _ = a * (f + g) * o'.price := by ring

/-! ### Many trades -/

section Many

variable {τ : Type*}

/-- A trade between two tokens. -/
structure Trade (τ : Type*) where
  tokenIn : τ
  tokenOut : τ
  amountIn : ℕ
  amountOut : ℕ

variable (D f) (L : τ → Listing)

/-- A trade at the quotes of its tokens. -/
def Trade.At (t : Trade τ) : Prop :=
  Quoted D f (L t.tokenIn) (L t.tokenOut) t.amountIn t.amountOut

/-- The worth of what some tokens are held in. -/
def value (S : Finset τ) (held : τ → ℕ) : ℚ := ∑ t ∈ S, (L t).worth (held t)

/-- **A trade settles**: the market takes the input and gives the output. -/
structure Trade.Settles (t : Trade τ) (held held' : τ → ℕ) : Prop where
  ne : t.tokenIn ≠ t.tokenOut
  takes : held' t.tokenIn = held t.tokenIn + t.amountIn
  gives : held' t.tokenOut + t.amountOut = held t.tokenOut
  other : ∀ x, x ≠ t.tokenIn → x ≠ t.tokenOut → held' x = held x

/-- One trade spends what another one gave. -/
def Trade.Feeds (t u : Trade τ) : Prop := u.tokenIn = t.tokenOut ∧ u.amountIn ≤ t.amountOut

/-- **A cycle of trades**: each spends what the one before it gave, and the last gives the
token that the first one spent. -/
structure Cycle (t : Trade τ) (ts : List (Trade τ)) : Prop where
  feeds : (t :: ts).IsChain Trade.Feeds
  closes : ((t :: ts).getLast (by simp)).tokenOut = t.tokenIn

variable {D f L}

theorem worth_add {l : Listing} (x y : ℕ) : l.worth (x + y) = l.worth x + l.worth y := by
  simp only [Listing.worth, Nat.cast_add]
  ring

theorem worth_mono {l : Listing} {x y : ℕ} (h : x ≤ y) : l.worth x ≤ l.worth y := by
  have hcast : (x : ℚ) ≤ y := by exact_mod_cast h
  have hprice : (0 : ℚ) ≤ l.price := by positivity
  have hunit : (0 : ℚ) ≤ l.unit := by positivity
  exact div_le_div_of_nonneg_right (mul_le_mul_of_nonneg_right hcast hprice) hunit

/-- Where a token is quoted at something, more worth is more of it. -/
theorem le_of_worth_le {l : Listing} (hprice : 0 < l.price) (hunit : 0 < l.unit) {x y : ℕ}
    (h : l.worth x ≤ l.worth y) : x ≤ y := by
  have hp : (0 : ℚ) < l.price := by exact_mod_cast hprice
  have hu : (0 : ℚ) < l.unit := by exact_mod_cast hunit
  have hmul : (x : ℚ) * l.price ≤ y * l.price := (div_le_div_iff_of_pos_right hu).mp h
  exact_mod_cast le_of_mul_le_mul_right hmul hp

/-- **A trade never costs the market worth.** -/
theorem value_le_of_trade [DecidableEq τ] (hD : 0 < D) {t : Trade τ} (ht : t.At D f L)
    {held held' : τ → ℕ} (hs : t.Settles held held') {S : Finset τ} (hin : t.tokenIn ∈ S)
    (hout : t.tokenOut ∈ S) :
    value L S held ≤ value L S held' := by
  have hworth := Quoted.worth_le hD ht
  have hout' : t.tokenOut ∈ S.erase t.tokenIn := Finset.mem_erase.mpr ⟨hs.ne.symm, hout⟩
  have hrest : ∑ x ∈ (S.erase t.tokenIn).erase t.tokenOut, (L x).worth (held' x) =
      ∑ x ∈ (S.erase t.tokenIn).erase t.tokenOut, (L x).worth (held x) := by
    refine Finset.sum_congr rfl ?_
    intro x hx
    obtain ⟨hne, hx⟩ := Finset.mem_erase.mp hx
    rw [hs.other x (Finset.ne_of_mem_erase hx) hne]
  simp only [value, ← Finset.add_sum_erase S _ hin, ← Finset.add_sum_erase _ _ hout', hrest,
    hs.takes, ← hs.gives, worth_add]
  linarith

/-- **Where nothing is worth less, what there is more of is paid for**: if no other token
is held more of, there is no less of this one. -/
theorem le_of_value_le [DecidableEq τ] {held held' : τ → ℕ} {S : Finset τ} {t : τ} (ht : t ∈ S)
    (hprice : 0 < (L t).price) (hunit : 0 < (L t).unit) (h : value L S held ≤ value L S held')
    (hother : ∀ x ∈ S, x ≠ t → held' x ≤ held x) : held t ≤ held' t := by
  have hrest : ∑ x ∈ S.erase t, (L x).worth (held' x) ≤ ∑ x ∈ S.erase t, (L x).worth (held x) := by
    refine Finset.sum_le_sum ?_
    intro x hx
    obtain ⟨hne, hx⟩ := Finset.mem_erase.mp hx
    exact worth_mono (hother x hx hne)
  simp only [value, ← Finset.add_sum_erase S _ ht] at h
  exact le_of_worth_le hprice hunit (by linarith)

/-- What a chain of trades ends with is not worth more than what it began with. -/
theorem worth_getLast_le (hD : 0 < D) {t : Trade τ} {ts : List (Trade τ)}
    (hfeeds : (t :: ts).IsChain Trade.Feeds) (hat : ∀ u ∈ t :: ts, u.At D f L) :
    (L ((t :: ts).getLast (by simp)).tokenOut).worth ((t :: ts).getLast (by simp)).amountOut ≤
      (L t.tokenIn).worth t.amountIn := by
  induction ts generalizing t with
  | nil => exact Quoted.worth_le hD (hat t (by simp))
  | cons u us ih =>
    obtain ⟨⟨htoken, hamount⟩, hrest⟩ := List.isChain_cons_cons.mp hfeeds
    rw [List.getLast_cons (by simp)]
    calc _ ≤ (L u.tokenIn).worth u.amountIn :=
          ih hrest fun v hv => hat v (List.mem_cons_of_mem _ hv)
      _ ≤ (L t.tokenOut).worth t.amountOut := by
          rw [htoken]
          exact worth_mono hamount
      _ ≤ (L t.tokenIn).worth t.amountIn := Quoted.worth_le hD (hat t (by simp))

/-- **No cycle of trades pays.** -/
theorem Cycle.le (hD : 0 < D) {t : Trade τ} {ts : List (Trade τ)} (h : Cycle t ts)
    (hat : ∀ u ∈ t :: ts, u.At D f L) : ((t :: ts).getLast (by simp)).amountOut ≤ t.amountIn := by
  have hlast := hat _ (List.getLast_mem (by simp))
  have hle := worth_getLast_le hD h.feeds hat
  have hprice := hlast.priceOut
  have hunit := hlast.unitOut
  rw [h.closes] at hle hprice hunit
  exact le_of_worth_le hprice hunit hle

end Many

end Market
