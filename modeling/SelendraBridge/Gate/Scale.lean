import SelendraBridge.Gate.State
import Mathlib.Data.Nat.Basic
import Mathlib.Tactic.Ring

/-!
# From local amounts to wire amounts and back

A registered token has a unit, the power of ten between its own decimals and the wire's.
Locking divides by the unit and refuses a remainder; releasing multiplies and refuses an
overflow. Both are exact, and a release of what was locked at one and the same
registration gives the locked amount back (`SelendraBridge.Gate.toBridgeAmount_eq_ok`,
`SelendraBridge.Gate.toLocalAmount_eq_ok`).
-/

namespace SelendraBridge

namespace Gate

open Revert

/-- How many decimals the wire drops. -/
def scaleOf (d : BridgeDecimals) : ℕ := d.localDecimals.toNat - d.bridgeDecimals.toNat

/-- `10 ** (localDecimals - bridgeDecimals)`, both subtraction and power checked. -/
def unitOf (d : BridgeDecimals) : Except Error U256 := do
  revertIf (d.localDecimals < d.bridgeDecimals) .panic
  checked .panic (10 ^ scaleOf d)

/-- `bridgeUnit`. -/
def bridgeUnit (g : Gate) (token : Address) : Except Error U256 := do
  let d := g.bridgeDecimalsOf token
  revertIf (d.set = false) (.bridgeDecimalsUnset token)
  unitOf d

/-- `toBridgeAmount`. -/
def toBridgeAmount (g : Gate) (token : Address) (localAmount : U256) : Except Error U256 := do
  let unit ← bridgeUnit g token
  revertIf (localAmount.toNat % unit.toNat ≠ 0) (.inexactAmount localAmount unit)
  checked .panic (localAmount.toNat / unit.toNat)

/-- `toLocalAmount`. -/
def toLocalAmount (g : Gate) (token : Address) (bridgeAmount : U256) : Except Error U256 := do
  let unit ← bridgeUnit g token
  checked .panic (bridgeAmount.toNat * unit.toNat)

/-- `_refundLocalAmount`: a token that was never registered has scale one. -/
def refundLocalAmount (g : Gate) (token : Address) (amount : U256) : Except Error U256 := do
  let d := g.bridgeDecimalsOf token
  if d.set = false then return amount
  else
    let unit ← unitOf d
    checked .panic (amount.toNat * unit.toNat)

theorem unitOf_eq_ok {d : BridgeDecimals} {unit : U256} :
    unitOf d = .ok unit ↔ d.bridgeDecimals.toNat ≤ d.localDecimals.toNat ∧
      unit.toNat = 10 ^ scaleOf d := by
  rw [unitOf, revertIf_bind_eq_ok, checked_eq_ok, UInt8.lt_iff_toNat_lt, not_lt]

theorem bridgeUnit_eq_ok {g : Gate} {token : Address} {unit : U256} :
    bridgeUnit g token = .ok unit ↔ (g.bridgeDecimalsOf token).set = true ∧
      unitOf (g.bridgeDecimalsOf token) = .ok unit := by
  rw [bridgeUnit, revertIf_bind_eq_ok, Bool.not_eq_false]

/-- **Locking is an exact division** by the token's unit. -/
theorem toBridgeAmount_eq_ok {g : Gate} {token : Address} {localAmount wire : U256} :
    toBridgeAmount g token localAmount = .ok wire ↔
      (g.bridgeDecimalsOf token).set = true ∧
      (g.bridgeDecimalsOf token).bridgeDecimals.toNat ≤
        (g.bridgeDecimalsOf token).localDecimals.toNat ∧
      10 ^ scaleOf (g.bridgeDecimalsOf token) < 2 ^ 256 ∧
      wire.toNat * 10 ^ scaleOf (g.bridgeDecimalsOf token) = localAmount.toNat := by
  simp only [toBridgeAmount, bind_eq_ok, bridgeUnit_eq_ok, unitOf_eq_ok, checked_eq_ok,
    revertIf_eq_ok, not_not]
  have hpos : 0 < 10 ^ scaleOf (g.bridgeDecimalsOf token) := by positivity
  constructor
  · rintro ⟨unit, ⟨hset, hle, hunit⟩, _, hmod, hwire⟩
    rw [hunit] at hmod hwire
    refine ⟨hset, hle, hunit ▸ unit.isLt, ?_⟩
    rw [hwire, Nat.div_mul_cancel (Nat.dvd_of_mod_eq_zero hmod)]
  · rintro ⟨hset, hle, hlt, hwire⟩
    have hunit : (BitVec.ofNat 256 (10 ^ scaleOf (g.bridgeDecimalsOf token))).toNat =
        10 ^ scaleOf (g.bridgeDecimalsOf token) := by
      rw [BitVec.toNat_ofNat, Nat.mod_eq_of_lt hlt]
    refine ⟨_, ⟨hset, hle, hunit⟩, (), ?_, ?_⟩
    · rw [hunit, ← hwire, Nat.mul_mod_left]
    · rw [hunit, ← hwire, Nat.mul_div_cancel _ hpos]

/-- **Releasing is an exact multiplication** by the token's unit. -/
theorem toLocalAmount_eq_ok {g : Gate} {token : Address} {wire localAmount : U256} :
    toLocalAmount g token wire = .ok localAmount ↔
      (g.bridgeDecimalsOf token).set = true ∧
      (g.bridgeDecimalsOf token).bridgeDecimals.toNat ≤
        (g.bridgeDecimalsOf token).localDecimals.toNat ∧
      10 ^ scaleOf (g.bridgeDecimalsOf token) < 2 ^ 256 ∧
      localAmount.toNat = wire.toNat * 10 ^ scaleOf (g.bridgeDecimalsOf token) := by
  simp only [toLocalAmount, bind_eq_ok, bridgeUnit_eq_ok, unitOf_eq_ok, checked_eq_ok]
  constructor
  · rintro ⟨unit, ⟨hset, hle, hunit⟩, hlocal⟩
    exact ⟨hset, hle, hunit ▸ unit.isLt, hunit ▸ hlocal⟩
  · rintro ⟨hset, hle, hlt, hlocal⟩
    have hunit : (BitVec.ofNat 256 (10 ^ scaleOf (g.bridgeDecimalsOf token))).toNat =
        10 ^ scaleOf (g.bridgeDecimalsOf token) := by
      rw [BitVec.toNat_ofNat, Nat.mod_eq_of_lt hlt]
    exact ⟨_, ⟨hset, hle, hunit⟩, by rw [hunit, hlocal]⟩

/-- A registered token is refunded by the same multiplication. -/
theorem refundLocalAmount_of_set {g : Gate} {token : Address} {amount : U256}
    (h : (g.bridgeDecimalsOf token).set = true) :
    refundLocalAmount g token amount = toLocalAmount g token amount := by
  simp only [refundLocalAmount, toLocalAmount, bridgeUnit, h, Bool.true_eq_false, if_false,
    revertIf_bind]

end Gate

end SelendraBridge
