import Mathlib.Algebra.Module.Basic
import Mathlib.Data.ZMod.Basic
import Mathlib.Tactic.Abel

/-!
# Who signed

A signature of a number is a pair `(r, s)` and a parity. The `r` is the abscissa of a point, which
whoever signs picks at random, and the parity says which of the two points with it was picked. The
key behind a signature can then be computed (`Ecdsa.Curve.recover`), and it is the one that signed
(`Ecdsa.Curve.recover_of_signed`).

Two points with one abscissa are opposite. So there is always a second signature with the same key
behind it: to `s` there is `n - s`, with the other parity (`Ecdsa.Curve.recover_sub`).
-/

namespace Ecdsa

/-- **A curve to sign on**: points that are added and have an order, one of them that everybody
counts in, and the points with an abscissa. -/
structure Curve (n : ℕ) (G : Type*) [AddCommGroup G] [Module (ZMod n) G] where
  base : G
  /-- The point with an abscissa and a parity, if there is one. -/
  lift : ℕ → Bool → Option G
  /-- The point with the other parity is the opposite one. -/
  lift_not : ∀ r odd, lift r (!odd) = (lift r odd).map Neg.neg

namespace Curve

variable {n : ℕ} {G : Type*} [AddCommGroup G] [Module (ZMod n) G] (E : Curve n G)

/-- **The key behind a signature** of the number `z`. -/
def recover (z : ZMod n) (r s : ℕ) (odd : Bool) : Option G :=
  (E.lift r odd).map fun R => (r : ZMod n)⁻¹ • ((s : ZMod n) • R - z • E.base)

variable {E} {z : ZMod n} {r s : ℕ} {odd : Bool}

/-- **The second signature has the same key behind it.** -/
theorem recover_sub (hs : s ≤ n) : E.recover z r (n - s) (!odd) = E.recover z r s odd := by
  rw [recover, recover, E.lift_not, Option.map_map]
  congr 1
  funext R
  rw [Function.comp_apply, Nat.cast_sub hs, ZMod.natCast_self, zero_sub, neg_smul_neg]

/-- **What was signed with a key has that key behind it.** -/
theorem recover_of_signed {d k : ZMod n} (hr : r.Coprime n)
    (hlift : E.lift r odd = some (k • E.base)) (hsigned : (s : ZMod n) * k = z + r * d) :
    E.recover z r s odd = some (d • E.base) := by
  have hunit : (r : ZMod n)⁻¹ * r = 1 := by
    rw [mul_comm]
    exact ZMod.coe_mul_inv_eq_one r hr
  rw [recover, hlift, Option.map_some, smul_smul, hsigned, ← sub_smul, add_sub_cancel_left,
    smul_smul, ← mul_assoc, hunit, one_mul]

end Curve

end Ecdsa
