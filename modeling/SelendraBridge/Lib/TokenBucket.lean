import Mathlib.Algebra.Order.Field.Basic
import Mathlib.Data.List.Basic
import Mathlib.Tactic.Linarith
import Mathlib.Tactic.Ring

/-!
# Token buckets

A bucket holds tokens up to a depth, and fills at a rate. A request takes a token if there is one.
Time does not pass by itself here: a request carries a stamp, and a bucket fills by what its stamp
is ahead of the one before – and not at all if it is behind, though the bucket then remembers the
earlier one.

So what is admitted is paid for by the *way* that the stamps have gone forward
(`TokenBucket.admitted_le_way`), which is more than the width of a window when they turn back in it,
and no more when they do not (`TokenBucket.travelled_le`).
-/

namespace TokenBucket

variable {K : Type} [Field K]

/-- Tokens, and the stamp they were counted at. -/
structure Bucket (K : Type) where
  tokens : K
  last : K

/-- What a request costs. -/
def cost (admitted : Bool) : K := if admitted then 1 else 0

theorem cost_add_count (v : Bool) (vs : List Bool) :
    ((v :: vs).count true : K) = cost v + (vs.count true : K) := by
  cases v with
  | true =>
    rw [List.count_cons_self, cost, if_pos rfl, Nat.cast_add, Nat.cast_one, add_comm]
  | false =>
    rw [List.count_cons_of_ne (by decide), cost, if_neg (by decide), zero_add]

variable [LinearOrder K]

/-- How far a stamp is ahead. -/
def ahead (last now : K) : K := max (now - last) 0

/-- The tokens at a stamp. -/
def Bucket.refilled (depth rate : K) (b : Bucket K) (now : K) : K :=
  min (b.tokens + ahead b.last now * rate) depth

/-- A request: whether it is admitted, and the bucket after it. -/
def Bucket.offer (depth rate : K) (b : Bucket K) (now : K) : Bool × Bucket K :=
  if 1 ≤ b.refilled depth rate now then (true, ⟨b.refilled depth rate now - 1, now⟩)
  else (false, ⟨b.refilled depth rate now, now⟩)

/-- Some requests. -/
def Bucket.serve (depth rate : K) : Bucket K → List K → List Bool
  | _, [] => []
  | b, now :: nows => (b.offer depth rate now).1 :: serve depth rate (b.offer depth rate now).2 nows

/-- The way forward from a stamp through others. -/
def travelled : K → List K → K
  | _, [] => 0
  | last, now :: nows => ahead last now + travelled now nows

theorem ahead_nonneg (last now : K) : 0 ≤ ahead last now := le_max_right _ _

variable [IsStrictOrderedRing K]

/-- **A request pays with what there is.** -/
theorem offer_spec {depth rate : K} (hdepth : 0 ≤ depth) (hrate : 0 ≤ rate) (b : Bucket K) (now : K)
    (hb : 0 ≤ b.tokens) :
    cost (b.offer depth rate now).1 + (b.offer depth rate now).2.tokens =
        b.refilled depth rate now ∧
      0 ≤ (b.offer depth rate now).2.tokens ∧ (b.offer depth rate now).2.last = now := by
  have hfull : 0 ≤ b.refilled depth rate now :=
    le_min (add_nonneg hb (mul_nonneg (ahead_nonneg _ _) hrate)) hdepth
  rw [Bucket.offer]
  split
  · next h =>
    refine ⟨?_, sub_nonneg.mpr h, rfl⟩
    rw [cost, if_pos rfl]
    ring
  · refine ⟨?_, hfull, rfl⟩
    rw [cost, if_neg Bool.false_ne_true, zero_add]

/-- **What is admitted is paid for**: by the tokens there were, and the way forward. -/
theorem admitted_le_way {depth rate : K} (hdepth : 0 ≤ depth) (hrate : 0 ≤ rate) (b : Bucket K)
    (nows : List K) (hb : 0 ≤ b.tokens) :
    ((b.serve depth rate nows).count true : K) ≤ b.tokens + rate * travelled b.last nows := by
  induction nows generalizing b with
  | nil =>
    rw [Bucket.serve, travelled, List.count_nil, Nat.cast_zero, mul_zero, add_zero]
    exact hb
  | cons now nows ih =>
    obtain ⟨hpaid, hnonneg, hlast⟩ := offer_spec hdepth hrate b now hb
    have hrest := ih (b.offer depth rate now).2 hnonneg
    have hfill : b.refilled depth rate now ≤ b.tokens + ahead b.last now * rate := min_le_left _ _
    rw [hlast] at hrest
    rw [Bucket.serve, cost_add_count, travelled]
    linarith [mul_comm (ahead b.last now) rate, mul_add rate (ahead b.last now) (travelled now nows)]

/-- **From the first request on the depth pays**, however much there was. -/
theorem admitted_cons_le {depth rate : K} (hdepth : 0 ≤ depth) (hrate : 0 ≤ rate) (b : Bucket K)
    (now : K) (nows : List K) (hb : 0 ≤ b.tokens) :
    ((b.serve depth rate (now :: nows)).count true : K) ≤ depth + rate * travelled now nows := by
  obtain ⟨hpaid, hnonneg, hlast⟩ := offer_spec hdepth hrate b now hb
  have hrest := admitted_le_way hdepth hrate (b.offer depth rate now).2 nows hnonneg
  have hfull : b.refilled depth rate now ≤ depth := min_le_right _ _
  rw [hlast] at hrest
  rw [Bucket.serve, cost_add_count]
  linarith

/-- **Stamps that do not turn back stay in their window.** -/
theorem travelled_le {now t : K} {nows : List K} (hordered : (now :: nows).Pairwise (· ≤ ·))
    (ht : ∀ x ∈ now :: nows, x ≤ t) : travelled now nows ≤ t - now := by
  induction nows generalizing now with
  | nil =>
    rw [travelled]
    exact sub_nonneg.mpr (ht now List.mem_cons_self)
  | cons next nows ih =>
    rw [List.pairwise_cons] at hordered
    have hnext := hordered.1 next List.mem_cons_self
    have hrest := ih hordered.2 fun x hx => ht x (List.mem_cons_of_mem _ hx)
    rw [travelled, ahead, max_eq_left (sub_nonneg.mpr hnext)]
    linarith

/-- **A bucket bounds what it admits in a window**, if the stamps do not turn back. -/
theorem admitted_le_of_ordered {depth rate s t : K} (hdepth : 0 ≤ depth) (hrate : 0 ≤ rate)
    (hst : s ≤ t) (b : Bucket K) (nows : List K) (hb : 0 ≤ b.tokens)
    (hordered : nows.Pairwise (· ≤ ·)) (hwindow : ∀ x ∈ nows, s ≤ x ∧ x ≤ t) :
    ((b.serve depth rate nows).count true : K) ≤ depth + rate * (t - s) := by
  have hwidth : 0 ≤ rate * (t - s) := mul_nonneg hrate (sub_nonneg.mpr hst)
  cases nows with
  | nil =>
    rw [Bucket.serve, List.count_nil, Nat.cast_zero]
    linarith
  | cons now nows =>
    have hpaid := admitted_cons_le hdepth hrate b now nows hb
    have hway := travelled_le hordered fun x hx => (hwindow x hx).2
    have hfirst := (hwindow now List.mem_cons_self).1
    have hmul := mul_le_mul_of_nonneg_left (hway.trans (sub_le_sub_left hfirst t)) hrate
    linarith

end TokenBucket
