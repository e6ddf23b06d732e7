import Mathlib.Algebra.Order.Field.Rat
import Mathlib.Data.List.Dedup
import Mathlib.Data.List.Perm.Subperm
import SelendraBridge.Lib.TokenBucket
import SelendraBridge.Text

/-!
# The rate limiter

Every route that writes takes a token from the bucket of the caller's key. The buckets are in one
map behind a lock, and the clock is read before the lock is taken: callers come to the map in one
order and may bring their stamps in another.

| | |
|---|---|
| `SelendraBridge.RateLimit.checkAt` | one call, as the lock orders them |
| `SelendraBridge.RateLimit.verdicts` | a sequence of calls |
| `SelendraBridge.RateLimit.verdictsOf_eq` | the verdicts of a key are those of its own bucket |

The bucket keeps the stamp of the last call, whatever it is. As long as the stamps of a key do not
turn back its calls are bounded (`SelendraBridge.RateLimit.admitted_le`); a stamp that turns back
makes the time after it count twice.
-/

namespace SelendraBridge

namespace RateLimit

/-- `SWEEP_AT`. -/
def SWEEP_AT : ℕ := 4096

/-- `Bucket`; an instant is a number of nanoseconds. -/
structure Bucket where
  tokens : ℚ
  last : ℕ
  deriving DecidableEq

/-- `Inner`, less the buckets. -/
structure Inner where
  burst : ℚ
  perSecond : ℚ

/-- The map of the buckets. -/
abbrev Buckets := List (Text × Bucket)

/-- `RateLimit::new`. -/
def new (burst : ℕ) (perSecond : ℚ) : Inner where
  burst := (max burst 1 : ℕ)
  perSecond := if 0 < perSecond then perSecond else 1

/-- `saturating_duration_since`, and `as_secs_f64`. -/
def secondsSince (now last : ℕ) : ℚ := ((now - last : ℕ) : ℚ) / 1000000000

/-- The entry of a key replaced, or a new one. -/
def insert (buckets : Buckets) (key : Text) (b : Bucket) : Buckets :=
  if buckets.any fun e => e.1 == key then
    buckets.map fun e => if e.1 = key then (e.1, b) else e
  else buckets ++ [(key, b)]

/-- The sweep: buckets that are full again go, and if that is not enough the older half. -/
def sweep (inner : Inner) (buckets : Buckets) (now : ℕ) : Buckets :=
  let kept := buckets.filter fun e =>
    e.2.tokens + secondsSince now e.2.last * inner.perSecond < inner.burst
  if SWEEP_AT ≤ kept.length then
    let times := kept.map fun e => e.2.last
    let cutoff := (times.mergeSort).getD (times.length / 2) 0
    kept.filter fun e => cutoff < e.2.last
  else kept

/-- **`check_at`**: the verdict, and the buckets after it. -/
def checkAt (inner : Inner) (buckets : Buckets) (key : Text) (now : ℕ) : Bool × Buckets :=
  let buckets := if SWEEP_AT ≤ buckets.length then sweep inner buckets now else buckets
  let bucket := (buckets.lookup key).getD ⟨inner.burst, now⟩
  let tokens := min (bucket.tokens + secondsSince now bucket.last * inner.perSecond) inner.burst
  if 1 ≤ tokens then (true, insert buckets key ⟨tokens - 1, now⟩)
  else (false, insert buckets key ⟨tokens, now⟩)

/-- A call: whose it is, and when the clock was read. -/
structure Call where
  key : Text
  now : ℕ
  deriving DecidableEq

/-- The buckets after some calls. -/
def after (inner : Inner) (buckets : Buckets) (calls : List Call) : Buckets :=
  calls.foldl (fun buckets c => (checkAt inner buckets c.key c.now).2) buckets

/-- The verdicts of some calls, each with its key. -/
def verdicts (inner : Inner) : Buckets → List Call → List (Text × Bool)
  | _, [] => []
  | buckets, c :: calls =>
    (c.key, (checkAt inner buckets c.key c.now).1) ::
      verdicts inner (checkAt inner buckets c.key c.now).2 calls

/-- The verdicts of one key. -/
def verdictsOf (key : Text) (vs : List (Text × Bool)) : List Bool :=
  (vs.filter fun v => v.1 = key).map Prod.snd

/-- The calls of one key. -/
def callsOf (key : Text) (calls : List Call) : List Call := calls.filter fun c => c.key = key

/-- The keys that were presented. -/
def keys (calls : List Call) : List Text := (calls.map (·.key)).dedup

/-! ### The map -/

theorem lookup_insert_self (buckets : Buckets) (key : Text) (b : Bucket) :
    (insert buckets key b).lookup key = some b := by
  rw [insert]
  split
  · next h =>
    rw [List.any_eq_true] at h
    induction buckets with
    | nil =>
      obtain ⟨e, he, -⟩ := h
      exact absurd he List.not_mem_nil
    | cons e buckets ih =>
      rw [List.map_cons]
      by_cases hkey : e.1 = key
      · rw [if_pos hkey, hkey, List.lookup_cons_self]
      · rw [if_neg hkey, List.lookup_cons, beq_false_of_ne (Ne.symm hkey)]
        refine ih ?_
        obtain ⟨e', he', heq⟩ := h
        rcases List.mem_cons.mp he' with rfl | he'
        · exact absurd (beq_iff_eq.mp heq) hkey
        · exact ⟨e', he', heq⟩
  · next h =>
    rw [Bool.not_eq_true, List.any_eq_false] at h
    have hnone : buckets.lookup key = none := by
      rw [List.lookup_eq_none_iff]
      intro e he
      have hne := h e he
      rw [beq_iff_eq] at hne
      exact bne_iff_ne.mpr (Ne.symm hne)
    rw [List.lookup_append, hnone, Option.none_or, List.lookup_cons_self]

theorem lookup_insert_of_ne {buckets : Buckets} {key key' : Text} (b : Bucket) (hne : key' ≠ key) :
    (insert buckets key b).lookup key' = buckets.lookup key' := by
  rw [insert]
  split
  · clear * - hne
    induction buckets with
    | nil => rfl
    | cons e buckets ih =>
      rw [List.map_cons]
      by_cases hkey : e.1 = key
      · have hne' : (key' == e.1) = false := by
          rw [hkey]
          exact beq_false_of_ne hne
        rw [if_pos hkey, List.lookup_cons, List.lookup_cons, hne', ih]
      · rw [if_neg hkey, List.lookup_cons, List.lookup_cons, ih]
  · rw [List.lookup_append, List.lookup_cons, beq_false_of_ne hne, List.lookup_nil, Option.or_none]

theorem mem_insert {buckets : Buckets} {key : Text} {b : Bucket} :
    (insert buckets key b).map Prod.fst = buckets.map Prod.fst ∧ key ∈ buckets.map Prod.fst ∨
      (insert buckets key b).map Prod.fst = buckets.map Prod.fst ++ [key] ∧
        key ∉ buckets.map Prod.fst := by
  rw [insert]
  split
  · next h =>
    rw [List.any_eq_true] at h
    obtain ⟨e, he, heq⟩ := h
    refine .inl ⟨?_, List.mem_map.mpr ⟨e, he, beq_iff_eq.mp heq⟩⟩
    rw [List.map_map]
    refine List.map_congr_left fun e _ => ?_
    rw [Function.comp_apply]
    split <;> rfl
  · next h =>
    refine .inr ⟨by rw [List.map_append, List.map_singleton], ?_⟩
    rintro hmem
    obtain ⟨e, he, heq⟩ := List.mem_map.mp hmem
    exact h (List.any_eq_true.mpr ⟨e, he, beq_iff_eq.mpr heq⟩)

/-- **Nothing but the presented keys is in the map**, and each once. -/
structure Presented (ks : List Text) (buckets : Buckets) : Prop where
  nodup : (buckets.map Prod.fst).Nodup
  subset : buckets.map Prod.fst ⊆ ks

theorem Presented.length_lt {ks : List Text} {buckets : Buckets} (h : Presented ks buckets)
    (hks : ks.length < SWEEP_AT) : ¬SWEEP_AT ≤ buckets.length := by
  have hle := (List.subperm_of_subset h.nodup h.subset).length_le
  rw [List.length_map] at hle
  omega

theorem Presented.insert {ks : List Text} {buckets : Buckets} (h : Presented ks buckets)
    {key : Text} (b : Bucket) (hkey : key ∈ ks) : Presented ks (insert buckets key b) := by
  rcases @mem_insert buckets key b with ⟨heq, -⟩ | ⟨heq, hnew⟩
  · exact ⟨by rw [heq]; exact h.nodup, by rw [heq]; exact h.subset⟩
  · constructor
    · rw [heq, List.nodup_append]
      refine ⟨h.nodup, List.nodup_singleton _, ?_⟩
      rintro a ha c hc rfl
      rw [List.mem_singleton] at hc
      exact hnew (hc ▸ ha)
    · rw [heq]
      intro a ha
      rcases List.mem_append.mp ha with ha | ha
      · exact h.subset ha
      · rw [List.mem_singleton.mp ha]
        exact hkey

/-! ### The bucket of a key -/

/-- An instant in seconds. -/
def seconds (t : ℕ) : ℚ := (t : ℚ) / 1000000000

/-- A bucket, as the library has it. -/
def Bucket.inSeconds (b : Bucket) : TokenBucket.Bucket ℚ := ⟨b.tokens, seconds b.last⟩

/-- The bucket of a key: a full one, when there is none. -/
def bucketOf (inner : Inner) (buckets : Buckets) (key : Text) : Bucket :=
  (buckets.lookup key).getD ⟨inner.burst, 0⟩

theorem secondsSince_eq (now last : ℕ) :
    secondsSince now last = TokenBucket.ahead (seconds last) (seconds now) := by
  rw [secondsSince, TokenBucket.ahead, seconds, seconds, ← sub_div]
  rcases Nat.le_total last now with h | h
  · have hle : (last : ℚ) ≤ now := Nat.cast_le.mpr h
    rw [Nat.cast_sub h, max_eq_left (div_nonneg (sub_nonneg.mpr hle) (by norm_num))]
  · have hle : (now : ℚ) ≤ last := Nat.cast_le.mpr h
    rw [Nat.sub_eq_zero_of_le h, Nat.cast_zero, zero_div,
      max_eq_right (div_nonpos_of_nonpos_of_nonneg (sub_nonpos.mpr hle) (by norm_num))]

/-- A full bucket is full at every stamp. -/
theorem refilled_full {inner : Inner} (hrate : 0 ≤ inner.perSecond) (last now : ℕ) :
    (Bucket.inSeconds ⟨inner.burst, last⟩).refilled inner.burst inner.perSecond (seconds now) =
      inner.burst :=
  min_eq_right (le_add_of_nonneg_right (mul_nonneg (TokenBucket.ahead_nonneg _ _) hrate))

/-- **A call is a request to the bucket of its key**, as long as nothing is swept. -/
theorem checkAt_eq {inner : Inner} (hrate : 0 ≤ inner.perSecond) {buckets : Buckets}
    (hsmall : ¬SWEEP_AT ≤ buckets.length) (key : Text) (now : ℕ) :
    ∃ b, checkAt inner buckets key now =
        (((bucketOf inner buckets key).inSeconds.offer inner.burst inner.perSecond
          (seconds now)).1, insert buckets key b) ∧
      b.inSeconds = ((bucketOf inner buckets key).inSeconds.offer inner.burst inner.perSecond
        (seconds now)).2 := by
  have htokens : min (((buckets.lookup key).getD ⟨inner.burst, now⟩).tokens +
      secondsSince now ((buckets.lookup key).getD ⟨inner.burst, now⟩).last * inner.perSecond)
      inner.burst =
        (bucketOf inner buckets key).inSeconds.refilled inner.burst inner.perSecond
          (seconds now) := by
    rw [secondsSince_eq, bucketOf]
    cases buckets.lookup key with
    | none => exact (refilled_full hrate now now).trans (refilled_full hrate 0 now).symm
    | some b => rfl
  simp only [checkAt, if_neg hsmall, htokens, TokenBucket.Bucket.offer]
  split
  · exact ⟨_, rfl, rfl⟩
  · exact ⟨_, rfl, rfl⟩

theorem bucketOf_insert_self (inner : Inner) (buckets : Buckets) (key : Text) (b : Bucket) :
    bucketOf inner (insert buckets key b) key = b := by
  rw [bucketOf, lookup_insert_self, Option.getD_some]

theorem bucketOf_insert_of_ne (inner : Inner) {buckets : Buckets} {key key' : Text} (b : Bucket)
    (hne : key' ≠ key) : bucketOf inner (insert buckets key b) key' = bucketOf inner buckets key' := by
  rw [bucketOf, bucketOf, lookup_insert_of_ne b hne]

/-- **What one call leaves**: only presented keys, and no debts. -/
structure Sound (inner : Inner) (ks : List Text) (buckets : Buckets) : Prop where
  presented : Presented ks buckets
  nonneg : ∀ key, 0 ≤ (bucketOf inner buckets key).tokens

section Runs

variable {inner : Inner} {ks : List Text} {buckets : Buckets}

theorem sound_nil (hburst : 0 ≤ inner.burst) : Sound inner ks [] :=
  ⟨⟨List.nodup_nil, List.nil_subset _⟩, fun _ => hburst⟩

/-- One call. -/
theorem Sound.checkAt (h : Sound inner ks buckets) (hburst : 0 ≤ inner.burst)
    (hrate : 0 ≤ inner.perSecond) (hks : ks.length < SWEEP_AT) {key : Text} (hkey : key ∈ ks)
    (now : ℕ) : Sound inner ks (checkAt inner buckets key now).2 := by
  obtain ⟨b, hcheck, hb⟩ := checkAt_eq hrate (h.presented.length_lt hks) key now
  rw [hcheck]
  refine ⟨h.presented.insert b hkey, ?_⟩
  intro key'
  by_cases hne : key' = key
  · rw [hne, bucketOf_insert_self]
    have hspec := TokenBucket.offer_spec hburst hrate (bucketOf inner buckets key).inSeconds
      (seconds now) (h.nonneg key)
    rw [← hb] at hspec
    exact hspec.2.1
  · rw [bucketOf_insert_of_ne inner b hne]
    exact h.nonneg key'

/-- Some calls. -/
theorem Sound.after (h : Sound inner ks buckets) (hburst : 0 ≤ inner.burst)
    (hrate : 0 ≤ inner.perSecond) (hks : ks.length < SWEEP_AT) {calls : List Call}
    (hcalls : ∀ c ∈ calls, c.key ∈ ks) : Sound inner ks (after inner buckets calls) := by
  induction calls generalizing buckets with
  | nil => exact h
  | cons c calls ih =>
    exact ih (h.checkAt hburst hrate hks (hcalls c List.mem_cons_self) c.now)
      fun c' hc' => hcalls c' (List.mem_cons_of_mem _ hc')

/-- **The verdicts of a key are those of its own bucket**, whatever other keys do in between. -/
theorem verdictsOf_eq (h : Sound inner ks buckets) (hburst : 0 ≤ inner.burst)
    (hrate : 0 ≤ inner.perSecond) (hks : ks.length < SWEEP_AT) {calls : List Call}
    (hcalls : ∀ c ∈ calls, c.key ∈ ks) (key : Text) :
    verdictsOf key (verdicts inner buckets calls) =
      (bucketOf inner buckets key).inSeconds.serve inner.burst inner.perSecond
        ((callsOf key calls).map fun c => seconds c.now) := by
  induction calls generalizing buckets with
  | nil => rfl
  | cons c calls ih =>
    have hkey := hcalls c List.mem_cons_self
    obtain ⟨b, hcheck, hb⟩ := checkAt_eq hrate (h.presented.length_lt hks) c.key c.now
    have hrest := ih (h.checkAt hburst hrate hks hkey c.now)
      fun c' hc' => hcalls c' (List.mem_cons_of_mem _ hc')
    rw [hcheck] at hrest
    rw [verdicts, hcheck, verdictsOf, callsOf]
    by_cases heq : c.key = key
    · rw [List.filter_cons_of_pos (by simpa using heq), List.filter_cons_of_pos (by simpa using heq),
        List.map_cons, List.map_cons, TokenBucket.Bucket.serve]
      rw [heq] at hrest hb ⊢
      rw [bucketOf_insert_self, hb] at hrest
      exact congrArg _ hrest
    · rw [List.filter_cons_of_neg (by simpa using heq), List.filter_cons_of_neg (by simpa using heq)]
      rw [bucketOf_insert_of_ne inner b (Ne.symm heq)] at hrest
      exact hrest

theorem new_eq {burst : ℕ} {rate : ℚ} (hburst : 1 ≤ burst) (hrate : 0 < rate) :
    new burst rate = ⟨burst, rate⟩ := by
  rw [new, if_pos hrate, Nat.max_eq_left hburst]

theorem mem_keys {calls : List Call} {c : Call} (h : c ∈ calls) : c.key ∈ keys calls :=
  List.mem_dedup.mpr (List.mem_map.mpr ⟨c, h, rfl⟩)

theorem seconds_le {a b : ℕ} (h : a ≤ b) : seconds a ≤ seconds b :=
  div_le_div_of_nonneg_right (Nat.cast_le.mpr h) (by norm_num)

/-- **A key is bounded in every window in which its stamps do not turn back**, and other keys never
change its verdicts: for calls after any others, in the order of the lock. -/
theorem admitted_le {burst : ℕ} {rate : ℚ} (hburst : 1 ≤ burst) (hrate : 0 < rate)
    {earlier calls : List Call} (hkeys : (keys (earlier ++ calls)).length < SWEEP_AT) (key : Text)
    {s t : ℕ} (hwindow : ∀ c ∈ calls, s ≤ c.now ∧ c.now ≤ t)
    (hordered : ((callsOf key calls).map (·.now)).Pairwise (· ≤ ·)) :
    ((verdictsOf key (verdicts (new burst rate) (after (new burst rate) [] earlier) calls)).count
        true : ℚ) ≤ burst + rate * secondsSince t s ∧
      verdictsOf key (verdicts (new burst rate) [] (earlier ++ calls)) =
        verdictsOf key (verdicts (new burst rate) [] (callsOf key (earlier ++ calls))) := by
  rw [new_eq hburst hrate]
  have hb : (0 : ℚ) ≤ burst := Nat.cast_nonneg burst
  have hmem : ∀ c ∈ earlier ++ calls, c.key ∈ keys (earlier ++ calls) := fun _ hc => mem_keys hc
  have hstart := @sound_nil ⟨burst, rate⟩ (keys (earlier ++ calls)) hb
  have hsound := hstart.after hb hrate.le hkeys fun c hc => hmem c (List.mem_append_left _ hc)
  constructor
  · rw [verdictsOf_eq hsound hb hrate.le hkeys (fun c hc => hmem c (List.mem_append_right _ hc)) key]
    rcases Nat.lt_or_ge t s with hlt | hst
    · -- nothing is called in an empty window
      have hnone : calls = [] := by
        rw [List.eq_nil_iff_forall_not_mem]
        intro c hc
        have hc' := hwindow c hc
        omega
      rw [hnone]
      exact add_nonneg hb (mul_nonneg hrate.le (div_nonneg (Nat.cast_nonneg _) (by norm_num)))
    · have hwidth : secondsSince t s = seconds t - seconds s := by
        rw [secondsSince_eq, TokenBucket.ahead, max_eq_left (sub_nonneg.mpr (seconds_le hst))]
      rw [hwidth]
      refine TokenBucket.admitted_le_of_ordered hb hrate.le (seconds_le hst) _ _
        (hsound.nonneg key) ?_ ?_
      · rw [List.pairwise_map] at hordered ⊢
        exact hordered.imp seconds_le
      · intro x hx
        obtain ⟨c, hc, rfl⟩ := List.mem_map.mp hx
        obtain ⟨hs, ht⟩ := hwindow c (List.mem_filter.mp hc).1
        exact ⟨seconds_le hs, seconds_le ht⟩
  · have htwice : callsOf key (callsOf key (earlier ++ calls)) = callsOf key (earlier ++ calls) := by
      rw [callsOf, callsOf, List.filter_filter]
      simp only [Bool.and_self]
    have hmem' : ∀ c ∈ callsOf key (earlier ++ calls), c.key ∈ keys (earlier ++ calls) := by
      intro c hc
      exact hmem c (List.mem_filter.mp hc).1
    rw [verdictsOf_eq hstart hb hrate.le hkeys hmem key,
      verdictsOf_eq hstart hb hrate.le hkeys hmem' key, htwice]

end Runs

/-- A key. -/
def token : Text := ['t', 'o', 'k']

/-- Four calls at once, and two a second later, with another key in between. -/
def orderedCalls : List Call :=
  [⟨token, 0⟩, ⟨token, 0⟩, ⟨token, 0⟩, ⟨token, 0⟩, ⟨['o'], 0⟩, ⟨token, 1000000000⟩,
    ⟨token, 1000000000⟩]

theorem admitted_orderedCalls :
    ((verdictsOf token (verdicts (new 3 1) (after (new 3 1) [] []) orderedCalls)).count true : ℚ) ≤
        (3 : ℕ) + 1 * secondsSince 1000000000 0 ∧
      verdictsOf token (verdicts (new 3 1) [] ([] ++ orderedCalls)) =
        verdictsOf token (verdicts (new 3 1) [] (callsOf token ([] ++ orderedCalls))) :=
  admitted_le (by decide) (by decide) (by decide) token (by decide) (by decide)

/-- Five calls in a window of a second whose stamps turn back twice. -/
def turningCalls : List Call :=
  [⟨token, 1000000000⟩, ⟨token, 0⟩, ⟨token, 1000000000⟩, ⟨token, 0⟩, ⟨token, 1000000000⟩]

/-- Three of them are admitted, one more than the burst and the rate allow. -/
theorem not_admitted_turningCalls :
    (keys turningCalls).length < SWEEP_AT ∧
      (∀ c ∈ turningCalls, 0 ≤ c.now ∧ c.now ≤ 1000000000) ∧
      (verdictsOf token (verdicts (new 1 1) [] turningCalls)).count true = 3 ∧
      ¬((3 : ℕ) : ℚ) ≤ (1 : ℕ) + 1 * secondsSince 1000000000 0 := by
  refine ⟨by decide, by decide, by decide +kernel, ?_⟩
  rw [secondsSince]
  norm_num

end RateLimit

end SelendraBridge
