import SelendraBridge.Basic
import SelendraBridge.Indexer.Loop
import SelendraBridge.Lib.Transition
import SelendraBridge.Lib.Votes
import Mathlib.Algebra.Order.Group.Multiset
import Mathlib.Data.Nat.ModEq

/-!
# A lying endpoint

The validator knows a chain only through the endpoints it was given, and what one of them says is
signed. So the logs of a window are asked of another one too, and the two have to be the same – as
multisets, for a log returned twice is a lie like any other – or most of all that answered.

| the answer | what is done with the window | who serves next |
|---|---|---|
| nothing is confirmed yet | nothing | the same |
| a peer agrees, or most do | it is signed | the same |
| an error | nothing | the next one |
| a position twice | nothing | the next one |
| most agree on something else | nothing | one of them |
| anything else | nothing | the same |

One endpoint may lie, differently to each call: about its head, about the logs, and about which of
its calls fail. It never gets anything signed that the chain did not say
(`SelendraBridge.Provider.corroboration_sound`), for what is signed was said by two. That the end
of the window is cut to the head of a peer (`SelendraBridge.Provider.corroboratedWindowEnd`) is
what makes the other one of the two speak of blocks that it has confirmed itself; and an endpoint
that tells the truth is only outvoted by liars, of which there are not enough.
-/

namespace SelendraBridge

namespace Provider

open Indexer (clampScanWindow clampScanWindow_eq_some)
open Transition

/-! ### Logs, and what tells them apart -/

/-- A log as an endpoint returns it. -/
structure Log where
  blockNumber : Option ℕ
  logIndex : Option ℕ
  transactionHash : Option Bytes32
  address : Address
  topics : List Bytes32
  data : Bytes
  /-- The log was in a block that is no longer part of the chain. -/
  removed : Bool
  deriving DecidableEq

/-- A log's identity: where it sits in the chain and what it says. -/
structure LogKey where
  blockNumber : ℕ
  logIndex : ℕ
  transactionHash : Option Bytes32
  address : Address
  topics : List Bytes32
  data : Bytes
  deriving DecidableEq

/-- `log_key`. -/
def logKey (l : Log) : LogKey where
  blockNumber := l.blockNumber.getD 0
  logIndex := l.logIndex.getD 0
  transactionHash := l.transactionHash
  address := l.address
  topics := l.topics
  data := l.data

/-- The logs that were not orphaned. -/
def live (logs : List Log) : List Log := logs.filter fun l => !l.removed

/-- **`log_bag`**: the identities among the logs, each as often as it was returned. -/
def logBag (logs : List Log) : Multiset LogKey :=
  (live logs).foldl (fun bag l => logKey l ::ₘ bag) 0

/-- `bag_excess`: what is in the one and not in the other, with its multiplicity. -/
def bagExcess (a b : Multiset LogKey) : ℕ := (a - b).card

/-- Where a log sits. -/
def position (l : Log) : Option ℕ × Option ℕ := (l.blockNumber, l.logIndex)

/-- How many positions were seen before. -/
def repeats : List (Option ℕ × Option ℕ) → List (Option ℕ × Option ℕ) → ℕ
  | [], _ => 0
  | p :: ps, seen => if p ∈ seen then repeats ps seen + 1 else repeats ps (p :: seen)

/-- `duplicate_positions`. -/
def duplicatePositions (logs : List Log) : ℕ := repeats ((live logs).map position) []

theorem logBag_eq (logs : List Log) : logBag logs = ((live logs).map logKey : List LogKey) := by
  suffices h : ∀ (ls : List Log) (bag : Multiset LogKey),
      ls.foldl (fun bag l => logKey l ::ₘ bag) bag = (ls.map logKey : List LogKey) + bag by
    rw [logBag, h, add_zero]
  intro ls
  induction ls with
  | nil => exact fun bag => (zero_add bag).symm
  | cons l ls ih =>
    intro bag
    rw [List.foldl_cons, ih, List.map_cons, ← Multiset.cons_coe, Multiset.cons_add,
      Multiset.add_cons]

/-- Positions that are all different are no duplicates. -/
theorem repeats_eq_zero {ps seen : List (Option ℕ × Option ℕ)} (hnodup : ps.Nodup)
    (hnew : ∀ p ∈ ps, p ∉ seen) : repeats ps seen = 0 := by
  induction ps generalizing seen with
  | nil => rfl
  | cons p ps ih =>
    obtain ⟨hp, hnodup⟩ := List.nodup_cons.mp hnodup
    rw [repeats, if_neg (hnew p List.mem_cons_self)]
    refine ih hnodup ?_
    rintro q hq hmem
    rcases List.mem_cons.mp hmem with rfl | hmem
    · exact hp hq
    · exact hnew q (List.mem_cons_of_mem _ hq) hmem

/-! ### Point reads -/

/-- Why `majority` refused. -/
structure NoMajority where
  reason : String
  /-- Endpoints answered and differed, as opposed to too few answering. -/
  disagreement : Bool

/-- **`majority`**: the answer at least `minAgree` endpoints returned, if they are also more than
half of those that answered. -/
def majority {T : Type} [DecidableEq T] (debug : List (String × T) → String)
    (answers : List (String × T)) (minAgree : ℕ) : Except NoMajority T :=
  if answers.length < minAgree then
    .error ⟨"only " ++ toString answers.length ++ " endpoint(s) answered; need " ++
      toString minAgree, false⟩
  else
    match answers.find? fun candidate =>
      let backers := answers.countP fun e => decide (e.2 = candidate.2)
      decide (minAgree ≤ backers) && decide (answers.length < backers * 2) with
    | some candidate => .ok candidate.2
    | none => .error ⟨"no " ++ toString minAgree ++ " endpoints agree, as a majority, among " ++
        debug answers, true⟩

/-- **`majority_floor`**: the largest value that more than half of the values are at or above. -/
def majorityFloor {T : Type} [LinearOrder T] (values : List T) : Option T :=
  if values.isEmpty then none
  else (values.insertionSort (· ≥ ·))[values.length / 2]?

/-- What `majority` accepts, an honest endpoint said, if the liars are a minority. -/
theorem honest_of_majority {T : Type} [DecidableEq T] {debug : List (String × T) → String}
    {answers : List (String × T)} {minAgree : ℕ} {liars : Finset (Fin answers.length)} {v : T}
    (hminority : 2 * liars.card < answers.length) (h : majority debug answers minAgree = .ok v) :
    ∃ i ∉ liars, (answers.get i).2 = v := by
  rw [majority] at h
  split at h
  · cases h
  split at h
  · rename_i candidate hfind
    obtain rfl := Except.ok.inj h
    have hbackers := List.find?_some hfind
    rw [Bool.and_eq_true, decide_eq_true_iff, decide_eq_true_iff] at hbackers
    exact Votes.exists_honest_of_majority (p := fun e => e.2 = candidate.2) hminority hbackers.2
  · cases h

/-- What `majority_floor` answers lies between two honest values, if the liars are a minority. -/
theorem between_of_majorityFloor {T : Type} [LinearOrder T] {values : List T}
    {liars : Finset (Fin values.length)} (hminority : 2 * liars.card < values.length) :
    ∃ v, majorityFloor values = some v ∧
      (∃ i ∉ liars, values.get i ≤ v) ∧ ∃ i ∉ liars, v ≤ values.get i := by
  have hne : values.isEmpty = false := by
    rw [List.isEmpty_eq_false_iff]
    rintro rfl
    simp at hminority
  have hlt : values.length / 2 < (values.insertionSort (· ≥ ·)).length := by
    rw [List.length_insertionSort]
    omega
  refine ⟨_, ?_, Votes.middle_between hminority (List.getElem?_eq_getElem hlt)⟩
  rw [majorityFloor, hne, List.getElem?_eq_getElem hlt]
  rfl

/-! ### Counting the answers to a window -/

/-- The outcome of counting endpoints' answers for one window. -/
inductive Tally (ι : Type)
  /-- No peer answered. -/
  | noAnswer
  /-- More than half of the endpoints that answered, the serving one included, returned exactly
  the served logs; `backer` is one agreeing peer. -/
  | agreed (backer : ι) (dissenters : ℕ)
  /-- No majority for the served logs. -/
  | disagreed (firstDissenter : ι) (promote : Option ι) (detail : String)

section Tally

variable {ι : Type} {served : List Log} {answers : List (ι × List Log)} {fromBlock scannedTo : ℕ}

/-- The answers as sets, each with the endpoint it is from. -/
def bagsOf (answers : List (ι × List Log)) : List (ι × Multiset LogKey) :=
  answers.map fun e => (e.1, logBag e.2)

theorem length_bagsOf : (bagsOf answers).length = answers.length := List.length_map _

theorem mem_bagsOf {e : ι × Multiset LogKey} :
    e ∈ bagsOf answers ↔ ∃ logs, (e.1, logs) ∈ answers ∧ logBag logs = e.2 := by
  rw [bagsOf, List.mem_map]
  constructor
  · rintro ⟨a, ha, rfl⟩
    exact ⟨a.2, ha, rfl⟩
  · rintro ⟨logs, hmem, hbag⟩
    exact ⟨(e.1, logs), hmem, Prod.ext rfl hbag⟩

variable [DecidableEq ι]

/-- The endpoints that returned a set. -/
def backersOf (sets : List (ι × Multiset LogKey)) (bag : Multiset LogKey) : List ι :=
  (sets.filter fun e => decide (e.2 = bag)).map Prod.fst

/-- Whom to serve instead: one of a majority that agrees on another set, and not the one whose
dissent opened the count. -/
def promoteOf (sets : List (ι × Multiset LogKey)) (mine : Multiset LogKey) (total : ℕ)
    (firstDissenter : ι) : Option ι :=
  sets.findSome? fun candidate =>
    if candidate.2 ≠ mine ∧ total < (backersOf sets candidate.2).length * 2 then
      (backersOf sets candidate.2).find? fun i => decide (i ≠ firstDissenter)
    else none

/-- What is said of a dispute: how the logs differ from those of the first dissenter, and how many
back them. -/
def disputeText (fromBlock scannedTo : ℕ) (mine theirs : Multiset LogKey) (forServed total : ℕ) :
    String :=
  "blocks " ++ toString fromBlock ++ "..=" ++ toString scannedTo ++ ": " ++
    toString (bagExcess mine theirs) ++ " log(s) only the serving endpoint returned, " ++
    toString (bagExcess theirs mine) ++ " only the peer returned; " ++
    toString forServed ++ " of " ++ toString total ++ " endpoints back the served set"

/-- **`tally`**: count the answers to one window. Nothing if an `expect` fails. -/
def tally (served : List Log) (answers : List (ι × List Log)) (fromBlock scannedTo : ℕ) :
    Option (Tally ι) :=
  if answers.isEmpty then some .noAnswer
  else
    let mine := logBag served
    let sets := bagsOf answers
    let total := sets.length + 1
    let forServed := 1 + sets.countP fun e => decide (e.2 = mine)
    if total < forServed * 2 then
      (sets.find? fun e => decide (e.2 = mine)).map fun e => .agreed e.1 (total - forServed)
    else
      (sets.find? fun e => decide (e.2 ≠ mine)).map fun e =>
        .disagreed e.1 (promoteOf sets mine total e.1)
          (disputeText fromBlock scannedTo mine e.2 forServed total)

/-- No `expect` of the count ever fails: with more than one vote for the served logs one is a
peer's, and without a majority for them somebody dissents. -/
theorem exists_tally : ∃ t, tally served answers fromBlock scannedTo = some t := by
  rw [tally]
  split
  · exact ⟨_, rfl⟩
  rename_i hne
  have hpos : 0 < (bagsOf answers).length := by
    rw [length_bagsOf]
    exact List.length_pos_iff.mpr fun hnil => hne (by rw [hnil]; rfl)
  dsimp only
  split
  · rename_i hmaj
    rcases hfind : (bagsOf answers).find? fun e => decide (e.2 = logBag served) with _ | e
    · have hcount := List.countP_eq_zero.mpr (List.find?_eq_none.mp hfind)
      omega
    · exact ⟨_, congrArg (Option.map _) hfind⟩
  · rename_i hmaj
    rcases hfind : (bagsOf answers).find? fun e => decide (e.2 ≠ logBag served) with _ | e
    · have hall : ∀ e ∈ bagsOf answers, decide (e.2 = logBag served) = true := by
        intro e he
        have hsame := List.find?_eq_none.mp hfind e he
        rw [decide_eq_true_iff, not_not] at hsame
        exact decide_eq_true hsame
      rw [List.countP_eq_length.mpr hall] at hmaj
      omega
    · exact ⟨_, congrArg (Option.map _) hfind⟩

/-- **Agreement takes two**: the logs served, and those of the peer that is named. -/
theorem mem_of_tally_agreed {backer : ι} {dissenters : ℕ}
    (h : tally served answers fromBlock scannedTo = some (.agreed backer dissenters)) :
    ∃ logs, (backer, logs) ∈ answers ∧ logBag logs = logBag served := by
  rw [tally] at h
  split at h
  · cases h
  dsimp only at h
  split at h
  · obtain ⟨e, hfind, he⟩ := Option.map_eq_some_iff.mp h
    obtain ⟨rfl, -⟩ := Tally.agreed.inj he
    obtain ⟨logs, hmem, hbag⟩ := mem_bagsOf.mp (List.mem_of_find?_eq_some hfind)
    have hmine := List.find?_some hfind
    exact ⟨logs, hmem, hbag.trans (of_decide_eq_true hmine)⟩
  · obtain ⟨e, -, he⟩ := Option.map_eq_some_iff.mp h
    cases he

/-- **Being outvoted takes two as well**: two different peers that returned something else than was
served. -/
theorem two_of_promote {firstDissenter target : ι} {detail : String}
    (hnodup : (answers.map Prod.fst).Nodup)
    (h : tally served answers fromBlock scannedTo =
      some (.disagreed firstDissenter (some target) detail)) :
    ∃ a ∈ answers, ∃ b ∈ answers, a.1 ≠ b.1 ∧ logBag a.2 ≠ logBag served ∧
      logBag b.2 ≠ logBag served := by
  rw [tally] at h
  split at h
  · cases h
  rename_i hne
  dsimp only at h
  split at h
  · obtain ⟨e, -, he⟩ := Option.map_eq_some_iff.mp h
    cases he
  obtain ⟨e, -, he⟩ := Option.map_eq_some_iff.mp h
  obtain ⟨-, hpromote, -⟩ := Tally.disagreed.inj he
  obtain ⟨candidate, -, hcandidate⟩ := List.exists_of_findSome?_eq_some hpromote
  split at hcandidate
  swap
  · cases hcandidate
  rename_i hmaj
  obtain ⟨hother, hmaj⟩ := hmaj
  -- more than half of two or more is two
  have hpos : 0 < answers.length := List.length_pos_iff.mpr fun hnil => hne (by rw [hnil]; rfl)
  rw [length_bagsOf] at hmaj
  have hbackers : (backersOf (bagsOf answers) candidate.2).Nodup := by
    refine List.Nodup.sublist (List.filter_sublist.map _) ?_
    rwa [bagsOf, List.map_map]
  have hmem : ∀ i ∈ backersOf (bagsOf answers) candidate.2,
      ∃ a ∈ answers, a.1 = i ∧ logBag a.2 ≠ logBag served := by
    intro i hi
    obtain ⟨s, hs, rfl⟩ := List.mem_map.mp hi
    obtain ⟨hs, hbag⟩ := List.mem_filter.mp hs
    obtain ⟨logs, hlogs, hsame⟩ := mem_bagsOf.mp hs
    refine ⟨_, hlogs, rfl, ?_⟩
    rw [hsame, of_decide_eq_true hbag]
    exact hother
  generalize backersOf (bagsOf answers) candidate.2 = backers at hmaj hbackers hmem
  match backers with
  | [] =>
    rw [List.length_nil] at hmaj
    omega
  | [_] =>
    rw [List.length_singleton] at hmaj
    omega
  | i :: j :: _ =>
    obtain ⟨a, ha, rfl, hbagA⟩ := hmem i (by simp)
    obtain ⟨b, hb, rfl, hbagB⟩ := hmem j (by simp)
    refine ⟨a, ha, b, hb, ?_, hbagA, hbagB⟩
    exact fun heq => (List.nodup_cons.mp hbackers).1 (heq ▸ List.mem_cons_self)

end Tally

/-! ### The endpoints, and who is asked first -/

/-- The verdict of the check on one scan window. -/
inductive Corroboration
  | agreed (url : String)
  | disagreed (servedBy checkedBy detail : String)
  | inconclusive (reason : String)
  | unavailable

/-- The endpoints of one chain. What they answer comes with each call. -/
structure Failover (n : ℕ) where
  /-- Their urls, redacted. -/
  endpoints : Fin n → String
  /-- Who is asked first. -/
  active : Fin n
  /-- Every endpoint's head at the last `scan_head`. -/
  lastHeads : List (String × Except String ℕ)

/-- `HEAD_LAG_ROTATE`. -/
def HEAD_LAG_ROTATE : ℕ := 64

/-- The result and the endpoints after it. -/
abbrev After (n : ℕ) (T : Type) := T × Failover n

variable {n : ℕ}

/-- The `k`-th endpoint after another, in stagger order. -/
def next (i : Fin n) (k : ℕ) : Fin n := ⟨(i + k) % n, Nat.mod_lt _ i.pos⟩

/-- All other endpoints, in stagger order. -/
def others (i : Fin n) : List (Fin n) := (List.range' 1 (n - 1)).map (next i)

/-- The endpoints tried one after the other, up to the first that answers; with the last error if
none does. -/
def firstAnswer {T : Type} (i : Fin n) (op : Fin n → Except String T) :
    List ℕ → String → Except String (T × Fin n)
  | [], lastErr => .error lastErr
  | attempt :: attempts, _ =>
    match op (next i attempt) with
    | .ok v => .ok (v, next i attempt)
    | .error e => firstAnswer i op attempts e

namespace Failover

/-- **`with_failover`**: rotating on failure, and staying with the first that succeeds. -/
def withFailover {T : Type} (f : Failover n) (what : String) (op : Fin n → Except String T) :
    After n (Except String T) :=
  match firstAnswer f.active op (List.range n) "" with
  | .ok (v, idx) => (.ok v, { f with active := idx })
  | .error lastErr =>
    (.error ("all " ++ toString n ++ " RPC endpoints failed for " ++ what ++ ": " ++ lastErr), f)

/-- `get_block_number`. -/
def getBlockNumber (f : Failover n) (heads : Fin n → Except String ℕ) :
    After n (Except String ℕ) :=
  f.withFailover "get_block_number" heads

/-- `heads_summary`. -/
def headsSummary (f : Failover n) : String :=
  if f.lastHeads.isEmpty then "no head read yet"
  else ", ".intercalate (f.lastHeads.map fun e =>
    match e.2 with
    | .ok h => e.1 ++ "=" ++ toString h
    | .error err => e.1 ++ "=ERR(" ++ err ++ ")")

/-- The heads that could be read, of the endpoints in a list. -/
def readHeads (heads : Fin n → Except String ℕ) (idxs : List (Fin n)) : List (Fin n × ℕ) :=
  idxs.filterMap fun idx => (heads idx).toOption.map (Prod.mk idx)

/-- **`scan_head`**: the head a majority has reached. An endpoint that trails it too far is not
asked first any longer, if there is one that has reached it. -/
def scanHead (f : Failover n) (answers : Fin n → Except String ℕ) : After n (Except String ℕ) :=
  let heads := readHeads answers (List.finRange n)
  let f := { f with lastHeads := (List.finRange n).map fun idx => (f.endpoints idx, answers idx) }
  match majorityFloor (heads.map Prod.snd) with
  | none =>
    (.error ("all " ++ toString n ++ " RPC endpoints failed to report a head: " ++
      f.headsSummary), f)
  | some head =>
    let activeHead := (heads.find? fun e => e.1 == f.active).map Prod.snd
    -- the sum saturates at the end of the `u64`s, where it is not below any head either way
    if activeHead.all fun h => decide (h + HEAD_LAG_ROTATE < head) then
      match (others f.active).find? fun i => heads.any fun e => e.1 == i && decide (head ≤ e.2) with
      | none => (.ok head, f)
      | some target => (.ok head, { f with active := target })
    else (.ok head, f)

/-- `promote`. -/
def promote (f : Failover n) (target : Fin n) : Failover n := { f with active := target }

end Failover

/-- What the endpoints answer while one `get_logs_corroborated` lasts. A peer may be asked for its
head twice: once when the serving endpoint is looked for, and once as a peer. -/
structure Answers (n : ℕ) (Filter : Type) where
  serving : Fin n → Except String ℕ
  head : Fin n → Except String ℕ
  logs : Fin n → Filter → ℕ → ℕ → Except String (List Log)

variable {Filter : Type}

/-- **`corroborated_window_end`**: the end of the window, cut to the head of the first peer that has
anything of it confirmed. -/
def corroboratedWindowEnd (fromBlock servingTo : ℕ) (peerHeads : List ℕ) (confirmations : ℕ) :
    Option ℕ :=
  peerHeads.findSome? fun head => clampScanWindow fromBlock servingTo head confirmations

namespace Failover

variable (f : Failover n) (answers : Answers n Filter) (filter : Filter)
  (fromBlock toBlock scannedTo confirmations : ℕ)

/-- The loop over the peers: whose window is not confirmed to its end is passed over, and if the
first that answers agrees, nobody else is asked. With the answers, and why others gave none. -/
def askPeers (servedKeys : Multiset LogKey) :
    List (Fin n × ℕ) → List (Fin n × List Log) → List String →
      List (Fin n × List Log) × List String
  | [], got, why => (got, why)
  | (idx, head) :: peers, got, why =>
    if head - confirmations < scannedTo then
      askPeers servedKeys peers got (why ++ [f.endpoints idx ++ ": at block " ++ toString head ++
        ", has not confirmed " ++ toString scannedTo])
    else
      match answers.logs idx filter fromBlock scannedTo with
      | .ok logs =>
        if logBag logs = servedKeys ∧ got = [] then ([(idx, logs)], why)
        else askPeers servedKeys peers (got ++ [(idx, logs)]) why
      | .error e =>
        askPeers servedKeys peers got (why ++ [f.endpoints idx ++ ": get_logs failed: " ++ e])

/-- What is made of the count. -/
def settle (served : List Log) (why : List String) :
    Tally (Fin n) → After n (Except String (Option (List Log × ℕ × Corroboration)))
  | .noAnswer => (.ok (some (served, scannedTo, .inconclusive ("; ".intercalate why))), f)
  | .agreed backer _ => (.ok (some (served, scannedTo, .agreed (f.endpoints backer))), f)
  | .disagreed firstDissenter target detail =>
    (.ok (some (served, scannedTo,
      .disagreed (f.endpoints f.active) (f.endpoints firstDissenter) detail)),
      target.elim f f.promote)

/-- What is said of logs that repeat a position. -/
def duplicatesText (dups : ℕ) : String :=
  "blocks " ++ toString fromBlock ++ "..=" ++ toString scannedTo ++
    ": the serving endpoint returned " ++ toString dups ++
    " log(s) at a (block, logIndex) it had already returned"

/-- The check of a window whose end is known. -/
def corroborate (peers : List (Fin n × ℕ)) (why : List String) :
    Option (After n (Except String (Option (List Log × ℕ × Corroboration)))) :=
  match answers.logs f.active filter fromBlock scannedTo with
  | .error e =>
    some (.error ("get_logs from serving endpoint " ++ f.endpoints f.active ++ " failed: " ++ e),
      { f with active := next f.active 1 })
  | .ok served =>
    let dups := duplicatePositions served
    if 0 < dups then
      let servedBy := f.endpoints f.active
      some (.ok (some (served, scannedTo,
          .disagreed servedBy servedBy (duplicatesText fromBlock scannedTo dups))),
        { f with active := next f.active 1 })
    else
      let asked := f.askPeers answers filter fromBlock scannedTo confirmations (logBag served)
        peers [] why
      (tally served asked.1 fromBlock scannedTo).map (f.settle scannedTo served asked.2)

/-- Why a head could not be read. -/
def unreadable (idx : Fin n) : Option String :=
  match answers.head idx with
  | .ok _ => none
  | .error e => some (f.endpoints idx ++ ": head unreadable: " ++ e)

/-- **`get_logs_corroborated`**: the logs of a window, how far it reached, and the verdict. Nothing
if the count panics. -/
def getLogsCorroborated :
    Option (After n (Except String (Option (List Log × ℕ × Corroboration)))) :=
  match f.getBlockNumber answers.serving with
  | (.error e, f) => some (.error e, f)
  | (.ok servingHead, f) =>
    match clampScanWindow fromBlock toBlock servingHead confirmations with
    | none => some (.ok none, f)
    | some servingTo =>
      if n < 2 then
        match answers.logs f.active filter fromBlock servingTo with
        | .error e => some (.error e, f)
        | .ok logs => some (.ok (some (logs, servingTo, .unavailable)), f)
      else
        let peers := readHeads answers.head (others f.active)
        let why := (others f.active).filterMap (f.unreadable answers)
        match corroboratedWindowEnd fromBlock servingTo (peers.map Prod.snd) confirmations with
        | none =>
          some (.ok (some ([], servingTo, .inconclusive ("; ".intercalate (why ++
            peers.map fun e => f.endpoints e.1 ++ ": at block " ++ toString e.2 ++
              ", has nothing confirmed from " ++ toString fromBlock)))), f)
        | some scannedTo =>
          f.corroborate answers filter fromBlock scannedTo confirmations peers why

end Failover

/-! ### What the loops go through -/

/-- The endpoint that answers is the one that is active from then on. -/
theorem ok_of_firstAnswer {T : Type} {i idx : Fin n} {op : Fin n → Except String T} {v : T}
    {attempts : List ℕ} {lastErr : String}
    (h : firstAnswer i op attempts lastErr = .ok (v, idx)) : op idx = .ok v := by
  induction attempts generalizing lastErr with
  | nil => cases h
  | cons attempt attempts ih =>
    rw [firstAnswer] at h
    split at h
    · rename_i hop
      cases h
      exact hop
    · exact ih h

theorem ok_of_withFailover {T : Type} {f f' : Failover n} {what : String}
    {op : Fin n → Except String T} {v : T} (h : f.withFailover what op = (.ok v, f')) :
    op f'.active = .ok v := by
  rw [Failover.withFailover] at h
  split at h
  · rename_i hfirst
    cases h
    exact ok_of_firstAnswer hfirst
  · cases h

/-- Two different steps lead to two different endpoints. -/
theorem next_inj {i : Fin n} {a b : ℕ} (ha : a < n) (hb : b < n) (h : next i a = next i b) :
    a = b := by
  have hmod : Nat.ModEq n (i.val + a) (i.val + b) := Fin.mk.inj h
  exact (hmod.add_left_cancel' _).eq_of_lt_of_lt ha hb

/-- The others are all different, and none of them is the one itself. -/
theorem nodup_others (i : Fin n) : (others i).Nodup := by
  refine List.Nodup.map_on ?_ List.nodup_range'
  intro a ha b hb heq
  rw [List.mem_range'_1] at ha hb
  exact next_inj (by omega) (by omega) heq

theorem not_mem_others (i : Fin n) : i ∉ others i := by
  intro hmem
  obtain ⟨k, hk, heq⟩ := List.mem_map.mp hmem
  rw [List.mem_range'_1] at hk
  have hself : next i 0 = i := Fin.ext (Nat.mod_eq_of_lt i.isLt)
  have hzero := next_inj (by omega) (by omega) (heq.trans hself.symm)
  omega

section Heads

variable {heads : Fin n → Except String ℕ} {idxs : List (Fin n)}

theorem ok_of_mem_readHeads {e : Fin n × ℕ} (h : e ∈ Failover.readHeads heads idxs) :
    heads e.1 = .ok e.2 := by
  obtain ⟨idx, -, h⟩ := List.mem_filterMap.mp h
  obtain ⟨head, hhead, rfl⟩ := Option.map_eq_some_iff.mp h
  rcases hidx : heads idx with err | head'
  · rw [hidx] at hhead
    cases hhead
  · rw [hidx] at hhead
    exact congrArg _ (Option.some.inj hhead)

theorem readHeads_sublist : ((Failover.readHeads heads idxs).map Prod.fst).Sublist idxs := by
  induction idxs with
  | nil => exact .slnil
  | cons idx idxs ih =>
    rw [Failover.readHeads, List.filterMap_cons]
    rcases heads idx with err | head
    · exact ih.cons idx
    · exact ih.cons_cons idx

end Heads

/-- The window is never cut behind where the serving endpoint would have it end. -/
theorem le_of_corroboratedWindowEnd {fromBlock servingTo confirmations scannedTo : ℕ}
    {peerHeads : List ℕ}
    (h : corroboratedWindowEnd fromBlock servingTo peerHeads confirmations = some scannedTo) :
    scannedTo ≤ servingTo := by
  obtain ⟨head, -, hclamp⟩ := List.exists_of_findSome?_eq_some h
  have := (clampScanWindow_eq_some.mp hclamp).2
  omega

section Asked

variable {f f' : Failover n} {answers : Answers n Filter} {filter : Filter}
  {fromBlock toBlock scannedTo confirmations : ℕ}

/-- **Who answered for a window** was among the peers, and had confirmed it to its end; each of them
is asked once. -/
theorem asked_of_askPeers {servedKeys : Multiset LogKey} {peers : List (Fin n × ℕ)}
    {got : List (Fin n × List Log)} {why : List String} :
    ∃ new, (f.askPeers answers filter fromBlock scannedTo confirmations servedKeys peers got
        why).1 = got ++ new ∧ (new.map Prod.fst).Sublist (peers.map Prod.fst) ∧
      ∀ e ∈ new, answers.logs e.1 filter fromBlock scannedTo = .ok e.2 ∧
        ∃ head, (e.1, head) ∈ peers ∧ scannedTo ≤ head - confirmations := by
  induction peers generalizing got why with
  | nil => exact ⟨[], (List.append_nil got).symm, .slnil, by simp⟩
  | cons peer peers ih =>
    obtain ⟨idx, head⟩ := peer
    have hlater : ∀ {e : Fin n × List Log},
        (∃ h, (e.1, h) ∈ peers ∧ scannedTo ≤ h - confirmations) →
        ∃ h, (e.1, h) ∈ (idx, head) :: peers ∧ scannedTo ≤ h - confirmations :=
      fun ⟨h, hmem, hle⟩ => ⟨h, List.mem_cons_of_mem _ hmem, hle⟩
    rw [Failover.askPeers]
    split
    · obtain ⟨new, hnew, hsub, hall⟩ := @ih got _
      exact ⟨new, hnew, hsub.cons idx, fun e he => ⟨(hall e he).1, hlater (hall e he).2⟩⟩
    rename_i hconfirmed
    split
    · rename_i logs hlogs
      have hthis : ∃ h, (idx, h) ∈ (idx, head) :: peers ∧ scannedTo ≤ h - confirmations :=
        ⟨head, List.mem_cons_self, not_lt.mp hconfirmed⟩
      split
      · rename_i hagrees
        refine ⟨[(idx, logs)], by rw [hagrees.2]; rfl, ?_, ?_⟩
        · exact (List.nil_sublist _).cons_cons idx
        · rintro e he
          obtain rfl := List.mem_singleton.mp he
          exact ⟨hlogs, hthis⟩
      · obtain ⟨new, hnew, hsub, hall⟩ := @ih (got ++ [(idx, logs)]) _
        refine ⟨(idx, logs) :: new, ?_, hsub.cons_cons idx, ?_⟩
        · rw [hnew, List.append_assoc, List.singleton_append]
        · rintro e he
          rcases List.mem_cons.mp he with rfl | he
          · exact ⟨hlogs, hthis⟩
          · exact ⟨(hall e he).1, hlater (hall e he).2⟩
    · obtain ⟨new, hnew, hsub, hall⟩ := @ih got _
      exact ⟨new, hnew, hsub.cons idx, fun e he => ⟨(hall e he).1, hlater (hall e he).2⟩⟩

/-- **What a call that went through did**: nothing was confirmed, or nobody could check it, or the
window was checked to an end that the serving endpoint has confirmed. -/
theorem cases_of_getLogsCorroborated {r : Option (List Log × ℕ × Corroboration)} (hn : 2 ≤ n)
    (h : f.getLogsCorroborated answers filter fromBlock toBlock confirmations =
      some (.ok r, f')) :
    ∃ f₁ head, f.getBlockNumber answers.serving = (.ok head, f₁) ∧
      ((f' = f₁ ∧ ∀ served scannedTo url, r ≠ some (served, scannedTo, .agreed url)) ∨
        ∃ scannedTo why, scannedTo ≤ head - confirmations ∧
          f₁.corroborate answers filter fromBlock scannedTo confirmations
            (Failover.readHeads answers.head (others f₁.active)) why = some (.ok r, f')) := by
  rw [Failover.getLogsCorroborated] at h
  split at h
  · cases h
  rename_i head f₁ hserving
  refine ⟨f₁, head, hserving, ?_⟩
  split at h
  · cases h
    exact .inl ⟨rfl, by simp⟩
  rename_i servingTo hclamp
  rw [if_neg (by omega)] at h
  dsimp only at h
  split at h
  · cases h
    exact .inl ⟨rfl, by simp⟩
  · rename_i scannedTo hend
    have hle := le_of_corroboratedWindowEnd hend
    have hclamped := (clampScanWindow_eq_some.mp hclamp).2
    exact .inr ⟨scannedTo, _, by omega, h⟩

/-- **What a check that went through did**: a position was repeated, or the answers were counted. -/
theorem cases_of_corroborate {peers : List (Fin n × ℕ)} {why : List String}
    {r : Option (List Log × ℕ × Corroboration)}
    (h : f.corroborate answers filter fromBlock scannedTo confirmations peers why =
      some (.ok r, f')) :
    ∃ served, answers.logs f.active filter fromBlock scannedTo = .ok served ∧
      ((0 < duplicatePositions served ∧
        ∀ logs scannedTo url, r ≠ some (logs, scannedTo, .agreed url)) ∨
      ∃ new why' t, (new.map Prod.fst).Sublist (peers.map Prod.fst) ∧
        (∀ e ∈ new, answers.logs e.1 filter fromBlock scannedTo = .ok e.2 ∧
          ∃ head, (e.1, head) ∈ peers ∧ scannedTo ≤ head - confirmations) ∧
        tally served new fromBlock scannedTo = some t ∧
        f.settle scannedTo served why' t = (.ok r, f')) := by
  rw [Failover.corroborate] at h
  split at h
  · cases h
  rename_i served hserved
  refine ⟨served, hserved, ?_⟩
  dsimp only at h
  split at h
  · rename_i hdups
    cases h
    exact .inl ⟨hdups, by simp⟩
  · obtain ⟨t, ht, hsettle⟩ := Option.map_eq_some_iff.mp h
    obtain ⟨new, hnew, hsub, hall⟩ := @asked_of_askPeers n Filter f answers filter fromBlock
      scannedTo confirmations (logBag served) peers [] why
    rw [List.nil_append] at hnew
    rw [hnew] at ht
    exact .inr ⟨new, _, t, hsub, hall, ht, hsettle⟩

end Asked

/-! ### Honest endpoints -/

/-- The logs of a chain, as a filter has them: each in its block, and no two at one place. -/
structure Chain (Filter : Type) where
  logs : Filter → ℕ → List LogKey
  blockNumber_eq : ∀ filter b, ∀ k ∈ logs filter b, k.blockNumber = b
  nodup : ∀ filter b, ((logs filter b).map LogKey.logIndex).Nodup

/-- The true logs of the blocks from `lo` to `hi`. -/
def Chain.window (chain : Chain Filter) (filter : Filter) (lo hi : ℕ) : List LogKey :=
  (List.range' lo (hi + 1 - lo)).flatMap (chain.logs filter)

/-- An endpoint has confirmed a block: a head it reported in this call is far enough beyond it. -/
def Confirmed (answers : Answers n Filter) (confirmations : ℕ) (i : Fin n) (b : ℕ) : Prop :=
  ∃ head, (answers.serving i = .ok head ∨ answers.head i = .ok head) ∧ b ≤ head - confirmations

/-- **An endpoint is honest in a call** if what it returns of blocks it has confirmed is what the
chain says. It may lag, and it may fail. -/
def Honest (chain : Chain Filter) (answers : Answers n Filter) (confirmations : ℕ) (i : Fin n) :
    Prop :=
  ∀ filter lo hi logs, Confirmed answers confirmations i hi →
    answers.logs i filter lo hi = .ok logs → logBag logs = (chain.window filter lo hi : List LogKey)

/-- No two logs of a chain are at one place. -/
theorem Chain.nodup_window (chain : Chain Filter) (filter : Filter) (lo hi : ℕ) :
    ((chain.window filter lo hi).map fun k => (k.blockNumber, k.logIndex)).Nodup := by
  rw [Chain.window, List.map_flatMap, List.nodup_flatMap]
  constructor
  · intro b _
    refine List.Nodup.of_map Prod.snd ?_
    rw [List.map_map]
    exact chain.nodup filter b
  · have hblocks : (List.range' lo (hi + 1 - lo)).Nodup := List.nodup_range'
    refine List.Pairwise.imp ?_ hblocks
    rintro a b hne
    refine List.disjoint_left.mpr ?_
    rintro p hpa hpb
    obtain ⟨k, hk, rfl⟩ := List.mem_map.mp hpa
    obtain ⟨k', hk', heq⟩ := List.mem_map.mp hpb
    have hblock : k'.blockNumber = k.blockNumber := congrArg Prod.fst heq
    rw [chain.blockNumber_eq filter a k hk, chain.blockNumber_eq filter b k' hk'] at hblock
    exact hne hblock.symm

/-- **The true logs repeat no position**, however they are returned. -/
theorem duplicatePositions_eq_zero {chain : Chain Filter} {filter : Filter} {lo hi : ℕ}
    {logs : List Log} (h : logBag logs = (chain.window filter lo hi : List LogKey)) :
    duplicatePositions logs = 0 := by
  refine repeats_eq_zero ?_ (by simp)
  rw [logBag_eq, Multiset.coe_eq_coe] at h
  have hnodup := (h.map fun k => (k.blockNumber, k.logIndex)).nodup_iff.mpr
    (chain.nodup_window filter lo hi)
  refine List.Nodup.of_map (fun p : Option ℕ × Option ℕ => (p.1.getD 0, p.2.getD 0)) ?_
  rw [List.map_map] at hnodup ⊢
  exact hnodup

/-- What an honest endpoint returns of a window. -/
def Chain.serve (chain : Chain Filter) (filter : Filter) (lo hi : ℕ) : List Log :=
  (chain.window filter lo hi).map fun k =>
    ⟨some k.blockNumber, some k.logIndex, k.transactionHash, k.address, k.topics, k.data, false⟩

theorem Chain.logBag_serve (chain : Chain Filter) (filter : Filter) (lo hi : ℕ) :
    logBag (chain.serve filter lo hi) = (chain.window filter lo hi : List LogKey) := by
  have hlive : live (chain.serve filter lo hi) = chain.serve filter lo hi := by
    refine List.filter_eq_self.mpr ?_
    intro l hl
    obtain ⟨k, -, rfl⟩ := List.mem_map.mp hl
    rfl
  have hkeys : (chain.serve filter lo hi).map logKey = chain.window filter lo hi := by
    rw [Chain.serve, List.map_map]
    exact List.map_id _
  rw [logBag_eq, hlive, hkeys]

section Call

variable {f f' : Failover n} {answers : Answers n Filter} {filter : Filter} {chain : Chain Filter}
  {fromBlock toBlock confirmations : ℕ} {liar : Fin n → Prop}

/-- Whoever answered for a window is not the one who served it, and has confirmed it. -/
theorem confirmed_of_asked {new : List (Fin n × List Log)} {e : Fin n × List Log} {scannedTo : ℕ}
    (hsub : (new.map Prod.fst).Sublist
      ((Failover.readHeads answers.head (others f.active)).map Prod.fst)) (he : e ∈ new)
    (hpeer : ∃ head, (e.1, head) ∈ Failover.readHeads answers.head (others f.active) ∧
      scannedTo ≤ head - confirmations) :
    e.1 ≠ f.active ∧ Confirmed answers confirmations e.1 scannedTo := by
  constructor
  · rintro heq
    have hmem := readHeads_sublist.subset (hsub.subset (List.mem_map_of_mem he))
    exact not_mem_others f.active (heq ▸ hmem)
  · obtain ⟨head, hmem, hle⟩ := hpeer
    exact ⟨head, .inr (ok_of_mem_readHeads hmem), hle⟩

variable (hn : 2 ≤ n) (hliar : ∀ i j, liar i → liar j → i = j)
  (hhonest : ∀ i, ¬liar i → Honest chain answers confirmations i)

include hn hliar hhonest

/-- **What is agreed on is true**, and no further than an honest endpoint has confirmed. -/
theorem sound_of_agreed {logs : List Log} {scannedTo : ℕ} {url : String}
    (h : f.getLogsCorroborated answers filter fromBlock toBlock confirmations =
      some (.ok (some (logs, scannedTo, .agreed url)), f')) :
    logBag logs = (chain.window filter fromBlock scannedTo : List LogKey) ∧
      ∃ i, ¬liar i ∧ Confirmed answers confirmations i scannedTo := by
  obtain ⟨f₁, head, hserving, hcases⟩ := cases_of_getLogsCorroborated hn h
  rcases hcases with ⟨-, hnot⟩ | ⟨to', why, hle, hcheck⟩
  · exact absurd rfl (hnot logs scannedTo url)
  obtain ⟨served, hserved, ⟨-, hnot⟩ | ⟨new, why', t, hsub, hall, ht, hsettle⟩⟩ :=
    cases_of_corroborate hcheck
  · exact absurd rfl (hnot logs scannedTo url)
  cases t with
  | noAnswer => cases hsettle
  | disagreed firstDissenter target detail => cases hsettle
  | agreed backer dissenters =>
    cases hsettle
    obtain ⟨theirs, hmem, hsame⟩ := mem_of_tally_agreed ht
    obtain ⟨htheirs, hpeer⟩ := hall _ hmem
    obtain ⟨hne, hconfirmed⟩ := confirmed_of_asked hsub hmem hpeer
    -- of the two that returned these logs, one is honest
    by_cases hs : liar f'.active
    · have hb : ¬liar backer := fun hb => hne (hliar _ _ hb hs)
      exact ⟨hsame.symm.trans (hhonest backer hb _ _ _ _ hconfirmed htheirs), backer, hb,
        hconfirmed⟩
    · have hconf : Confirmed answers confirmations f'.active scannedTo :=
        ⟨head, .inl (ok_of_withFailover hserving), hle⟩
      exact ⟨hhonest _ hs _ _ _ _ hconf hserved, _, hs, hconf⟩

/-- **An honest endpoint is not outvoted**: it goes on serving after every call that went
through. -/
theorem active_eq_of_honest {r : Option (List Log × ℕ × Corroboration)}
    (h : f.getLogsCorroborated answers filter fromBlock toBlock confirmations = some (.ok r, f'))
    (hs : ¬liar (f.getBlockNumber answers.serving).2.active) :
    f'.active = (f.getBlockNumber answers.serving).2.active := by
  obtain ⟨f₁, head, hserving, hcases⟩ := cases_of_getLogsCorroborated hn h
  rw [hserving] at hs ⊢
  rcases hcases with ⟨rfl, -⟩ | ⟨scannedTo, why, hle, hcheck⟩
  · rfl
  have hconf : Confirmed answers confirmations f₁.active scannedTo :=
    ⟨head, .inl (ok_of_withFailover hserving), hle⟩
  obtain ⟨served, hserved, ⟨hdups, -⟩ | ⟨new, why', t, hsub, hall, ht, hsettle⟩⟩ :=
    cases_of_corroborate hcheck
  · have htrue := hhonest _ hs _ _ _ _ hconf hserved
    rw [duplicatePositions_eq_zero htrue] at hdups
    omega
  cases t with
  | noAnswer =>
    cases hsettle
    rfl
  | agreed backer dissenters =>
    cases hsettle
    rfl
  | disagreed firstDissenter target detail =>
    rcases target with _ | target
    · cases hsettle
      rfl
    -- two peers returned something else, and only one of them is a liar
    have htrue := hhonest _ hs _ _ _ _ hconf hserved
    have hlies : ∀ e ∈ new, logBag e.2 ≠ logBag served → liar e.1 := by
      intro e he hother
      by_contra hpeer
      obtain ⟨hlogs, hhead⟩ := hall e he
      have hconfirmed := (confirmed_of_asked hsub he hhead).2
      exact hother ((hhonest _ hpeer _ _ _ _ hconfirmed hlogs).trans htrue.symm)
    have hnodup := ((nodup_others f₁.active).sublist readHeads_sublist).sublist hsub
    obtain ⟨a, ha, b, hb, hab, hbagA, hbagB⟩ := two_of_promote hnodup ht
    exact absurd (hliar _ _ (hlies a ha hbagA) (hlies b hb hbagB)) hab

end Call

/-! ### Runs -/

/-- A call of the endpoints, with what they answer while it lasts. -/
inductive Call (n : ℕ) (Filter : Type)
  | scanHead (heads : Fin n → Except String ℕ)
  | getBlockNumber (heads : Fin n → Except String ℕ)
  | getLogsCorroborated (answers : Answers n Filter) (filter : Filter)
      (fromBlock toBlock confirmations : ℕ)

/-- What a call returns. -/
inductive Answered
  | head (r : Except String ℕ)
  | logs (r : Except String (Option (List Log × ℕ × Corroboration)))

/-- A call, and the endpoints after it. -/
def exec (f : Failover n) : Call n Filter → Option (Failover n × Answered)
  | .scanHead heads => some ((f.scanHead heads).2, .head (f.scanHead heads).1)
  | .getBlockNumber heads => some ((f.getBlockNumber heads).2, .head (f.getBlockNumber heads).1)
  | .getLogsCorroborated answers filter fromBlock toBlock confirmations =>
    (f.getLogsCorroborated answers filter fromBlock toBlock confirmations).map fun r =>
      (r.2, .logs r.1)

/-- The endpoints outside a set are honest in a call. -/
def Call.Honest (chain : Chain Filter) (liar : Fin n → Prop) : Call n Filter → Prop
  | .scanHead _ => True
  | .getBlockNumber _ => True
  | .getLogsCorroborated answers _ _ _ confirmations =>
    ∀ i, ¬liar i → Provider.Honest chain answers confirmations i

/-- **No call panics.** -/
theorem exists_exec (f : Failover n) (call : Call n Filter) : ∃ r, exec f call = some r := by
  cases call with
  | scanHead heads => exact ⟨_, rfl⟩
  | getBlockNumber heads => exact ⟨_, rfl⟩
  | getLogsCorroborated answers filter fromBlock toBlock confirmations =>
    suffices h : ∃ r,
        f.getLogsCorroborated answers filter fromBlock toBlock confirmations = some r by
      obtain ⟨r, hr⟩ := h
      exact ⟨(r.2, .logs r.1), by rw [exec, hr]; rfl⟩
    rw [Failover.getLogsCorroborated]
    split
    · exact ⟨_, rfl⟩
    split
    · exact ⟨_, rfl⟩
    split
    · split <;> exact ⟨_, rfl⟩
    dsimp only
    split
    · exact ⟨_, rfl⟩
    rw [Failover.corroborate]
    split
    · exact ⟨_, rfl⟩
    dsimp only
    split
    · exact ⟨_, rfl⟩
    · rw [← Option.isSome_iff_exists, Option.isSome_map, Option.isSome_iff_exists]
      exact exists_tally

/-- What was agreed on, if it was, and with whom. -/
def Answered.agreedOn : Answered → Option (List Log × ℕ × String)
  | .logs (.ok (some (served, scannedTo, .agreed url))) => some (served, scannedTo, url)
  | _ => none

theorem exists_of_agreedOn {f : Failover n} {call : Call n Filter} {x : List Log × ℕ × String}
    (h : (exec f call).bind (fun r => r.2.agreedOn) = some x) :
    ∃ f', exec f call = some (f', .logs (.ok (some (x.1, x.2.1, .agreed x.2.2)))) := by
  obtain ⟨⟨f', out⟩, hexec, hout⟩ := Option.bind_eq_some_iff.mp h
  refine ⟨f', hexec.trans ?_⟩
  dsimp only at hout
  unfold Answered.agreedOn at hout
  split at hout
  · cases hout
    rfl
  · cases hout

/-- **A lying endpoint gets nothing signed.** Of two or more endpoints one may lie, about anything
and differently to each call. In every sequence of calls, from every endpoint that serves first:
what is agreed on is, log for log, what the chain says of the window, and the window ends where an
honest endpoint has confirmed it; and an honest endpoint that serves goes on serving after every
call that goes through. Of a value read from each endpoint, where the liars are fewer than half of
those that answered: what `majority` accepts was said by an honest endpoint, and what
`majority_floor` answers lies between what two honest ones said. -/
theorem corroboration_sound (hn : 2 ≤ n) (chain : Chain Filter) {liar : Fin n → Prop}
    (hliar : ∀ i j, liar i → liar j → i = j) {f₀ f : Failover n}
    {tr : List (Entry (Failover n) (Call n Filter) Answered)} (hrun : Run exec f₀ tr f)
    (hhonest : ∀ e ∈ tr, e.label.Honest chain liar) :
    (∀ e ∈ tr, ∀ answers filter fromBlock toBlock confirmations,
      e.label = .getLogsCorroborated answers filter fromBlock toBlock confirmations →
      (∀ logs scannedTo url, e.out = .logs (.ok (some (logs, scannedTo, .agreed url))) →
        (((live logs).map logKey : List LogKey) : Multiset LogKey) =
            (chain.window filter fromBlock scannedTo : List LogKey) ∧
          ∃ i, ¬liar i ∧ Confirmed answers confirmations i scannedTo) ∧
      (∀ r, e.out = .logs (.ok r) → ¬liar (e.pre.getBlockNumber answers.serving).2.active →
        e.post.active = (e.pre.getBlockNumber answers.serving).2.active)) ∧
    (∀ (T : Type) [DecidableEq T] (debug : List (String × T) → String)
      (answers : List (String × T)) (minAgree : ℕ) (liars : Finset (Fin answers.length)) (v : T),
      2 * liars.card < answers.length → majority debug answers minAgree = .ok v →
      ∃ i ∉ liars, (answers.get i).2 = v) ∧
    (∀ (T : Type) [LinearOrder T] (values : List T) (liars : Finset (Fin values.length)),
      2 * liars.card < values.length →
      ∃ v, majorityFloor values = some v ∧
        (∃ i ∉ liars, values.get i ≤ v) ∧ ∃ i ∉ liars, v ≤ values.get i) := by
  refine ⟨?_, fun T _ debug answers minAgree liars v => honest_of_majority,
    fun T _ values liars => between_of_majorityFloor⟩
  rintro e he answers filter fromBlock toBlock confirmations hlabel
  have hexec := hrun.exec_of_mem he
  have hcall := hhonest e he
  rw [hlabel] at hexec hcall
  obtain ⟨⟨out, post⟩, hr, hout⟩ := Option.map_eq_some_iff.mp hexec
  obtain ⟨rfl, hout⟩ := Prod.mk.inj hout
  constructor
  · rintro logs scannedTo url hagreed
    cases Answered.logs.inj (hout.trans hagreed)
    rw [← logBag_eq]
    exact sound_of_agreed hn hliar hcall hr
  · rintro r hok hs
    cases Answered.logs.inj (hout.trans hok)
    exact active_eq_of_honest hn hliar hcall hr hs

/-- A chain with one log, in its seventh block. -/
def oneLog : Chain Unit where
  logs _ b := if b = 7 then [⟨7, 0, none, 0xAA, [0xF4], [1, 2]⟩] else []
  blockNumber_eq := by
    intro _ b k hk
    split at hk
    · rename_i hb
      rw [List.mem_singleton.mp hk, hb]
    · cases hk
  nodup := by
    intro _ b
    split
    · exact List.nodup_singleton _
    · exact List.nodup_nil

/-- Three endpoints; the second one withholds the log. -/
def withheld : Answers 3 Unit where
  serving _ := .ok 20
  head _ := .ok 20
  logs i filter lo hi := if i = 1 then .ok [] else .ok (oneLog.serve filter lo hi)

/-- The first endpoint serves, the second one dissents, and the third one settles it. -/
theorem corroboration_sound_withheld :
    (((live (oneLog.serve () 1 12)).map logKey : List LogKey) : Multiset LogKey) =
        (oneLog.window () 1 12 : List LogKey) ∧
      ∃ i : Fin 3, ¬i = 1 ∧ Confirmed withheld 5 i 12 := by
  have hagreed : (exec ⟨["a", "b", "c"].get, 0, []⟩ (.getLogsCorroborated withheld () 1 12 5)).bind
      (fun r => r.2.agreedOn) = some (oneLog.serve () 1 12, 12, "c") := by decide +kernel
  obtain ⟨f', hexec⟩ := exists_of_agreedOn hagreed
  have hhonest : ∀ i : Fin 3, ¬i = 1 → Honest oneLog withheld 5 i := by
    rintro i hi filter lo hi' logs - hlogs
    rw [withheld] at hlogs
    dsimp only at hlogs
    rw [if_neg hi] at hlogs
    rw [← Except.ok.inj hlogs]
    exact oneLog.logBag_serve filter lo hi'
  have hsound := (@corroboration_sound 3 Unit (by decide) oneLog (fun i => i = 1)
    (fun i j hi hj => hi.trans hj.symm) _ _ _ (Run.nil.snoc hexec) (by
      intro e he
      rw [List.mem_singleton.mp he]
      exact hhonest)).1
  exact (hsound _ List.mem_cons_self withheld () 1 12 5 rfl).1 _ _ _ rfl

end Provider

end SelendraBridge
