import SelendraBridge.Db.Poisoning
import SelendraBridge.Indexer.Loop

/-!
# What stalls the loop of a chain

A window is read again and again until nothing in it fails. That is right for what passes by itself
– an endpoint that lags, a database that does not answer – and makes what does not pass stop the
chain for good. There are two kinds of that:

| what | where it fails | again and again |
|:-----|:---------------|:----------------|
| a log of the gate that is refused | the gate's scan | `SelendraBridge.Indexer.not_keepsGoing` |
| a swap that crosses with a transfer that was passed over | the router's scan | `SelendraBridge.Indexer.not_keepsGoing_of_crosses` |

A transfer out of bounds is passed over so that the cursor may advance. If it came from the router,
the swap it was sent for still refers to it, and its row never comes. Nor does it on a chain whose
gate is not read at all.

Under weather that clears up again and again (`SelendraBridge.Indexer.Fair`) the loop gets to every
block exactly when the chain has neither (`SelendraBridge.Indexer.never_stalls_iff`).
-/

namespace SelendraBridge

namespace Indexer

open Store Db

/-! ### Going on -/

section Going

variable (cfg : Config) (chain : ℕ → BlockLogs)

/-- **Weather in which the loop can work on block `n`**: every endpoint is that far, the nodes
vouch, and the database answers. -/
structure Clear (n : ℕ) (w : Weather) : Prop where
  head : ∃ h, w.head = some h ∧ n + cfg.blockConfirmation ≤ h
  scanHead : ∀ c, ∃ h, (w.scans c).head = some h ∧ n + cfg.blockConfirmation ≤ h
  batch : ∀ c, (w.scans c).batch = some true
  replies : ∀ c i, ∃ now, (w.scans c).replies i = .answers now
  cursor : w.cursor = true

/-- **Fair weather**: for every block, it clears up again and again. -/
def Fair (ws : ℕ → Weather) : Prop := ∀ n i, ∃ j, i ≤ j ∧ Clear cfg n (ws j)

/-- **The loop keeps going**: started anywhere from a block on, whatever is in the database and in
whatever fair weather, it gets past every block, with all the logs on the way handled. -/
def KeepsGoing (start : ℕ) : Prop :=
  ∀ s₀ ws, start ≤ s₀.fromBlock → Fair cfg ws → ∀ n, ∃ i,
    n < (after cfg chain s₀ ws i).fromBlock ∧
      ∀ b, s₀.fromBlock ≤ b → b ≤ n → ∀ c ∈ cfg.contracts, ∀ log ∈ (chain b).of c,
        ∃ j < i, log ∈ handledAt cfg chain s₀ ws j

/-- **A chain that can be indexed** from a block on: the logs of the gate can be handled, and a swap
that crosses does so with a transfer in bounds, in its own block, of a gate that is read. -/
structure Indexable (start : ℕ) : Prop where
  gate : cfg.gate = true → ∀ b, start ≤ b → ∀ log ∈ (chain b).gate, Digestible cfg log
  router : cfg.router = true → ∀ b, start ≤ b → ∀ log ∈ (chain b).router, ∀ id,
    log.crosses = some id → cfg.gate = true ∧
      ∃ ev, .sent ev ∈ (chain b).gate ∧ InBounds ev ∧ ev.submissionId = id

end Going

variable {cfg : Config} {chain : ℕ → BlockLogs} {s s₀ : State} {w : Weather} {m : Mirror}
  {c : Contract} {cs : List Contract}

/-! ### Clear weather -/

/-- In clear weather a scan reaches the end of its window, if no log of it fails. -/
theorem scan_of_clear {n fromBlock toBlock : ℕ} (hclear : Clear cfg n w) (hle : fromBlock ≤ toBlock)
    (hn : toBlock ≤ n) (hlogs : ∀ log ∈ logsIn chain c fromBlock (toBlock + 1), ∀ now m',
      m.Keeps m' → (handle cfg log (.answers now) m').1 = .ok ()) :
    (scan cfg chain c (w.scans c) fromBlock toBlock m).2.1 = some (some toBlock) ∧
      m.Keeps (scan cfg chain c (w.scans c) fromBlock toBlock m).2.2 ∧
      ∀ ev, .gate (.sent ev) ∈ logsIn chain c fromBlock (toBlock + 1) → InBounds ev →
        ((scan cfg chain c (w.scans c) fromBlock toBlock m).2.2.submissions
          (key ev.submissionId)).isSome = true := by
  obtain ⟨head, hhead, hfar⟩ := hclear.scanHead c
  have hclamp : clampScanWindow fromBlock toBlock head cfg.blockConfirmation = some toBlock :=
    clampScanWindow_eq_some.mpr ⟨by omega, by omega⟩
  obtain ⟨m', hok, hrows⟩ := handleLogs_ok hlogs (hclear.replies c)
  have hkeeps := @keeps_handleLogs cfg m _ (logsIn chain c fromBlock (toBlock + 1))
    (hclear.replies c)
  rw [hok] at hkeeps
  have hscan : scan cfg chain c (w.scans c) fromBlock toBlock m =
      (logsIn chain c fromBlock (toBlock + 1), some (some toBlock), m') := by
    simp only [scan, hhead, hclamp, hclear.batch, hok]
  rw [hscan]
  exact ⟨rfl, hkeeps, hrows⟩

/-- The submissions that the swaps of a window cross with are there. -/
def Ready (chain : ℕ → BlockLogs) (fromBlock toBlock : ℕ) (m : Mirror) : Prop :=
  ∀ b, fromBlock ≤ b → b ≤ toBlock → ∀ log ∈ (chain b).router, ∀ id, log.crosses = some id →
    (m.submissions (key id)).isSome = true

/-- **In clear weather the router and the pool are read to the end**, where the submissions are
there. -/
theorem limits_of_ready {n fromBlock toBlock : ℕ} (hclear : Clear cfg n w)
    (hle : fromBlock ≤ toBlock) (hn : toBlock ≤ n)
    (hcs : .router ∈ cs → Ready chain fromBlock toBlock m) (hgate : .gate ∉ cs) :
    ∀ limit ∈ (scanAll cfg chain w fromBlock toBlock cs m).2.1, limit = some (some toBlock) := by
  induction cs generalizing m with
  | nil => exact fun limit hlimit => absurd hlimit List.not_mem_nil
  | cons c cs ih =>
    have hlogs : ∀ log ∈ logsIn chain c fromBlock (toBlock + 1), ∀ now m', m.Keeps m' →
        (handle cfg log (.answers now) m').1 = .ok () := by
      intro log hlog now m' hm'
      obtain ⟨b, hb, hlt, hmem⟩ := mem_logsIn.mp hlog
      cases c with
      | gate => exact absurd List.mem_cons_self hgate
      | router =>
        -- The rows were there before the scans, and no log takes one away.
        obtain ⟨crossing, hcrossing, rfl⟩ := List.mem_map.mp hmem
        exact handleRouterLog_ok fun id hid =>
          hm' _ (hcs List.mem_cons_self b hb (by omega) crossing hcrossing id hid)
      | pool =>
        obtain ⟨log, -, rfl⟩ := List.mem_map.mp hmem
        exact handlePoolLog_ok cfg log now m'
    obtain ⟨hlimit, hkeeps, -⟩ := scan_of_clear hclear hle hn hlogs
    intro limit hmem
    rcases List.mem_cons.mp hmem with rfl | hmem
    · exact hlimit
    · refine ih (fun hrouter b hb hbt log hlog id hid => ?_)
        (fun h => hgate (List.mem_cons_of_mem _ h)) limit hmem
      exact hkeeps _ (hcs (List.mem_cons_of_mem _ hrouter) b hb hbt log hlog id hid)

theorem gate_notMem_swapContracts (cfg : Config) : Contract.gate ∉ cfg.swapContracts := by
  unfold Config.swapContracts
  cases cfg.router <;> cases cfg.pool <;> decide

theorem router_mem_swapContracts : Contract.router ∈ cfg.swapContracts ↔ cfg.router = true := by
  unfold Config.swapContracts
  cases cfg.router <;> cases cfg.pool <;> decide

theorem gate_mem_contracts : Contract.gate ∈ cfg.contracts ↔ cfg.gate = true := by
  rw [Config.contracts]
  split
  · next hgate => exact iff_of_true List.mem_cons_self hgate
  · next hgate => exact iff_of_false (gate_notMem_swapContracts cfg) hgate

theorem router_mem_contracts : Contract.router ∈ cfg.contracts ↔ cfg.router = true := by
  rw [Config.contracts, ← router_mem_swapContracts]
  split
  · exact ⟨fun h => (List.mem_cons.mp h).resolve_left nofun, List.mem_cons_of_mem _⟩
  · exact Iff.rfl

theorem Indexable.of_le {start start' : ℕ} (h : Indexable cfg chain start) (hle : start ≤ start') :
    Indexable cfg chain start' :=
  ⟨fun hgate b hb => h.gate hgate b (hle.trans hb),
    fun hrouter b hb => h.router hrouter b (hle.trans hb)⟩

/-- **In clear weather every scan reaches the end of the window**, of a chain that can be
indexed: what the router's logs refer to, the gate's have written. -/
theorem limits_of_indexable (hP : cfg.parsers.Lawful) {n fromBlock toBlock : ℕ}
    (hclear : Clear cfg n w) (hle : fromBlock ≤ toBlock) (hn : toBlock ≤ n)
    (h : Indexable cfg chain fromBlock) :
    ∀ limit ∈ (scanAll cfg chain w fromBlock toBlock cfg.contracts m).2.1,
      limit = some (some toBlock) := by
  rw [Config.contracts]
  split
  · next hgate =>
    have hlogs : ∀ log ∈ logsIn chain .gate fromBlock (toBlock + 1), ∀ now m', m.Keeps m' →
        (handle cfg log (.answers now) m').1 = .ok () := by
      intro log hlog now m' _
      obtain ⟨b, hb, -, hmem⟩ := mem_logsIn.mp hlog
      obtain ⟨gateLog, hgateLog, rfl⟩ := List.mem_map.mp hmem
      exact ((returnsOrRetries_iff hP).mpr (h.gate hgate b hb gateLog hgateLog)).retries now m'
    obtain ⟨hlimit, -, hrows⟩ := scan_of_clear hclear hle hn hlogs
    intro limit hmem
    rcases List.mem_cons.mp hmem with rfl | hmem
    · exact hlimit
    · -- The gate is scanned before the router, so a swap finds the transfer it crosses with.
      refine limits_of_ready hclear hle hn (fun hrouter b hb hbt log hlog id hid => ?_)
        (gate_notMem_swapContracts cfg) limit hmem
      obtain ⟨-, ev, hev, hbounds, rfl⟩ :=
        h.router (router_mem_swapContracts.mp hrouter) b hb log hlog id hid
      exact hrows ev (mem_logsIn.mpr ⟨b, hb, by omega, List.mem_map_of_mem hev⟩) hbounds
  · next hgate =>
    -- No swap crosses on a chain that can be indexed without its gate.
    refine limits_of_ready hclear hle hn (fun hrouter b hb _ log hlog id hid => ?_)
      (gate_notMem_swapContracts cfg)
    exact absurd (h.router (router_mem_swapContracts.mp hrouter) b hb log hlog id hid).1 hgate

/-- **In clear weather a window moves the cursor**, if the chain can be indexed from it on. -/
theorem lt_window_of_clear (hP : cfg.parsers.Lawful) {n confirmed : ℕ} (hclear : Clear cfg n w)
    (hn : s.fromBlock + cfg.maxBlockRange ≤ n) (h : Indexable cfg chain s.fromBlock)
    (hle : s.fromBlock ≤ confirmed) :
    s.fromBlock < (window cfg chain s w confirmed).1.fromBlock := by
  have hto := le_toBlock cfg hle
  rw [window]
  set toBlock := min confirmed (s.fromBlock + cfg.maxBlockRange - 1)
  set r := scanAll cfg chain w s.fromBlock toBlock cfg.contracts s.mirror with hr
  have hlimits : ∀ limit ∈ r.2.1, limit = some (some toBlock) :=
    limits_of_indexable hP hclear hto (by omega) h
  have hall : r.2.1.all Option.isSome = true := by
    rw [List.all_eq_true]
    intro limit hlimit
    rw [hlimits limit hlimit]
    rfl
  obtain ⟨x, hfold⟩ := exists_foldl_narrow toBlock fun limit hlimit =>
    ⟨toBlock, by rw [hlimits limit hlimit]; rfl⟩
  have hlow := le_of_foldl_scanAll hto hfold
  have hmove : (settleCursor { s with mirror := r.2.2 } w.cursor r.2.1 toBlock).fromBlock =
      x + 1 := by
    simp only [settleCursor, if_pos hall, hfold, hclear.cursor, if_true]
  exact (Nat.lt_succ_of_le hlow).trans_eq hmove.symm

/-- In clear weather the head is far enough, whether it is read now or was before. -/
theorem exists_latestOf {n : ℕ} (hclear : Clear cfg n w) (hn : s.fromBlock ≤ n) :
    ∃ latest, latestOf cfg s w = some latest ∧ s.fromBlock ≤ latest - cfg.blockConfirmation := by
  obtain ⟨head, hhead, hfar⟩ := hclear.head
  unfold latestOf
  split
  · exact ⟨head, hhead, by omega⟩
  · next hcached =>
    rcases hlast : s.cachedLatest with _ | l
    · rw [hlast] at hcached
      exact absurd rfl hcached
    · rw [hlast, Option.all_some, decide_eq_true_eq] at hcached
      exact ⟨l, rfl, by omega⟩

/-- **In clear weather the cursor moves**, if the chain can be indexed from it on. -/
theorem lt_turn_of_clear (hP : cfg.parsers.Lawful) {n : ℕ} (hclear : Clear cfg n w)
    (hn : s.fromBlock + cfg.maxBlockRange ≤ n) (h : Indexable cfg chain s.fromBlock) :
    s.fromBlock < (turn cfg chain s w).1.fromBlock := by
  obtain ⟨latest, hread, hconf⟩ := exists_latestOf (s := s) hclear (by omega)
  have hturn : (turn cfg chain s w).1 = (window cfg chain
      { s with mirror := w.meanwhile s.mirror, cachedLatest := some latest } w
      (latest - cfg.blockConfirmation)).1 := by
    have hread' : latestOf cfg { s with mirror := w.meanwhile s.mirror } w = some latest := hread
    simp only [turn, hread', if_neg (not_lt.mpr hconf)]
  rw [hturn]
  exact @lt_window_of_clear cfg chain
    { s with mirror := w.meanwhile s.mirror, cachedLatest := some latest } w hP n _ hclear hn h
    hconf

/-- **The loop keeps going** on a chain that can be indexed. -/
theorem keepsGoing_of_indexable (hP : cfg.parsers.Lawful) {start : ℕ}
    (h : Indexable cfg chain start) : KeepsGoing cfg chain start := by
  intro s₀ ws hstart hfair n
  -- One more block each time the weather clears up.
  have hget : ∀ k, ∃ i, k ≤ (after cfg chain s₀ ws i).fromBlock := by
    intro k
    induction k with
    | zero => exact ⟨0, Nat.zero_le _⟩
    | succ k ih =>
      obtain ⟨i, hi⟩ := ih
      obtain ⟨j, hij, hclear⟩ := hfair (k + cfg.maxBlockRange) i
      have hmono : (after cfg chain s₀ ws i).fromBlock ≤ (after cfg chain s₀ ws j).fromBlock :=
        fromBlock_mono hij
      by_cases hk : (after cfg chain s₀ ws j).fromBlock ≤ k
      · -- Nothing moved it since, so the clear turn does.
        have hfrom : start ≤ (after cfg chain s₀ ws j).fromBlock :=
          hstart.trans (fromBlock_mono (Nat.zero_le j))
        have hlt := lt_turn_of_clear hP hclear (by omega) (h.of_le hfrom)
        exact ⟨j + 1, by rw [after]; omega⟩
      · exact ⟨j, by omega⟩
  obtain ⟨i, hi⟩ := hget (n + 1)
  exact ⟨i, hi, fun b hb hbn => handled_of_lt i b hb (by omega)⟩

/-! ### What stops a chain -/

/-- Weather that is always clear, for chains that grow by a block each turn. -/
def sunny (cfg : Config) (b i : ℕ) : Weather where
  meanwhile := id
  head := some (b + i + cfg.blockConfirmation)
  scans := fun _ => ⟨some (b + i + cfg.blockConfirmation), some true, fun _ => .answers i⟩
  cursor := true

theorem fair_sunny {b : ℕ} : Fair cfg (sunny cfg b) := by
  intro n i
  have hle : n + cfg.blockConfirmation ≤ b + max n i + cfg.blockConfirmation := by omega
  exact ⟨max n i, le_max_right n i, ⟨_, rfl, hle⟩, fun _ => ⟨_, rfl, hle⟩, fun _ => rfl,
    fun _ _ => ⟨_, rfl⟩, rfl⟩

/-- **A log that cannot be handled stops the chain for good**, in the best of weather. -/
theorem not_keepsGoing (hP : cfg.parsers.Lawful) (hgate : cfg.gate = true) {start b : ℕ}
    {log : GateLog} (hb : start ≤ b) (hlog : log ∈ (chain b).gate) (hbad : ¬Digestible cfg log) :
    ¬KeepsGoing cfg chain start := by
  intro hgoes
  obtain ⟨e, hrefused⟩ := refused_of_not_digestible hP hbad
  obtain ⟨i, -, hhandled⟩ := hgoes ⟨b, none, none, .empty⟩ (sunny cfg b) hb fair_sunny b
  obtain ⟨j, -, hmem⟩ := hhandled b le_rfl le_rfl .gate (gate_mem_contracts.mpr hgate) (.gate log)
    (List.mem_map_of_mem hlog)
  obtain ⟨reply, m', hok⟩ := ok_of_mem_turn hmem
  rw [handle, hrefused] at hok
  cases hok

/-- **The loop is stuck** before a block, with nothing there of a submission. -/
structure Stuck (cfg : Config) (b : ℕ) (id : Bytes32) (s : State) : Prop where
  fromBlock : s.fromBlock = b
  cachedLatest : s.cachedLatest = some (b + cfg.blockConfirmation)
  lacks : s.mirror.Lacks (key id)

section Crossing

variable {b : ℕ} {id : Bytes32} {crossing : RouterLog} (hlog : crossing ∈ (chain b).router)
  (hid : crossing.crosses = some id)
  (hnone : cfg.gate = true → ∀ ev, .sent ev ∈ (chain b).gate → InBounds ev → ev.submissionId ≠ id)

include hnone in
theorem lacks_scan_sunny (i : ℕ) (hc : c ∈ cfg.contracts) (h : m.Lacks (key id)) :
    (scan cfg chain c ((sunny cfg b i).scans c) b b m).2.2.Lacks (key id) :=
  lacks_scan (fun _ => ⟨i, rfl⟩) h fun hgate _ hb hb' =>
    le_antisymm hb hb' ▸ hnone (gate_mem_contracts.mp (hgate ▸ hc))

include hlog hid in
/-- The router's scan fails. -/
theorem scan_router_sunny (i : ℕ) (h : m.Lacks (key id)) :
    (scan cfg chain .router ((sunny cfg b i).scans .router) b b m).2.1 = none := by
  have hclamp : clampScanWindow b b (b + i + cfg.blockConfirmation) cfg.blockConfirmation =
      some b := clampScanWindow_eq_some.mpr ⟨by omega, by omega⟩
  have hlogs : logsIn chain .router b (b + 1) = (chain b).router.map .router := by
    rw [logsIn, Nat.add_sub_cancel_left]
    exact List.flatMap_singleton _ _
  obtain ⟨e, he⟩ := @error_of_crosses cfg m (fun _ => .answers i) id (chain b).router crossing
    (fun _ => ⟨i, rfl⟩) h hlog hid
  rcases hrun : handleLogs cfg ((chain b).router.map .router) (fun _ => .answers i) m with
    ⟨handled, r, m'⟩
  rw [hrun] at he
  obtain rfl : r = .error e := he
  simp only [scan, sunny, hclamp, hlogs, hrun]

include hlog hid hnone in
theorem scanAll_sunny (i : ℕ) (hcs : ∀ c ∈ cs, c ∈ cfg.contracts) (h : m.Lacks (key id)) :
    (scanAll cfg chain (sunny cfg b i) b b cs m).2.2.Lacks (key id) ∧
      (.router ∈ cs → none ∈ (scanAll cfg chain (sunny cfg b i) b b cs m).2.1) := by
  induction cs generalizing m with
  | nil => exact ⟨h, fun hrouter => absurd hrouter List.not_mem_nil⟩
  | cons c cs ih =>
    obtain ⟨hlacks, hlimits⟩ := ih (fun c' hc' => hcs c' (List.mem_cons_of_mem _ hc'))
      (lacks_scan_sunny hnone i (hcs c List.mem_cons_self) h)
    refine ⟨hlacks, fun hrouter => ?_⟩
    rcases List.mem_cons.mp hrouter with rfl | hmem
    · exact List.mem_cons.mpr (.inl (scan_router_sunny hlog hid i h).symm)
    · exact List.mem_cons_of_mem _ (hlimits hmem)

/-- Once it is stuck, the head seen last is good enough. -/
theorem Stuck.latestOf_eq (h : Stuck cfg b id s) (w : Weather) :
    latestOf cfg s w = some (b + cfg.blockConfirmation) := by
  rw [latestOf, h.cachedLatest, h.fromBlock, Option.all_some]
  exact if_neg fun hstale => lt_irrefl _ (of_decide_eq_true hstale)

include hlog hid hnone in
/-- **A turn that goes by the head at the block gets stuck**: the router's scan fails. -/
theorem stuck_turn (hrouter : cfg.router = true) (i : ℕ) (hfrom : s.fromBlock = b)
    (hlatest : latestOf cfg s (sunny cfg b i) = some (b + cfg.blockConfirmation))
    (hlacks : s.mirror.Lacks (key id)) :
    Stuck cfg b id (turn cfg chain s (sunny cfg b i)).1 := by
  obtain ⟨fromBlock, cachedLatest, cursor, m⟩ := s
  dsimp only at hfrom hlacks
  subst hfrom
  have hpos := cfg.maxBlockRange_pos
  have hto : min fromBlock (fromBlock + cfg.maxBlockRange - 1) = fromBlock := by omega
  obtain ⟨hlacks', hlimits⟩ :=
    @scanAll_sunny cfg chain m cfg.contracts _ _ _ hlog hid hnone i (fun _ hc => hc) hlacks
  have hfailed : ¬(scanAll cfg chain (sunny cfg fromBlock i) fromBlock fromBlock cfg.contracts
      m).2.1.all Option.isSome = true := by
    intro hall
    have hsome := List.all_eq_true.mp hall none (hlimits (router_mem_contracts.mpr hrouter))
    cases hsome
  have hturn : (turn cfg chain ⟨fromBlock, cachedLatest, cursor, m⟩ (sunny cfg fromBlock i)).1 =
      ⟨fromBlock, some (fromBlock + cfg.blockConfirmation), cursor,
        (scanAll cfg chain (sunny cfg fromBlock i) fromBlock fromBlock cfg.contracts m).2.2⟩ := by
    have hmeanwhile : (sunny cfg fromBlock i).meanwhile m = m := rfl
    simp only [turn, window, hmeanwhile, hlatest, lt_self_iff_false, if_false,
      Nat.add_sub_cancel, hto]
    exact if_neg hfailed
  rw [hturn]
  exact ⟨rfl, rfl, hlacks'⟩

include hlog hid hnone in
/-- **A swap that crosses with a transfer that was passed over stops the chain for good**, in the
best of weather. -/
theorem not_keepsGoing_of_crosses {start : ℕ} (hrouter : cfg.router = true) (hb : start ≤ b) :
    ¬KeepsGoing cfg chain start := by
  intro hgoes
  obtain ⟨i, hlt, -⟩ := hgoes ⟨b, none, none, .empty⟩ (sunny cfg b) hb fair_sunny b
  have hstuck : ∀ i, Stuck cfg b id
      (after cfg chain ⟨b, none, none, .empty⟩ (sunny cfg b) (i + 1)) := by
    intro i
    induction i with
    | zero =>
      exact stuck_turn hlog hid hnone hrouter 0 rfl (congrArg (fun n => some (n + _)) (add_zero b))
        ⟨rfl, rfl⟩
    | succ i ih =>
      exact stuck_turn hlog hid hnone hrouter (i + 1) ih.fromBlock (ih.latestOf_eq _) ih.lacks
  cases i with
  | zero => exact lt_irrefl b hlt
  | succ i =>
    rw [(hstuck i).fromBlock] at hlt
    exact lt_irrefl b hlt

end Crossing

/-- **Nothing stalls the indexer exactly when the chain can be indexed.** For any configuration:
the handler gets through with a log of the gate – it returns, or fails for an outage that another
attempt can overcome – if and only if the log can be handled; and the loop of a chain, from anywhere
after a start, in any fair weather and whatever is in the database, gets past every block with every
log of every contract on the way handled, if and only if the chain can be indexed from that start
on: every log of its gate can be handled, and no swap of its router crosses with a transfer that is
passed over, or with one of a gate that is not read. -/
theorem never_stalls_iff (hP : cfg.parsers.Lawful) :
    (∀ log, ReturnsOrRetries cfg log ↔ Digestible cfg log) ∧
      ∀ chain start, KeepsGoing cfg chain start ↔ Indexable cfg chain start := by
  refine ⟨fun log => returnsOrRetries_iff hP, fun chain start => ⟨?_, keepsGoing_of_indexable hP⟩⟩
  intro hgoes
  constructor
  · intro hgate b hb log hlog
    by_contra hbad
    exact not_keepsGoing hP hgate hb hlog hbad hgoes
  · intro hrouter b hb log hlog id hid
    by_contra hnone
    refine not_keepsGoing_of_crosses hlog hid (fun hgate ev hev hbounds heq => hnone ?_) hrouter hb
      hgoes
    exact ⟨hgate, ev, hev, hbounds, heq⟩

/-! ### A transfer that stops its chain -/

/-- An indexer of the chain of `SelendraBridge.Db.emitted`, with all its contracts. -/
def indexer : Config where
  keccak256 := digestOf
  parsers := Parsers.standard
  chainId := 1
  gate := true
  router := true
  pool := true
  bridgeDomain := 0xd0
  blockConfirmation := 0
  maxBlockRange := 10
  maxBlockRange_pos := by decide

/-- A transfer with a payload that does not decode. -/
def undecodable : SentEvent := { emitted with autoParams := [1] }

/-- A chain with one transfer, in block 1, and some logs of its router. -/
def chainOf (ev : SentEvent) (router : List RouterLog) (b : ℕ) : BlockLogs :=
  if b = 1 then ⟨[.sent ev], router, []⟩ else ⟨[], [], []⟩

/-- A swap that crosses with the transfer. -/
def crossing : RouterLog := .swapBridged emitted.submissionId 0xaa 5000 1000 0xbb 0xcc

theorem not_digestible_undecodable : ¬Digestible indexer (.sent undecodable) := by
  intro h
  have hbounds : InBounds undecodable := by
    constructor <;> decide
  obtain ⟨auto, hauto, -⟩ := (h hbounds).submissionId
  have hnone : decodeAutoParams indexer.parsers undecodable.autoParams undecodable.nativeSender =
      none := by decide +kernel
  rw [hnone] at hauto
  cases hauto

/-- **One event stops the indexer**: the handler never gets through with a transfer whose payload
does not decode, and the loop never gets past its block. -/
theorem undecodable_stalls : ¬ReturnsOrRetries indexer (.sent undecodable) ∧
    ¬KeepsGoing indexer (chainOf undecodable []) 0 :=
  ⟨fun h => not_digestible_undecodable ((returnsOrRetries_iff Parsers.standard_lawful).mp h),
    @not_keepsGoing indexer (chainOf undecodable []) Parsers.standard_lawful rfl 0 1
      (.sent undecodable) (Nat.zero_le 1) List.mem_cons_self not_digestible_undecodable⟩

/-- A plain transfer with a swap that crosses with it, and the loop around them. -/
theorem never_stalls_emitted : Digestible indexer (.sent emitted) ∧
    ReturnsOrRetries indexer (.sent emitted) ∧
      KeepsGoing indexer (chainOf emitted [crossing]) 0 := by
  have hdigestible : Digestible indexer (.sent emitted) := by
    intro _
    exact ⟨⟨none, by decide +kernel⟩, by decide +kernel⟩
  have hbounds : InBounds emitted := by
    constructor <;> decide
  refine ⟨hdigestible, ((never_stalls_iff Parsers.standard_lawful).1 _).mpr hdigestible,
    ((never_stalls_iff Parsers.standard_lawful).2 _ _).mpr ⟨fun _ b _ log hlog => ?_,
      fun _ b _ log hlog id hid => ?_⟩⟩
  · rw [chainOf] at hlog
    split at hlog
    · obtain rfl := List.mem_singleton.mp hlog
      exact hdigestible
    · cases hlog
  · rw [chainOf] at hlog ⊢
    split at hlog
    · next hb =>
      obtain rfl := List.mem_singleton.mp hlog
      rw [if_pos hb]
      exact ⟨rfl, emitted, List.mem_cons_self, hbounds, Option.some.inj hid⟩
    · cases hlog

end Indexer

end SelendraBridge
