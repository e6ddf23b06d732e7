import SelendraBridge.Indexer.SwapLogs

/-!
# The loop of one chain

One turn of `run_chain`: look at the head, unless the one seen last is still ahead; cut the
window; scan the gate over it, and the router and the pool, each where it is configured; and move
the cursor to the lowest block all of them read, if none of them failed. A scan that fails leaves
the cursor where it is, and the next turn reads the same window again.

What the turn depends on is its weather (`SelendraBridge.Indexer.Weather`): what the endpoints
answer, what the database does with each call, and what others do to the database meanwhile.
Logs are read from the chain itself, for a window only counts if the node that served it vouches
for its last block.

The cursor only moves forward, over logs that were handled
(`SelendraBridge.Indexer.handled_of_lt`).
-/

namespace SelendraBridge

namespace Indexer

open Store Db

/-! ### A chain -/

/-- The contracts of a chain that are scanned. -/
inductive Contract
  | gate
  | router
  | pool
  deriving DecidableEq, Repr

/-- A log of one of them. -/
inductive ChainLog
  | gate (log : GateLog)
  | router (log : RouterLog)
  | pool (log : PoolLog)

/-- The logs of a block. -/
structure BlockLogs where
  gate : List GateLog
  router : List RouterLog
  pool : List PoolLog

/-- The logs of one contract. -/
def BlockLogs.of (b : BlockLogs) : Contract → List ChainLog
  | .gate => b.gate.map .gate
  | .router => b.router.map .router
  | .pool => b.pool.map .pool

/-- The contracts of swaps that are configured. -/
def Config.swapContracts (cfg : Config) : List Contract :=
  (if cfg.router then [.router] else []) ++ if cfg.pool then [.pool] else []

/-- The contracts that are configured, in the order of their scans. -/
def Config.contracts (cfg : Config) : List Contract :=
  if cfg.gate then .gate :: cfg.swapContracts else cfg.swapContracts

/-! ### A turn of the loop -/

/-- What one scan meets. -/
structure ScanWeather where
  /-- The head of the endpoint that serves it, if it can be read. -/
  head : Option ℕ
  /-- Whether the batch of logs and last block comes back, and the block vouches for the logs. -/
  batch : Option Bool
  /-- What the database does with the logs, one after the other. -/
  replies : ℕ → DbReply

/-- What one turn of the loop meets. -/
structure Weather where
  /-- What others do to the database since the last turn. -/
  meanwhile : Mirror → Mirror
  /-- The head, if it can be read. -/
  head : Option ℕ
  scans : Contract → ScanWeather
  /-- Whether the cursor can be written. -/
  cursor : Bool

/-- The loop between two turns, and the database. -/
structure State where
  fromBlock : ℕ
  cachedLatest : Option ℕ
  /-- The cursor in the database. -/
  cursor : Option ℕ
  mirror : Mirror

/-- `clamp_scan_window`. -/
def clampScanWindow (fromBlock toBlock endpointHead confirmations : ℕ) : Option ℕ :=
  let confirmed := endpointHead - confirmations
  if confirmed < fromBlock then none else some (min toBlock confirmed)

/-- How far the cursor may move, after one more scan. -/
def narrow (scannedTo limit : Option ℕ) : Option ℕ :=
  match scannedTo, limit with
  | some a, some b => some (min a b)
  | _, _ => none

section Loop

variable (cfg : Config) (chain : ℕ → BlockLogs)

/-- The logs of a contract in the blocks from `lo` up to but not including `hi`. -/
def logsIn (c : Contract) (lo hi : ℕ) : List ChainLog :=
  (List.range' lo (hi - lo)).flatMap fun b => (chain b).of c

/-- The handler of a contract's logs. -/
def handle : ChainLog → DbReply → Mirror → Outcome
  | .gate log => handleGateLog cfg log
  | .router log => handleRouterLog log
  | .pool log => handlePoolLog cfg log

/-- The logs of a window, one after the other up to the first that fails; with the ones that
were handled. -/
def handleLogs : List ChainLog → (ℕ → DbReply) → Mirror → List ChainLog × Outcome
  | [], _, m => ([], .ok (), m)
  | log :: logs, replies, m =>
    match handle cfg log (replies 0) m with
    | (.error e, m') => ([], .error e, m')
    | (.ok _, m') =>
      let r := handleLogs logs (fun i => replies (i + 1)) m'
      (log :: r.1, r.2)

/-- **`scan`**, of a contract: the logs handled, how far it reached – nothing at all if it failed –
and the database. -/
def scan (c : Contract) (w : ScanWeather) (fromBlock toBlock : ℕ) (m : Mirror) :
    List ChainLog × Option (Option ℕ) × Mirror :=
  match w.head with
  | none => ([], none, m)
  | some head =>
    match clampScanWindow fromBlock toBlock head cfg.blockConfirmation with
    -- The endpoint lags the window: nothing is read, and nothing went wrong.
    | none => ([], some none, m)
    | some scannedTo =>
      match w.batch with
      | none => ([], none, m)
      -- The logs came without the block that would vouch for them.
      | some false => ([], some none, m)
      | some true =>
        match handleLogs cfg (logsIn chain c fromBlock (scannedTo + 1)) w.replies m with
        | (handled, .ok _, m') => (handled, some (some scannedTo), m')
        | (handled, .error _, m') => (handled, none, m')

/-- The scans of a window, one after the other: the logs handled, how far each of them reached, and
the database. One that failed does not stop the next. -/
def scanAll (w : Weather) (fromBlock toBlock : ℕ) :
    List Contract → Mirror → List ChainLog × List (Option (Option ℕ)) × Mirror
  | [], m => ([], [], m)
  | c :: cs, m =>
    let r := scan cfg chain c (w.scans c) fromBlock toBlock m
    let rest := scanAll w fromBlock toBlock cs r.2.2
    (r.1 ++ rest.1, r.2.1 :: rest.2.1, rest.2.2)

/-- What becomes of the cursor: it moves only if every scan went well, and only to what all of
them read. -/
def settleCursor (s : State) (cursor : Bool) (limits : List (Option (Option ℕ))) (toBlock : ℕ) :
    State :=
  if limits.all Option.isSome then
    match limits.foldl (fun scannedTo limit => narrow scannedTo limit.join) (some toBlock) with
    -- An endpoint lags, so the head that was seen is not trusted any more.
    | none => { s with cachedLatest := none }
    | some advanceTo =>
      -- A cursor that was not written does not move the loop either.
      if cursor then { s with cursor := some advanceTo, fromBlock := advanceTo + 1 } else s
  else s

/-- A window: the scans, and the cursor. -/
def window (s : State) (w : Weather) (confirmed : ℕ) : State × List ChainLog :=
  let toBlock := min confirmed (s.fromBlock + cfg.maxBlockRange - 1)
  let r := scanAll cfg chain w s.fromBlock toBlock cfg.contracts s.mirror
  (settleCursor { s with mirror := r.2.2 } w.cursor r.2.1 toBlock, r.1)

/-- The head a turn goes by: the one seen last, or a new one if that is not ahead of the loop. -/
def latestOf (s : State) (w : Weather) : Option ℕ :=
  if s.cachedLatest.all fun l => decide (s.fromBlock + cfg.blockConfirmation > l) then w.head
  else s.cachedLatest

/-- **One turn of `run_chain`'s loop**, and the logs it handled. -/
def turn (s : State) (w : Weather) : State × List ChainLog :=
  let s := { s with mirror := w.meanwhile s.mirror }
  match latestOf cfg s w with
  | none => (s, [])
  | some latest =>
    let s := { s with cachedLatest := some latest }
    let confirmed := latest - cfg.blockConfirmation
    if confirmed < s.fromBlock then (s, []) else window cfg chain s w confirmed

/-- The loop after some turns. -/
def after (s₀ : State) (ws : ℕ → Weather) : ℕ → State
  | 0 => s₀
  | i + 1 => (turn cfg chain (after s₀ ws i) (ws i)).1

/-- The logs a turn handled. -/
def handledAt (s₀ : State) (ws : ℕ → Weather) (i : ℕ) : List ChainLog :=
  (turn cfg chain (after cfg chain s₀ ws i) (ws i)).2

end Loop

variable {cfg : Config} {chain : ℕ → BlockLogs} {s s₀ : State} {w : Weather}
  {ws : ℕ → Weather} {handled : List ChainLog} {log : ChainLog} {m m' : Mirror} {c : Contract}
  {cs : List Contract} {sw : ScanWeather} {replies : ℕ → DbReply}

/-! ### The handlers together -/

theorem mem_logsIn {lo hi : ℕ} :
    log ∈ logsIn chain c lo hi ↔ ∃ n, lo ≤ n ∧ n < hi ∧ log ∈ (chain n).of c := by
  rw [logsIn, List.mem_flatMap]
  constructor
  · rintro ⟨n, hn, hlog⟩
    have hmem := List.mem_range'_1.mp hn
    exact ⟨n, hmem.1, by omega, hlog⟩
  · rintro ⟨n, hlo, hhi, hlog⟩
    exact ⟨n, List.mem_range'_1.mpr ⟨hlo, by omega⟩, hlog⟩

/-- The gate's logs are the gate's. -/
theorem mem_of_gate {b : BlockLogs} {log : GateLog} (h : .gate log ∈ b.of c) :
    c = .gate ∧ log ∈ b.gate := by
  cases c with
  | gate =>
    obtain ⟨_, hmem, heq⟩ := List.mem_map.mp h
    exact ⟨rfl, ChainLog.gate.inj heq ▸ hmem⟩
  | router =>
    obtain ⟨_, -, heq⟩ := List.mem_map.mp h
    cases heq
  | pool =>
    obtain ⟨_, -, heq⟩ := List.mem_map.mp h
    cases heq

theorem keeps_handle (cfg : Config) (log : ChainLog) (now : ℕ) (m : Mirror) :
    m.Keeps (handle cfg log (.answers now) m).2 := by
  cases log with
  | gate log => exact keeps_handleGateLog cfg log now m
  | router log =>
    intro k hk
    rwa [handle, submissions_handleRouterLog]
  | pool log =>
    intro k hk
    rwa [handle, (submissions_handlePoolLog cfg log now m).1]

/-- **What is not there comes only from its transfer.** -/
theorem lacks_handle {id : Bytes32} {now : ℕ} (h : m.Lacks (key id))
    (hlog : ∀ ev, log = .gate (.sent ev) → InBounds ev → ev.submissionId ≠ id) :
    (handle cfg log (.answers now) m).2.Lacks (key id) := by
  cases log with
  | gate log =>
    refine ⟨?_, (congrFun (intents_handleGateLog cfg log now m) _).trans h.intent⟩
    rcases submissions_handleGateLog cfg log now m (key id) with heq | ⟨-, ev, rfl, hbounds, hkey⟩
    · exact heq.trans h.submission
    · exact absurd (key_inj hkey) (hlog ev rfl hbounds)
  | router log => exact lacks_handleRouterLog log h
  | pool log =>
    obtain ⟨hsubmissions, hintents⟩ := submissions_handlePoolLog cfg log now m
    exact ⟨(congrFun hsubmissions _).trans h.submission, (congrFun hintents _).trans h.intent⟩

/-! ### The logs of a window -/

/-- **The logs that count as handled were**: the handler returned. -/
theorem ok_of_mem_handleLogs {logs : List ChainLog}
    (h : log ∈ (handleLogs cfg logs replies m).1) :
    ∃ reply m', (handle cfg log reply m').1 = .ok () := by
  induction logs generalizing replies m with
  | nil => cases h
  | cons log' logs ih =>
    rw [handleLogs] at h
    rcases hstep : handle cfg log' (replies 0) m with ⟨e | u, m'⟩
    · rw [hstep] at h
      cases h
    · rw [hstep] at h
      rcases List.mem_cons.mp h with rfl | hmem
      · exact ⟨replies 0, m, by rw [hstep]⟩
      · exact ih hmem

/-- If no log fails, all of them were handled. -/
theorem handled_of_ok {logs : List ChainLog} {u : Unit}
    (h : handleLogs cfg logs replies m = (handled, .ok u, m')) : handled = logs := by
  induction logs generalizing replies m handled with
  | nil => exact (Prod.mk.inj h).1.symm
  | cons log' logs ih =>
    rw [handleLogs] at h
    rcases hstep : handle cfg log' (replies 0) m with ⟨e | u', m₁⟩
    · rw [hstep] at h
      cases h
    · rw [hstep] at h
      obtain ⟨rfl, hrest⟩ := Prod.mk.inj h
      exact congrArg _ (ih (Prod.ext rfl hrest))

theorem keeps_handleLogs (logs : List ChainLog) (hreplies : ∀ i, ∃ now, replies i = .answers now) :
    m.Keeps (handleLogs cfg logs replies m).2.2 := by
  induction logs generalizing replies m with
  | nil => exact .refl m
  | cons log logs ih =>
    obtain ⟨now, hnow⟩ := hreplies 0
    have hkeeps := keeps_handle cfg log now m
    rw [handleLogs, hnow]
    rcases hstep : handle cfg log (.answers now) m with ⟨e | u, m₁⟩
    · rw [hstep] at hkeeps
      exact hkeeps
    · rw [hstep] at hkeeps
      exact hkeeps.trans (ih fun i => hreplies (i + 1))

/-- **Where no log is refused and the database answers, none fails**, and the transfers in bounds
have their rows. -/
theorem handleLogs_ok {logs : List ChainLog}
    (hlogs : ∀ log ∈ logs, ∀ now m', m.Keeps m' → (handle cfg log (.answers now) m').1 = .ok ())
    (hreplies : ∀ i, ∃ now, replies i = .answers now) :
    ∃ m', handleLogs cfg logs replies m = (logs, .ok (), m') ∧ ∀ ev, .gate (.sent ev) ∈ logs →
      InBounds ev → (m'.submissions (key ev.submissionId)).isSome = true := by
  induction logs generalizing replies m with
  | nil => exact ⟨m, rfl, fun ev hev => absurd hev List.not_mem_nil⟩
  | cons log logs ih =>
    obtain ⟨now, hnow⟩ := hreplies 0
    have hok := hlogs log List.mem_cons_self now m (.refl m)
    have hkeeps := keeps_handle cfg log now m
    rcases hstep : handle cfg log (.answers now) m with ⟨r, m₁⟩
    rw [hstep] at hok hkeeps
    obtain ⟨m₂, hrest, hrows⟩ := ih (m := m₁)
      (fun log hlog now m' hm' => hlogs log (List.mem_cons_of_mem _ hlog) now m' (hkeeps.trans hm'))
      fun i => hreplies (i + 1)
    refine ⟨m₂, ?_, fun ev hev hbounds => ?_⟩
    · rw [handleLogs, hnow, hstep, show r = .ok () from hok]
      simp only [hrest]
    · rcases List.mem_cons.mp hev with rfl | hmem
      · -- Its row is written here, and the logs after it keep it.
        have hkept := @keeps_handleLogs cfg m₁ _ logs fun i => hreplies (i + 1)
        rw [hrest] at hkept
        refine hkept _ ?_
        have hgate : handleGateLog cfg (.sent ev) (.answers now) m = (r, m₁) := hstep
        have hhandled : (handleGateLog cfg (.sent ev) (.answers now) m).1 = .ok () := by
          rw [hgate]
          exact hok
        obtain ⟨row, hrow⟩ := row_of_handled hbounds hhandled
        rw [hgate] at hrow
        exact Option.isSome_of_eq_some hrow
      · exact hrows ev hmem hbounds

theorem lacks_handleLogs {id : Bytes32} {logs : List ChainLog}
    (hreplies : ∀ i, ∃ now, replies i = .answers now) (h : m.Lacks (key id))
    (hlogs : ∀ ev, .gate (.sent ev) ∈ logs → InBounds ev → ev.submissionId ≠ id) :
    (handleLogs cfg logs replies m).2.2.Lacks (key id) := by
  induction logs generalizing replies m with
  | nil => exact h
  | cons log logs ih =>
    obtain ⟨now, hnow⟩ := hreplies 0
    have hlacks := @lacks_handle cfg log m id now h fun ev hev =>
      hlogs ev (hev ▸ List.mem_cons_self)
    rw [handleLogs, hnow]
    rcases hstep : handle cfg log (.answers now) m with ⟨e | u, m₁⟩
    · rw [hstep] at hlacks
      exact hlacks
    · rw [hstep] at hlacks
      exact ih (fun i => hreplies (i + 1)) hlacks fun ev hev =>
        hlogs ev (List.mem_cons_of_mem _ hev)

/-- **A swap that crosses fails its window**, where nothing is there. -/
theorem error_of_crosses {id : Bytes32} {logs : List RouterLog} {log : RouterLog}
    (hreplies : ∀ i, ∃ now, replies i = .answers now) (h : m.Lacks (key id)) (hlog : log ∈ logs)
    (hid : log.crosses = some id) :
    ∃ e, (handleLogs cfg (logs.map .router) replies m).2.1 = .error e := by
  induction logs generalizing replies m with
  | nil => cases hlog
  | cons log' logs ih =>
    obtain ⟨now, hnow⟩ := hreplies 0
    rw [List.map_cons, handleLogs, hnow]
    rcases List.mem_cons.mp hlog with rfl | hmem
    · rw [handle, handleRouterLog_of_lacks hid h]
      exact ⟨_, rfl⟩
    · -- A log before it may fail first; if it does not, the submission is still not there.
      have hlacks := @lacks_handleRouterLog m now _ log' h
      rcases hstep : handle cfg (.router log') (.answers now) m with ⟨e | u, m₁⟩
      · exact ⟨e, rfl⟩
      · rw [show handleRouterLog log' (.answers now) m = (.ok u, m₁) from hstep] at hlacks
        exact ih (fun i => hreplies (i + 1)) hlacks hmem

/-! ### The scans of a window -/

theorem clampScanWindow_eq_some {fromBlock toBlock head confirmations n : ℕ} :
    clampScanWindow fromBlock toBlock head confirmations = some n ↔
      fromBlock ≤ head - confirmations ∧ min toBlock (head - confirmations) = n := by
  rw [clampScanWindow]
  simp only [Option.ite_none_left_eq_some, Option.some.injEq, not_lt]

/-- **How far the scan reached**, it handled the logs to. -/
theorem scan_eq_some {fromBlock toBlock scannedTo : ℕ}
    (h : (scan cfg chain c sw fromBlock toBlock m).2.1 = some (some scannedTo)) :
    (scan cfg chain c sw fromBlock toBlock m).1 = logsIn chain c fromBlock (scannedTo + 1) ∧
      ∃ head, fromBlock ≤ head ∧ min toBlock head = scannedTo := by
  unfold scan at h ⊢
  rcases hhead : sw.head with _ | head
  · rw [hhead] at h
    cases h
  simp only [hhead] at h ⊢
  rcases hclamp : clampScanWindow fromBlock toBlock head cfg.blockConfirmation with _ | n
  · simp only [hclamp] at h
    cases h
  simp only [hclamp] at h ⊢
  rcases hbatch : sw.batch with _ | _ | _
  · simp only [hbatch] at h
    cases h
  · simp only [hbatch] at h
    cases h
  simp only [hbatch] at h ⊢
  rcases hlogs : handleLogs cfg (logsIn chain c fromBlock (n + 1)) sw.replies m with
    ⟨handled, e | u, m'⟩
  · simp only [hlogs] at h
    cases h
  · simp only [hlogs, Option.some.injEq] at h ⊢
    subst h
    exact ⟨handled_of_ok hlogs, _, clampScanWindow_eq_some.mp hclamp⟩

theorem ok_of_mem_scan {fromBlock toBlock : ℕ}
    (h : log ∈ (scan cfg chain c sw fromBlock toBlock m).1) :
    ∃ reply m', (handle cfg log reply m').1 = .ok () := by
  unfold scan at h
  split at h
  · cases h
  split at h
  · cases h
  split at h
  · cases h
  · cases h
  split at h
  · next hlogs => exact ok_of_mem_handleLogs (by rw [hlogs]; exact h)
  · next hlogs => exact ok_of_mem_handleLogs (by rw [hlogs]; exact h)

theorem lacks_scan {id : Bytes32} {fromBlock toBlock : ℕ}
    (hreplies : ∀ i, ∃ now, sw.replies i = .answers now) (h : m.Lacks (key id))
    (hlogs : c = .gate → ∀ b, fromBlock ≤ b → b ≤ toBlock → ∀ ev, .sent ev ∈ (chain b).gate →
      InBounds ev → ev.submissionId ≠ id) :
    (scan cfg chain c sw fromBlock toBlock m).2.2.Lacks (key id) := by
  unfold scan
  rcases sw.head with _ | head
  · exact h
  rcases hclamp : clampScanWindow fromBlock toBlock head cfg.blockConfirmation with _ | scannedTo
  · simp only [hclamp]
    exact h
  rcases sw.batch with _ | _ | _
  · simp only [hclamp]
    exact h
  · simp only [hclamp]
    exact h
  have hto : scannedTo ≤ toBlock := by
    have hboth := clampScanWindow_eq_some.mp hclamp
    omega
  have hlacks := @lacks_handleLogs cfg m _ id (logsIn chain c fromBlock (scannedTo + 1)) hreplies h
    fun ev hev => by
      obtain ⟨b, hb, hlt, hmem⟩ := mem_logsIn.mp hev
      obtain ⟨hgate, hsent⟩ := mem_of_gate hmem
      exact hlogs hgate b hb (by omega) ev hsent
  rcases hrun : handleLogs cfg (logsIn chain c fromBlock (scannedTo + 1)) sw.replies m with
    ⟨handled, e | u, m'⟩
  · rw [hrun] at hlacks
    simp only [hclamp, hrun]
    exact hlacks
  · rw [hrun] at hlacks
    simp only [hclamp, hrun]
    exact hlacks

theorem ok_of_mem_scanAll {fromBlock toBlock : ℕ}
    (h : log ∈ (scanAll cfg chain w fromBlock toBlock cs m).1) :
    ∃ reply m', (handle cfg log reply m').1 = .ok () := by
  induction cs generalizing m with
  | nil => cases h
  | cons c cs ih =>
    rcases List.mem_append.mp h with hmem | hmem
    · exact ok_of_mem_scan hmem
    · exact ih hmem

/-- Each of the limits is the one of a scan. -/
theorem exists_of_mem_limits {fromBlock toBlock : ℕ} {limit : Option (Option ℕ)}
    (h : limit ∈ (scanAll cfg chain w fromBlock toBlock cs m).2.1) :
    ∃ c ∈ cs, ∃ m', limit = (scan cfg chain c (w.scans c) fromBlock toBlock m').2.1 := by
  induction cs generalizing m with
  | nil => cases h
  | cons c cs ih =>
    rcases List.mem_cons.mp h with rfl | hmem
    · exact ⟨c, List.mem_cons_self, m, rfl⟩
    · obtain ⟨c', hc', m', hlimit⟩ := ih hmem
      exact ⟨c', List.mem_cons_of_mem _ hc', m', hlimit⟩

/-- **Each of the contracts was read** as far as its limit says. -/
theorem exists_limit {fromBlock toBlock : ℕ} (hc : c ∈ cs) :
    ∃ limit ∈ (scanAll cfg chain w fromBlock toBlock cs m).2.1, ∀ x, limit = some (some x) →
      ∀ log ∈ logsIn chain c fromBlock (x + 1),
        log ∈ (scanAll cfg chain w fromBlock toBlock cs m).1 := by
  induction cs generalizing m with
  | nil => cases hc
  | cons c' cs ih =>
    rcases List.mem_cons.mp hc with rfl | hmem
    · refine ⟨_, List.mem_cons_self, fun x hx log hlog => List.mem_append_left _ ?_⟩
      rw [(scan_eq_some hx).1]
      exact hlog
    · obtain ⟨limit, hlimit, hread⟩ := ih hmem
      exact ⟨limit, List.mem_cons_of_mem _ hlimit, fun x hx log hlog =>
        List.mem_append_right _ (hread x hx log hlog)⟩

/-- Nothing that did not reach anywhere can be narrowed to something. -/
theorem foldl_narrow_none (limits : List (Option (Option ℕ))) :
    limits.foldl (fun scannedTo limit => narrow scannedTo limit.join) none = none := by
  induction limits with
  | nil => rfl
  | cons limit limits ih => exact ih

/-- **The cursor moves to the lowest block that was read.** -/
theorem foldl_narrow_eq_some {limits : List (Option (Option ℕ))} {a n : ℕ} :
    limits.foldl (fun scannedTo limit => narrow scannedTo limit.join) (some a) = some n →
      n ≤ a ∧ (∀ limit ∈ limits, ∃ x, limit.join = some x ∧ n ≤ x) ∧
        ∀ k, k ≤ a → (∀ limit ∈ limits, ∀ x, limit.join = some x → k ≤ x) → k ≤ n := by
  induction limits generalizing a with
  | nil =>
    intro h
    obtain rfl := Option.some.inj h
    exact ⟨le_rfl, by simp, fun k hk _ => hk⟩
  | cons limit limits ih =>
    intro h
    rw [List.foldl_cons] at h
    rcases hlimit : limit.join with _ | x
    · rw [hlimit, show narrow (some a) none = none from rfl, foldl_narrow_none] at h
      cases h
    · rw [hlimit] at h
      obtain ⟨hle, hall, hleast⟩ := ih h
      refine ⟨by omega, ?_, ?_⟩
      · intro l hl
        rcases List.mem_cons.mp hl with rfl | hl
        · exact ⟨x, hlimit, by omega⟩
        · exact hall l hl
      · intro k hk hlow
        have hx := hlow limit List.mem_cons_self x hlimit
        exact hleast k (by omega) fun l hl => hlow l (List.mem_cons_of_mem _ hl)

theorem exists_foldl_narrow {limits : List (Option (Option ℕ))} (a : ℕ)
    (h : ∀ limit ∈ limits, ∃ x, limit.join = some x) :
    ∃ n, limits.foldl (fun scannedTo limit => narrow scannedTo limit.join) (some a) = some n := by
  induction limits generalizing a with
  | nil => exact ⟨a, rfl⟩
  | cons limit limits ih =>
    obtain ⟨x, hx⟩ := h limit List.mem_cons_self
    rw [List.foldl_cons, hx]
    exact ih (min a x) fun l hl => h l (List.mem_cons_of_mem _ hl)

/-- The window a turn works on begins at the cursor and is not empty. -/
theorem le_toBlock (cfg : Config) {confirmed : ℕ} (h : s.fromBlock ≤ confirmed) :
    s.fromBlock ≤ min confirmed (s.fromBlock + cfg.maxBlockRange - 1) := by
  have hpos := cfg.maxBlockRange_pos
  omega

/-- The cursor stays, or goes past the lowest block that was read. -/
theorem settleCursor_cases {cursor : Bool} {limits : List (Option (Option ℕ))} {toBlock : ℕ} :
    (settleCursor s cursor limits toBlock).fromBlock = s.fromBlock ∨
      ∃ n, limits.foldl (fun scannedTo limit => narrow scannedTo limit.join) (some toBlock) =
        some n ∧ (settleCursor s cursor limits toBlock).fromBlock = n + 1 := by
  rw [settleCursor]
  split
  · split
    · exact .inl rfl
    · next n hfold =>
      cases cursor with
      | true => exact .inr ⟨n, hfold, rfl⟩
      | false => exact .inl rfl
  · exact .inl rfl

/-- None of the limits is before the cursor. -/
theorem le_of_foldl_scanAll {fromBlock toBlock n : ℕ} (hle : fromBlock ≤ toBlock)
    (hfold : (scanAll cfg chain w fromBlock toBlock cs m).2.1.foldl
      (fun scannedTo limit => narrow scannedTo limit.join) (some toBlock) = some n) :
    fromBlock ≤ n := by
  obtain ⟨-, -, hleast⟩ := foldl_narrow_eq_some hfold
  refine hleast _ hle fun limit hlimit x hx => ?_
  obtain ⟨c, -, m', rfl⟩ := exists_of_mem_limits hlimit
  obtain ⟨-, head, hhead, hmin⟩ := scan_eq_some (Option.join_eq_some_iff.mp hx)
  omega

/-- **A window moves the cursor forward, or not at all**, and only over logs that were
handled. -/
theorem window_cases {confirmed : ℕ} (hle : s.fromBlock ≤ confirmed) :
    (window cfg chain s w confirmed).1.fromBlock = s.fromBlock ∨
      s.fromBlock < (window cfg chain s w confirmed).1.fromBlock ∧
        ∀ b, s.fromBlock ≤ b → b < (window cfg chain s w confirmed).1.fromBlock →
          ∀ c ∈ cfg.contracts, ∀ log ∈ (chain b).of c,
            log ∈ (window cfg chain s w confirmed).2 := by
  have hto := le_toBlock cfg hle
  rw [window]
  set toBlock := min confirmed (s.fromBlock + cfg.maxBlockRange - 1)
  set r := scanAll cfg chain w s.fromBlock toBlock cfg.contracts s.mirror with hr
  rcases @settleCursor_cases { s with mirror := r.2.2 } w.cursor r.2.1 toBlock with
    hstay | ⟨n, hfold, hmove⟩
  · exact .inl hstay
  right
  have hlow := le_of_foldl_scanAll hto hfold
  obtain ⟨-, hread, -⟩ := foldl_narrow_eq_some hfold
  dsimp only
  rw [hmove]
  refine ⟨Nat.lt_succ_of_le hlow, fun b hb hbn c hc log hlog => ?_⟩
  obtain ⟨limit, hlimit, hhandled⟩ := exists_limit hc
  obtain ⟨x, hx, hnx⟩ := hread limit hlimit
  exact hhandled x (Option.join_eq_some_iff.mp hx) log
    (mem_logsIn.mpr ⟨b, hb, by omega, hlog⟩)

/-- The same of a turn. -/
theorem turn_cases : (turn cfg chain s w).1.fromBlock = s.fromBlock ∨
    s.fromBlock < (turn cfg chain s w).1.fromBlock ∧
      ∀ b, s.fromBlock ≤ b → b < (turn cfg chain s w).1.fromBlock →
        ∀ c ∈ cfg.contracts, ∀ log ∈ (chain b).of c, log ∈ (turn cfg chain s w).2 := by
  unfold turn
  dsimp only
  split
  · exact .inl rfl
  · next latest _ =>
    by_cases hconf : latest - cfg.blockConfirmation < s.fromBlock
    · rw [if_pos hconf]
      exact .inl rfl
    · rw [if_neg hconf]
      exact window_cases (not_lt.mp hconf)

/-- The logs a turn handled were. -/
theorem ok_of_mem_turn (h : log ∈ (turn cfg chain s w).2) :
    ∃ reply m', (handle cfg log reply m').1 = .ok () := by
  unfold turn at h
  dsimp only at h
  split at h
  · cases h
  · split at h
    · cases h
    · exact ok_of_mem_scanAll h

/-! ### Every turn -/

/-- The cursor never goes back. -/
theorem fromBlock_mono {i j : ℕ} (h : i ≤ j) :
    (after cfg chain s₀ ws i).fromBlock ≤ (after cfg chain s₀ ws j).fromBlock := by
  induction j, h using Nat.le_induction with
  | base => exact le_rfl
  | succ j _ ih =>
    have hstep := @turn_cases cfg chain (after cfg chain s₀ ws j) (ws j)
    rw [after]
    omega

/-- **What is behind the cursor was handled.** -/
theorem handled_of_lt (i : ℕ) : ∀ b, s₀.fromBlock ≤ b → b < (after cfg chain s₀ ws i).fromBlock →
    ∀ c ∈ cfg.contracts, ∀ log ∈ (chain b).of c, ∃ j < i, log ∈ handledAt cfg chain s₀ ws j := by
  induction i with
  | zero =>
    intro b hb hlt
    exact absurd hlt (not_lt.mpr hb)
  | succ i ih =>
    intro b hb hlt c hc log hlog
    by_cases hbefore : b < (after cfg chain s₀ ws i).fromBlock
    · obtain ⟨j, hj, hmem⟩ := ih b hb hbefore c hc log hlog
      exact ⟨j, by omega, hmem⟩
    · rcases @turn_cases cfg chain (after cfg chain s₀ ws i) (ws i) with hstay | ⟨-, hhandled⟩
      · rw [after, hstay] at hlt
        exact absurd hlt hbefore
      · exact ⟨i, Nat.lt_succ_self i, hhandled b (not_lt.mp hbefore) hlt c hc log hlog⟩

end Indexer

end SelendraBridge
