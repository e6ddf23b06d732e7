import SelendraBridge.SolanaSource.Event
import SelendraBridge.SolanaSource.Origin
import SelendraBridge.Validator.HandleLog

/-!
# What the relayer signs

The relayer takes the lines that the gate's own frames left in the log of a transaction, and signs
the id of an event only after a chain of refusals (`SelendraBridge.SolanaSource.handle`).

| refused | because of | and then |
|---|---|---|
| what does not parse, or has another id than its fields | the line | set aside |
| an event of another chain | the line | set aside |
| an asset that is not registered, a record that does not agree | the chain | passed over |
| a scale that the destination does not share | another chain | passed over |
| an asset or a pair of chains that is not allowed | the store | passed over |
| anything that cannot be read | – | the transaction is tried again |

Whoever writes the lines, and however many: what is signed was sent, hashes to its id, and had not
been refunded when its record was read (`SelendraBridge.SolanaSource.signed_are_live`). All the
answers of the outside are arbitrary, but for what the chain says of the record's account.
-/

namespace SelendraBridge

namespace SolanaSource

open Revert Solana Solana.Logs Transition
open BridgeSolana (AssetAccount assetAccount decode verifySentRecord)
open SigStore (trim)
open Store hiding SentEvent
open Validator (Allowlist)

/-! ### The relayer and what it talks to -/

/-- `Scanner`: what stays the same while a transaction is processed. -/
structure Scanner where
  /-- The program's address, as logs have it. -/
  programId : Text
  bridgeDomain : Bytes32
  chainId : U64
  signerAddress : Text
  sign : Bytes32 → Text
  allowlist : Option Allowlist
  /-- The chains that there is a reader for. -/
  evmGates : List U64

/-- Why an event is set aside. -/
inductive Reason
  | malformed (e : LineError)
  | undecodable (why : String)
  | unsignable (why : String)
  | refused (status : ℕ) (body : Text)
  deriving DecidableEq, Repr

/-- What changes: the list in the state file, the scales that were read, and what the store was
sent. -/
structure State where
  quarantined : List (Text × Reason)
  scaleCache : U64 × Bytes32 → Option UInt8
  posted : List SignedRecord

/-- What the store says to a record. -/
inductive UpsertReply
  | stored
  /-- `StoreRejected`. -/
  | rejected (status : ℕ) (body : Text)
  | failed
  deriving DecidableEq, Repr

/-- What the outside answers while one line is processed; `none` is an error of the endpoint. -/
structure Replies where
  /-- The read in `asset_for`. -/
  asset : Pubkey → Option (Option Account)
  /-- The read in `origin_proof_holds`. -/
  sent : Pubkey → Option (Option Account)
  /-- `bridge_decimals_for`. -/
  bridgeDecimals : Option (Option UInt8)
  upsert : UpsertReply
  /-- Whether the state file can be written. -/
  saves : Bool

/-- What stops a transaction, to be tried again. -/
inductive Fault
  /-- The event is of a later version than the relayer. -/
  | ahead (version : UInt8)
  | unsignable (why : String)
  | rpc
  /-- `PermanentRejection`. -/
  | rejected (status : ℕ) (body : Text)
  | store
  | stateFile
  deriving DecidableEq, Repr

/-- `StoreRejected::is_permanent`. -/
def isPermanent (status : ℕ) : Bool := [400, 409, 413, 422].contains status

/-- `MAX_QUARANTINED`. -/
def MAX_QUARANTINED : ℕ := 1024

/-- **`quarantine`**: an event is set aside once, and the oldest make room. -/
def quarantine (st : State) (tx : Text) (reason : Reason) (saves : Bool) :
    Except Fault Bool × State :=
  if (tx, reason) ∈ st.quarantined then (.ok false, st)
  else
    let quarantined := st.quarantined ++ [(tx, reason)]
    let st := { st with quarantined := quarantined.drop (quarantined.length - MAX_QUARANTINED) }
    if saves then (.ok false, st) else (.error .stateFile, st)

/-- `payload_version`. -/
def payloadVersion (line : Text) : Option UInt8 := do
  let rest ← stripText PROGRAM_DATA_PREFIX (trim line)
  let payload ← (splitWhitespace rest).tail.head?
  let bytes ← Base64.decode payload
  bytes.head?

section Checks

variable (R : Runtime)

/-- `asset_for`, from what the endpoint answered. -/
def assetFor (account : Option Account) : Option AssetAccount :=
  account.bind fun a => if a.owner ≠ R.programId then none else decode assetAccount a.data

/-- `origin_proof_holds`, from what the endpoint answered. -/
def originProofHolds (event : SentEvent) (asset : AssetAccount) (account : Option Account) :
    Bool :=
  match asset.bridgeUnit with
  | none => false
  | some unit =>
    let view := account.map fun a => (decide (a.owner = R.programId), a.data)
    (verifySentRecord view event unit).toOption.isSome

/-- `scale_agrees`: only a scale that was read is remembered. -/
def scaleAgrees (c : Scanner) (st : State) (read : Option (Option UInt8)) (sent : Sent)
    (asset : AssetAccount) : Except Fault Bool × State :=
  if c.evmGates.contains sent.chainIdTo = false then (.ok false, st)
  else
    match st.scaleCache (sent.chainIdTo, sent.debridgeId) with
    | some destination => (.ok (decide (destination = asset.bridgeDecimals)), st)
    | none =>
      match read with
      | none => (.error .rpc, st)
      | some none => (.ok false, st)
      | some (some destination) =>
        (.ok (decide (destination = asset.bridgeDecimals)),
          { st with scaleCache :=
              Function.update st.scaleCache (sent.chainIdTo, sent.debridgeId) (some destination) })

/-- `allowlist_permits`. -/
def allowlistPermits (allowlist : Option Allowlist) (debridgeId : Text) (chainFrom chainTo : U64) :
    Bool :=
  match allowlist with
  | none => true
  | some allow => allow.tokenAllowed debridgeId && allow.chainAllowed chainFrom chainTo

/-- The end of `handle`: the record is signed, and the store is sent it. -/
def post (c : Scanner) (st : State) (sent : Sent) (reply : UpsertReply) :
    Except Fault Bool × State :=
  let record := signedRecord c.signerAddress c.sign c.bridgeDomain sent
  let st := { st with posted := st.posted ++ [record] }
  match reply with
  | .stored => (.ok true, st)
  | .rejected status body =>
    if isPermanent status then (.error (.rejected status body), st) else (.error .store, st)
  | .failed => (.error .store, st)

/-- **`handle`**. -/
def handle (c : Scanner) (st : State) (event : SentEvent) (sent : Sent) (r : Replies) :
    Except Fault Bool × State :=
  match signable R.keccak256 sent c.bridgeDomain c.chainId with
  | .error why => (.error (.unsignable why), st)
  | .ok _ =>
    match r.asset (R.findProgramAddress (assetSeeds event.debridgeId)) with
    | none => (.error .rpc, st)
    | some account =>
      match assetFor R account with
      | none => (.ok false, st)
      | some asset =>
        match r.sent (R.findProgramAddress (sentSeeds sent.submissionId)) with
        | none => (.error .rpc, st)
        | some account =>
          if originProofHolds R event asset account = false then (.ok false, st)
          else
            match scaleAgrees c st r.bridgeDecimals sent asset with
            | (.error fault, st) => (.error fault, st)
            | (.ok false, st) => (.ok false, st)
            | (.ok true, st) =>
              if allowlistPermits c.allowlist (hexText (wordBytes sent.debridgeId))
                  sent.chainIdFrom sent.chainIdTo = false then (.ok false, st)
              else post c st sent r.upsert

/-- **`process_line`**. -/
def processLine (c : Scanner) (st : State) (tx line : Text) (r : Replies) :
    Except Fault Bool × State :=
  match parseSentEventLine line with
  | none => (.ok false, st)
  | some (.error e) =>
    match (payloadVersion line).filter fun v => SENT_EVENT_VERSION < v with
    | some v => (.error (.ahead v), st)
    | none => quarantine st tx (.malformed e) r.saves
  | some (.ok event) =>
    if SENT_EVENT_VERSION < event.version then (.error (.ahead event.version), st)
    else
      match toSent event with
      | .error why => quarantine st tx (.undecodable why) r.saves
      | .ok sent =>
        match signable R.keccak256 sent c.bridgeDomain c.chainId with
        | .error why => quarantine st tx (.unsignable why) r.saves
        | .ok _ =>
          match handle R c st event sent r with
          | (.error (.rejected status body), st) => quarantine st tx (.refused status body) r.saves
          | other => other

/-- The loop of `tick` over the lines of one transaction: how many were signed and stored. -/
def processLines (c : Scanner) (tx : Text) (replies : ℕ → Replies) :
    State → ℕ → List Text → Except Fault ℕ × State
  | st, _, [] => (.ok 0, st)
  | st, i, line :: lines =>
    match processLine R c st tx line (replies i) with
    | (.error fault, st) => (.error fault, st)
    | (.ok signed, st) =>
      match processLines c tx replies st (i + 1) lines with
      | (.error fault, st) => (.error fault, st)
      | (.ok handled, st) => (.ok (handled + signed.toNat), st)

/-- **One transaction**: the lines that the gate's frames left, and no others. -/
def processTransaction (c : Scanner) (st : State) (tx : Text) (logs : List Text)
    (replies : ℕ → Replies) : Except Fault ℕ × State :=
  processLines R c tx replies st 0 (gateProgramDataLines logs c.programId)

end Checks

/-! ### What is posted -/

section Posted

variable {R : Runtime} {c : Scanner} {st : State} {event : SentEvent} {sent : Sent} {r : Replies}

/-- What holds when the record of an event is posted. -/
structure Posts (R : Runtime) (c : Scanner) (event : SentEvent) (r : Replies) : Prop where
  signable : signable R.keccak256 (sentOf event) c.bridgeDomain c.chainId = .ok ()
  proof : ∃ asset account, r.sent (R.findProgramAddress (sentSeeds event.submissionId)) =
    some account ∧ originProofHolds R event asset account = true

/-- What a line may add to what was posted. -/
def Adds (R : Runtime) (c : Scanner) (r : Replies) (line : Text)
    (posted posted' : List SignedRecord) : Prop :=
  posted' = posted ∨ ∃ event, parseSentEventLine line = some (.ok event) ∧ Posts R c event r ∧
    posted' = posted ++ [signedRecord c.signerAddress c.sign c.bridgeDomain (sentOf event)]

theorem quarantine_posted (tx : Text) (reason : Reason) (saves : Bool) :
    (quarantine st tx reason saves).2.posted = st.posted := by
  unfold quarantine
  split
  · rfl
  · dsimp only
    split <;> rfl

theorem scaleAgrees_posted (read : Option (Option UInt8)) (asset : AssetAccount) :
    (scaleAgrees c st read sent asset).2.posted = st.posted := by
  unfold scaleAgrees
  split
  · rfl
  · split
    · rfl
    · split <;> rfl

theorem post_posted (reply : UpsertReply) : (post c st sent reply).2.posted =
    st.posted ++ [signedRecord c.signerAddress c.sign c.bridgeDomain sent] := by
  unfold post
  dsimp only
  split
  · rfl
  · split <;> rfl
  · rfl

/-- **A record is posted only after the proof of its origin.** -/
theorem handle_posted : (handle R c st event (sentOf event) r).2.posted = st.posted ∨
    Posts R c event r ∧ (handle R c st event (sentOf event) r).2.posted =
      st.posted ++ [signedRecord c.signerAddress c.sign c.bridgeDomain (sentOf event)] := by
  unfold handle
  split
  · exact .inl rfl
  · next hsignable =>
    split
    · exact .inl rfl
    · split
      · exact .inl rfl
      · next asset _ =>
        split
        · exact .inl rfl
        · next account hread =>
          split
          · exact .inl rfl
          · next hproof =>
            have hposts : Posts R c event r :=
              ⟨hsignable, asset, account, hread, Bool.not_eq_false _ ▸ hproof⟩
            have hscale := @scaleAgrees_posted c st (sentOf event) r.bridgeDecimals asset
            split
            · next h => exact .inl (h ▸ hscale)
            · next h => exact .inl (h ▸ hscale)
            · next h =>
              rw [h] at hscale
              split
              · exact .inl hscale
              · exact .inr ⟨hposts, by rw [post_posted, hscale]⟩

/-- **What one line adds.** -/
theorem processLine_posted (tx line : Text) :
    Adds R c r line st.posted (processLine R c st tx line r).2.posted := by
  unfold processLine
  split
  · exact .inl rfl
  · split
    · exact .inl rfl
    · exact .inl (quarantine_posted ..)
  · next event hparse =>
    split
    · exact .inl rfl
    · split
      · exact .inl (quarantine_posted ..)
      · next sent hsent =>
        obtain rfl : sentOf event = sent := by
          rw [toSent] at hsent
          split at hsent
          · exact absurd hsent (by simp)
          · exact Except.ok.inj hsent
        split
        · exact .inl (quarantine_posted ..)
        · have hadds : Adds R c r line st.posted
              (handle R c st event (sentOf event) r).2.posted := by
            rcases handle_posted with heq | ⟨hposts, heq⟩
            · exact .inl heq
            · exact .inr ⟨event, hparse, hposts, heq⟩
          split
          · next h =>
            rw [h] at hadds
            rwa [quarantine_posted]
          · exact hadds

/-- **What the lines of a transaction add**, one after the other. -/
theorem processLines_posted (tx : Text) (replies : ℕ → Replies) (lines : List Text) (i : ℕ) :
    ∃ new, (processLines R c tx replies st i lines).2.posted = st.posted ++ new ∧
      ∀ record ∈ new, ∃ j event, (∃ line ∈ lines, parseSentEventLine line = some (.ok event)) ∧
        Posts R c event (replies j) ∧
        record = signedRecord c.signerAddress c.sign c.bridgeDomain (sentOf event) := by
  induction lines generalizing st i with
  | nil => exact ⟨[], (List.append_nil _).symm, fun _ h => absurd h List.not_mem_nil⟩
  | cons line lines ih =>
    -- what the first line adds, and then what the others do
    have hfirst : ∃ new, (processLine R c st tx line (replies i)).2.posted = st.posted ++ new ∧
        ∀ record ∈ new, ∃ j event,
          (∃ l ∈ line :: lines, parseSentEventLine l = some (.ok event)) ∧
          Posts R c event (replies j) ∧
          record = signedRecord c.signerAddress c.sign c.bridgeDomain (sentOf event) := by
      rcases @processLine_posted R c st (replies i) tx line with heq | ⟨event, hparse, hposts, heq⟩
      · exact ⟨[], by rw [heq, List.append_nil], fun _ h => absurd h List.not_mem_nil⟩
      · refine ⟨_, heq, ?_⟩
        rintro record hrecord
        obtain rfl := List.mem_singleton.mp hrecord
        exact ⟨i, event, ⟨line, List.mem_cons_self, hparse⟩, hposts, rfl⟩
    obtain ⟨new₁, heq₁, hnew₁⟩ := hfirst
    rw [processLines]
    split
    · next h => exact ⟨new₁, by rw [← heq₁, h], hnew₁⟩
    · next st₁ h =>
      rw [h] at heq₁
      obtain ⟨new₂, heq₂, hnew₂⟩ := @ih st₁ (i + 1)
      have hboth : st₁.posted ++ new₂ = st.posted ++ (new₁ ++ new₂) := by
        rw [heq₁, List.append_assoc]
      have hnew : ∀ record ∈ new₁ ++ new₂, ∃ j event,
          (∃ l ∈ line :: lines, parseSentEventLine l = some (.ok event)) ∧
          Posts R c event (replies j) ∧
          record = signedRecord c.signerAddress c.sign c.bridgeDomain (sentOf event) := by
        rintro record hrecord
        rcases List.mem_append.mp hrecord with h₁ | h₂
        · exact hnew₁ record h₁
        · obtain ⟨j, event, ⟨l, hl, hparse⟩, hrest⟩ := hnew₂ record h₂
          exact ⟨j, event, ⟨l, List.mem_cons_of_mem _ hl, hparse⟩, hrest⟩
      split
      · next h' => exact ⟨_, by rw [h'] at heq₂; exact heq₂.trans hboth, hnew⟩
      · next h' => exact ⟨_, by rw [h'] at heq₂; exact heq₂.trans hboth, hnew⟩

end Posted

/-! ### What is signed was sent -/

/-- An account that the relayer read proves its event only if the chain has a record there. -/
theorem Posts.live {R : Runtime} (hR : R.Lawful) {s₀ s : Accounts} {tr : List Step}
    (h₀ : Deployed R s₀) (hrun : Run (exec R) s₀ tr s) {c : Scanner} {event : SentEvent}
    {r : Replies} (hinj : ∀ sd ∈ tr.flatMap (writesOf R),
      R.findProgramAddress sd = R.findProgramAddress (sentSeeds event.submissionId) →
        sd = sentSeeds event.submissionId)
    (htrue : ∀ k account, r.sent k = some (some account) → (s k).Same account)
    (h : Posts R c event r) :
    (∃ e ∈ tr, ∃ a x asset, Solana.Sent R e a x asset event.submissionId) ∧
      event.submissionId ∉ refunds tr := by
  obtain ⟨asset, account, hread, hproof⟩ := h.proof
  unfold originProofHolds at hproof
  split at hproof
  · exact absurd hproof Bool.false_ne_true
  · obtain ⟨record, hrecord⟩ := Option.isSome_iff_exists.mp hproof
    refine live_of_verified hR h₀ hrun hinj ?_ (toOption_eq_some.mp hrecord)
    rintro a rfl
    exact htrue _ _ hread

/-- **Only what was sent, and is alive, is signed.** Let a transaction have any log whatsoever, and
let the outside answer anything – but when the relayer reads the account of a record while it
processes the `i`-th line, let it get what that account is after the run `seen i`. Then for every
record that it signs and posts there is an event, of one of the lines that it was given, with which
it agrees, such that

* the id is the hash of the event's fields under the relayer's domain, the event is from the
  relayer's chain, and the store computes the id from the record, if it has room for the payload;
* a send of this id went through before the account was read;
* and no refund of it. -/
theorem signed_are_live {R : Runtime} (hR : R.Lawful) {s₀ : Accounts} (h₀ : Deployed R s₀)
    (c : Scanner) (st : State) (tx : Text) (logs : List Text) {replies : ℕ → Replies}
    {seen : ℕ → List Step × Accounts} (hrun : ∀ i, Run (exec R) s₀ (seen i).1 (seen i).2)
    (htrue : ∀ i k account, (replies i).sent k = some (some account) →
      ((seen i).2 k).Same account)
    (hinj : ∀ i e, (∃ line ∈ gateProgramDataLines logs c.programId,
        parseSentEventLine line = some (.ok e)) →
      ∀ sd ∈ (seen i).1.flatMap (writesOf R),
        R.findProgramAddress sd = R.findProgramAddress (sentSeeds e.submissionId) →
          sd = sentSeeds e.submissionId) :
    ∃ new, (processTransaction R c st tx logs replies).2.posted = st.posted ++ new ∧
      ∀ record ∈ new, ∃ i e, (∃ line ∈ gateProgramDataLines logs c.programId,
          parseSentEventLine line = some (.ok e)) ∧
        record = signedRecord c.signerAddress c.sign c.bridgeDomain (sentOf e) ∧
        submissionId R.keccak256 c.bridgeDomain e.params = e.submissionId ∧
        e.chainIdFrom = c.chainId ∧
        (∀ P : Parsers, P.Lawful → (∀ ap, (Abi.encodeAutoParamsTo ap).length < 2 ^ 64 →
            P.abiDecode (Abi.encodeAutoParamsTo ap) = some ap) → Fits e →
          canonicalSubmissionId R.keccak256 P record.params = .ok e.submissionId) ∧
        (∃ step ∈ (seen i).1, ∃ a x asset, Solana.Sent R step a x asset e.submissionId) ∧
        e.submissionId ∉ refunds (seen i).1 := by
  obtain ⟨new, heq, hnew⟩ := @processLines_posted R c st tx replies
    (gateProgramDataLines logs c.programId) 0
  refine ⟨new, heq, fun record hrecord => ?_⟩
  obtain ⟨i, e, hline, hposts, rfl⟩ := hnew record hrecord
  obtain ⟨hid, hchain⟩ := (signable_sentOf _ _).mp hposts.signable
  obtain ⟨hsent, hlive⟩ := hposts.live hR h₀ (hrun i) (hinj i e hline) (htrue i)
  refine ⟨i, e, hline, rfl, hid, hchain, fun P hP habi hfits => ?_, hsent, hlive⟩
  exact (canonicalSubmissionId_recordOf hP habi _ hfits).trans (congrArg Except.ok hid)

/-- The event of the first transfer. -/
def firstSent : SentEvent :=
  ⟨SENT_EVENT_VERSION, Cluster.transferId, Cluster.debridgeId, Cluster.mint, 1000, 6, 7565164, 1, 0,
    addressBytes 0xbb, wordBytes Cluster.payer, none⟩

/-- A log with its line in a frame of the gate, and once more after it. -/
def firstLogs : List Text :=
  (Trace.invoke sampleGate (.data (Base64.encode SENT_EVENT_TAG ++
    ' ' :: Base64.encode (sentEventCodec.put firstSent)) .done) none none .done).lines 1 ++
    [sentEventToProgramDataLine firstSent]

/-- A relayer of the cluster. -/
def sampleScanner : Scanner := ⟨sampleGate.1, 0xd0, 7565164, [], fun _ => [], none, [1]⟩

/-- The answers once the transfer went through. -/
def sampleReplies : Replies where
  asset := fun k => some (some (Cluster.filled k))
  sent := fun k => some (some (Cluster.filled k))
  bridgeDecimals := some (some 6)
  upsert := .stored
  saves := true

/-- A transfer is sent, and its line is in the log twice: what is outside of the gate's frame is not
looked at, and the id is signed once. -/
theorem signed_are_live_first : ∃ record,
    (processTransaction Cluster.runtime sampleScanner ⟨[], fun _ => none, []⟩ [] firstLogs
      fun _ => sampleReplies).2.posted = [record] ∧
    record.params.submissionId = hexText (wordBytes Cluster.transferId) ∧
    ∃ step ∈ (traceOf (exec Cluster.runtime) Cluster.deployed
        (Cluster.wiring ++ [Cluster.sending])).1,
      ∃ a x asset, Solana.Sent Cluster.runtime step a x asset Cluster.transferId := by
  have hlines : gateProgramDataLines firstLogs sampleScanner.programId =
      [sentEventToProgramDataLine firstSent] := by decide +kernel
  have hfirst : ∀ e, (∃ line ∈ gateProgramDataLines firstLogs sampleScanner.programId,
      parseSentEventLine line = some (.ok e)) → e = firstSent := by
    rintro e ⟨line, hline, hparse⟩
    rw [hlines] at hline
    obtain rfl := List.mem_singleton.mp hline
    have hvalid : sentEventCodec.Valid firstSent :=
      valid_sentEvent (by decide) (by decide) fun w hw => absurd hw (Option.some_ne_none w).symm
    rw [parseSentEventLine_line hvalid] at hparse
    exact (Except.ok.inj (Option.some.inj hparse)).symm
  have hseeds : ∀ sd ∈ (traceOf (exec Cluster.runtime) Cluster.deployed
      (Cluster.wiring ++ [Cluster.sending])).1.flatMap (writesOf Cluster.runtime),
        Cluster.runtime.findProgramAddress sd =
            Cluster.runtime.findProgramAddress (sentSeeds Cluster.transferId) →
          sd = sentSeeds Cluster.transferId := by decide +kernel
  have htrue : ∀ k account, sampleReplies.sent k = some (some account) →
      (Cluster.filled k).Same account := by
    rintro k account h
    obtain rfl := Option.some.inj (Option.some.inj h)
    exact ⟨rfl, rfl⟩
  have hlength : (processTransaction Cluster.runtime sampleScanner ⟨[], fun _ => none, []⟩ []
      firstLogs fun _ => sampleReplies).2.posted.length = 1 := by decide +kernel
  obtain ⟨new, heq, hnew⟩ := @signed_are_live Cluster.runtime Cluster.lawful _
    Cluster.deployed_deployed sampleScanner ⟨[], fun _ => none, []⟩ [] firstLogs
    (fun _ => sampleReplies)
    (fun _ => traceOf (exec Cluster.runtime) Cluster.deployed
      (Cluster.wiring ++ [Cluster.sending]))
    (fun _ => run_traceOf (by decide +kernel)) (fun _ => htrue)
    fun _ e he => hfirst e he ▸ hseeds
  obtain ⟨record, hrecord⟩ := List.length_eq_one_iff.mp hlength
  refine ⟨record, hrecord, ?_⟩
  have hmem : record ∈ new := by
    rw [hrecord, List.nil_append] at heq
    exact heq ▸ List.mem_singleton_self record
  obtain ⟨_, e, he, rfl, -, -, -, hsent, -⟩ := hnew record hmem
  obtain rfl := hfirst e he
  exact ⟨rfl, hsent⟩

end SolanaSource

end SelendraBridge
