import SelendraBridge.Store.Signatures
import SelendraBridge.Validator.State

/-!
# What a validator makes of one event

`handle_log` decides in this order: a number over 64 bits is passed over at once; the
nonce is checked; then a payload that does not decode, a record the store cannot hold, an
asset or a pair of chains that is not allowed, and a scale the two ends do not agree on are
each skipped, with the nonce consumed; an id that does not recompute pauses the scanner;
and what is left is signed and stored (`SelendraBridge.Validator.examine`).

The nonce check and the consumption of the nonce take the lock and are steps of the
machine. What stands between them here is the rest, as a function of the event and of what
the outside answers: the read of the destination's scale, the signer, and the store
(`SelendraBridge.Validator.Replies`).
-/

namespace SelendraBridge

namespace Validator

open Store

/-! ### Allowlists -/

/-- The fetched allowlists, in lower case. -/
structure Allowlist where
  debridgeIds : List Text
  chains : List (U64 × U64)
  deriving DecidableEq, Repr

/-- An empty list allows everything. -/
def Allowlist.tokenAllowed (allow : Allowlist) (debridgeId : Text) : Bool :=
  allow.debridgeIds.isEmpty || allow.debridgeIds.contains (lower debridgeId)

/-- An empty list allows every pair. -/
def Allowlist.chainAllowed (allow : Allowlist) (chainFrom chainTo : U64) : Bool :=
  allow.chains.isEmpty || allow.chains.contains (chainFrom, chainTo)

/-! ### The scale of the destination -/

/-- What the two ends say about an asset's scale. -/
inductive Verdict
  | agree (scale : UInt8)
  | mismatch (source destination : UInt8)
  | unknown (why : String)
  deriving DecidableEq, Repr

/-- The peers a scanner was configured with, and the scales it has read from them. -/
structure ScaleGuard where
  peers : List U64
  destCache : U64 × Bytes32 → Option UInt8

/-- The verdict once both scales are known. -/
def compareScales (source destination : UInt8) : Verdict :=
  if source = destination then .agree source else .mismatch source destination

/-- **The scale verdict**, given what a read of the destination answers: `none` is a read
that failed, `some none` a destination that reports no scale. Only scales that were read are
cached. -/
def ScaleGuard.verdict (g : ScaleGuard) (read : Option (Option UInt8)) (source : UInt8)
    (chainIdTo : U64) (debridgeId : Bytes32) : Option (Verdict × ScaleGuard) :=
  if chainIdTo ∉ g.peers then
    some (.unknown "destination chain not configured on this validator", g)
  else
    match g.destCache (chainIdTo, debridgeId) with
    | some destination => some (compareScales source destination, g)
    | none =>
      match read with
      | none => none
      | some none => some (.unknown "destination did not report bridge decimals", g)
      | some (some destination) =>
        some (compareScales source destination,
          { g with destCache :=
              Function.update g.destCache (chainIdTo, debridgeId) (some destination) })

/-! ### The batch's own memory -/

/-- The ids stored while working on the window that starts at `fromBlock`. -/
structure BatchProgress where
  fromBlock : Option ℕ
  stored : List Bytes32

/-- The set for the window starting at `fromBlock`, cleared if it was kept for another. -/
def BatchProgress.forWindow (p : BatchProgress) (fromBlock : ℕ) : BatchProgress :=
  if p.fromBlock ≠ some fromBlock then ⟨some fromBlock, []⟩ else p

/-! ### Events -/

/-- A scanner's configuration, and the code it is built on. -/
structure Config where
  keccak256 : Bytes → Bytes32
  parsers : Parsers
  /-- The validator's address, as text. -/
  signer : Text
  /-- The signature over an id, encoded: signing is deterministic. -/
  sign : Bytes32 → Text
  /-- The gate's own domain, read from it when the scan starts. -/
  bridgeDomain : Bytes32
  peers : List U64

variable (cfg : Config)

/-- `Submission::from_sent_event`: the payload, unless it does not decode. -/
def submissionAuto (ev : SentEvent) : Option (Option AutoParams) :=
  decodeAutoParams cfg.parsers ev.autoParams ev.nativeSender

/-- `Submission::compute_id`: the id recomputed from an event's parameters. -/
def computeId (ev : SentEvent) (auto : Option AutoParams) : Bytes32 :=
  let packed := BridgeCore.packedSubmission cfg.bridgeDomain ev.debridgeId ev.bridgeDecimals
    ev.amount ev.chainIdFrom ev.chainIdTo ev.nonce ev.receiver
  match auto with
  | none => cfg.keccak256 packed
  | some auto => cfg.keccak256 (packed ++ BridgeCore.packedAuto cfg.keccak256 auto)

/-- This validator's signature over an id, as it is stored. -/
def signerSig (id : Bytes32) : SignerSig := ⟨cfg.signer, cfg.sign id⟩

/-- Why an event is skipped, with no signature. -/
inductive Skip
  | overU64
  | undecodable
  | unstorable (reason : StoreError)
  | blocked
  | scaleMismatch (source destination : UInt8)
  | scaleUnknown (why : String)
  deriving DecidableEq, Repr

/-- What the store does with an upsert: it may also hold the record and fail to say so. -/
inductive SinkReply
  | stored
  | refused
  | unanswered
  deriving DecidableEq, Repr

/-- What the outside answers while one event is handled. -/
structure Replies where
  /-- The read of the destination's scale. -/
  read : Option (Option UInt8)
  /-- Whether the signer signs. -/
  signs : Bool
  sink : SinkReply
  deriving DecidableEq, Repr

/-- What becomes of an event past the nonce check. -/
inductive Finding
  /-- Skipped; its nonce is consumed. -/
  | skipped (why : Skip)
  /-- Its id does not recompute; the scanner pauses. -/
  | mismatch
  /-- A read, the signer or the store failed; the batch fails. -/
  | failed (held : Bool)
  /-- Stored by an earlier attempt at the same window. -/
  | known
  /-- Signed and stored. -/
  | stored
  deriving DecidableEq, Repr

/-- Signing and storing, unless an earlier attempt at this window did. -/
def signAndStore (known : List Bytes32) (id : Bytes32) (replies : Replies) : Finding :=
  if known.contains id then .known
  else if replies.signs = false then .failed false
  else
    match replies.sink with
    | .stored => .stored
    | .refused => .failed false
    | .unanswered => .failed true

/-- Whether the allowlist of a batch forbids an event. -/
def blocked (allowlist : Option Allowlist) (ev : SentEvent) (record : SubmissionRecord) : Bool :=
  match allowlist with
  | none => false
  | some allow =>
    !allow.tokenAllowed (hexText (wordBytes ev.debridgeId)) ||
      !allow.chainAllowed record.chainIdFrom record.chainIdTo

/-- **What `handle_log` makes of an event**, from the nonce check on. -/
def examine (allowlist : Option Allowlist) (known : List Bytes32) (g : ScaleGuard)
    (replies : Replies) (ev : SentEvent) (record : SubmissionRecord) : Finding × ScaleGuard :=
  match submissionAuto cfg ev with
  | none => (.skipped .undecodable, g)
  | some auto =>
    if computeId cfg ev auto ≠ ev.submissionId then (.mismatch, g)
    else
      match checkStorable record with
      | .error reason => (.skipped (.unstorable reason), g)
      | .ok _ =>
        if blocked allowlist ev record then (.skipped .blocked, g)
        else
          match g.verdict replies.read ev.bridgeDecimals record.chainIdTo ev.debridgeId with
          | none => (.failed false, g)
          | some (.mismatch source destination, g') =>
            (.skipped (.scaleMismatch source destination), g')
          | some (.unknown why, g') => (.skipped (.scaleUnknown why), g')
          | some (.agree _, g') => (signAndStore known ev.submissionId replies, g')

variable {cfg}

/-- An event is taken as known only if its id is in the batch's memory. -/
theorem contains_of_examine_known {allowlist : Option Allowlist} {known : List Bytes32}
    {g : ScaleGuard} {replies : Replies} {ev : SentEvent} {record : SubmissionRecord}
    (h : (examine cfg allowlist known g replies ev record).1 = .known) :
    ev.submissionId ∈ known := by
  have hsign : signAndStore known ev.submissionId replies = .known := by
    unfold examine at h
    split at h
    · cases h
    · split at h
      · cases h
      · split at h
        · cases h
        · split at h
          · cases h
          · split at h
            all_goals first
              | exact h
              | cases h
  unfold signAndStore at hsign
  split at hsign
  · next hk => simpa using hk
  · split at hsign
    · cases hsign
    · split at hsign <;> cases hsign

/-- **Only an id that does not recompute is a mismatch.** -/
theorem computeId_ne_of_examine_mismatch {allowlist : Option Allowlist} {known : List Bytes32}
    {g : ScaleGuard} {replies : Replies} {ev : SentEvent} {record : SubmissionRecord}
    (h : (examine cfg allowlist known g replies ev record).1 = .mismatch) :
    ∃ auto, submissionAuto cfg ev = some auto ∧ computeId cfg ev auto ≠ ev.submissionId := by
  have hsign : signAndStore known ev.submissionId replies ≠ .mismatch := by
    unfold signAndStore
    split
    · exact fun hc => by cases hc
    · split
      · exact fun hc => by cases hc
      · split <;> exact fun hc => by cases hc
  unfold examine at h
  split at h
  · cases h
  · next auto hauto =>
    split at h
    · next hne => exact ⟨auto, hauto, hne⟩
    · split at h
      · cases h
      · split at h
        · cases h
        · split at h
          all_goals first
            | exact absurd h hsign
            | cases h

end Validator

end SelendraBridge
