import SelendraBridge.Signers.Past
import SelendraBridge.Store.Signatures
import SelendraBridge.Validator.Corroboration

/-!
# The refund loop of a validator

The loop takes candidates from the store, whose word is not taken for anything, and reads both
chains of a candidate for itself.

| to sign | the destination says | the source says |
|---|---|---|
| a cancel | not executed | sent, not refunded, and sent already at a block that is old enough |
| a refund | cancelled | sent and not refunded, where there is a reader for it |

Every read goes to all endpoints of a chain, at one block, and needs a majority. The age is by the
clock of the source alone: a block is looked for whose timestamp is the timeout or more before that
of the confirmed head, with steps back that double
(`SelendraBridge.Signers.agedBlockFrom`).
-/

namespace SelendraBridge

namespace Signers

open Store
open Provider (majority majorityFloor)

variable {ε : Type}

/-! ### Reading a gate -/

/-- `min_agree`. -/
def minAgree (configured : ℕ) (require : Bool) : ℕ :=
  if 2 ≤ configured ∨ require = true then 2 else 1

/-- `GateReader`. -/
structure GateReader (ε : Type) where
  chainId : U64
  gate : Address
  endpoints : List ε
  blockConfirmation : ℕ
  minAgree : ℕ

/-- `DestinationState`. -/
structure DestinationState where
  executed : Bool
  cancelled : Bool
  deriving DecidableEq, Repr

/-- `SourceState`. -/
structure SourceState where
  sentBy : Address
  refunded : Bool
  deriving DecidableEq, Repr

/-- The least and the largest number of 64 bits with a sign. -/
def i64Min : ℤ := -2 ^ 63

@[inherit_doc i64Min]
def i64Max : ℤ := 2 ^ 63 - 1

/-- `i64::saturating_sub`. -/
def saturatingSub (a b : ℤ) : ℤ := max i64Min (min i64Max (a - b))

/-- `u64::saturating_mul(2)`. -/
def doubled (step : ℕ) : ℕ := min (2 * step) (2 ^ 64 - 1)

/-- The steps back of `aged_block_on`. -/
def agedBlockFrom (e : ε) (headNum : ℕ) (target : ℤ) : ℕ → ℕ → Reading ε (Option ℕ)
  | 0, _ => pure none
  | rounds + 1, step =>
    if headNum < step then pure none
    else do
      let candidate := headNum - step
      let timestamp ← blockTimestamp e candidate
      if timestamp.toInt ≤ target then pure (some candidate)
      else agedBlockFrom e headNum target rounds (doubled step)

/-- The first step back: as many blocks as the timeout has, at twelve seconds each. -/
def firstStep (timeoutSecs : BitVec 64) : ℕ := max ((max timeoutSecs.toInt 1).toNat / 12) 1

/-- `aged_block_on`. -/
def agedBlockOn (e : ε) (headNum : ℕ) (timeoutSecs : BitVec 64) : Reading ε (Option ℕ) := do
  let head ← blockTimestamp e headNum
  let target := saturatingSub head.toInt timeoutSecs.toInt
  agedBlockFrom e headNum target 24 (firstStep timeoutSecs)

/-- An answer in the order of `Option`: none is below all others. -/
def vouched : Option ℕ → WithBot ℕ
  | some block => (block : WithBot ℕ)
  | none => ⊥

/-- `agreed_aged_block`. -/
def agreedAgedBlock (found : List (Option ℕ)) : Option ℕ :=
  (majorityFloor (found.map vouched)).bind (WithBot.recBotCoe none some)

namespace GateReader

variable (r : GateReader ε) (url : ε → String)

/-- `agreed`, which is `read_agreed` over the endpoints of the reader. -/
def agreed {T : Type} [DecidableEq T] (debug : List (String × T) → String)
    (read : ε → Reading ε T) : Reading ε T := do
  let answers ← Ask.askAll read r.endpoints
  Ask.orFail (majority debug (answers.map fun x => (url x.1, x.2)) r.minAgree).toOption

/-- `confirmed_block`. -/
def confirmedBlock : Reading ε ℕ := do
  let heads ← Ask.askAll getBlockNumber r.endpoints
  Ask.ensure (r.minAgree ≤ heads.length)
  let latest ← Ask.orFail (majorityFloor (heads.map Prod.snd))
  return latest - r.blockConfirmation

/-- `destination_state`. -/
def destinationState (debug : List (String × DestinationState) → String) (id : Bytes32) :
    Reading ε DestinationState := do
  let block ← r.confirmedBlock
  r.agreed url debug fun e => do
    let executed ← callBool e r.gate .executed id block
    let cancelled ← callBool e r.gate .cancelled id block
    return ⟨executed, cancelled⟩

/-- `source_state`. -/
def sourceState (debug : List (String × SourceState) → String) (id : Bytes32) :
    Reading ε SourceState := do
  let block ← r.confirmedBlock
  r.agreed url debug fun e => do
    let sentBy ← callAddress e r.gate .sentBy id block
    let refunded ← callBool e r.gate .refunded id block
    return ⟨sentBy, refunded⟩

/-- `aged_block`. -/
def agedBlock (timeoutSecs : BitVec 64) : Reading ε (Option ℕ) := do
  let headNum ← r.confirmedBlock
  let found ← Ask.askAll (fun e => agedBlockOn e headNum timeoutSecs) r.endpoints
  Ask.ensure (r.minAgree ≤ found.length)
  return agreedAgedBlock (found.map Prod.snd)

/-- `was_sent_by_block`. -/
def wasSentByBlock (debug : List (String × Bool) → String) (id : Bytes32) (block : ℕ) :
    Reading ε Bool :=
  r.agreed url debug fun e => do
    let sentBy ← callAddress e r.gate .sentBy id block
    return decide (sentBy ≠ 0)

end GateReader

/-- `Reader`: what `lookup` finds for a chain. -/
inductive Reader (ε : Type)
  | ready (r : GateReader ε)
  | notReady
  | notConfigured

/-- The source of `handle_candidate`, unless the candidate has to wait for it. -/
def Reader.source : Reader ε → Option (Option (GateReader ε))
  | .ready r => some (some r)
  | .notConfigured => some none
  | .notReady => none

/-! ### Deciding -/

/-- `Decision`. -/
inductive Decision
  | attestCancel
  | attestRefund
  | skip (reason : String)
  deriving DecidableEq, Repr

/-- `decide`. -/
def decision (src : Option SourceState) (dst : DestinationState)
    (agedOut alreadyAttestedCancel alreadyAttestedRefund : Bool) : Decision :=
  if dst.executed = true ∧ dst.cancelled = false then .skip "delivered on destination"
  else if src.any fun src => src.refunded || src.sentBy == 0 then
    .skip "already refunded, or not sent from this gate"
  else if src = none ∧ dst.cancelled = false then
    .skip "source chain unreadable — cancel cannot be attested here"
  else if dst.cancelled = true then
    if alreadyAttestedRefund = true then .skip "refund already attested by us" else .attestRefund
  else if alreadyAttestedCancel = true then .skip "cancel already attested by us"
  else if agedOut = false then .skip "unclaimed timeout has not elapsed (verified on-chain)"
  else .attestCancel

/-- What `handle_candidate` concludes: is the source known not to have sent it, and what is
signed. -/
structure Concluded where
  notSent : Bool
  attests : Option SigKind
  deriving DecidableEq, Repr

/-- **What a validator runs on**: its libraries, its address, its timeout, and how lists of answers
are printed. -/
structure RefundLoop (ε : Type) where
  keccak256 : Bytes → Bytes32
  parsers : Parsers
  recovery : Recovery
  signerAddr : Address
  timeoutSecs : BitVec 64
  /-- Checked when the configuration is read. -/
  timeoutSecs_pos : 0 < timeoutSecs.toInt
  url : ε → String
  debugDestination : List (String × DestinationState) → String
  debugSource : List (String × SourceState) → String
  debugBool : List (String × Bool) → String

namespace RefundLoop

variable (V : RefundLoop ε)

/-- `attested_by`. -/
def attestedBy (sigs : List SignerSig) (id : Bytes32) (kind : SigKind) : Bool :=
  sigs.any fun s =>
    (verifyAttestation V.keccak256 V.parsers V.recovery id kind s).toOption == some V.signerAddr

/-- `fully_attested_by_us`. -/
def fullyAttestedByUs (candidate : SignedRecord) (id : Bytes32) : Bool :=
  V.attestedBy candidate.cancelSignatures id .cancel &&
    V.attestedBy candidate.refundSignatures id .refund

/-- `bound_submission_id`. -/
def boundSubmissionId (rec : SubmissionRecord) : Option Bytes32 := do
  let claimed ← V.parsers.b256 rec.submissionId
  let computed ← (canonicalSubmissionId V.keccak256 V.parsers rec).toOption
  if computed = claimed then some claimed else none

/-- What the source says, if there is a reader for it. -/
def sourceRead (src : Option (GateReader ε)) (id : Bytes32) : Reading ε (Option SourceState) :=
  match src with
  | some src => do
    let s ← src.sourceState V.url V.debugSource id
    return some s
  | none => pure none

/-- Has the timeout elapsed, by what the source says? -/
def agedOut (src : Option (GateReader ε)) (id : Bytes32) (cancelled : Bool) : Reading ε Bool :=
  match src, cancelled with
  | _, true => pure true
  | none, false => pure false
  | some src, false => do
    match ← src.agedBlock V.timeoutSecs with
    | some block => src.wasSentByBlock V.url V.debugBool id block
    | none => pure false

/-- `handle_candidate`, between a destination and a source. -/
def judge (candidate : SignedRecord) (id : Bytes32) (dst : GateReader ε)
    (src : Option (GateReader ε)) : Reading ε Concluded := do
  let dstState ← dst.destinationState V.url V.debugDestination id
  let srcState ← V.sourceRead src id
  if srcState.any fun s => s.sentBy == 0 && !s.refunded then return ⟨true, none⟩
  else if srcState.any SourceState.refunded then return ⟨false, none⟩
  else do
    let agedOut ← V.agedOut src id dstState.cancelled
    return match decision srcState dstState agedOut
        (V.attestedBy candidate.cancelSignatures id .cancel)
        (V.attestedBy candidate.refundSignatures id .refund) with
      | .skip _ => ⟨false, none⟩
      | .attestCancel => ⟨false, some .cancel⟩
      | .attestRefund => ⟨false, some .refund⟩

variable (sourceReaders destReaders : U64 → Reader ε)

/-- `handle_candidate`. -/
def handleCandidate (candidate : SignedRecord) (id : Bytes32) : Reading ε Concluded :=
  match destReaders candidate.params.chainIdTo with
  | .notReady => pure ⟨false, none⟩
  | .notConfigured => pure ⟨false, none⟩
  | .ready dst =>
    match (sourceReaders candidate.params.chainIdFrom).source with
    | none => pure ⟨false, none⟩
    | some src => V.judge candidate id dst src

/-- What `run` does with a candidate, unless it is resting: the id that was judged, and what came
of it. -/
def consider (candidate : SignedRecord) : Reading ε (Bytes32 × Concluded) := do
  let id ← Ask.orFail (V.boundSubmissionId candidate.params)
  Ask.ensure (V.fullyAttestedByUs candidate id = false)
  let concluded ← V.handleCandidate sourceReaders destReaders candidate id
  return (id, concluded)

end RefundLoop

end Signers

end SelendraBridge
