import SelendraBridge.Signers.RefundLoop
import SelendraBridge.SolanaSource.Origin
import SelendraBridge.Submit.Encodable

/-!
# The refund attester of the Solana relayer

It votes on the transfers with an end on Solana, by the same rules as the loop of the validators.

| corridor | the destination is read from | the age |
|---|---|---|
| EVM → Solana | the marker of the id | `sentBy` at a block of the source that is old enough |
| Solana → EVM | the getters of the gate | the lock time of the sent record, against the clock |

An EVM gate is read over one endpoint, with calls encoded and decoded by hand; a word that is not
what the getter returns is an error, never a `false` (`SelendraBridge.Signers.decodeBool`). Without a
reader for the source there is no age, and without an age no cancel.
-/

namespace SelendraBridge

namespace Signers

open Store
open SolanaRelayer (hexBytes hex32 recoveredAddress unsignedDigits)
open BridgeSolana (amountWord decodeSentRecord domainId submissionId submissionIdWithAuto
  wireToAuto CANCEL_PREFIX REFUND_PREFIX)
open Solana (AutoParamsWire MARKER_CANCELLED decodeEvmAutoParams executedSeeds sentSeeds)

variable {ε : Type}

/-! ### Words -/

/-- `decode_bool`. -/
def decodeBool (ret : Bytes) : Option Bool :=
  if ret.length ≠ 32 then none
  else if (ret.take 31).any (· ≠ 0) ∨ 1 < ret.getD 31 0 then none
  else some (ret.getD 31 0 == 1)

/-- `decode_address_is_set`. -/
def decodeAddressIsSet (ret : Bytes) : Option Bool :=
  if ret.length ≠ 32 then none
  else if (ret.take 12).any (· ≠ 0) then none
  else some ((ret.drop 12).any (· ≠ 0))

/-! ### Reading an EVM gate -/

/-- `evm::GateReader`. -/
structure EvmReader (ε : Type) where
  chainId : U64
  gate : Address
  rpc : ε
  blockConfirmation : ℕ

/-- `SourceState`: was it locked at all, and was it paid back. -/
structure LockState where
  sent : Bool
  refunded : Bool
  deriving DecidableEq, Repr

namespace EvmReader

variable (r : EvmReader ε)

/-- `confirmed_block`. -/
def confirmedBlock : Reading ε ℕ := do
  let latest ← getBlockNumber r.rpc
  return latest - r.blockConfirmation

/-- A getter that returns a `bool`, at a block. -/
def readBool (g : Getter) (id : Bytes32) (block : ℕ) : Reading ε Bool := do
  let ret ← ethCall r.rpc r.gate g id block
  Ask.orFail (decodeBool ret)

/-- `destination_state`. -/
def destinationState (id : Bytes32) : Reading ε DestinationState := do
  let block ← r.confirmedBlock
  let executed ← r.readBool .executed id block
  let cancelled ← r.readBool .cancelled id block
  return ⟨executed, cancelled⟩

/-- `was_sent_by_block`. -/
def wasSentByBlock (id : Bytes32) (block : ℕ) : Reading ε Bool := do
  let ret ← ethCall r.rpc r.gate .sentBy id block
  Ask.orFail (decodeAddressIsSet ret)

/-- `source_state`. -/
def sourceState (id : Bytes32) : Reading ε LockState := do
  let block ← r.confirmedBlock
  let sent ← r.wasSentByBlock id block
  let refunded ← r.readBool .refunded id block
  return ⟨sent, refunded⟩

/-- `aged_block`, which takes the same steps as that of a validator. -/
def agedBlock (timeoutSecs : BitVec 64) : Reading ε (Option ℕ) := do
  let headNum ← r.confirmedBlock
  agedBlockOn r.rpc headNum timeoutSecs

/-- `aged_out`. -/
def agedOut (id : Bytes32) (timeoutSecs : BitVec 64) : Reading ε Bool := do
  match ← r.agedBlock timeoutSecs with
  | some block => r.wasSentByBlock id block
  | none => pure false

end EvmReader

/-! ### Reading Solana -/

/-- `SolanaSourceRecord`. -/
structure SolanaSourceRecord where
  state : LockState
  lockedAt : BitVec 64
  deriving DecidableEq, Repr

/-- `solana_source_record`: is the account the program's, and its data. -/
def solanaSourceRecord (account : Option (Bool × Bytes)) : SolanaSourceRecord :=
  match account with
  | none => ⟨⟨false, false⟩, 0⟩
  | some (ownerIsProgram, data) =>
    if ownerIsProgram = false then ⟨⟨false, false⟩, 0⟩
    else
      match decodeSentRecord data with
      | none => ⟨⟨false, false⟩, 0⟩
      | some rec =>
        if rec.amount = 0 ∧ rec.debridgeId = 0 then ⟨⟨true, true⟩, 0⟩
        else ⟨⟨true, false⟩, rec.lockedAt⟩

/-- `solana_aged_out`. -/
def solanaAgedOut (lockedAt now timeoutSecs : BitVec 64) : Bool :=
  decide (0 < lockedAt.toInt) &&
    decide (timeoutSecs.toInt ≤ saturatingSub now.toInt lockedAt.toInt)

/-! ### The attester -/

/-- `Decision` of the relayer. -/
def relayerDecision (src : Option LockState) (dst : DestinationState) (agedOut : Option Bool)
    (alreadyAttestedCancel alreadyAttestedRefund : Bool) : Decision :=
  if dst.executed = true ∧ dst.cancelled = false then .skip "delivered on destination"
  else if src.any fun src => src.refunded || !src.sent then
    .skip "already refunded, or not sent from that gate"
  else if dst.cancelled = true then
    if alreadyAttestedRefund = true then .skip "refund already attested by us" else .attestRefund
  else if alreadyAttestedCancel = true then .skip "cancel already attested by us"
  else
    match agedOut with
    | none => .skip "unclaimed timeout cannot be verified on-chain; not attesting"
    | some false => .skip "unclaimed timeout has not elapsed (verified on-chain)"
    | some true => .attestCancel

/-- `u128::from_str`. -/
def parseU128 (s : Text) : Option (BitVec 128) :=
  let digits := unsignedDigits s
  if digits ≠ [] ∧ digits.all isDigit ∧ Nat.ofDigitChars 10 digits 0 < 2 ^ 128 then
    some (BitVec.ofNat 128 (Nat.ofDigitChars 10 digits 0))
  else none

/-- **`Attester`**, with the libraries it calls. -/
structure Attester (ε : Type) where
  keccak256 : Bytes → Bytes32
  parsers : Parsers
  recover : Bytes32 → UInt8 → Bytes → Option Bytes
  /-- Where an account is, for the program that is read. -/
  programId : Pubkey
  findProgramAddress : List Bytes → Pubkey
  rpc : ε
  chainId : U64
  me : Address
  /-- None without a `[refund]` block. -/
  timeoutSecs : Option (BitVec 64)
  /-- Checked when the configuration is read. -/
  timeoutSecs_pos : ∀ t ∈ timeoutSecs, 0 < t.toInt
  evm : U64 → Option (EvmReader ε)

/-- What the two chains say. -/
structure Facts where
  src : Option LockState
  dst : DestinationState
  agedOut : Option Bool
  deriving DecidableEq, Repr

namespace Attester

variable (A : Attester ε)

/-- What `bound_submission_id` hashes. -/
def boundString (rec : SubmissionRecord) : Option Bytes := do
  let domain ← hex32 A.parsers rec.bridgeDomain
  let debridgeId ← hex32 A.parsers rec.debridgeId
  let amount ← parseU128 rec.amount
  let decimals ← rec.bridgeDecimals
  let receiver ← hexBytes A.parsers rec.receiver
  let nativeSender ← hexBytes A.parsers rec.nativeSender
  let blob ← hexBytes A.parsers rec.autoParams
  let auto ← (decodeEvmAutoParams blob).toOption
  let base := BridgeSolana.packedSubmission domain debridgeId decimals (amountWord amount)
    rec.chainIdFrom rec.chainIdTo rec.nonce receiver
  return match auto with
    | none => base
    | some w => base ++ BridgeSolana.packedAuto A.keccak256 (wireToAuto w nativeSender)

/-- `bound_submission_id`. -/
def boundSubmissionId (rec : SubmissionRecord) : Option Bytes32 := do
  let claimed ← hex32 A.parsers rec.submissionId
  let string ← A.boundString rec
  if A.keccak256 string = claimed then some claimed else none

/-- `attested_by`. -/
def attestedBy (sigs : List SignerSig) (digestInput : Bytes32) : Bool :=
  let digest := toEthSignedMessageHash A.keccak256 digestInput
  sigs.any fun s =>
    ((hexBytes A.parsers s.signature).bind (recoveredAddress A.keccak256 A.recover digest)) ==
      some A.me

/-- `solana_destination_state`. -/
def solanaDestinationState (id : Bytes32) : Reading ε DestinationState := do
  let acct ← getAccount A.rpc (A.findProgramAddress (executedSeeds id))
  return match acct with
    | some a =>
      if a.owner = A.programId ∧ a.data ≠ [] then ⟨true, a.data.getD 0 0 == MARKER_CANCELLED⟩
      else ⟨false, false⟩
    | none => ⟨false, false⟩

/-- `solana_source_state`. -/
def solanaSourceState (id : Bytes32) : Reading ε SolanaSourceRecord := do
  let acct ← getAccount A.rpc (A.findProgramAddress (sentSeeds id))
  return solanaSourceRecord (acct.map fun a => (decide (a.owner = A.programId), a.data))

/-- The age in `evm_to_solana_facts`, which a cancelled id does not need. -/
def evmAge (reader : EvmReader ε) (id : Bytes32) (timeout : BitVec 64) (cancelled : Bool) :
    Reading ε (Option Bool) :=
  if cancelled = true then pure none
  else do
    let aged ← reader.agedOut id timeout
    return some aged

/-- `evm_to_solana_facts`. -/
def evmToSolanaFacts (id : Bytes32) (chainIdFrom : U64) : Reading ε Facts := do
  let dst ← A.solanaDestinationState id
  match A.timeoutSecs, A.evm chainIdFrom with
  | some timeout, some reader => do
    let s ← reader.sourceState id
    let aged ← evmAge reader id timeout dst.cancelled
    return ⟨some s, dst, aged⟩
  | _, _ => return ⟨none, dst, none⟩

/-- The age in `solana_to_evm_facts`. -/
def solanaAge (src : SolanaSourceRecord) (cancelled : Bool) : Reading ε (Option Bool) :=
  match A.timeoutSecs with
  | some timeout =>
    if cancelled = false ∧ src.state.sent = true ∧ src.state.refunded = false then do
      let now ← solanaNow A.rpc
      return some (solanaAgedOut src.lockedAt now timeout)
    else pure none
  | none => pure none

/-- `solana_to_evm_facts`, which is of no use without a reader for the destination. -/
def solanaToEvmFacts (id : Bytes32) (chainIdTo : U64) : Reading ε Facts := do
  let reader ← Ask.orFail (A.evm chainIdTo)
  let dst ← reader.destinationState id
  let src ← A.solanaSourceState id
  let agedOut ← A.solanaAge src dst.cancelled
  return ⟨some src.state, dst, agedOut⟩

/-- What the two chains of a candidate say, if one of them is this one. -/
def facts (id : Bytes32) (rec : SubmissionRecord) : Reading ε Facts :=
  if rec.chainIdTo = A.chainId then A.evmToSolanaFacts id rec.chainIdFrom
  else if rec.chainIdFrom = A.chainId then A.solanaToEvmFacts id rec.chainIdTo
  else .fail

/-- **What `tick` does with a candidate**: the id that was judged, and what is signed for it. -/
def consider (candidate : SignedRecord) : Reading ε (Bytes32 × Option SigKind) := do
  let id ← Ask.orFail (A.boundSubmissionId candidate.params)
  let facts ← A.facts id candidate.params
  return (id, match relayerDecision facts.src facts.dst facts.agedOut
      (A.attestedBy candidate.cancelSignatures (domainId A.keccak256 CANCEL_PREFIX id))
      (A.attestedBy candidate.refundSignatures (domainId A.keccak256 REFUND_PREFIX id)) with
    | .skip _ => none
    | .attestCancel => some .cancel
    | .attestRefund => some .refund)

end Attester

end Signers

end SelendraBridge
