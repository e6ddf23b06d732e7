import SelendraBridge.Store.Record

/-!
# Signatures on stored records

A record collects signatures in three domains – for the claim, for the cancellation and
for the refund – each over a digest of its own (`SelendraBridge.Store.SigKind.digest`). A
signature is stored only if it recovers to the signer it names
(`SelendraBridge.Store.verifySignature`), and then in the one encoding the gate reads
(`SelendraBridge.Store.canonicalSignature`).

Recovery is library code outside the repository, and a parameter
(`SelendraBridge.Store.Recovery`); what is relied on, where it is, is
`SelendraBridge.Store.Recovery.KeepsSigner`.
-/

namespace SelendraBridge

namespace Store

open Revert

/-- One validator's signature, with the signer it names. -/
structure SignerSig where
  signer : Text
  signature : Text
  deriving DecidableEq, Repr

/-- Which effect on a chain a signature authorises. -/
inductive SigKind
  | transfer
  | cancel
  | refund
  deriving DecidableEq, Repr

/-- `as_str`. -/
def SigKind.asStr : SigKind → String
  | .transfer => "transfer"
  | .cancel => "cancel"
  | .refund => "refund"

/-- The message a validator signs in a domain. -/
def SigKind.digest (keccak256 : Bytes → Bytes32) (kind : SigKind) (submissionId : Bytes32) :
    Bytes32 :=
  match kind with
  | .transfer => submissionId
  | .cancel => BridgeHash.getCancelId keccak256 submissionId
  | .refund => BridgeHash.getRefundId keccak256 submissionId

/-- A record with the signatures collected for it. -/
structure SignedRecord where
  params : SubmissionRecord
  signatures : List SignerSig
  cancelSignatures : List SignerSig
  refundSignatures : List SignerSig
  deriving DecidableEq, Repr

/-- The signature library of the store. -/
structure Recovery where
  /-- `recover_address_from_msg`, of 65 bytes read as a signature. -/
  recover : Bytes32 → Bytes → Option Address
  /-- `normalized_s().as_bytes()`, of the same. -/
  canonical : Bytes → Option Bytes

/-- What the store relies on: a signature re-encoded recovers to the signer it did. -/
structure Recovery.KeepsSigner (R : Recovery) : Prop where
  recover_canonical : ∀ {message raw c a}, R.canonical raw = some c →
    R.recover message raw = some a → R.recover message c = some a

/-- How many distinct signers one record may hold in a domain. -/
def MAX_SIGNATURES_PER_SUBMISSION : ℕ := 64

section Checks

variable (keccak256 : Bytes → Bytes32) (P : Parsers) (R : Recovery)

/-- **A signature recovers to the signer it names**, over the digest of a message. -/
def verifySignature (message : Bytes32) (sig : SignerSig) : Except StoreError Address := do
  let claimed ← orRevert (.badField "signer") (P.address sig.signer)
  let raw ← hexBytes P "signature" sig.signature
  let recovered ← orRevert .badSignature (R.recover message raw)
  revertIf (recovered ≠ claimed)
    (.signerMismatch (hexText (addressBytes claimed)) (hexText (addressBytes recovered)))
  return recovered

/-- The signature in the encoding the gate reads. -/
def canonicalSignature (sig : SignerSig) : Except StoreError SignerSig := do
  let raw ← hexBytes P "signature" sig.signature
  let bytes ← orRevert .badSignature (R.canonical raw)
  return { sig with signature := hexText bytes }

/-- A signature in a domain. -/
def verifyAttestation (submissionId : Bytes32) (kind : SigKind) (sig : SignerSig) :
    Except StoreError Address :=
  verifySignature P R (kind.digest keccak256 submissionId) sig

end Checks

/-- The canonical encoding keeps the signer's name as it came. -/
theorem signer_of_canonicalSignature {P : Parsers} {R : Recovery} {sig sig' : SignerSig}
    (h : canonicalSignature P R sig = .ok sig') : sig'.signer = sig.signer := by
  simp only [canonicalSignature, bind_eq_ok, pure_eq_ok] at h
  obtain ⟨raw, -, bytes, -, rfl⟩ := h
  rfl

end Store

end SelendraBridge
