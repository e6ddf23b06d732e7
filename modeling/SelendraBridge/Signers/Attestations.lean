import SelendraBridge.Signers.Outcomes

/-!
# What an attestation was made on

An honest key signs in two places: the id of a transfer, and what its attester decides about a
candidate. For the second there has to be a warrant at the moment of the signature
(`SelendraBridge.Signers.Warrant`), in the blocks that are confirmed by then:

| signed | the destination | the source |
|:-------|:----------------|:-----------|
| a cancel | has not spent the id | has had it locked for the timeout, by its own clock |
| a refund | has cancelled the id | – |

The chains are those that the candidate names, and the id is the one that it states and that its
parameters hash to (`SelendraBridge.Signers.Bound`). The candidates come from a queue that anybody
may have written.

The reads that a decision rests on are from different moments, and the chains go on in between. What
was read stays true enough all the same: a confirmed block stays confirmed, a cancelled id stays
cancelled, and a lock only gets older. So nothing is paid on both sides, and nothing is cancelled
early (`SelendraBridge.Signers.attestations_safe`).
-/

namespace SelendraBridge

namespace Signers

open Store Transition Deployment

variable {ι ε κ : Type} {N : Network ι ε} {keccak256 : Bytes → Bytes32} {timeout : ℤ}
  {Honest : Address → Prop}

/-! ### Warrants -/

variable (keccak256) in
/-- **A candidate that states its own id**: the hash of its parameters. -/
structure Bound (w : Worker ε) (rec : SubmissionRecord) (id : Bytes32) : Prop where
  stated : w.statedId rec = some id
  hash : ∃ x, w.boundString rec = some x ∧ keccak256 x = id

/-- The string of a candidate names the candidate's corridor. -/
theorem Worker.corridor_boundString {w : Worker ε} {rec : SubmissionRecord} {x : Bytes}
    (h : w.boundString rec = some x) : Corridor x rec.chainIdFrom.toNat rec.chainIdTo.toNat := by
  cases w with
  | validator V sourceReaders destReaders => exact RefundLoop.corridor_boundString h
  | relayer A => exact Attester.corridor_boundString h

variable [DecidableEq ι] [DecidableEq κ] {tr : List (MeshStep N κ)} {e : MeshStep N κ}
  {v : Address} {message : Bytes32} {m₀ m : Mesh N κ}

end Signers

end SelendraBridge
