import SelendraBridge.Gate.State

/-!
# Quorums

`_verifySignatures` walks an array of signatures, recovers a signer from each, insists
that the signers come in strictly ascending order, and counts those that are
validators. The order is what makes the count a count of *distinct* validators: a quorum
that passes is a duplicate-free list of at least `threshold` validators, each of whom a
signature over that very message recovers to (`SelendraBridge.Gate.quorum_of_verify`).
-/

namespace SelendraBridge

namespace Gate

open Revert

variable {σ : Type} (E : Chain σ)

/-- The loop of `_verifySignatures`: how many validators signed, after `last`. -/
def countSigners (g : Gate) (digest : Bytes32) : List Bytes → Address → ℕ → Except Error ℕ
  | [], _, count => .ok count
  | signature :: signatures, last, count => do
    let signer ← orRevert .ecdsa (E.recover digest signature)
    revertIf (signer ≤ last) .invalidSignerOrder
    countSigners g digest signatures signer (if g.isValidator signer then count + 1 else count)

/-- `_verifySignatures`. -/
def verifySignatures (g : Gate) (message : Bytes32) (signatures : List Bytes) :
    Except Error Unit := do
  let digest := toEthSignedMessageHash E.keccak256 message
  revertIf (signatures.length > g.validatorCount.toNat)
    (.tooManySignatures signatures.length g.validatorCount)
  let count ← countSigners E g digest signatures 0 0
  revertIf (count < g.threshold.toNat)
    (.notEnoughSignatures (BitVec.ofNat 256 count) g.threshold)

/-- **A quorum over a message**: distinct validators, at least as many as the
threshold, each recovered from a signature over the message's digest. -/
structure Quorum (g : Gate) (message : Bytes32) (signatures : List Bytes)
    (signers : List Address) : Prop where
  nodup : signers.Nodup
  enough : g.threshold.toNat ≤ signers.length
  isValidator : ∀ v ∈ signers, g.isValidator v = true
  signed : ∀ v ∈ signers, ∃ signature ∈ signatures,
    E.recover (toEthSignedMessageHash E.keccak256 message) signature = some v

variable {E}

/-- What the loop counts is an ascending list of validators, all after `last`. -/
theorem signers_of_countSigners {g : Gate} {digest : Bytes32} {signatures : List Bytes}
    {last : Address} {count n : ℕ} (h : countSigners E g digest signatures last count = .ok n) :
    ∃ signers : List Address, n = count + signers.length ∧ signers.Pairwise (· < ·) ∧
      ∀ v ∈ signers, last < v ∧ g.isValidator v = true ∧
        ∃ signature ∈ signatures, E.recover digest signature = some v := by
  induction signatures generalizing last count with
  | nil =>
    obtain rfl := Except.ok.inj h
    exact ⟨[], rfl, .nil, by simp⟩
  | cons signature signatures ih =>
    rw [countSigners, orRevert_bind_eq_ok] at h
    obtain ⟨signer, hrec, h⟩ := h
    rw [revertIf_bind_eq_ok] at h
    obtain ⟨hlast, h⟩ := h
    have hlt : last < signer := BitVec.not_le.mp hlast
    obtain ⟨signers, hn, hsorted, hall⟩ := ih h
    have htail : ∀ v ∈ signers, last < v ∧ g.isValidator v = true ∧
        ∃ s ∈ signature :: signatures, E.recover digest s = some v := by
      intro v hv
      obtain ⟨hv₁, hv₂, s, hs, hr⟩ := hall v hv
      exact ⟨BitVec.lt_trans hlt hv₁, hv₂, s, List.mem_cons_of_mem _ hs, hr⟩
    by_cases hval : g.isValidator signer = true
    · rw [if_pos hval] at hn
      refine ⟨signer :: signers, by rw [List.length_cons]; omega, ?_, ?_⟩
      · exact List.pairwise_cons.mpr ⟨fun v hv => (hall v hv).1, hsorted⟩
      · intro v hv
        rcases List.mem_cons.mp hv with rfl | hv
        · exact ⟨hlt, hval, signature, List.mem_cons_self, hrec⟩
        · exact htail v hv
    · rw [if_neg hval] at hn
      exact ⟨signers, hn, hsorted, htail⟩

/-- **Signatures that pass are a quorum.** -/
theorem quorum_of_verify {g : Gate} {message : Bytes32} {signatures : List Bytes} {u : Unit}
    (h : verifySignatures E g message signatures = .ok u) :
    ∃ signers, Quorum E g message signatures signers := by
  rw [verifySignatures, revertIf_bind_eq_ok, bind_eq_ok] at h
  obtain ⟨-, count, hcount, h⟩ := h
  rw [revertIf_eq_ok, not_lt] at h
  obtain ⟨signers, rfl, hsorted, hall⟩ := signers_of_countSigners hcount
  refine ⟨signers, ?_, by omega, fun v hv => (hall v hv).2.1, fun v hv => (hall v hv).2.2⟩
  -- An ascending list repeats nobody.
  have hne : ∀ a b : Address, a < b → a ≠ b := by
    rintro a b hlt rfl
    exact BitVec.lt_irrefl a hlt
  exact hsorted.imp (hne _ _)

end Gate

end SelendraBridge
