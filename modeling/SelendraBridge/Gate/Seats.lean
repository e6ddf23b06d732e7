import SelendraBridge.Gate.Parts
import SelendraBridge.Gate.Quorum
import SelendraBridge.Lib.Tally

/-!
# Who sits on the quorum

The gate keeps its validators as a table and counts them aside, and
`_verifySignatures` relies on both: the table says who counts, and the count bounds how
many signatures may be supplied. That the count is the number of seats taken, and that
the threshold is between one and that number, is `SelendraBridge.Gate.Seated`. It is
established by `initialize`, and only `setValidator` and `setThreshold` can touch it
(`SelendraBridge.Gate.parts_of_govern`), both of which keep it.

On such a gate `_verifySignatures` refuses no quorum that is handed to it in order
(`SelendraBridge.Gate.verify_of_ascending`): its loop is a `Tally.tally`, and an ascending
list of validators is no longer than the list of all of them.
-/

namespace SelendraBridge

namespace Gate

open Revert Transition

variable {σ : Type} {E : Chain σ} {g g' : Gate}

/-- **The validators of a gate**, each of them once. -/
structure Members (g : Gate) (members : List Address) : Prop where
  nodup : members.Nodup
  mem_iff : ∀ v, v ∈ members ↔ g.isValidator v = true
  zero_notMem : (0 : Address) ∉ members
  count : g.validatorCount.toNat = members.length

/-- **The seats are in order**: the validators are counted, and the threshold is one of
the numbers of them, not zero. -/
structure Seated (g : Gate) (members : List Address) : Prop extends Members g members where
  threshold_pos : 1 ≤ g.threshold.toNat
  threshold_le : g.threshold.toNat ≤ members.length

/-! ### A quorum in order is accepted -/

/-- The signer that a signature recovers to. -/
def signerOf (E : Chain σ) (message : Bytes32) (signature : Bytes) : Except Error Address :=
  orRevert .ecdsa (E.recover (toEthSignedMessageHash E.keccak256 message) signature)

/-- The loop of `_verifySignatures` is the tally of the signers. -/
theorem countSigners_eq_tally {message : Bytes32} (signatures : List Bytes) (last : Address)
    (count : ℕ) :
    countSigners E g (toEthSignedMessageHash E.keccak256 message) signatures last count =
      Tally.tally (signerOf E message) .invalidSignerOrder g.isValidator signatures last count := by
  induction signatures generalizing last count with
  | nil => rfl
  | cons signature signatures ih =>
    rw [countSigners, Tally.tally, signerOf]
    simp only [ih]

/-- **Ascending signatures of validators are accepted**, once they reach the threshold. -/
theorem verify_of_ascending {members : List Address} (hm : Members g members) {message : Bytes32}
    {signatures : List Bytes} {signers : List Address}
    (hnames : Tally.Names (signerOf E message) signatures signers)
    (hsorted : signers.Pairwise (· < ·)) (hmem : ∀ v ∈ signers, v ∈ members)
    (henough : g.threshold.toNat ≤ signers.length) :
    verifySignatures E g message signatures = .ok () := by
  have hpos : ∀ v ∈ signers, (0 : Address) < v := by
    intro v hv
    have hne : v ≠ 0 := fun h => hm.zero_notMem (h ▸ hmem v hv)
    have hnat : v.toNat ≠ 0 := fun h => hne (BitVec.eq_of_toNat_eq h)
    exact Nat.pos_of_ne_zero hnat
  have hlen := Tally.length_le hsorted hmem
  have hcount : Tally.tally (signerOf E message) Error.invalidSignerOrder g.isValidator signatures 0
      0 = .ok (0 + signers.length) := Tally.tally_of_members hnames
    (List.pairwise_cons.mpr ⟨hpos, hsorted⟩) fun v hv => (hm.mem_iff v).mp (hmem v hv)
  rw [verifySignatures, revertIf_bind_eq_ok, bind_eq_ok]
  refine ⟨?_, signers.length, ?_, ?_⟩
  · rw [List.Forall₂.length_eq hnames, hm.count]
    omega
  · rw [countSigners_eq_tally, hcount, Nat.zero_add]
  · rw [revertIf_eq_ok]
    omega

/-! ### The two calls keep them in order -/

/-- Gates with the same seats have the same validators. -/
theorem Seated.of_seats {members : List Address} (h : Seated g members)
    (hs : g'.seats = g.seats) : Seated g' members := by
  simp only [seats, Prod.mk.injEq] at hs
  obtain ⟨hval, hcount, hthr⟩ := hs
  exact ⟨⟨h.nodup, fun v => hval ▸ h.mem_iff v, h.zero_notMem, hcount ▸ h.count⟩,
    hthr ▸ h.threshold_pos, hthr ▸ h.threshold_le⟩

/-- Taking a seat. -/
theorem Members.add {members : List Address} (hm : Members g members) {v : Address} (hv : v ≠ 0)
    (hnew : g.isValidator v = false) (hval : g'.isValidator = Function.update g.isValidator v true)
    (hcount : g'.validatorCount.toNat = g.validatorCount.toNat + 1) :
    Members g' (v :: members) where
  nodup := by
    refine List.nodup_cons.mpr ⟨fun hmem => ?_, hm.nodup⟩
    exact absurd ((hm.mem_iff v).mp hmem) (by simp [hnew])
  mem_iff w := by
    rw [hval]
    rcases eq_or_ne w v with rfl | hne
    · simp
    · simpa [hne] using hm.mem_iff w
  zero_notMem := by
    rw [List.mem_cons, not_or]
    exact ⟨Ne.symm hv, hm.zero_notMem⟩
  count := by rw [List.length_cons, ← hm.count, hcount]

/-- Giving a seat up. -/
theorem Members.remove {members : List Address} (hm : Members g members) {v : Address}
    (hold : g.isValidator v = true)
    (hval : g'.isValidator = Function.update g.isValidator v false)
    (hcount : g'.validatorCount.toNat + 1 = g.validatorCount.toNat) :
    Members g' (members.erase v) where
  nodup := hm.nodup.erase v
  mem_iff w := by
    rw [hm.nodup.mem_erase_iff, hm.mem_iff, hval]
    rcases eq_or_ne w v with rfl | hne
    · simp
    · simp [hne]
  zero_notMem h := hm.zero_notMem (List.mem_of_mem_erase h)
  count := by
    have hlen := List.length_erase_of_mem ((hm.mem_iff v).mpr hold)
    have hm := hm.count
    omega

theorem seated_of_setValidator {c : Call} {v : Address} {active : Bool} {log : List Event}
    {members : List Address} (hm : Seated g members)
    (h : setValidator E c g v active = .ok (g', log)) : ∃ members', Seated g' members' := by
  simp only [setValidator, bind_eq_ok, exists_unit, revertIf_eq_ok] at h
  obtain ⟨-, hv, h⟩ := h
  split at h
  · next hadd =>
    simp only [bind_eq_ok, checked_eq_ok, pure_eq_ok, Prod.mk.injEq] at h
    obtain ⟨g₁, hconsume, n, hn, rfl, -⟩ := h
    obtain ⟨rfl, -⟩ := consumeGovernance_eq_ok hconsume
    refine ⟨v :: members, hm.toMembers.add hv hadd.2 rfl hn, hm.threshold_pos, ?_⟩
    exact hm.threshold_le.trans (by simp)
  · split at h
    · next hremove =>
      simp only [bind_eq_ok, checkedSub_eq_ok, exists_unit, revertIf_eq_ok, pure_eq_ok,
        Prod.mk.injEq] at h
      obtain ⟨n, hn, hthr, rfl, -⟩ := h
      have hn' : n.toNat + 1 = g.validatorCount.toNat := hn
      have hm' : Members { g with
          isValidator := Function.update g.isValidator v false
          validatorCount := n } (members.erase v) := hm.toMembers.remove hremove.2 rfl hn'
      refine ⟨members.erase v, hm', hm.threshold_pos, ?_⟩
      rw [← hm'.count]
      exact BitVec.not_lt.mp hthr
    · obtain ⟨rfl, -⟩ := Prod.mk.inj (Except.ok.inj h)
      exact ⟨members, hm⟩

theorem seated_of_setThreshold {c : Call} {t : U256} {log : List Event} {members : List Address}
    (hm : Seated g members) (h : setThreshold E c g t = .ok (g', log)) : Seated g' members := by
  simp only [setThreshold, bind_eq_ok, exists_unit, revertIf_eq_ok, pure_eq_ok, Prod.mk.injEq,
    not_or] at h
  obtain ⟨-, ⟨hne, hle⟩, g₁, hconsume, rfl, -⟩ := h
  have hs := hm.of_seats ((parts_of_consumeGovernanceIf hconsume).1)
  have hle' : t.toNat ≤ g.validatorCount.toNat := BitVec.not_lt.mp hle
  refine ⟨⟨hs.nodup, hs.mem_iff, hs.zero_notMem, hs.count⟩, ?_, hm.count ▸ hle'⟩
  have hpos : t.toNat ≠ 0 := fun h => hne (BitVec.eq_of_toNat_eq h)
  exact Nat.pos_of_ne_zero hpos

/-! ### Every reachable gate -/

/-- The loop of `initialize` seats each validator once. -/
theorem members_of_initValidators {vs members : List Address} {log : List Event}
    (hm : Members g members) (h : initValidators vs g = .ok (g', log)) :
    ∃ members', Members g' members' := by
  induction vs generalizing g members log with
  | nil =>
    obtain ⟨rfl, -⟩ := Prod.mk.inj (Except.ok.inj h)
    exact ⟨members, hm⟩
  | cons v vs ih =>
    rw [initValidators, revertIf_bind_eq_ok] at h
    obtain ⟨hv, h⟩ := h
    split at h
    · next hnew =>
      simp only [bind_eq_ok, checked_eq_ok, pure_eq_ok, Prod.mk.injEq, Prod.exists] at h
      obtain ⟨n, hn, g₁, log₁, hrest, rfl, -⟩ := h
      exact ih (hm.add hv hnew rfl hn) hrest
    · exact ih hm h

theorem seated_of_initial {w : World σ} (h : Initial w) : ∃ members, Seated w.gate members := by
  obtain ⟨c, validators, threshold, bridgeDomain, log, h, -, -⟩ := h
  simp only [initializeGate, bind_eq_ok, exists_unit, revertIf_eq_ok, pure_eq_ok, Prod.exists,
    Prod.mk.injEq, not_or] at h
  obtain ⟨-, -, g₁, log₁, hinit, ⟨hne, hle⟩, hg, -⟩ := h
  obtain ⟨members, hm⟩ := members_of_initValidators
    ⟨List.nodup_nil, by simp [blank], List.not_mem_nil, rfl⟩ hinit
  have hle' : threshold.toNat ≤ g₁.validatorCount.toNat := BitVec.not_lt.mp hle
  have hpos : threshold.toNat ≠ 0 := fun h => hne (BitVec.eq_of_toNat_eq h)
  rw [← hg]
  exact ⟨members, ⟨hm.nodup, hm.mem_iff, hm.zero_notMem, hm.count⟩, Nat.pos_of_ne_zero hpos,
    hm.count ▸ hle'⟩

/-- **One step keeps the seats in order.** -/
theorem seated_step {w w' : World σ} {l : Label σ} {o : Out}
    (hm : ∃ members, Seated w.gate members) (h : exec E w l = some (w', o)) :
    ∃ members, Seated w'.gate members := by
  obtain ⟨members, hm⟩ := hm
  cases l with
  | govern c x =>
    obtain ⟨-, -, hgov, -⟩ := exec_govern h
    cases x with
    | setValidator v active => exact seated_of_setValidator hm hgov
    | setThreshold t => exact ⟨members, seated_of_setThreshold hm hgov⟩
    | _ => exact ⟨members, hm.of_seats ((parts_of_govern hgov).1 rfl)⟩
  | transfer c x =>
    obtain ⟨-, -, r, hr, rfl, -⟩ := exec_transfer h
    exact ⟨members, hm.of_seats (parts_of_transfer hr).1⟩
  | tokens s =>
    obtain ⟨rfl, -⟩ := exec_tokens h
    exact ⟨members, hm⟩

/-- **In every reachable state the seats are in order.** -/
theorem seated_of_run {w₀ w : World σ} {tr : List (Step σ)} (h₀ : Initial w₀)
    (hrun : Run (exec E) w₀ tr w) : ∃ members, Seated w.gate members :=
  hrun.invariant (P := fun w => ∃ members, Seated w.gate members) (seated_of_initial h₀)
    fun _ _ _ _ hm he => seated_step hm he

end Gate

end SelendraBridge
