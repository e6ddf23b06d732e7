import SelendraBridge.Gate.Seats
import SelendraBridge.Solana.Cluster
import SelendraBridge.Solana.Seats

/-!
# Quorums on both machines

The contract and the program count signers in the same way, and keep the number they need
between one and the number of validators there are. So an accepted array always carries
the signatures of that many validators, at least one of them, and an array made in order
by that many validators is always accepted (`SelendraBridge.quorum_sound`).
-/

namespace SelendraBridge

open Transition

variable {σ : Type}

/-- **What a quorum is worth.** On the contract, under any validators, threshold, message
and array: acceptance means distinct validators behind the array, as many as the threshold
or more; ascending signatures of validators are accepted, once they reach it; and in every
reachable state the threshold is one of `1, …, n`, where `n` is the count of validators
and the number of them. The same on the program, of every config that an instruction can
load. -/
theorem quorum_sound (E : Chain σ) {R : Solana.Runtime} (hR : R.Lawful) :
    (∀ g message signatures u, Gate.verifySignatures E g message signatures = .ok u →
      ∃ signers, Gate.Quorum E g message signatures signers) ∧
    (∀ (g : Gate) members message signatures signers, Gate.Members g members →
      Tally.Names (Gate.signerOf E message) signatures signers → signers.Pairwise (· < ·) →
      (∀ v ∈ signers, v ∈ members) → g.threshold.toNat ≤ signers.length →
      Gate.verifySignatures E g message signatures = .ok ()) ∧
    (∀ w₀ tr w, Gate.Initial w₀ → Run (Gate.exec E) w₀ tr w →
      ∃ members, Gate.Seated w.gate members) ∧
    (∀ cfg id signatures u, Solana.verifyThreshold R cfg id signatures = .ok u →
      ∃ signers, Solana.Quorum R cfg id signatures signers) ∧
    (∀ (cfg : Solana.Config) id signatures signers, (0 : Address) ∉ cfg.validators →
      Tally.Names (Solana.signerOf R id) signatures signers → signers.Pairwise (· < ·) →
      (∀ v ∈ signers, v ∈ cfg.validators) → cfg.threshold.toNat ≤ signers.length →
      Solana.verifyThreshold R cfg id signatures = .ok ()) ∧
    ∀ s₀ tr s, Solana.Deployed R s₀ → Run (Solana.exec R) s₀ tr s →
      (∀ sd ∈ tr.flatMap (Solana.writesOf R),
        R.findProgramAddress sd = R.findProgramAddress Solana.configSeeds →
          sd = Solana.configSeeds) →
      ∀ ai cfg, Solana.loadConfig R s ai = .ok cfg → cfg.Seated := by
  refine ⟨?_, ?_, ?_, ?_, ?_, ?_⟩
  · intro g message signatures u h
    exact Gate.quorum_of_verify h
  · intro g members message signatures signers hm hnames hsorted hmem henough
    exact Gate.verify_of_ascending hm hnames hsorted hmem henough
  · intro w₀ tr w h₀ hrun
    exact Gate.seated_of_run h₀ hrun
  · intro cfg id signatures u h
    exact Solana.quorum_of_verifyThreshold h
  · intro cfg id signatures signers hzero hnames hsorted hmem henough
    exact Solana.verifyThreshold_of_ascending hzero hnames hsorted hmem henough
  · intro s₀ tr s h₀ hrun hinj ai cfg hl
    have hs := Solana.chartered_of_run hR h₀ hrun hinj
    exact hs.seated (Solana.configured_of_loadConfig hl)

/-- The message of the concrete quorums. -/
def refundMessage : Bytes32 := 0xd25699bd4be406c6c3675df2561bded40a6f971ea3e451d8179eba059d1457b5

/-- A validator's signature over it. -/
def refundSignature : Bytes :=
  signatureBytes 0xbc3361f376cd00b159850c1909d28908f7a093aa511721313418a25e88fc28da
    0x3561c60ed15eb57cbb7b222dcb6d273f2383218ed33a20cfac8296d74bdb40f4 28

/-- One validator's signature is a quorum of one, on a contract just initialized and on a
program that was wired; and both are gates whose seats are in order. -/
theorem quorum_sound_one :
    Gate.verifySignatures (tableChain 1 0x9a) (Gate.started Gate.noTokens).gate refundMessage
        [refundSignature] = .ok () ∧
      (∃ signers, Gate.Quorum (tableChain 1 0x9a) (Gate.started Gate.noTokens).gate refundMessage
        [refundSignature] signers) ∧
      ∃ s cfg, Solana.loadConfig Solana.Cluster.runtime s
          (Solana.Cluster.pda Solana.configSeeds) = .ok cfg ∧ cfg.Seated ∧
        Solana.verifyThreshold Solana.Cluster.runtime cfg refundMessage [refundSignature] = .ok () ∧
        ∃ signers, Solana.Quorum Solana.Cluster.runtime cfg refundMessage [refundSignature]
          signers := by
  obtain ⟨hsound, hcomplete, hseated, hsound', hcomplete', hseated'⟩ :=
    quorum_sound (tableChain 1 0x9a) Solana.Cluster.lawful
  -- The contract.
  obtain ⟨members, hm⟩ := hseated _ _ _ (Gate.initial_started Gate.noTokens) .nil
  have haccepted :=
    hcomplete _ members refundMessage [refundSignature] [Gate.validator₁] hm.toMembers
    (.cons (by decide +kernel) .nil) (List.pairwise_singleton _ _)
    (fun v hv => (hm.mem_iff v).mpr (List.mem_singleton.mp hv ▸ rfl)) (by decide +kernel)
  -- The program.
  have hrun : Run (Solana.exec Solana.Cluster.runtime) Solana.Cluster.deployed
      (traceOf (Solana.exec Solana.Cluster.runtime) Solana.Cluster.deployed
        Solana.Cluster.wiring).1
      (traceOf (Solana.exec Solana.Cluster.runtime) Solana.Cluster.deployed
        Solana.Cluster.wiring).2 := run_traceOf (by decide +kernel)
  have hseats' := hseated' _ _ _ Solana.Cluster.deployed_deployed hrun (by decide +kernel)
  have hload : (Solana.loadConfig Solana.Cluster.runtime
      (traceOf (Solana.exec Solana.Cluster.runtime) Solana.Cluster.deployed
        Solana.Cluster.wiring).2 (Solana.Cluster.pda Solana.configSeeds)).toOption.map
        (fun cfg => (cfg.validators, cfg.threshold)) = some ([Gate.validator₁], 1) := by
    decide +kernel
  obtain ⟨cfg, hcfg, hseats⟩ := Option.map_eq_some_iff.mp hload
  obtain ⟨hval, hthr⟩ := Prod.mk.inj hseats
  have hcfg := Revert.toOption_eq_some.mp hcfg
  have hs := hseats' _ _ hcfg
  have haccepted' := hcomplete' cfg refundMessage [refundSignature] [Gate.validator₁]
    hs.zero_notMem (.cons (by decide +kernel) .nil) (List.pairwise_singleton _ _)
    (fun v hv => hval ▸ hv) (hthr ▸ le_refl 1)
  exact ⟨haccepted, hsound _ _ _ _ haccepted, _, cfg, hcfg, hs, haccepted',
    hsound' _ _ _ _ haccepted'⟩

end SelendraBridge
