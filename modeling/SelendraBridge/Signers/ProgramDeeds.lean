import SelendraBridge.Signers.Deeds
import SelendraBridge.SolanaSource.Origin

/-!
# What the instructions of the program did

The same of the program as of the contract, from its log. What the contract has in a mapping the
program has in two accounts of an id: the marker, which is of a claim or of a cancellation, and the
record of the send, which a refund zeroes. Both are addresses that nobody else can take, once they
are told apart from the other addresses that a run writes.
-/

namespace SelendraBridge

open Signers

namespace Solana

open Revert Store Transition

/-- What a line of the log says was done. -/
def Log.deed : Log → Option Deed
  | .sent e => some ⟨.send, e.submissionId⟩
  | .claimed id => some ⟨.claim, id⟩
  | .cancelled id _ _ _ => some ⟨.cancel, id⟩
  | .refunded id _ _ _ => some ⟨.refund, id⟩
  | _ => none

/-- What an instruction did. -/
def deeds (log : List Log) : List Deed := log.filterMap Log.deed

/-- The signatures of an instruction. -/
def Instruction.signatures : Instruction → List Bytes
  | .claim a => a.signatures
  | .cancel a => a.signatures
  | .refund a => a.signatures
  | _ => []

/-- The signatures of a step. -/
def presented : Label → List Bytes
  | .instruction _ _ ix => ix.signatures
  | .others _ => []

variable (R : Runtime)

/-- The string of a send, from its event. -/
def Log.string (cfg : Config) : Log → Option Bytes
  | .sent e => some (submissionPreimage R.keccak256 cfg.bridgeDomain e.params)
  | _ => none

/-- The strings that an instruction hashes into ids, under a config. -/
def Instruction.hashed (cfg : Config) (log : List Log) : Instruction → List Bytes
  | .send _ => log.filterMap (Log.string R cfg)
  | .claim a => [submissionPreimage R.keccak256 cfg.bridgeDomain (claimParams cfg a)]
  | .cancel a => [submissionPreimage R.keccak256 cfg.bridgeDomain (claimParams cfg a)]
  | .refund a => [submissionPreimage R.keccak256 cfg.bridgeDomain (refundParams cfg a)]
  | _ => []

/-- **What a step hashed.** -/
def hashedBy (s : Accounts) (l : Label) (log : List Log) : List Bytes :=
  match l with
  | .instruction _ _ ix => ((configOf R s).map (ix.hashed R · log)).getD []
  | .others _ => []

variable {R} {s s' : Accounts} {l : Label} {log : List Log} {d : Deed} {id : Bytes32}

/-! ### Deeds and the log -/

theorem filterMap_settled (log : List Log) :
    (deeds log).filterMap Deed.settled = log.filterMap Log.settled := by
  rw [deeds, List.filterMap_filterMap]
  congr 1
  funext line
  cases line <;> rfl

theorem filterMap_refunded (log : List Log) :
    (deeds log).filterMap Deed.refunded = log.filterMap Log.refundedId := by
  rw [deeds, List.filterMap_filterMap]
  congr 1
  funext line
  cases line <;> rfl

/-- A deed is named in the log. -/
theorem mem_id_of_deed (hmem : d ∈ deeds log) : d.id ∈ log.filterMap Log.id := by
  obtain ⟨line, hline, hd⟩ := List.mem_filterMap.mp hmem
  refine List.mem_filterMap.mpr ⟨line, hline, ?_⟩
  cases line <;> simp only [Log.deed, Option.some.injEq, reduceCtorEq] at hd <;> subst hd <;> rfl

/-- The string of parameters of the program. -/
theorem corridor_submissionPreimage {keccak256 : Bytes → Bytes32} {domain : Bytes32} {p : IdParams} :
    Corridor (submissionPreimage keccak256 domain p) p.chainIdFrom.toNat p.chainIdTo.toNat := by
  rw [← toNat_word p.chainIdFrom, ← toNat_word p.chainIdTo, submissionPreimage]
  simp only [be32_eq]
  cases p.auto with
  | none => exact corridor_append _ _ _ _ _ _
  | some a =>
    simp only [List.append_assoc]
    exact corridor_append _ _ _ _ _ _

/-- What parameters of the program hash to, and what string that is. -/
theorem behind_of_params {cfg : Config} {p : IdParams} {act : Act}
    (hid : id = submissionId R.keccak256 cfg.bridgeDomain p)
    (hsource : act.atSource = true → p.chainIdFrom = cfg.chainId)
    (htarget : act.atSource = false → p.chainIdTo = cfg.chainId) :
    Deed.Behind R.keccak256 cfg.chainId.toNat ⟨act, id⟩
      (submissionPreimage R.keccak256 cfg.bridgeDomain p) := by
  have hcorridor := @corridor_submissionPreimage R.keccak256 cfg.bridgeDomain p
  refine ⟨hid.symm, submissionPreimage_eq_prefix _ _ _, ?_⟩
  rw [Act.Names]
  cases hact : act.atSource with
  | true => exact ⟨_, hsource hact ▸ hcorridor⟩
  | false => exact ⟨_, htarget hact ▸ hcorridor⟩

/-- **A deed of the program**: under the config that is loaded, the string behind it is hashed, and
a quorum signed for it. -/
theorem of_deed (h : exec R s l = some (s', log)) (hmem : d ∈ deeds log) :
    ∃ cfg, configOf R s = some cfg ∧
      (∃ x ∈ hashedBy R s l log, d.Behind R.keccak256 cfg.chainId.toNat x) ∧
      ∀ kind, d.act.kind = some kind → ∃ signers,
        Quorum R cfg (kind.digest R.keccak256 d.id) (presented l) signers := by
  cases moves_of_exec h with
  | @send _ _ a x cfg asset wire id label next S =>
    have hcfg := configOf_eq_some S.config
    rw [S.log] at hmem
    obtain rfl := List.mem_singleton.mp hmem
    refine ⟨cfg, hcfg, ⟨_, ?_, behind_of_params S.id_eq (fun _ => rfl)
      (fun h => Bool.noConfusion h)⟩, fun kind hkind => Option.noConfusion rfl (heq_of_eq hkind)⟩
    rw [label, hashedBy, hcfg, S.log]
    exact List.mem_singleton_self _
  | @claim _ _ a x cfg asset localAmount id label next C =>
    have hcfg := configOf_eq_some C.config
    rw [C.log] at hmem
    obtain rfl := List.mem_singleton.mp hmem
    refine ⟨cfg, hcfg, ⟨_, ?_, behind_of_params C.id_eq (fun h => Bool.noConfusion h)
      (fun _ => rfl)⟩, fun kind hkind => ?_⟩
    · rw [label, hashedBy, hcfg]
      exact List.mem_singleton_self _
    · obtain rfl := Option.some.inj hkind
      rw [label]
      exact quorum_of_verifyThreshold C.quorum
  | @cancel _ _ a x cfg id label next C =>
    have hcfg := configOf_eq_some C.config
    rw [C.log] at hmem
    obtain rfl := List.mem_singleton.mp hmem
    refine ⟨cfg, hcfg, ⟨_, ?_, behind_of_params C.id_eq (fun h => Bool.noConfusion h)
      (fun _ => rfl)⟩, fun kind hkind => ?_⟩
    · rw [label, hashedBy, hcfg]
      exact List.mem_singleton_self _
    · obtain rfl := Option.some.inj hkind
      rw [label, SigKind.digest, ← cancelId_eq]
      exact quorum_of_verifyThreshold C.quorum
  | @refund _ _ a x cfg asset sent id label next F =>
    have hcfg := configOf_eq_some F.config
    rw [F.log] at hmem
    obtain rfl := List.mem_singleton.mp hmem
    refine ⟨cfg, hcfg, ⟨_, ?_, behind_of_params F.id_eq (fun _ => rfl)
      (fun h => Bool.noConfusion h)⟩, fun kind hkind => ?_⟩
    · rw [label, hashedBy, hcfg]
      exact List.mem_singleton_self _
    · obtain rfl := Option.some.inj hkind
      rw [label, SigKind.digest, ← refundId_eq]
      exact quorum_of_verifyThreshold F.quorum
  | quiet hlog =>
    obtain ⟨line, hline, hid⟩ := List.mem_filterMap.mp (mem_id_of_deed hmem)
    rw [hlog line hline] at hid
    cases hid

end Solana

end SelendraBridge
