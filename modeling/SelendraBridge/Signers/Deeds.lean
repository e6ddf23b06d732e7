import SelendraBridge.Gate.Payouts
import SelendraBridge.Signers.Evidence
import SelendraBridge.Solana.Outcome
import SelendraBridge.Solana.Storage

/-!
# What the calls of a gate did

A call that goes through does one thing to one id: it sends it, claims it, cancels it or refunds it.
Of the rest of a gate nothing is needed here but the following, which the contract and the program
have in common.

| deed | needs a quorum over | the string of the id names this chain as |
|---|---|---|
| send | – | the source |
| claim | the id | the destination |
| cancel | its cancel message | the destination |
| refund | its refund message | the source |

An id is claimed or cancelled once, and refunded once. What a moment shows of an id, a deed has done
before: what is cancelled was cancelled, and what is locked since some time was sent by then.
-/

namespace SelendraBridge

namespace Signers

open Store (SigKind)

/-- **The four calls that are about an id.** -/
inductive Act
  | send
  | claim
  | cancel
  | refund
  deriving DecidableEq, Repr

/-- What a call did, and to which id. -/
structure Deed where
  act : Act
  id : Bytes32
  deriving DecidableEq, Repr

/-- What a quorum has to sign for it. -/
def Act.kind : Act → Option SigKind
  | .send => none
  | .claim => some .transfer
  | .cancel => some .cancel
  | .refund => some .refund

/-- The id, if a deed settles it: there is no other claim or cancellation of it. -/
def Deed.settled (d : Deed) : Option Bytes32 :=
  match d.act with
  | .claim => some d.id
  | .cancel => some d.id
  | _ => none

/-- The id, if a deed refunds it. -/
def Deed.refunded (d : Deed) : Option Bytes32 :=
  match d.act with
  | .refund => some d.id
  | _ => none

/-- The id, if a deed pays it, to whomever. -/
def Deed.paid (d : Deed) : Option Bytes32 :=
  match d.act with
  | .claim => some d.id
  | .refund => some d.id
  | _ => none

/-- Is the chain of a deed the source of its id? -/
def Act.atSource : Act → Bool
  | .send => true
  | .claim => false
  | .cancel => false
  | .refund => true

/-- The corridor of a string, seen from the chain that a deed is done on. -/
def Act.Names (act : Act) (x : Bytes) (chainId : ℕ) : Prop :=
  ∃ other, if act.atSource then Corridor x chainId other else Corridor x other chainId

/-- A string of an id begins as such. -/
def IsSubmission (x : Bytes) : Prop := ∃ rest, x = wordBytes BridgeHash.SUBMISSION_PREFIX ++ rest

/-- **The string behind a deed**: hashed into the id, and naming the chain. -/
structure Deed.Behind (keccak256 : Bytes → Bytes32) (chainId : ℕ) (d : Deed) (x : Bytes) : Prop where
  hash : keccak256 x = d.id
  front : IsSubmission x
  names : d.act.Names x chainId

/-- The submission of a string. -/
theorem corridor_preimage (s : Submission) :
    Corridor s.preimage s.chainIdFrom.toNat s.chainIdTo.toNat := by
  rw [Submission.preimage, BridgeHash.packedSubmission]
  simp only [List.append_assoc]
  exact corridor_append _ _ _ _ _ _

end Signers

open Signers

/-! ### The contract -/

namespace Gate

open Revert Transition Store

variable {σ : Type} {E : Chain σ} {w w' : World σ} {l : Label σ} {o : Out} {d : Deed} {id : Bytes32}

/-- Which of the four calls it is. -/
def TransferCall.act : TransferCall → Act
  | .send _ => .send
  | .claim _ => .claim
  | .cancel _ => .cancel
  | .refund _ => .refund

/-- The signatures that a call comes with. -/
def TransferCall.signatures : TransferCall → List Bytes
  | .send _ => []
  | .claim a => a.signatures
  | .cancel a => a.signatures
  | .refund a => a.signatures

/-- What a step did. -/
def deeds (l : Label σ) (o : Out) : List Deed :=
  match l, o.id with
  | .transfer _ x, some id => [⟨x.act, id⟩]
  | _, _ => []

/-- The signatures of a step. -/
def presented : Label σ → List Bytes
  | .transfer _ x => x.signatures
  | _ => []

/-- **A deed is that of a call that went through.** -/
theorem transfer_of_deed (h : exec E w l = some (w', o)) (hmem : d ∈ deeds l o) :
    ∃ c x r, l = .transfer c x ∧ transfer E c w.gate w.tokens x = .ok r ∧ w'.gate = r.gate ∧
      o.id = some r.id ∧ d = ⟨x.act, r.id⟩ := by
  cases l with
  | govern c x => exact absurd hmem (by simp [deeds])
  | tokens s => exact absurd hmem (by simp [deeds])
  | transfer c x =>
    obtain ⟨-, -, r, hr, rfl, rfl⟩ := exec_transfer h
    exact ⟨c, x, r, rfl, hr, rfl, rfl, List.mem_singleton.mp hmem⟩

/-- The ids of a step by a function on its deeds. -/
theorem filterMap_deeds (f : Deed → Option Bytes32) (h : exec E w l = some (w', o)) :
    (deeds l o).filterMap f = [] ∨ ∃ d ∈ deeds l o, ∃ id, f d = some id ∧
      (deeds l o).filterMap f = [id] := by
  cases l with
  | govern c x => exact .inl rfl
  | tokens s => exact .inl rfl
  | transfer c x =>
    obtain ⟨-, -, r, -, -, rfl⟩ := exec_transfer h
    cases hf : f ⟨x.act, r.id⟩ with
    | none => exact .inl (by simp [deeds, hf])
    | some id => exact .inr ⟨_, List.mem_singleton_self _, id, hf, by simp [deeds, hf]⟩

/-- **A claim or a cancellation uses an id up.** -/
theorem settled_of_deeds (h : exec E w l = some (w', o)) :
    (deeds l o).filterMap Deed.settled = [] ∨ ∃ id, (deeds l o).filterMap Deed.settled = [id] ∧
      ¬w.gate.executed id = true ∧ w'.gate.executed id = true := by
  rcases filterMap_deeds Deed.settled h with hnil | ⟨d, hd, id, hid, hone⟩
  · exact .inl hnil
  · obtain ⟨c, x, r, rfl, hr, hgate, -, rfl⟩ := transfer_of_deed h hd
    refine .inr ⟨id, hone, ?_⟩
    rw [hgate]
    cases x with
    | claim a =>
      obtain rfl := Option.some.inj hid
      obtain ⟨localAmount, recipient, C⟩ := claims_of_claim hr
      rw [C.gate, C.executed]
      exact ⟨Bool.false_ne_true, Function.update_self ..⟩
    | cancel a =>
      obtain rfl := Option.some.inj hid
      have C := cancels_of_cancel hr
      rw [C.gate, C.executed]
      exact ⟨Bool.false_ne_true, Function.update_self ..⟩
    | send a => exact absurd hid (by simp [Deed.settled, TransferCall.act])
    | refund a => exact absurd hid (by simp [Deed.settled, TransferCall.act])

/-- **A refund marks an id.** -/
theorem refunded_of_deeds (h : exec E w l = some (w', o)) :
    (deeds l o).filterMap Deed.refunded = [] ∨ ∃ id, (deeds l o).filterMap Deed.refunded = [id] ∧
      ¬w.gate.refunded id = true ∧ w'.gate.refunded id = true := by
  rcases filterMap_deeds Deed.refunded h with hnil | ⟨d, hd, id, hid, hone⟩
  · exact .inl hnil
  · obtain ⟨c, x, r, rfl, hr, hgate, -, rfl⟩ := transfer_of_deed h hd
    refine .inr ⟨id, hone, ?_⟩
    rw [hgate]
    cases x with
    | refund a =>
      obtain rfl := Option.some.inj hid
      obtain ⟨localAmount, F⟩ := refunds_of_refund hr
      rw [F.gate, F.refunded]
      exact ⟨Bool.false_ne_true, Function.update_self ..⟩
    | _ => exact absurd hid (by simp [Deed.refunded, TransferCall.act])

/-- An id that is cancelled now was cancelled by this step or before. -/
theorem cancelled_of_deeds (hd : w.gate.setupDeadline ≠ 0) (h : exec E w l = some (w', o))
    (hid : w'.gate.cancelled id = true) :
    w.gate.cancelled id = true ∨ ⟨.cancel, id⟩ ∈ deeds l o := by
  rcases cancelled_step hd h hid with hold | ⟨-, -, c, a, rfl, hout⟩
  · exact .inl hold
  · exact .inr (by simp [deeds, hout, TransferCall.act])

/-- And one that is locked now was sent by this step or before. -/
theorem sentBy_of_deeds (hd : w.gate.setupDeadline ≠ 0) (h : exec E w l = some (w', o))
    (hid : w'.gate.sentBy id ≠ 0) :
    w.gate.sentBy id ≠ 0 ∨ ⟨.send, id⟩ ∈ deeds l o := by
  rcases sentBy_step hd h hid with hold | ⟨c, a, rfl, hout, -⟩
  · exact .inl (hold ▸ hid)
  · exact .inr (by simp [deeds, hout, TransferCall.act])

/-- The string of parameters that the contract took. -/
theorem behind_of_idFor {domain : Bytes32} {p : IdParams} {strings : List Bytes} {act : Act}
    (hid : idFor E.keccak256 domain p = .ok id)
    (hhashed : ∀ x, idPreimage E.keccak256 domain p = some x → x ∈ strings)
    (hsource : act.atSource = true → p.chainIdFrom = E.chainId)
    (htarget : act.atSource = false → p.chainIdTo = E.chainId) :
    ∃ x ∈ strings, Deed.Behind E.keccak256 E.chainId.toNat ⟨act, id⟩ x := by
  obtain ⟨s, hs, hhash⟩ := idFor_eq_ok.mp hid
  obtain ⟨-, -, -, -, hfrom, hto, -⟩ := submission_eq_some hs
  have hcorridor := corridor_preimage s
  refine ⟨s.preimage, hhashed _ (idPreimage_eq_some.mpr ⟨s, hs, rfl⟩), hhash,
    s.preimage_eq_prefix, ?_⟩
  rw [hfrom, hto] at hcorridor
  rw [Act.Names]
  cases hact : act.atSource with
  | true => exact ⟨_, hsource hact ▸ hcorridor⟩
  | false => exact ⟨_, htarget hact ▸ hcorridor⟩

/-- **The string behind a deed is hashed in its step.** -/
theorem behind_of_deed (h : exec E w l = some (w', o)) (hmem : d ∈ deeds l o) :
    ∃ x ∈ hashedBy E ⟨w, l, o, w'⟩, d.Behind E.keccak256 E.chainId.toNat x := by
  obtain ⟨c, x, r, rfl, hr, -, -, rfl⟩ := transfer_of_deed h hmem
  cases x with
  | send a =>
    obtain ⟨wire, S⟩ := sends_of_send hr
    refine behind_of_idFor S.id (fun x hx => ?_) (fun _ => rfl) (fun h => Bool.noConfusion h)
    simp [hashedBy, TransferCall.hashed, S.wire_eq, hx]
  | claim a =>
    obtain ⟨localAmount, recipient, C⟩ := claims_of_claim hr
    refine behind_of_idFor C.id (fun x hx => ?_) (fun h => Bool.noConfusion h) (fun _ => rfl)
    simp [hashedBy, TransferCall.hashed, hx]
  | cancel a =>
    refine behind_of_idFor (cancels_of_cancel hr).id (fun x hx => ?_)
      (fun h => Bool.noConfusion h) (fun _ => rfl)
    simp [hashedBy, TransferCall.hashed, hx]
  | refund a =>
    obtain ⟨localAmount, F⟩ := refunds_of_refund hr
    refine behind_of_idFor F.id (fun x hx => ?_) (fun _ => rfl) (fun h => Bool.noConfusion h)
    simp [hashedBy, TransferCall.hashed, hx]

/-- **A quorum signed for a deed.** -/
theorem quorum_of_deed (h : exec E w l = some (w', o)) (hmem : d ∈ deeds l o) {kind : SigKind}
    (hkind : d.act.kind = some kind) : ∃ signers,
      Quorum E w.gate (kind.digest E.keccak256 d.id) (presented l) signers := by
  obtain ⟨c, x, r, rfl, hr, -, -, rfl⟩ := transfer_of_deed h hmem
  cases x with
  | send a => cases hkind
  | claim a =>
    obtain rfl := Option.some.inj hkind
    obtain ⟨localAmount, recipient, C⟩ := claims_of_claim hr
    exact quorum_of_verify C.quorum
  | cancel a =>
    obtain rfl := Option.some.inj hkind
    exact quorum_of_verify (cancels_of_cancel hr).quorum
  | refund a =>
    obtain rfl := Option.some.inj hkind
    obtain ⟨localAmount, F⟩ := refunds_of_refund hr
    exact quorum_of_verify F.quorum

end Gate

end SelendraBridge
