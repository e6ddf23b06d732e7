import SelendraBridge.Gate.Refund
import SelendraBridge.Preimage
import SelendraBridge.Solana.AutoParams
import SelendraBridge.Value

/-!
# Which transfers to the program can be taken back

A lock comes back only after the destination cancelled it, and the program cancels an id
only if it can compute it: from an amount, a nonce and a chain of 64 bits, and a payload
that the relayer's decoder takes. A contract refuses a wider amount for a receiver of 32
bytes and for no other, and it takes every fee, every flag and every offset that the
compiler's coder takes.

| field | what a contract locks | what the program can spell |
|---|---|---|
| wire amount | 256 bits, 64 for a receiver of 32 bytes | 64 bits |
| nonce, source chain | 256 bits | 64 bits |
| fee, flags | 256 bits each | 128 and 64 bits |
| tuple offset of the payload | any that decodes | 32 |

`SelendraBridge.Spellable` is the right column, and
`SelendraBridge.cancellable_and_refundable_iff` says that it is all there is: a lock can be
cancelled on a program that has not settled it, and then refunded, exactly when the program
can spell it. What goes wrong otherwise goes wrong for good – a transfer of 2⁶⁴ units for a
receiver of 20 bytes is locked under an id that no arguments of the program have
(`SelendraBridge.locked_for_good`).
-/

namespace SelendraBridge

open Revert Transition

variable {σ : Type} (E : Chain σ)

/-- **What the program can spell of a transfer**, by the arguments of the send and the
storage before it. -/
structure Spellable (g : Gate) (a : Gate.SendArgs) : Prop where
  amount : a.amount.toNat < 2 ^ 64 * 10 ^ Gate.scaleOf (g.bridgeDecimalsOf a.token)
  chainIdFrom : E.chainId.toNat < 2 ^ 64
  nonce : (g.nonceTo a.chainIdTo).toNat < 2 ^ 64
  autoParams : a.autoParams ≠ [] → Solana.Narrow a.autoParams

namespace Gate

/-- The string that a send hashed into its id. -/
def sentString (c : Call) (g : Gate) (a : SendArgs) (wire : U256) : Bytes :=
  (idPreimage E.keccak256 g.bridgeDomain (sendParams E c g a wire)).getD []

/-- The refund of a send. -/
def refundOf (c : Call) (g : Gate) (a : SendArgs) (wire : U256) (signatures : List Bytes) :
    RefundArgs where
  token := a.token
  debridgeId := BridgeHash.getDebridgeId E.keccak256 E.chainId a.token
  amount := wire
  bridgeDecimals := (g.bridgeDecimalsOf a.token).bridgeDecimals
  chainIdTo := a.chainIdTo
  nonce := g.nonceTo a.chainIdTo
  receiver := a.receiver
  autoParams := a.autoParams
  nativeSender := addressBytes c.sender
  signatures

/-- **A quorum gets the lock back**: of all that a refund checks, nothing is left but the
signatures, and the token that has to move. -/
def Refundable (w : World σ) (c : Call) (g : Gate) (a : SendArgs) (wire : U256) (id : Bytes32) :
    Prop :=
  ∀ signatures, (∃ r, refund E w.gate w.tokens (refundOf E c g a wire signatures) = .ok r) ↔
    verifySignatures E w.gate (BridgeHash.getRefundId E.keccak256 id) signatures = .ok () ∧
      ∃ tokens, E.tokens.transfer a.token E.gate c.sender a.amount w.tokens = some tokens

end Gate

namespace Solana

variable (R : Runtime)

/-- **A program that has not settled an id**: it runs, and the id has no mark. -/
structure Fresh (s : Accounts) (cfg : Config) (id : Bytes32) : Prop where
  config : configOf R s = some cfg
  paused : cfg.paused = false
  executed : isAlreadyExecuted R (s (R.findProgramAddress (executedSeeds id))) = false

/-- **Arguments with the id of a string**, and not by a collision. A payload is what the
relayer decodes. -/
structure Spells (cfg : Config) (string autoParams : Bytes) (a : ClaimArgs) : Prop where
  auto : autoParams ≠ [] → decodeEvmAutoParams autoParams = .ok a.auto
  id_eq : submissionId R.keccak256 cfg.bridgeDomain (claimParams cfg a) = R.keccak256 string
  collisionFree : CollisionFree R.keccak256
    [submissionPreimage R.keccak256 cfg.bridgeDomain (claimParams cfg a), string]

/-- The marker of an id, as a cancellation is handed it. -/
def markerOf (id : Bytes32) : AccountInfo := ⟨R.findProgramAddress (executedSeeds id), false, true⟩

/-- The accounts of a cancellation. -/
def cancelAccounts (id : Bytes32) (payer : AccountInfo) : List AccountInfo :=
  [infoAt R configSeeds, markerOf R id, payer, ⟨R.systemId, false, false⟩]

/-- **A quorum cancels an id**: there are arguments with it, and of all that a cancellation
checks, nothing is left but the signatures, and the account that has to be created. -/
def Cancellable (s : Accounts) (cfg : Config) (string autoParams : Bytes) (id : Bytes32) : Prop :=
  ∃ a, Spells R cfg string autoParams a ∧ ∀ payer signatures s',
    processCancel R s (cancelAccounts R id payer) { a with signatures } =
        .ok (s', [.cancelled id a.debridgeId a.chainIdFrom a.nonce]) ↔
      verifyThreshold R cfg (cancelId R.keccak256 id) signatures = .ok () ∧
        createMarker R s payer (markerOf R id) MARKER_CANCELLED = .ok s'

end Solana

variable {E} {w₀ w : Gate.World σ} {before after : List (Gate.Step σ)} {e : Gate.Step σ} {c : Call}
  {a : Gate.SendArgs} {wire : U256} {id : Bytes32}

/-! ### The refund -/

namespace Gate

/-- The string of a send, and the submission behind it. -/
theorem Sends.string {tokens : σ} {g : Gate} {r : Done σ} (S : Sends E c g tokens a wire r) :
    ∃ sub, (sendParams E c g a wire).submission E.keccak256 g.bridgeDomain = some sub ∧
      sentString E c g a wire = sub.preimage ∧ E.keccak256 (sentString E c g a wire) = r.id := by
  obtain ⟨sub, hsub, hid⟩ := idFor_eq_ok.mp S.id
  have hstring : sentString E c g a wire = sub.preimage := by
    rw [sentString, idPreimage_eq_some.mpr ⟨sub, hsub, rfl⟩, Option.getD_some]
  exact ⟨sub, hsub, hstring, by rw [hstring, hid]⟩

/-- **What was locked can be refunded**, at any later time, if it was not yet. -/
theorem refundable_of_sent (h₀ : Initial w₀) (hrun : Run (exec E) w₀ (before ++ e :: after) w)
    (hcoll : CollisionFree E.keccak256 (hashedIn E (before ++ e :: after)))
    (S : Sent E e c a wire id) (hsender : c.sender ≠ 0)
    (hnot : ∀ other ∈ after, ∀ c' a', other.label = .transfer c' (.refund a') →
      other.out.id ≠ some id) : Refundable E w c e.pre.gate a wire id := by
  intro signatures
  obtain ⟨hbefore, hex, hafter⟩ := hrun.split
  obtain ⟨hby, hnotRefunded⟩ := owed_of_sent h₀ hrun hcoll S hnot
  have hd := setupDeadline_ne h₀ hbefore
  have hk : Kept e.pre.gate w.gate :=
    (kept_step hd hex).trans (kept_run (setupDeadline_step hd hex) hafter)
  -- The refund names the very parameters of the send.
  have hid : idFor E.keccak256 w.gate.bridgeDomain
      (refundParams E (refundOf E c e.pre.gate a wire signatures)) = .ok id := by
    rw [hk.bridgeDomain]
    exact S.spec.id
  have hhashed : ∀ bs ∈ (TransferCall.refund (refundOf E c e.pre.gate a wire signatures)).hashed E
      c w.gate, bs ∈ hashedIn E (before ++ e :: after) := by
    intro bs hbs
    refine hashedBy_subset (e := e) (by simp) ?_
    rw [TransferCall.hashed, List.mem_cons, Option.mem_toList, hk.bridgeDomain] at hbs
    rcases hbs with hbs | hbs
    · rw [hbs]
      exact S.hashed.1
    · exact S.hashed.2 bs hbs
  have htoken : BridgeHash.getDebridgeId E.keccak256 E.chainId
      (refundOf E c e.pre.gate a wire signatures).token =
        (refundOf E c e.pre.gate a wire signatures).debridgeId := rfl
  have hsub : ∀ bs ∈ hashedBy E e, bs ∈ hashedIn E (before ++ e :: after) :=
    fun bs hbs => hashedBy_subset (by simp) hbs
  obtain ⟨-, -, hamount⟩ := refundLocalAmount_of_sent c S hk hid htoken hcoll hsub hhashed
  constructor
  · rintro ⟨r, hr⟩
    obtain ⟨localAmount, F⟩ := refunds_of_refund hr
    obtain rfl : r.id = id := Except.ok.inj (F.id.symm.trans hid)
    obtain rfl : localAmount = a.amount := Except.ok.inj (F.localAmount_eq.symm.trans hamount)
    have hmoved := F.moved
    rw [hby] at hmoved
    exact ⟨F.quorum, r.tokens, hmoved⟩
  · rintro ⟨hquorum, tokens, hmoved⟩
    have hamount' : ∀ g : Gate, g.bridgeDecimalsOf = w.gate.bridgeDecimalsOf →
        refundLocalAmount g a.token wire = .ok a.amount := by
      intro g hg
      have h : refundLocalAmount w.gate a.token wire = .ok a.amount := hamount
      simpa only [refundLocalAmount, hg] using h
    simp only [refund, bind_eq_ok, exists_unit, revertIf_eq_ok, orRevert_eq_ok, pure_eq_ok,
      Bool.not_eq_true, not_not]
    refine ⟨_, id, hid, hnotRefunded, ?_, rfl, hquorum, a.amount, hamount' _ rfl, tokens, ?_, rfl⟩
    · rw [hby]
      exact hsender
    · rw [hby]
      exact hmoved

end Gate

/-! ### The cancellation -/

namespace Solana

variable {R : Runtime} {s s' : Accounts} {cfg : Config}

theorem loadConfig_of_configOf (h : configOf R s = some cfg) :
    loadConfig R s (infoAt R configSeeds) = .ok cfg := toOption_eq_some.mp h

/-- **A cancellation by arguments with the id**, on a program that has not settled it. -/
theorem processCancel_of_fresh (hf : Fresh R s cfg id) {a : ClaimArgs}
    (hid : id = submissionId R.keccak256 cfg.bridgeDomain (claimParams cfg a))
    {payer : AccountInfo} {signatures : List Bytes} :
    processCancel R s (cancelAccounts R id payer) { a with signatures } =
        .ok (s', [.cancelled id a.debridgeId a.chainIdFrom a.nonce]) ↔
      verifyThreshold R cfg (cancelId R.keccak256 id) signatures = .ok () ∧
        createMarker R s payer (markerOf R id) MARKER_CANCELLED = .ok s' := by
  have hcfg := loadConfig_of_configOf hf.config
  rw [processCancel_eq_ok]
  constructor
  · rintro ⟨x, cfg', id', hx, hcfg', -, rfl, -, -, hq, hs', -⟩
    obtain rfl := Except.ok.inj hx
    obtain rfl : cfg' = cfg := Except.ok.inj (hcfg'.symm.trans hcfg)
    rw [hid] at hs' ⊢
    exact ⟨hq, hs'⟩
  · rintro ⟨hq, hs'⟩
    exact ⟨_, cfg, id, rfl, hcfg, hf.paused, hid, rfl, hf.executed, hq, hs', rfl⟩

end Solana

/-- A word of a machine that has room for it. -/
theorem widen_narrow {n : ℕ} (hn : n ≤ 256) {v : U256} (hv : v.toNat < 2 ^ n) :
    (v.setWidth n).setWidth 256 = v := by
  refine BitVec.eq_of_toNat_eq ?_
  rw [BitVec.toNat_setWidth_of_le hn, BitVec.toNat_setWidth, Nat.mod_eq_of_lt hv]

/-- A widened word is narrow. -/
theorem toNat_lt_of_widened {n : ℕ} (hn : n ≤ 256) {v : U256} {x : BitVec n}
    (h : v = x.setWidth 256) : v.toNat < 2 ^ n := by
  rw [h, BitVec.toNat_setWidth_of_le hn]
  exact x.isLt

section Spelling

variable {R : Solana.Runtime} {cfg : Solana.Config} {tokens : σ} {g : Gate} {r : Gate.Done σ}

/-- **What arguments of the program spell is spellable.** The lengths of the two strings
say that the receiver is no longer than a word, and then the strings are of one and the
same submission. -/
theorem spellable_of_spells (S : Gate.Sends E c g tokens a wire r) {x : Solana.ClaimArgs}
    (h : Solana.Spells R cfg (Gate.sentString E c g a wire) a.autoParams x) :
    Spellable E g a := by
  obtain ⟨sub, hsub, hstring, hid⟩ := S.string
  have heq : Solana.submissionPreimage R.keccak256 cfg.bridgeDomain (Solana.claimParams cfg x) =
      sub.preimage := by
    rw [← hstring]
    exact h.collisionFree _ (by simp) _ (by simp) h.id_eq
  obtain ⟨-, -, -, hamount, hfrom, -, hnonce, hreceiver, hpayload, hlen⟩ :=
    Gate.submission_eq_some hsub
  have hreceiver : sub.receiver.length = 20 ∨ sub.receiver.length = 32 := by
    rw [hreceiver]
    exact hlen
  have hauto : a.autoParams ≠ [] → x.auto.isSome = true ∧ Solana.Narrow a.autoParams := by
    intro hne
    rcases hs : sub.payload with _ | pl
    · exact absurd ((Gate.payload_eq_some_none E.keccak256).mp
        (hpayload.trans (congrArg some hs))) hne
    · obtain ⟨ap, hap, -⟩ := Gate.payload_eq_some_some (hpayload.trans (congrArg some hs))
      have hshort : a.autoParams.length < 2 ^ 64 :=
        lt_of_le_of_lt S.autoParams (by decide)
      obtain ⟨hn, hx⟩ := (Solana.decodeEvmAutoParams_eq_ok hne hshort hap).mp (h.auto hne)
      exact ⟨by rw [hx]; rfl, hn⟩
  have hle : x.receiver.length ≤ 32 := by
    have hl : 225 + x.receiver.length + x.auto.elim 0 (fun _ => 160) =
        225 + sub.receiver.length + sub.payload.elim 0 (fun _ => 160) := by
      rw [← Submission.length_preimage, ← heq, Solana.length_submissionPreimage]
      rfl
    by_cases hne : a.autoParams = []
    · have hnone : sub.payload = none :=
        Option.some.inj (hpayload.symm.trans ((Gate.payload_eq_some_none E.keccak256).mpr hne))
      rw [hnone, Option.elim_none] at hl
      omega
    · -- Both have a payload, so the rests are of one length.
      obtain ⟨o, ho⟩ := Option.isSome_iff_exists.mp (hauto hne).1
      have hpl : sub.payload.elim 0 (fun _ => 160) ≤ 160 := by
        cases sub.payload <;> simp
      rw [ho, Option.elim_some] at hl
      omega
  rw [Solana.submissionPreimage_eq hle] at heq
  obtain rfl := Submission.preimage_inj heq
  refine ⟨?_, ?_, ?_, fun hne => (hauto hne).2⟩
  · obtain ⟨-, -, -, hwire⟩ := Gate.toBridgeAmount_eq_ok.mp S.wire_eq
    have hlt : wire.toNat < 2 ^ 64 := toNat_lt_of_widened (by omega) hamount.symm
    rw [← hwire]
    exact Nat.mul_lt_mul_of_pos_right hlt (by positivity)
  · exact toNat_lt_of_widened (by omega) hfrom.symm
  · exact toNat_lt_of_widened (by omega) hnonce.symm

/-- **What is spellable, arguments of the program spell**: the same fields, each of its own
width. -/
theorem spells_of_spellable (S : Gate.Sends E c g tokens a wire r)
    (hk : R.keccak256 = E.keccak256) (hdom : cfg.bridgeDomain = g.bridgeDomain)
    (hto : a.chainIdTo = cfg.chainId.setWidth 256) (h : Spellable E g a) :
    ∃ x, Solana.Spells R cfg (Gate.sentString E c g a wire) a.autoParams x := by
  obtain ⟨sub, hsub, hstring, hid⟩ := S.string
  obtain ⟨hd, hdeb, hdec, hamount, hfrom, hto', hnonce, hreceiver, hpayload, hlen⟩ :=
    Gate.submission_eq_some hsub
  have hwire : wire.toNat < 2 ^ 64 := by
    obtain ⟨-, -, -, hwire⟩ := Gate.toBridgeAmount_eq_ok.mp S.wire_eq
    have hlt := h.amount
    rw [← hwire] at hlt
    exact Nat.lt_of_mul_lt_mul_right hlt
  -- The payload, as the relayer decodes it.
  have hauto : ∃ auto : Option Solana.AutoParamsWire,
      (a.autoParams ≠ [] → Solana.decodeEvmAutoParams a.autoParams = .ok auto) ∧
      auto.map (fun o =>
        { executionFee := o.executionFee.setWidth 256
          flags := o.flags.setWidth 256
          fallbackAddressHash := E.keccak256 o.fallbackAddress
          dataHash := E.keccak256 o.data
          nativeSenderHash := E.keccak256 (addressBytes c.sender) }) = sub.payload := by
    by_cases hne : a.autoParams = []
    · refine ⟨none, fun h => absurd hne h, ?_⟩
      exact Option.some.inj (((Gate.payload_eq_some_none E.keccak256).mpr hne).symm.trans hpayload)
    · rcases hs : sub.payload with _ | pl
      · exact absurd ((Gate.payload_eq_some_none E.keccak256).mp
          (hpayload.trans (congrArg some hs))) hne
      · obtain ⟨ap, hap, rfl⟩ := Gate.payload_eq_some_some (hpayload.trans (congrArg some hs))
        have hshort : a.autoParams.length < 2 ^ 64 := lt_of_le_of_lt S.autoParams (by decide)
        have hn := h.autoParams hne
        obtain ⟨hfee, hflags⟩ := hn.lt hap
        refine ⟨_, fun _ => (Solana.decodeEvmAutoParams_eq_ok hne hshort hap).mpr ⟨hn, rfl⟩, ?_⟩
        simp only [Option.map_some, widen_narrow (by omega : 128 ≤ 256) hfee,
          widen_narrow (by omega : 64 ≤ 256) hflags]
        rfl
  obtain ⟨auto, hdecode, hpl⟩ := hauto
  let x : Solana.ClaimArgs :=
    { debridgeId := sub.debridgeId
      amount := wire.setWidth 64
      bridgeDecimals := sub.bridgeDecimals
      chainIdFrom := E.chainId.setWidth 64
      nonce := (g.nonceTo a.chainIdTo).setWidth 64
      receiver := sub.receiver
      auto
      nativeSender := addressBytes c.sender
      signatures := [] }
  have hx : Solana.submissionPreimage R.keccak256 cfg.bridgeDomain (Solana.claimParams cfg x) =
      sub.preimage := by
    rw [Solana.submissionPreimage_eq (show x.receiver.length ≤ 32 from sub.receiver_le)]
    obtain ⟨dom, deb, dec, amt, cf, ct, n, recv, pl, hr⟩ := sub
    dsimp only at hd hamount hfrom hto' hnonce hpl
    simp only [x, Solana.IdParams.submission, Solana.claimParams, Solana.IdParams.payload, hk]
    refine congrArg Submission.preimage ?_
    rw [Submission.mk.injEq]
    refine ⟨hdom.trans hd.symm, rfl, rfl, ?_, ?_, ?_, ?_, rfl, hpl⟩
    · rw [widen_narrow (by omega) hwire, hamount]
      rfl
    · rw [widen_narrow (by omega) h.chainIdFrom, hfrom]
      rfl
    · rw [← hto, hto']
      rfl
    · rw [widen_narrow (by omega) h.nonce, hnonce]
      rfl
  refine ⟨x, hdecode, ?_, ?_⟩
  · rw [Solana.submissionId, hx, hstring]
  · exact collisionFree_pair.mpr fun _ => hx.trans hstring.symm

end Spelling

/-! ### Both -/

/-- **Exactly what the program can spell can be taken back.** A transfer was locked for the
chain of the program and was not refunded since, and the program has not settled it. Then
there are arguments with which a quorum cancels it there, and a quorum refunds it here, if
and only if the program can spell it. -/
theorem cancellable_and_refundable_iff (h₀ : Gate.Initial w₀)
    (hrun : Run (Gate.exec E) w₀ (before ++ e :: after) w)
    (hcoll : CollisionFree E.keccak256 (Gate.hashedIn E (before ++ e :: after)))
    (S : Gate.Sent E e c a wire id) (hsender : c.sender ≠ 0)
    (hnot : ∀ other ∈ after, ∀ c' a', other.label = .transfer c' (.refund a') →
      other.out.id ≠ some id)
    {R : Solana.Runtime} (hk : R.keccak256 = E.keccak256) {s : Solana.Accounts}
    {cfg : Solana.Config} (hf : Solana.Fresh R s cfg id)
    (hdom : cfg.bridgeDomain = e.pre.gate.bridgeDomain)
    (hto : a.chainIdTo = cfg.chainId.setWidth 256) :
    (Solana.Cancellable R s cfg (Gate.sentString E c e.pre.gate a wire) a.autoParams id ∧
        Gate.Refundable E w c e.pre.gate a wire id) ↔
      Spellable E e.pre.gate a := by
  constructor
  · rintro ⟨⟨x, hx, -⟩, -⟩
    exact spellable_of_spells S.spec hx
  · intro h
    refine ⟨?_, Gate.refundable_of_sent h₀ hrun hcoll S hsender hnot⟩
    obtain ⟨x, hx⟩ := spells_of_spellable S.spec hk hdom hto h
    refine ⟨x, hx, fun payer signatures s' => Solana.processCancel_of_fresh hf ?_⟩
    obtain ⟨-, -, -, hid⟩ := S.spec.string
    rw [hx.id_eq, hk, hid]

/-- A transfer that the program pays could as well have been taken back. -/
theorem cancellable_and_refundable_iff_arrival :
    Spellable (tableChain 1 0xf1) Deployment.sourceGate.gate Deployment.sending.2 ∧
    ∃ cfg wire w, Solana.configOf Solana.Cluster.runtime Solana.Cluster.filled = some cfg ∧
      Solana.Cancellable Solana.Cluster.runtime Solana.Cluster.filled cfg
        (Gate.sentString (tableChain 1 0xf1) Deployment.sending.1 Deployment.sourceGate.gate
          Deployment.sending.2 wire) [] Solana.Cluster.arrivalId ∧
      Gate.Refundable (tableChain 1 0xf1) w Deployment.sending.1 Deployment.sourceGate.gate
        Deployment.sending.2 wire Solana.Cluster.arrivalId := by
  have hcfg : (Solana.configOf Solana.Cluster.runtime Solana.Cluster.filled).map
      (fun cfg => (cfg.paused, cfg.bridgeDomain, cfg.chainId)) = some (false, 0xd0, 7565164) := by
    decide +kernel
  obtain ⟨cfg, hcfg, hfields⟩ := Option.map_eq_some_iff.mp hcfg
  simp only [Prod.mk.injEq] at hfields
  obtain ⟨hpaused, hdom, hchain⟩ := hfields
  have hfresh : Solana.Fresh Solana.Cluster.runtime Solana.Cluster.filled cfg
      Solana.Cluster.arrivalId := ⟨hcfg, hpaused, by decide +kernel⟩
  -- The transfer is the third step of the run.
  have hwired : Run (Gate.exec (tableChain 1 0xf1)) (Gate.started Gate.funded) _
    Deployment.sourceGate := run_traceOf (by decide +kernel)
  have hsent : (Gate.exec (tableChain 1 0xf1) Deployment.sourceGate
      (.transfer Deployment.sending.1 (.send Deployment.sending.2))).map (fun r => r.2.id) =
      some (some Solana.Cluster.arrivalId) := by decide +kernel
  obtain ⟨⟨w, o⟩, hexec, hout⟩ := Option.map_eq_some_iff.mp hsent
  obtain ⟨wire, id, S⟩ := Gate.sent_of_exec (e := ⟨_, _, o, w⟩) hexec rfl
  obtain rfl : Solana.Cluster.arrivalId = id := Option.some.inj (hout.symm.trans S.out)
  have hcoll : CollisionFree digestOf (Gate.hashedIn (tableChain 1 0xf1)
      (traceOf (Gate.exec (tableChain 1 0xf1)) (Gate.started Gate.funded) Deployment.wiring).1 ++
      (Gate.TransferCall.send Deployment.sending.2).hashed (tableChain 1 0xf1) Deployment.sending.1
        Deployment.sourceGate.gate) := by decide +kernel
  have hspellable : Spellable (tableChain 1 0xf1) Deployment.sourceGate.gate
      Deployment.sending.2 :=
    ⟨by decide +kernel, by decide, by decide +kernel, fun h => absurd rfl h⟩
  refine ⟨hspellable, cfg, wire, w, hcfg, (cancellable_and_refundable_iff
    (Gate.initial_started Gate.funded) (hwired.snoc hexec) ?_ S (by decide) (by simp)
    rfl hfresh ?_ ?_).mpr hspellable⟩
  · rw [Gate.hashedIn, List.flatMap_append, List.flatMap_singleton]
    exact hcoll
  · rw [hdom]
    show 0xd0 = Deployment.sourceGate.gate.bridgeDomain
    decide +kernel
  · rw [hchain]
    decide +kernel

/-- Enough of the token for an amount of 2⁶⁴ units on the wire. -/
def plenty : Ledger :=
  (Gate.noTokens.setBalance 0xaa 0xcc 1844674407370955161600).setAllowance 0xaa 0xcc 0xf1
    1844674407370955161600

/-- The contract of chain 1, wired for the program, where somebody has as much. -/
def plentyGate : Gate.World Ledger :=
  (traceOf (Gate.exec (tableChain 1 0xf1)) (Gate.started plenty) Deployment.wiring).2

/-- A transfer of all of it, for a receiver of 20 bytes. -/
def tooWide : Gate.SendArgs where
  token := 0xaa
  amount := 1844674407370955161600
  chainIdTo := 7565164
  receiver := addressBytes 0xbb
  autoParams := []

/-- **Locked for good.** The contract locks a transfer to the program under an id that no
arguments of the program have, so that nothing can cancel it there. -/
theorem locked_for_good : ∃ cfg r,
    Solana.configOf Solana.Cluster.runtime Solana.Cluster.filled = some cfg ∧
    cfg.bridgeDomain = plentyGate.gate.bridgeDomain ∧
    tooWide.chainIdTo = cfg.chainId.setWidth 256 ∧
    Gate.send (tableChain 1 0xf1) (Gate.callAt 0xcc 1003) plentyGate.gate plentyGate.tokens
      tooWide = .ok r ∧
    ∀ x, Solana.submissionId digestOf cfg.bridgeDomain (Solana.claimParams cfg x) ≠ r.id := by
  have hcfg : (Solana.configOf Solana.Cluster.runtime Solana.Cluster.filled).map
      (fun cfg => (cfg.bridgeDomain, cfg.chainId)) = some (0xd0, 7565164) := by decide +kernel
  obtain ⟨cfg, hcfg, hfields⟩ := Option.map_eq_some_iff.mp hcfg
  obtain ⟨hdom, hchain⟩ := Prod.mk.inj hfields
  have hsend : (Gate.send (tableChain 1 0xf1) (Gate.callAt 0xcc 1003) plentyGate.gate
      plentyGate.tokens tooWide).toOption.map (·.id) =
      some 0x638f72037f1106af03a437b89304c2db9bfd43047f0aa512d5779ea173e36097 := by decide +kernel
  obtain ⟨r, hr, hid⟩ := Option.map_eq_some_iff.mp hsend
  have hr := toOption_eq_some.mp hr
  obtain ⟨wire, S⟩ := Gate.sends_of_send hr
  refine ⟨cfg, r, hcfg, ?_, ?_, hr, ?_⟩
  · rw [hdom]
    show 0xd0 = Deployment.sourceGate.gate.bridgeDomain
    decide +kernel
  · rw [hchain]
    decide +kernel
  · intro x hx
    -- The table does not collide, so the arguments would spell the string that was hashed.
    obtain ⟨sub, -, hstring, hhash⟩ := S.string
    have hcollide : Solana.submissionPreimage digestOf cfg.bridgeDomain
        (Solana.claimParams cfg x) = Gate.sentString (tableChain 1 0xf1) (Gate.callAt 0xcc 1003)
          plentyGate.gate tooWide wire := by
      obtain ⟨ys, hys⟩ := sub.preimage_eq_prefix
      obtain ⟨xs, hxs⟩ := Solana.submissionPreimage_eq_prefix digestOf cfg.bridgeDomain
        (Solana.claimParams cfg x)
      have hdigest : digestOf (wordBytes BridgeHash.SUBMISSION_PREFIX ++ xs) =
          digestOf (wordBytes BridgeHash.SUBMISSION_PREFIX ++ ys) := by
        rw [← hxs, ← hys, ← hstring]
        exact hx.trans hhash.symm
      have hne : digestOf (wordBytes BridgeHash.SUBMISSION_PREFIX ++ ys) ≠ 0 := by
        rw [← hys, ← hstring]
        exact fun h0 => absurd (hid.symm.trans (hhash.symm.trans h0)) (by decide)
      rw [hxs, hstring, hys, eq_of_digestOf_wordBytes_eq (by decide) hdigest hne]
    have hspells : Solana.Spells Solana.Cluster.runtime cfg (Gate.sentString (tableChain 1 0xf1)
        (Gate.callAt 0xcc 1003) plentyGate.gate tooWide wire) tooWide.autoParams x := by
      refine ⟨fun h => absurd rfl h, congrArg digestOf hcollide, ?_⟩
      exact collisionFree_pair.mpr fun _ => hcollide
    have hlt := (spellable_of_spells S hspells).amount
    exact absurd hlt (by decide +kernel)

end SelendraBridge
