import SelendraBridge.Gate.Refund

/-!
# What a gate paid out, read from its events

Two events of a gate say that it paid: `Claimed` and `Refunded`. No governing call emits
either, and a run never emits two of a kind for one id
(`SelendraBridge.Gate.claimed_nodup`, `SelendraBridge.Gate.refunded_nodup`). What the
storage knows of an id is enough to find the event again: an id that is executed and not
cancelled was claimed (`SelendraBridge.Gate.claimed_of_executed`), and whoever shows the
same id shows the asset, the amount and the receiver of that claim
(`SelendraBridge.Gate.Claimed.same`). What a refund paid is what the send of the id locked
(`SelendraBridge.Gate.Refunded.lock`).
-/

namespace SelendraBridge

namespace Gate

open Revert Transition

variable {σ : Type} {E : Chain σ}

/-- The id that an event says was claimed. -/
def claimedId : Event → Option Bytes32
  | .claimed id _ _ _ => some id
  | _ => none

/-- The id that an event says was refunded. -/
def refundedId : Event → Option Bytes32
  | .refunded id _ _ _ => some id
  | _ => none

/-- Does an event say that the gate paid? -/
def Event.pays : Event → Bool
  | .claimed _ _ _ _ => true
  | .refunded _ _ _ _ => true
  | _ => false

/-! ### Governing calls -/

section Govern

variable {c : Call} {g g' : Gate} {log : List Event}

theorem not_pays_of_migrateTokens {tokens : σ} {legacyTokens : List Address}
    (h : migrateTokens E tokens legacyTokens g = .ok (g', log)) :
    ∀ v ∈ log, v.pays = false := by
  induction legacyTokens generalizing g g' log with
  | nil =>
    obtain ⟨-, rfl⟩ := Prod.mk.inj (Except.ok.inj h)
    simp
  | cons token rest ih =>
    rw [migrateTokens, revertIf_bind_eq_ok] at h
    obtain ⟨-, h⟩ := h
    split at h
    · exact ih h
    · simp only [bind_eq_ok, pure_eq_ok, Prod.mk.injEq, Prod.exists] at h
      obtain ⟨_, -, _, log', hrest, -, rfl⟩ := h
      exact List.forall_mem_cons.mpr ⟨rfl, ih hrest⟩

theorem not_pays_migrateChains (chains : List U256) (g : Gate) :
    ∀ v ∈ (migrateChains chains g).2, v.pays = false := by
  induction chains generalizing g with
  | nil => simp [migrateChains]
  | cons chain rest ih =>
    rw [migrateChains]
    split
    · exact List.forall_mem_cons.mpr ⟨rfl, ih _⟩
    · exact ih g

/-- **A governing call pays nothing**, one case for each call. -/
theorem not_pays_of_govern {tokens : σ} {x : GovCall}
    (h : govern E c g tokens x = .ok (g', log)) : ∀ v ∈ log, v.pays = false := by
  cases x with
  | migrate legacyTokens legacyChains =>
    simp only [govern, initializeV2, bind_eq_ok, exists_unit, pure_eq_ok, Prod.mk.injEq,
      Prod.exists] at h
    obtain ⟨-, -, -, -, g₁, log₁, htokens, -, rfl⟩ := h
    intro v hv
    simp only [List.mem_append, List.mem_singleton] at hv
    rcases hv with (hv | hv) | rfl
    · exact not_pays_of_migrateTokens htokens v hv
    · exact not_pays_migrateChains _ _ v hv
    · rfl
  | setValidator v active =>
    simp only [govern, setValidator, bind_eq_ok, exists_unit] at h
    obtain ⟨-, -, h⟩ := h
    split at h
    · simp only [bind_eq_ok, pure_eq_ok, Prod.mk.injEq] at h
      obtain ⟨_, -, _, -, -, rfl⟩ := h
      simp [Event.pays]
    · split at h
      · simp only [bind_eq_ok, exists_unit, pure_eq_ok, Prod.mk.injEq] at h
        obtain ⟨_, -, -, -, rfl⟩ := h
        simp [Event.pays]
      · obtain ⟨-, rfl⟩ := Prod.mk.inj (Except.ok.inj h)
        simp
  | setGuardian newGuardian =>
    simp only [govern, setGuardian, bind_eq_ok, exists_unit] at h
    obtain ⟨-, h⟩ := h
    split at h
    · obtain ⟨-, rfl⟩ := Prod.mk.inj (Except.ok.inj h)
      simp
    · simp only [bind_eq_ok, pure_eq_ok, Prod.mk.injEq] at h
      obtain ⟨_, -, -, rfl⟩ := h
      simp [Event.pays]
  | pause | unpause =>
    simp only [govern, Gate.pause, Gate.unpause, bind_eq_ok, exists_unit] at h
    obtain ⟨-, h⟩ := h
    split at h <;> obtain ⟨-, rfl⟩ := Prod.mk.inj (Except.ok.inj h) <;> simp [Event.pays]
  | setThreshold _ =>
    simp only [govern, setThreshold, bind_eq_ok, exists_unit, pure_eq_ok, Prod.mk.injEq] at h
    obtain ⟨-, -, _, -, -, rfl⟩ := h
    simp [Event.pays]
  | setLocalToken _ _ =>
    simp only [govern, setLocalToken, bind_eq_ok, exists_unit, pure_eq_ok, Prod.mk.injEq] at h
    obtain ⟨-, -, -, _, -, -, -, rfl⟩ := h
    simp [Event.pays]
  | setBridgeDecimals _ _ =>
    simp only [govern, setBridgeDecimals, bind_eq_ok, exists_unit, pure_eq_ok, Prod.mk.injEq] at h
    obtain ⟨-, -, -, _, -, -, _, -, -, rfl⟩ := h
    simp [Event.pays]
  | upgradeToAndCall _ _ _ =>
    simp only [govern, upgradeToAndCall, bind_eq_ok, exists_unit, pure_eq_ok, Prod.mk.injEq] at h
    obtain ⟨-, -, -, _, -, -, -, rfl⟩ := h
    simp
  | scheduleSetBridgeDecimals _ _ =>
    simp only [govern, scheduleSetBridgeDecimals, schedule, bind_eq_ok, exists_unit, pure_eq_ok,
      Prod.mk.injEq] at h
    obtain ⟨-, -, -, -, _, -, -, -, rfl⟩ := h
    simp [Event.pays]
  | scheduleUpgrade _ _ =>
    simp only [govern, scheduleUpgrade, bind_eq_ok, exists_unit, pure_eq_ok, Prod.mk.injEq] at h
    obtain ⟨-, -, -, -, rfl⟩ := h
    simp [Event.pays]
  | scheduleSetLocalToken _ _ =>
    simp only [govern, scheduleSetLocalToken, schedule, bind_eq_ok, exists_unit, pure_eq_ok,
      Prod.mk.injEq] at h
    obtain ⟨-, -, -, -, -, rfl⟩ := h
    simp [Event.pays]
  | scheduleAddValidator _ | scheduleLowerThreshold _ | transferOwnership _ | sealGate
  | setMinSendAmount _ _ =>
    simp only [govern, scheduleAddValidator, scheduleLowerThreshold, schedule, transferOwnership,
      Gate.sealGate, setMinSendAmount, bind_eq_ok, exists_unit, pure_eq_ok, Prod.mk.injEq] at h
    obtain ⟨-, -, -, rfl⟩ := h
    simp [Event.pays]
  | cancelScheduledUpgrade _ | acceptOwnership | scheduleSetGuardian _
  | cancelScheduledGovernance _ | setSupportedChain _ _ =>
    simp only [govern, cancelScheduledUpgrade, acceptOwnership, scheduleSetGuardian, schedule,
      cancelScheduledGovernance, setSupportedChain, bind_eq_ok, exists_unit, pure_eq_ok,
      Prod.mk.injEq] at h
    obtain ⟨-, -, rfl⟩ := h
    simp [Event.pays]

/-- Events that pay nothing name no payout. -/
theorem filterMap_of_not_pays (h : ∀ v ∈ log, v.pays = false) :
    log.filterMap claimedId = [] ∧ log.filterMap refundedId = [] := by
  constructor <;> refine List.filterMap_eq_nil_iff.mpr fun v hv => ?_ <;>
    cases v with
    | claimed _ _ _ _ => exact absurd (h _ hv) (by simp [Event.pays])
    | refunded _ _ _ _ => exact absurd (h _ hv) (by simp [Event.pays])
    | _ => rfl

end Govern

/-! ### Once each -/

variable {w₀ w w' : World σ} {tr : List (Step σ)} {l : Label σ} {o : Out} {id : Bytes32}

/-- What a step paid by a claim: nothing, or one id that was not executed and is now. -/
theorem claimed_of_step (h : exec E w l = some (w', o)) :
    o.log.filterMap claimedId = [] ∨ ∃ id, o.log.filterMap claimedId = [id] ∧
      ¬w.gate.executed id = true ∧ w'.gate.executed id = true := by
  cases l with
  | govern c x =>
    obtain ⟨-, -, hgov, -⟩ := exec_govern h
    exact .inl (filterMap_of_not_pays (not_pays_of_govern hgov)).1
  | tokens s =>
    obtain ⟨-, rfl⟩ := exec_tokens h
    exact .inl rfl
  | transfer c x =>
    obtain ⟨-, -, r, hr, rfl, rfl⟩ := exec_transfer h
    cases x with
    | send a =>
      obtain ⟨wire, S⟩ := sends_of_send hr
      exact .inl (by rw [S.log]; rfl)
    | cancel a => exact .inl (by rw [(cancels_of_cancel hr).log]; rfl)
    | refund a =>
      obtain ⟨localAmount, R⟩ := refunds_of_refund hr
      exact .inl (by rw [R.log]; rfl)
    | claim a =>
      obtain ⟨localAmount, recipient, C⟩ := claims_of_claim hr
      refine .inr ⟨r.id, by rw [C.log]; rfl, by rw [C.executed]; simp, ?_⟩
      rw [C.gate]
      exact Function.update_self ..

/-- What a step paid by a refund: nothing, or one id that was not refunded and is now. -/
theorem refunded_of_step (h : exec E w l = some (w', o)) :
    o.log.filterMap refundedId = [] ∨ ∃ id, o.log.filterMap refundedId = [id] ∧
      ¬w.gate.refunded id = true ∧ w'.gate.refunded id = true := by
  cases l with
  | govern c x =>
    obtain ⟨-, -, hgov, -⟩ := exec_govern h
    exact .inl (filterMap_of_not_pays (not_pays_of_govern hgov)).2
  | tokens s =>
    obtain ⟨-, rfl⟩ := exec_tokens h
    exact .inl rfl
  | transfer c x =>
    obtain ⟨-, -, r, hr, rfl, rfl⟩ := exec_transfer h
    cases x with
    | send a =>
      obtain ⟨wire, S⟩ := sends_of_send hr
      exact .inl (by rw [S.log]; rfl)
    | cancel a => exact .inl (by rw [(cancels_of_cancel hr).log]; rfl)
    | claim a =>
      obtain ⟨localAmount, recipient, C⟩ := claims_of_claim hr
      exact .inl (by rw [C.log]; rfl)
    | refund a =>
      obtain ⟨localAmount, R⟩ := refunds_of_refund hr
      refine .inr ⟨r.id, by rw [R.log]; rfl, by rw [R.refunded]; simp, ?_⟩
      rw [R.gate]
      exact Function.update_self ..

/-- A run stays where flags are kept: past the initialization. -/
theorem deadline_pre (h₀ : Initial w₀) (hrun : Run (exec E) w₀ tr w) :
    ∀ e ∈ tr, e.pre.gate.setupDeadline ≠ 0 := by
  intro e he
  obtain ⟨tr₁, tr₂, rfl⟩ := List.append_of_mem he
  exact setupDeadline_ne h₀ hrun.split.1

/-- **No id is claimed twice.** -/
theorem claimed_nodup (h₀ : Initial w₀) (hrun : Run (exec E) w₀ tr w) :
    (tr.flatMap fun e => e.out.log.filterMap claimedId).Nodup ∧
      ∀ id ∈ tr.flatMap fun e => e.out.log.filterMap claimedId, w.gate.executed id = true := by
  have hr := hrun.restrict (p := fun e => e.pre.gate.setupDeadline ≠ 0) (deadline_pre h₀ hrun)
  refine @Run.nodup_of_marks _ _ _ _ _ _ _ _ (fun o => o.log.filterMap claimedId)
    (fun v id => v.gate.executed id = true) ?_ ?_ hr
  · intro v l v' o id h
    obtain ⟨h, hd⟩ := restrict_eq_some.mp h
    exact (kept_step hd h).executed id
  · intro v l v' o h
    exact claimed_of_step (restrict_eq_some.mp h).1

/-- **No id is refunded twice.** -/
theorem refunded_nodup (h₀ : Initial w₀) (hrun : Run (exec E) w₀ tr w) :
    (tr.flatMap fun e => e.out.log.filterMap refundedId).Nodup ∧
      ∀ id ∈ tr.flatMap fun e => e.out.log.filterMap refundedId, w.gate.refunded id = true := by
  have hr := hrun.restrict (p := fun e => e.pre.gate.setupDeadline ≠ 0) (deadline_pre h₀ hrun)
  refine @Run.nodup_of_marks _ _ _ _ _ _ _ _ (fun o => o.log.filterMap refundedId)
    (fun v id => v.gate.refunded id = true) ?_ ?_ hr
  · intro v l v' o id h
    obtain ⟨h, hd⟩ := restrict_eq_some.mp h
    exact (kept_step hd h).refunded id
  · intro v l v' o h
    exact refunded_of_step (restrict_eq_some.mp h).1

/-! ### From the event back to the call -/

/-- **A payout by a claim** is that of a claim call. -/
theorem claimed_of_mem {e : Step σ} {d : Bytes32} {recipient : Address} {amount : U256}
    (h : exec E e.pre e.label = some (e.post, e.out))
    (hmem : Event.claimed id d recipient amount ∈ e.out.log) :
    ∃ c a, Claimed E e c a amount recipient id ∧ a.debridgeId = d := by
  rcases hl : e.label with ⟨c, x⟩ | ⟨c, x⟩ | s
  · rw [hl] at h
    obtain ⟨-, -, hgov, -⟩ := exec_govern h
    exact absurd (not_pays_of_govern hgov _ hmem) (by simp [Event.pays])
  · have hx := h
    rw [hl] at hx
    obtain ⟨-, -, r, hr, -, hout⟩ := exec_transfer hx
    have hlog : e.out.log = r.log := by rw [hout]
    cases x with
    | send a =>
      obtain ⟨wire, S⟩ := sends_of_send hr
      exact absurd hmem (by simp [hlog, S.log])
    | cancel a => exact absurd hmem (by simp [hlog, (cancels_of_cancel hr).log])
    | refund a =>
      obtain ⟨localAmount, R⟩ := refunds_of_refund hr
      exact absurd hmem (by simp [hlog, R.log])
    | claim a =>
      obtain ⟨localAmount, recipient', id', C⟩ := claimed_of_exec h hl
      rw [show e.out.log = _ from C.spec.log, List.mem_singleton, Event.claimed.injEq] at hmem
      obtain ⟨rfl, rfl, rfl, rfl⟩ := hmem
      exact ⟨c, a, C, rfl⟩
  · rw [hl] at h
    rw [(exec_tokens h).2] at hmem
    exact absurd hmem (List.not_mem_nil)

/-- **A payout by a refund** is that of a refund call, to the sender on record. -/
theorem refunded_of_mem {e : Step σ} {d : Bytes32} {sender : Address} {amount : U256}
    (h : exec E e.pre e.label = some (e.post, e.out))
    (hmem : Event.refunded id d sender amount ∈ e.out.log) :
    ∃ c a, Refunded E e c a amount id ∧ e.pre.gate.sentBy id = sender := by
  rcases hl : e.label with ⟨c, x⟩ | ⟨c, x⟩ | s
  · rw [hl] at h
    obtain ⟨-, -, hgov, -⟩ := exec_govern h
    exact absurd (not_pays_of_govern hgov _ hmem) (by simp [Event.pays])
  · have hx := h
    rw [hl] at hx
    obtain ⟨-, -, r, hr, -, hout⟩ := exec_transfer hx
    have hlog : e.out.log = r.log := by rw [hout]
    cases x with
    | send a =>
      obtain ⟨wire, S⟩ := sends_of_send hr
      exact absurd hmem (by simp [hlog, S.log])
    | cancel a => exact absurd hmem (by simp [hlog, (cancels_of_cancel hr).log])
    | claim a =>
      obtain ⟨localAmount, recipient', C⟩ := claims_of_claim hr
      exact absurd hmem (by simp [hlog, C.log])
    | refund a =>
      obtain ⟨localAmount, id', R⟩ := refunded_of_exec h hl
      rw [show e.out.log = _ from R.spec.log, List.mem_singleton, Event.refunded.injEq] at hmem
      obtain ⟨rfl, -, rfl, rfl⟩ := hmem
      exact ⟨c, a, R, rfl⟩
  · rw [hl] at h
    rw [(exec_tokens h).2] at hmem
    exact absurd hmem (List.not_mem_nil)

/-- What was claimed is executed, in an asset that has its token still. -/
theorem executed_of_mem {e : Step σ} {d : Bytes32} {recipient : Address} {amount : U256}
    (h₀ : Initial w₀) (hrun : Run (exec E) w₀ tr w) (he : e ∈ tr)
    (hmem : Event.claimed id d recipient amount ∈ e.out.log) :
    w.gate.executed id = true ∧ w.gate.tokenOf d ≠ 0 := by
  obtain ⟨before, after, rfl⟩ := List.append_of_mem he
  obtain ⟨hbefore, hex, hafter⟩ := hrun.split
  have hd := setupDeadline_ne h₀ hbefore
  have hk := kept_run (setupDeadline_step hd hex) hafter
  obtain ⟨c, a, C, rfl⟩ := claimed_of_mem hex hmem
  have hgate : e.post.gate = { e.pre.gate with
    executed := Function.update e.pre.gate.executed id true } := C.spec.gate
  have htoken : e.post.gate.tokenOf a.debridgeId ≠ 0 := by
    rw [hgate]
    exact C.spec.token_ne
  refine ⟨hk.executed id ?_, ?_⟩
  · rw [hgate]
    exact Function.update_self ..
  · rw [hk.token _ htoken]
    exact htoken

/-- **What is cancelled is executed.** -/
theorem executed_of_cancelled (h₀ : Initial w₀) (hrun : Run (exec E) w₀ tr w)
    (hcan : w.gate.cancelled id = true) : w.gate.executed id = true := by
  refine hrun.rec_trace (P := fun _ w => w.gate.cancelled id = true → w.gate.executed id = true)
    ?_ ?_ hcan
  · obtain ⟨-, -, -, hg⟩ := h₀.gate_eq
    rw [hg]
    exact fun h => absurd h (by simp [blank])
  · intro tr v l v' o hr ih he hnow
    have hd := setupDeadline_ne h₀ hr
    rcases cancelled_step hd he hnow with hold | ⟨-, hyes, -⟩
    · exact (kept_step hd he).executed id (ih hold)
    · exact hyes

/-! ### From the storage back to the event -/

/-- **An id that is executed and not cancelled was claimed.** -/
theorem claimed_of_executed (h₀ : Initial w₀) (hrun : Run (exec E) w₀ tr w)
    (hex : w.gate.executed id = true) (hcan : w.gate.cancelled id = false) :
    ∃ e ∈ tr, ∃ c a localAmount recipient, Claimed E e c a localAmount recipient id := by
  refine hrun.rec_trace (P := fun tr w => w.gate.executed id = true →
    w.gate.cancelled id = false → ∃ e ∈ tr, ∃ c a localAmount recipient,
      Claimed E e c a localAmount recipient id) ?_ ?_ hex hcan
  · obtain ⟨-, -, -, hg⟩ := h₀.gate_eq
    rw [hg]
    exact fun h => absurd h (by simp [blank])
  · intro tr v l v' o hr ih he hnow hnot
    have hd := setupDeadline_ne h₀ hr
    rcases executed_step hd he hnow with hold | ⟨c, a, rfl | rfl, hout⟩
    · have hcan' : v.gate.cancelled id = false := by
        rw [Bool.eq_false_iff]
        intro hc
        exact absurd ((kept_step hd he).cancelled id hc) (by rw [hnot]; simp)
      obtain ⟨e, hmem, hclaimed⟩ := ih hold hcan'
      exact ⟨e, List.mem_append_left _ hmem, hclaimed⟩
    · obtain ⟨localAmount, recipient, id', C⟩ := claimed_of_exec (e := ⟨v, _, o, v'⟩) he rfl
      obtain rfl : id' = id := Option.some.inj (C.out.symm.trans hout)
      exact ⟨_, List.mem_append_right _ (List.mem_singleton_self _), c, a, localAmount, recipient,
        C⟩
    · -- A cancellation would have cancelled it.
      obtain ⟨-, -, r, hr', rfl, rfl⟩ := exec_transfer he
      have C := cancels_of_cancel hr'
      obtain rfl : r.id = id := Option.some.inj hout
      have hyes : r.gate.cancelled r.id = true := by
        rw [C.gate]
        exact Function.update_self ..
      exact absurd hyes (by rw [show r.gate.cancelled r.id = false from hnot]; simp)

/-- **Whoever shows the id of a claim shows its asset, its amount and its receiver**, and
finds the registry as it was. -/
theorem Claimed.same {e : Step σ} {c : Call} {a b : ClaimArgs} {localAmount : U256}
    {recipient : Address} {g : Gate} {strings : List Bytes}
    (C : Claimed E e c a localAmount recipient id) (hk : Kept e.pre.gate g)
    (hid : idFor E.keccak256 g.bridgeDomain (claimParams E b) = .ok id)
    (hcoll : CollisionFree E.keccak256 strings) (hs : ∀ bs ∈ hashedBy E e, bs ∈ strings)
    (hb : ∀ bs, idPreimage E.keccak256 g.bridgeDomain (claimParams E b) = some bs → bs ∈ strings) :
    a.debridgeId = b.debridgeId ∧ toAddress b.receiver = .ok recipient ∧
      g.tokenOf b.debridgeId = e.pre.gate.tokenOf a.debridgeId ∧
      ∀ n, toLocalAmount g (g.tokenOf b.debridgeId) b.amount = .ok n → n = localAmount := by
  obtain ⟨t, ht₁, ht₂⟩ := submission_eq_of_idFor_eq C.spec.id hid fun x y hx hy =>
    hcoll x (hs x (C.hashed hx)) y (hb y hy)
  have hp₁ := submission_eq_some ht₁
  have hp₂ := submission_eq_some ht₂
  have hasset : a.debridgeId = b.debridgeId := hp₁.2.1.symm.trans hp₂.2.1
  have hamount : a.amount = b.amount := hp₁.2.2.2.1.symm.trans hp₂.2.2.2.1
  have hreceiver : a.receiver = b.receiver :=
    hp₁.2.2.2.2.2.2.2.1.symm.trans hp₂.2.2.2.2.2.2.2.1
  have htoken : g.tokenOf b.debridgeId = e.pre.gate.tokenOf a.debridgeId := by
    rw [← hasset]
    exact hk.token a.debridgeId C.spec.token_ne
  refine ⟨hasset, hreceiver ▸ C.spec.recipient_eq, htoken, fun n hn => ?_⟩
  have hscale := hk.scale (e.pre.gate.tokenOf a.debridgeId)
    (toLocalAmount_eq_ok.mp C.spec.localAmount_eq).1
  have h₁ := (toLocalAmount_eq_ok.mp C.spec.localAmount_eq).2.2.2
  have h₂ := (toLocalAmount_eq_ok.mp hn).2.2.2
  rw [htoken, hscale] at h₂
  rw [hamount] at h₁
  exact BitVec.eq_of_toNat_eq (h₂.trans h₁.symm)

/-- Two sends of one id in a run are of one sender, one token and one amount: they are one. -/
theorem Sent.same {e₁ e₂ : Step σ} {c₁ c₂ : Call} {a₁ a₂ : SendArgs} {wire₁ wire₂ : U256}
    (h₀ : Initial w₀) (hrun : Run (exec E) w₀ tr w)
    (hcoll : CollisionFree E.keccak256 (hashedIn E tr)) (h₁ : e₁ ∈ tr) (h₂ : e₂ ∈ tr)
    (S₁ : Sent E e₁ c₁ a₁ wire₁ id) (S₂ : Sent E e₂ c₂ a₂ wire₂ id) : c₁ = c₂ ∧ a₁ = a₂ := by
  obtain ⟨before, after, rfl⟩ := List.append_of_mem h₁
  have honly := sent_only h₀ hrun hcoll S₁
  rcases List.mem_append.mp h₂ with h | h
  · exact absurd S₂.out (honly e₂ (List.mem_append_left _ h) _ _ S₂.label)
  · rcases List.mem_cons.mp h with rfl | h
    · have hl := S₁.label.symm.trans S₂.label
      simp only [Label.transfer.injEq, TransferCall.send.injEq] at hl
      exact hl
    · exact absurd S₂.out (honly e₂ (List.mem_append_right _ h) _ _ S₂.label)

/-- **A refund pays what the send of the id locked**, to whoever sent it. -/
theorem Refunded.lock {e : Step σ} {c : Call} {a : RefundArgs} {localAmount : U256}
    {before : List (Step σ)} {strings : List Bytes} (h₀ : Initial w₀)
    (hrun : Run (exec E) w₀ before e.pre) (R : Refunded E e c a localAmount id)
    (hcoll : CollisionFree E.keccak256 strings) (hs : ∀ bs ∈ hashedIn E before, bs ∈ strings)
    (he : ∀ bs ∈ hashedBy E e, bs ∈ strings) :
    ∃ sent ∈ before, ∃ c' s wire, Sent E sent c' s wire id ∧
      c'.sender = e.pre.gate.sentBy id ∧ a.token = s.token ∧ localAmount = s.amount := by
  obtain ⟨sent, hmem, c', s, wire, S, hsender⟩ := sent_of_sentBy h₀ hrun R.spec.sent
  obtain ⟨earlier, between, rfl⟩ := List.append_of_mem hmem
  obtain ⟨hearlier, hsend, hbetween⟩ := hrun.split
  have hsd := setupDeadline_ne h₀ hearlier
  have hk : Kept sent.pre.gate e.pre.gate :=
    (kept_step hsd hsend).trans (kept_run (setupDeadline_step hsd hsend) hbetween)
  obtain ⟨htoken, -, hamount⟩ := refundLocalAmount_of_sent c S hk R.spec.id R.spec.token hcoll
    (fun bs hbs => hs bs (hashedBy_subset (by simp) hbs)) fun bs hbs =>
      he bs (by rw [hashedBy, R.label]; exact hbs)
  exact ⟨sent, hmem, c', s, wire, S, hsender, htoken,
    Except.ok.inj (R.spec.localAmount_eq.symm.trans hamount)⟩

end Gate

end SelendraBridge
