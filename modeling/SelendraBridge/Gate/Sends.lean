import SelendraBridge.Gate.Books

/-!
# The ids a run gave out

Every send of a run has an id of its own: the nonce of its corridor is in the id, and a
send leaves a higher one behind (`SelendraBridge.Gate.sent_unique`). And an id whose
sender the books know is the id of a send in the run, by that sender
(`SelendraBridge.Gate.sent_of_sentBy`).

What was hashed along a run is written down call by call in
`SelendraBridge.Gate.hashedBy`; it is the list that the absence of collisions is assumed
of.
-/

namespace SelendraBridge

namespace Gate

open Transition

variable {σ : Type} (E : Chain σ)

/-- **A send in a run**, with its arguments, the wire amount and the id. -/
structure Sent (e : Step σ) (c : Call) (a : SendArgs) (wire : U256) (id : Bytes32) : Prop where
  label : e.label = .transfer c (.send a)
  out : e.out.id = some id
  spec : Sends E c e.pre.gate e.pre.tokens a wire ⟨e.post.gate, e.post.tokens, e.out.log, id⟩

/-- **A claim in a run.** -/
structure Claimed (e : Step σ) (c : Call) (a : ClaimArgs) (localAmount : U256)
    (recipient : Address) (id : Bytes32) : Prop where
  label : e.label = .transfer c (.claim a)
  out : e.out.id = some id
  spec : Claims E e.pre.gate e.pre.tokens a localAmount recipient
    ⟨e.post.gate, e.post.tokens, e.out.log, id⟩

/-- **A refund in a run.** -/
structure Refunded (e : Step σ) (c : Call) (a : RefundArgs) (localAmount : U256)
    (id : Bytes32) : Prop where
  label : e.label = .transfer c (.refund a)
  out : e.out.id = some id
  spec : Refunds E e.pre.gate e.pre.tokens a localAmount
    ⟨e.post.gate, e.post.tokens, e.out.log, id⟩

/-- The string of an asset's id, for a call that computes it from a token. -/
def hashedToken (token : Address) : Bytes := BridgeHash.packedDebridgeId E.chainId token

/-- The strings that a transfer call hashes into ids of assets and of transfers. -/
def TransferCall.hashed (c : Call) (g : Gate) : TransferCall → List Bytes
  | .send a => hashedToken E a.token :: match toBridgeAmount g a.token a.amount with
    | .ok wire => (idPreimage E.keccak256 g.bridgeDomain (sendParams E c g a wire)).toList
    | .error _ => []
  | .claim a => (idPreimage E.keccak256 g.bridgeDomain (claimParams E a)).toList
  | .cancel a => (idPreimage E.keccak256 g.bridgeDomain (claimParams E a)).toList
  | .refund a => hashedToken E a.token ::
    (idPreimage E.keccak256 g.bridgeDomain (refundParams E a)).toList

/-- **What a step hashed.** -/
def hashedBy (e : Step σ) : List Bytes :=
  match e.label with
  | .transfer c x => x.hashed E c e.pre.gate
  | _ => []

/-- What a run hashed. -/
def hashedIn (tr : List (Step σ)) : List Bytes := tr.flatMap (hashedBy E)

variable {E}

theorem hashedBy_subset {tr : List (Step σ)} {e : Step σ} (he : e ∈ tr) {bs : Bytes}
    (h : bs ∈ hashedBy E e) : bs ∈ hashedIn E tr := List.mem_flatMap.mpr ⟨e, he, h⟩

/-! ### Reading a step back -/

variable {e : Step σ} {c : Call}

theorem sent_of_exec {a : SendArgs} (h : exec E e.pre e.label = some (e.post, e.out))
    (hl : e.label = .transfer c (.send a)) : ∃ wire id, Sent E e c a wire id := by
  rw [hl] at h
  obtain ⟨-, -, r, hr, hpost, hout⟩ := exec_transfer h
  obtain ⟨wire, S⟩ := sends_of_send hr
  refine ⟨wire, r.id, hl, by rw [hout], ?_⟩
  rw [hpost, hout]
  exact S

theorem claimed_of_exec {a : ClaimArgs} (h : exec E e.pre e.label = some (e.post, e.out))
    (hl : e.label = .transfer c (.claim a)) :
    ∃ localAmount recipient id, Claimed E e c a localAmount recipient id := by
  rw [hl] at h
  obtain ⟨-, -, r, hr, hpost, hout⟩ := exec_transfer h
  obtain ⟨localAmount, recipient, C⟩ := claims_of_claim hr
  refine ⟨localAmount, recipient, r.id, hl, by rw [hout], ?_⟩
  rw [hpost, hout]
  exact C

theorem refunded_of_exec {a : RefundArgs} (h : exec E e.pre e.label = some (e.post, e.out))
    (hl : e.label = .transfer c (.refund a)) :
    ∃ localAmount id, Refunded E e c a localAmount id := by
  rw [hl] at h
  obtain ⟨-, -, r, hr, hpost, hout⟩ := exec_transfer h
  obtain ⟨localAmount, R⟩ := refunds_of_refund hr
  refine ⟨localAmount, r.id, hl, by rw [hout], ?_⟩
  rw [hpost, hout]
  exact R

/-- The strings a send hashed. -/
theorem Sent.hashed {a : SendArgs} {wire : U256} {id : Bytes32} (S : Sent E e c a wire id) :
    hashedToken E a.token ∈ hashedBy E e ∧ ∀ bs,
      idPreimage E.keccak256 e.pre.gate.bridgeDomain (sendParams E c e.pre.gate a wire) = some bs →
        bs ∈ hashedBy E e := by
  rw [hashedBy, S.label]
  simp only [TransferCall.hashed, S.spec.wire_eq]
  exact ⟨List.mem_cons_self, fun bs hbs => List.mem_cons_of_mem _ (by simp [hbs])⟩

/-- The strings a refund hashed. -/
theorem Refunded.hashed {a : RefundArgs} {localAmount : U256} {id : Bytes32}
    (R : Refunded E e c a localAmount id) :
    hashedToken E a.token ∈ hashedBy E e ∧ ∀ bs,
      idPreimage E.keccak256 e.pre.gate.bridgeDomain (refundParams E a) = some bs →
        bs ∈ hashedBy E e := by
  rw [hashedBy, R.label]
  exact ⟨List.mem_cons_self, fun bs hbs => List.mem_cons_of_mem _ (by simp [hbs])⟩

/-- The string a claim hashed. -/
theorem Claimed.hashed {a : ClaimArgs} {localAmount : U256} {recipient : Address} {id : Bytes32}
    (C : Claimed E e c a localAmount recipient id) {bs : Bytes}
    (h : idPreimage E.keccak256 e.pre.gate.bridgeDomain (claimParams E a) = some bs) :
    bs ∈ hashedBy E e := by
  rw [hashedBy, C.label]
  simp [TransferCall.hashed, h]

/-! ### One send, one id -/

variable {w₀ w : World σ} {tr : List (Step σ)}

/-- The deadline of the setup phase is set before every step of a run. -/
theorem setupDeadline_ne (h₀ : Initial w₀) (hrun : Run (exec E) w₀ tr w) :
    w.gate.setupDeadline ≠ 0 :=
  hrun.invariant (P := fun v => v.gate.setupDeadline ≠ 0) h₀.gate_eq.1
    fun _ _ _ _ => setupDeadline_step

/-- **Two sends of a run have two ids.** -/
theorem sent_unique {t₁ t₂ t₃ : List (Step σ)} {e₁ e₂ : Step σ} {c₁ c₂ : Call}
    {a₁ a₂ : SendArgs} {wire₁ wire₂ : U256} {id : Bytes32} (h₀ : Initial w₀)
    (hrun : Run (exec E) w₀ (t₁ ++ e₁ :: (t₂ ++ e₂ :: t₃)) w)
    (hcoll : CollisionFree E.keccak256 (hashedIn E (t₁ ++ e₁ :: (t₂ ++ e₂ :: t₃))))
    (S₁ : Sent E e₁ c₁ a₁ wire₁ id) (S₂ : Sent E e₂ c₂ a₂ wire₂ id) : False := by
  obtain ⟨hrun₁, he₁, hrest⟩ := hrun.split
  have hd₁ : e₁.post.gate.setupDeadline ≠ 0 := setupDeadline_step (setupDeadline_ne h₀ hrun₁) he₁
  obtain ⟨s, hs₁, hs₂⟩ := submission_eq_of_idFor_eq S₁.spec.id S₂.spec.id fun x y hx hy =>
    hcoll x (hashedBy_subset (by simp) (S₁.hashed.2 x hx))
      y (hashedBy_subset (by simp) (S₂.hashed.2 y hy))
  have hp₁ := submission_eq_some hs₁
  have hp₂ := submission_eq_some hs₂
  have hto : a₁.chainIdTo = a₂.chainIdTo :=
    hp₁.2.2.2.2.2.1.symm.trans hp₂.2.2.2.2.2.1
  have hnonce : e₁.pre.gate.nonceTo a₁.chainIdTo = e₂.pre.gate.nonceTo a₂.chainIdTo :=
    hp₁.2.2.2.2.2.2.1.symm.trans hp₂.2.2.2.2.2.2.1
  -- The corridor's nonce has moved past the first send by the time of the second.
  have hlt := S₁.spec.nonce
  have hle := (kept_run hd₁ hrest.split.1).nonceTo a₁.chainIdTo
  dsimp only at hlt
  rw [hlt, hnonce, hto] at hle
  omega

/-- **No other step of the run sends an id that a step sent.** -/
theorem sent_only {earlier rest : List (Step σ)} {a : SendArgs} {wire : U256} {id : Bytes32}
    (h₀ : Initial w₀) (hrun : Run (exec E) w₀ (earlier ++ e :: rest) w)
    (hcoll : CollisionFree E.keccak256 (hashedIn E (earlier ++ e :: rest)))
    (S : Sent E e c a wire id) : ∀ other ∈ earlier ++ rest, ∀ c' a',
      other.label = .transfer c' (.send a') → other.out.id ≠ some id := by
  intro other hother c' a' hl hid
  have hmem : other ∈ earlier ++ e :: rest := by
    rcases List.mem_append.mp hother with h | h
    · exact List.mem_append_left _ h
    · exact List.mem_append_right _ (List.mem_cons_of_mem _ h)
  obtain ⟨wire', id', S'⟩ := sent_of_exec (hrun.exec_of_mem hmem) hl
  obtain rfl : id' = id := Option.some.inj (S'.out.symm.trans hid)
  rcases List.mem_append.mp hother with h | h
  · obtain ⟨t₁, t₂, rfl⟩ := List.append_of_mem h
    rw [List.append_assoc, List.cons_append] at hrun hcoll
    exact sent_unique h₀ hrun hcoll S' S
  · obtain ⟨t₁, t₂, rfl⟩ := List.append_of_mem h
    exact sent_unique h₀ hrun hcoll S S'

/-- A refund marks its id. -/
theorem Refunded.marks {a : RefundArgs} {localAmount : U256} {id : Bytes32}
    (R : Refunded E e c a localAmount id) : e.post.gate.refunded id = true := by
  have hg : e.post.gate.refunded = Function.update e.pre.gate.refunded id true :=
    congrArg refunded R.spec.gate
  rw [hg]
  exact Function.update_self ..

/-- **No other step of the run refunds an id that a step refunded.** -/
theorem refunded_only {earlier rest : List (Step σ)} {a : RefundArgs} {localAmount : U256}
    {id : Bytes32} (h₀ : Initial w₀) (hrun : Run (exec E) w₀ (earlier ++ e :: rest) w)
    (R : Refunded E e c a localAmount id) : ∀ other ∈ earlier ++ rest, ∀ c' a',
      other.label = .transfer c' (.refund a') → other.out.id ≠ some id := by
  intro other hother c' a' hl hid
  obtain ⟨hbefore, hex, hafter⟩ := hrun.split
  rcases List.mem_append.mp hother with h | h
  · obtain ⟨t₁, t₂, rfl⟩ := List.append_of_mem h
    obtain ⟨h₁, hex', h₂⟩ := hbefore.split
    obtain ⟨_, id', R'⟩ := refunded_of_exec hex' hl
    obtain rfl : id' = id := Option.some.inj (R'.out.symm.trans hid)
    have hk := kept_run (setupDeadline_step (setupDeadline_ne h₀ h₁) hex') h₂
    exact absurd (R.spec.refunded.symm.trans (hk.refunded _ R'.marks)) (by simp)
  · obtain ⟨t₁, t₂, rfl⟩ := List.append_of_mem h
    obtain ⟨h₁, hex', -⟩ := hafter.split
    obtain ⟨_, id', R'⟩ := refunded_of_exec hex' hl
    obtain rfl : id' = id := Option.some.inj (R'.out.symm.trans hid)
    have hk := kept_run (setupDeadline_step (setupDeadline_ne h₀ hbefore) hex) h₁
    exact absurd (R'.spec.refunded.symm.trans (hk.refunded _ R.marks)) (by simp)

/-- **An id with a sender is the id of a send** in the run, by that sender. -/
theorem sent_of_sentBy (h₀ : Initial w₀) (hrun : Run (exec E) w₀ tr w) {id : Bytes32}
    (hid : w.gate.sentBy id ≠ 0) :
    ∃ e ∈ tr, ∃ c a wire, Sent E e c a wire id ∧ c.sender = w.gate.sentBy id := by
  refine hrun.rec_trace (P := fun tr w => w.gate.sentBy id ≠ 0 → ∃ e ∈ tr, ∃ c a wire,
    Sent E e c a wire id ∧ c.sender = w.gate.sentBy id) ?_ ?_ hid
  · obtain ⟨-, -, -, hg⟩ := h₀.gate_eq
    rw [hg]
    exact fun h => absurd rfl h
  · intro tr v l v' o hr ih he hne
    have hd := setupDeadline_ne h₀ hr
    rcases sentBy_step hd he hne with hold | ⟨c, a, rfl, hout, hsender⟩
    · rw [hold] at hne ⊢
      obtain ⟨e, hmem, hsent⟩ := ih hne
      exact ⟨e, List.mem_append_left _ hmem, hsent⟩
    · obtain ⟨wire, id', S⟩ := sent_of_exec (e := ⟨v, _, o, v'⟩) he rfl
      obtain rfl : id' = id := Option.some.inj (S.out.symm.trans hout)
      exact ⟨_, List.mem_append_right _ (List.mem_singleton_self _), c, a, wire, S, hsender.symm⟩

/-- **An id that is refunded was refunded** in the run. -/
theorem refunded_of_run (h₀ : Initial w₀) (hrun : Run (exec E) w₀ tr w) {id : Bytes32}
    (hid : w.gate.refunded id = true) :
    ∃ e ∈ tr, ∃ c a localAmount, Refunded E e c a localAmount id := by
  refine hrun.rec_trace (P := fun tr w => w.gate.refunded id = true → ∃ e ∈ tr, ∃ c a localAmount,
    Refunded E e c a localAmount id) ?_ ?_ hid
  · obtain ⟨-, -, -, hg⟩ := h₀.gate_eq
    rw [hg]
    exact fun h => absurd h (by simp [blank])
  · intro tr v l v' o hr ih he hnow
    rcases refunded_step (setupDeadline_ne h₀ hr) he hnow with hold | ⟨c, a, rfl, hout⟩
    · obtain ⟨e, hmem, hrefunded⟩ := ih hold
      exact ⟨e, List.mem_append_left _ hmem, hrefunded⟩
    · obtain ⟨localAmount, id', R⟩ := refunded_of_exec (e := ⟨v, _, o, v'⟩) he rfl
      obtain rfl : id' = id := Option.some.inj (R.out.symm.trans hout)
      exact ⟨_, List.mem_append_right _ (List.mem_singleton_self _), c, a, localAmount, R⟩

/-- **A sent id that was not refunded since is owed to its sender**, whatever else
happened. -/
theorem owed_of_sent {before after : List (Step σ)} {a : SendArgs} {wire : U256} {id : Bytes32}
    (h₀ : Initial w₀) (hrun : Run (exec E) w₀ (before ++ e :: after) w)
    (hcoll : CollisionFree E.keccak256 (hashedIn E (before ++ e :: after)))
    (S : Sent E e c a wire id)
    (hnot : ∀ other ∈ after, ∀ c' a', other.label = .transfer c' (.refund a') →
      other.out.id ≠ some id) :
    w.gate.sentBy id = c.sender ∧ w.gate.refunded id = false := by
  obtain ⟨hbefore, hex, hafter⟩ := hrun.split
  have honly := sent_only h₀ hrun hcoll S
  constructor
  · -- Nobody else writes the sender of the id.
    have hkept : ∀ tr' v, Run (exec E) e.post tr' v → (∀ other ∈ tr', other ∈ after) →
        v.gate.setupDeadline ≠ 0 ∧ v.gate.sentBy id = c.sender := by
      intro tr' v hr
      induction hr with
      | nil =>
        intro _
        refine ⟨setupDeadline_step (setupDeadline_ne h₀ hbefore) hex, ?_⟩
        have hg : e.post.gate.sentBy = Function.update e.pre.gate.sentBy id c.sender :=
          congrArg sentBy S.spec.gate
        rw [hg, Function.update_self]
      | snoc hr he ih =>
        intro hsub
        obtain ⟨hd, hby⟩ := ih fun other ho => hsub other (List.mem_append_left _ ho)
        have hlast := hsub _ (List.mem_append_right _ (List.mem_singleton_self _))
        refine ⟨setupDeadline_step hd he, ?_⟩
        rw [sentBy_frame hd he (fun c' a' hl => honly _ (List.mem_append_right _ hlast) c' a' hl)
          fun c' a' hl => hnot _ hlast c' a' hl]
        exact hby
    exact (hkept after w hafter fun _ h => h).2
  · -- A refund before the send would have needed a send before it.
    rw [Bool.eq_false_iff]
    intro hid
    obtain ⟨other, hmem, c', a', localAmount, R⟩ := refunded_of_run h₀ hrun hid
    rcases List.mem_append.mp hmem with h | h
    · obtain ⟨t₁, t₂, rfl⟩ := List.append_of_mem h
      obtain ⟨sent, hsent, c'', s', wire', S', -⟩ := sent_of_sentBy h₀ hbefore.split.1 R.spec.sent
      refine honly sent ?_ c'' s' S'.label S'.out
      simp only [List.mem_append]
      exact .inl (.inl hsent)
    · rcases List.mem_cons.mp h with rfl | h
      · exact absurd (S.label.symm.trans R.label) (by simp)
      · exact hnot other h c' a' R.label R.out

/-! ### One transfer

The concrete runs lock one and the same transfer. -/

/-- The sender's tokens, all of them promised to the gate. -/
def funded : Ledger :=
  (noTokens.setBalance 0xaa 0xcc 100000).setAllowance 0xaa 0xcc 0xf1 100000

/-- A lock of 100000 units of an 8-decimals token, which is 1000 on the wire. -/
def lockedSend : SendArgs where
  token := 0xaa
  amount := 100000
  chainIdTo := 2
  receiver := addressBytes 0xbb
  autoParams := []

/-- The id it gets as the first transfer from chain 1 to chain 2. -/
def lockedId : Bytes32 := 0x9e8cb09615e2006ffc6af70c125561c4d19ec6dfdad8e85727bb98b29b609dce

/-- Its refund, with the signature of the validator. -/
def lockedRefund : RefundArgs where
  token := 0xaa
  debridgeId := 0xafdef99c1704a7d5f4cacc1c621cef270dae98e2ea1f2add9fa0fd4e7201018a
  amount := 1000
  bridgeDecimals := 6
  chainIdTo := 2
  nonce := 0
  receiver := addressBytes 0xbb
  autoParams := []
  nativeSender := addressBytes 0xcc
  signatures := [signatureBytes
    0x3a4efaf4e8eb882166202ecdb7c25f37ff0ead6e727c84db91bb2d85cc303818
    0x41d36cf927ac5890844783367229dc623872782496d6564dc293f25684599b60 28]

end Gate

end SelendraBridge
