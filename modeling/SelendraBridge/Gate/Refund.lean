import SelendraBridge.Gate.Scale
import SelendraBridge.Gate.Sends

/-!
# A refund returns what was locked

The calldata of a refund names a token, an amount and a scale, and none of them is taken
on trust: the id binds the asset, the wire amount and the scale to those of one send, the
asset's own id binds the token, and the registry has not changed since. So the release is
the lock, back to whoever locked it, once (`SelendraBridge.Gate.refund_returns_lock`).
-/

namespace SelendraBridge

namespace Gate

open Transition

variable {σ : Type} {E : Chain σ} {w₀ w : World σ} {tr : List (Step σ)}

/-- **What a refund of a sent id would release**, at any later time: the token and the
amount that were locked. The multiplication does not overflow, since the division at the
send was exact and by the same unit. -/
theorem refundLocalAmount_of_sent {e : Step σ} {c : Call} (c' : Call) {s : SendArgs} {wire : U256}
    {id : Bytes32} {g : Gate} {a : RefundArgs} {strings : List Bytes} (S : Sent E e c s wire id)
    (hk : Kept e.pre.gate g)
    (hid : idFor E.keccak256 g.bridgeDomain (refundParams E a) = .ok id)
    (htok : BridgeHash.getDebridgeId E.keccak256 E.chainId a.token = a.debridgeId)
    (hcoll : CollisionFree E.keccak256 strings) (hs : ∀ bs ∈ hashedBy E e, bs ∈ strings)
    (ha : ∀ bs ∈ (TransferCall.refund a).hashed E c' g, bs ∈ strings) :
    a.token = s.token ∧ (g.bridgeDecimalsOf a.token).set = true ∧
      refundLocalAmount g a.token a.amount = .ok s.amount := by
  have ha' : ∀ bs, idPreimage E.keccak256 g.bridgeDomain (refundParams E a) = some bs →
      bs ∈ strings := fun bs hbs => ha bs (List.mem_cons_of_mem _ (by simp [hbs]))
  obtain ⟨t, ht₁, ht₂⟩ := submission_eq_of_idFor_eq S.spec.id hid fun x y hx hy =>
    hcoll x (hs x (S.hashed.2 x hx)) y (ha' y hy)
  have hp₁ := submission_eq_some ht₁
  have hp₂ := submission_eq_some ht₂
  have hdebridge : BridgeHash.getDebridgeId E.keccak256 E.chainId s.token = a.debridgeId :=
    hp₁.2.1.symm.trans hp₂.2.1
  have hamount : wire = a.amount := hp₁.2.2.2.1.symm.trans hp₂.2.2.2.1
  have htoken : a.token = s.token := by
    have hpacked := hcoll _ (ha _ List.mem_cons_self) _ (hs _ S.hashed.1)
      (htok.trans hdebridge.symm)
    exact (BridgeHash.packedDebridgeId_inj.mp hpacked).2
  obtain ⟨hset, hle, hlt, hwire⟩ := toBridgeAmount_eq_ok.mp S.spec.wire_eq
  have hscale : g.bridgeDecimalsOf a.token = e.pre.gate.bridgeDecimalsOf s.token := by
    rw [htoken]
    exact hk.scale s.token hset
  have hset' : (g.bridgeDecimalsOf a.token).set = true := by rw [hscale]; exact hset
  refine ⟨htoken, hset', ?_⟩
  rw [refundLocalAmount_of_set hset', toLocalAmount_eq_ok, hscale, ← hamount]
  exact ⟨hset, hle, hlt, hwire.symm⟩

/-- **Every refund returns what one send locked.** It is the refund of exactly one earlier
send: the same token, the amount that was locked, to the caller of that send and to nobody
else; and the id is not refunded again. And the release of a sent id never overflows,
whenever it is tried. -/
theorem refund_returns_lock (h₀ : Initial w₀) (hrun : Run (exec E) w₀ tr w)
    (hcoll : CollisionFree E.keccak256 (hashedIn E tr))
    (hexact : ∀ token, (w.gate.bridgeDecimalsOf token).set = true → E.tokens.Exact token) :
    (∀ before e after c a, tr = before ++ e :: after → e.label = .transfer c (.refund a) →
      ∃ id earlier sent between c' s wire,
        e.out.id = some id ∧ before = earlier ++ sent :: between ∧ Sent E sent c' s wire id ∧
        (∀ other ∈ earlier ++ (between ++ e :: after), ∀ c'' s',
          other.label = .transfer c'' (.send s') → other.out.id ≠ some id) ∧
        a.token = s.token ∧
        E.tokens.Moved s.token c'.sender E.gate s.amount sent.pre.tokens sent.post.tokens ∧
        E.tokens.Moved s.token E.gate c'.sender s.amount e.pre.tokens e.post.tokens ∧
        ∀ other ∈ before ++ after, ∀ c'' a',
          other.label = .transfer c'' (.refund a') → other.out.id ≠ some id) ∧
    ∀ sent ∈ tr, ∀ c s wire id, Sent E sent c s wire id → ∀ c' a,
      CollisionFree E.keccak256 (hashedIn E tr ++ (TransferCall.refund a).hashed E c' w.gate) →
      idFor E.keccak256 w.gate.bridgeDomain (refundParams E a) = .ok id →
      BridgeHash.getDebridgeId E.keccak256 E.chainId a.token = a.debridgeId →
      refundLocalAmount w.gate a.token a.amount = .ok s.amount ∧
        a.amount.toNat * 10 ^ scaleOf (w.gate.bridgeDecimalsOf a.token) < 2 ^ 256 := by
  constructor
  · rintro before e after c a rfl hlabel
    obtain ⟨hbefore, hex, hafter⟩ := hrun.split
    have hd := setupDeadline_ne h₀ hbefore
    have hd' := setupDeadline_step hd hex
    obtain ⟨localAmount, id, R⟩ := refunded_of_exec hex hlabel
    obtain ⟨sent, hmem, c', s, wire, S, hsender⟩ := sent_of_sentBy h₀ hbefore R.spec.sent
    obtain ⟨earlier, between, rfl⟩ := List.append_of_mem hmem
    obtain ⟨hearlier, hsend, hbetween⟩ := hbefore.split
    have hsd := setupDeadline_ne h₀ hearlier
    have hk : Kept sent.pre.gate e.pre.gate :=
      (kept_step hsd hsend).trans (kept_run (setupDeadline_step hsd hsend) hbetween)
    have hkw : Kept e.pre.gate w.gate := (kept_step hd hex).trans (kept_run hd' hafter)
    obtain ⟨htoken, hset, hamount⟩ := refundLocalAmount_of_sent c S hk R.spec.id
      R.spec.token hcoll (fun bs hbs => hashedBy_subset (by simp) hbs) fun bs hbs =>
        hashedBy_subset (e := e) (by simp) (by rw [hashedBy, hlabel]; exact hbs)
    obtain rfl : localAmount = s.amount :=
      Except.ok.inj (R.spec.localAmount_eq.symm.trans hamount)
    have hE : E.tokens.Exact s.token := by
      refine hexact s.token ?_
      rw [← htoken, hkw.scale a.token hset]
      exact hset
    have honly : ∀ other ∈ earlier ++ (between ++ e :: after), ∀ c'' s',
        other.label = .transfer c'' (.send s') → other.out.id ≠ some id := by
      rw [List.append_assoc, List.cons_append] at hrun hcoll
      exact sent_only h₀ hrun hcoll S
    refine ⟨id, earlier, sent, between, c', s, wire, R.out, rfl, S, honly, htoken,
      hE.transferFrom S.spec.moved, ?_, refunded_only h₀ hrun R⟩
    have hmoved := R.spec.moved
    rw [htoken, ← hsender] at hmoved
    exact hE.transfer hmoved
  · intro sent hmem c s wire id S c' a hcoll' hid htok
    obtain ⟨t₁, t₂, rfl⟩ := List.append_of_mem hmem
    obtain ⟨h₁, hsend, h₂⟩ := hrun.split
    have hsd := setupDeadline_ne h₀ h₁
    have hk : Kept sent.pre.gate w.gate :=
      (kept_step hsd hsend).trans (kept_run (setupDeadline_step hsd hsend) h₂)
    obtain ⟨-, hset, hamount⟩ := refundLocalAmount_of_sent c' S hk hid htok hcoll'
      (fun bs hbs => List.mem_append_left _ (hashedBy_subset (by simp) hbs))
      fun bs hbs => List.mem_append_right _ hbs
    refine ⟨hamount, ?_⟩
    rw [refundLocalAmount_of_set hset, toLocalAmount_eq_ok] at hamount
    rw [← hamount.2.2.2]
    exact s.amount.isLt

/-- A transfer is locked and refunded. -/
def sentAndRefunded : List (Step Ledger) × World Ledger :=
  traceOf (exec (tableChain 1 0xf1)) (started funded)
    [.govern (callAt 0x0a 1001) (.setBridgeDecimals 0xaa 6),
      .govern (callAt 0x0a 1002) (.setSupportedChain 2 true),
      .transfer (callAt 0xcc 1003) (.send lockedSend),
      .transfer (callAt 0xdd 1004) (.refund lockedRefund)]

theorem refund_returns_lock_sentAndRefunded :
    sentAndRefunded.1.length = 4 ∧ ∀ before e after c a, sentAndRefunded.1 = before ++ e :: after →
      e.label = .transfer c (.refund a) →
      ∃ id earlier sent between c' s wire,
        e.out.id = some id ∧ before = earlier ++ sent :: between ∧
        Sent (tableChain 1 0xf1) sent c' s wire id ∧
        (∀ other ∈ earlier ++ (between ++ e :: after), ∀ c'' s',
          other.label = .transfer c'' (.send s') → other.out.id ≠ some id) ∧
        a.token = s.token ∧
        Ledger.tokens.Moved s.token c'.sender 0xf1 s.amount sent.pre.tokens sent.post.tokens ∧
        Ledger.tokens.Moved s.token 0xf1 c'.sender s.amount e.pre.tokens e.post.tokens ∧
        ∀ other ∈ before ++ after, ∀ c'' a',
          other.label = .transfer c'' (.refund a') → other.out.id ≠ some id := by
  refine ⟨by decide +kernel, (refund_returns_lock (E := tableChain 1 0xf1)
    (initial_started funded) (run_traceOf ?_) ?_ fun token _ => Ledger.exact token).1⟩
  · decide +kernel
  · decide +kernel

end Gate

end SelendraBridge
