import SelendraBridge.Gate.Sends

/-!
# Two gates of one mesh

A source gate, a target gate, and the signatures that anybody has made so far: any step
of either gate may come next, and so may a signature. Nothing ties the two gates together
but what the signers look at. The one assumption on them is about refunds
(`SelendraBridge.Gate.RefundPolicy`): enough of the source's validators for a quorum sign
the refund of an id only when the target has cancelled it.

That is enough for at most one payout per id, over every interleaving
(`SelendraBridge.Gate.no_double_payout`). The invariant is a chain of inequalities
between flags and payouts of an id:

  claims + cancelled ≤ executed,  refunds ≤ refunded,  refunded ≤ cancelled.
-/

namespace SelendraBridge

namespace Gate

open Transition

/-! ### The machine -/

/-- **Two chains of a mesh**: the same hash on both, and ids of their own. -/
structure Chains (σ τ : Type) where
  source : Chain σ
  target : Chain τ
  keccak256_eq : target.keccak256 = source.keccak256
  chainId_ne : target.chainId ≠ source.chainId

/-- Two gates, and who has signed which digest. -/
structure Mesh (σ τ : Type) where
  source : World σ
  target : World τ
  signed : List (Address × Bytes32)

/-- What can happen next. -/
inductive MeshLabel (σ τ : Type)
  | source (l : Label σ)
  | target (l : Label τ)
  /-- Somebody signs a digest. -/
  | sign (signer : Address) (digest : Bytes32)

variable {σ τ : Type} (M : Chains σ τ)

/-- **One step of the mesh.** -/
def meshExec (m : Mesh σ τ) : MeshLabel σ τ → Option (Mesh σ τ × Out)
  | .source l => (exec M.source m.source l).map fun r => ({ m with source := r.1 }, r.2)
  | .target l => (exec M.target m.target l).map fun r => ({ m with target := r.1 }, r.2)
  | .sign signer digest => some ({ m with signed := (signer, digest) :: m.signed }, ⟨[], none⟩)

/-- A step of a run of the mesh. -/
abbrev MeshStep (σ τ : Type) := Entry (Mesh σ τ) (MeshLabel σ τ) Out

/-- **Where a run starts**: two gates just initialized, and nothing signed. -/
def MeshInitial (m : Mesh σ τ) : Prop :=
  Initial m.source ∧ Initial m.target ∧ m.signed = []

/-! ### What the signers do -/

/-- The digest that is signed for the refund of an id. -/
def refundDigest (E : Chain σ) (id : Bytes32) : Bytes32 :=
  toEthSignedMessageHash E.keccak256 (BridgeHash.getRefundId E.keccak256 id)

/-- **The refund policy of the validators**: when enough of the source's validators have
signed the refund of an id, the target has cancelled it. -/
def RefundPolicy (m : Mesh σ τ) : Prop :=
  ∀ (id : Bytes32) (signers : List Address), signers.Nodup →
    m.source.gate.threshold.toNat ≤ signers.length →
    (∀ v ∈ signers, m.source.gate.isValidator v = true ∧
      (v, refundDigest M.source id) ∈ m.signed) →
    m.target.gate.cancelled id = true

/-- **Signatures are not forged**: what a refund of the source presents as a validator's
signature was made by that validator. -/
def Unforged (e : MeshStep σ τ) : Prop :=
  ∀ c a id, e.label = .source (.transfer c (.refund a)) → e.out.id = some id →
    ∀ signature ∈ a.signatures, ∀ v,
      M.source.recover (refundDigest M.source id) signature = some v →
      e.pre.source.gate.isValidator v = true → (v, refundDigest M.source id) ∈ e.pre.signed

/-! ### Payouts -/

/-- The step is a claim that paid the id. -/
def claims (id : Bytes32) (l : Label σ) (o : Out) : Bool :=
  match l with
  | .transfer _ (.claim _) => o.id == some id
  | _ => false

/-- The step is a refund that paid the id. -/
def refunds (id : Bytes32) (l : Label σ) (o : Out) : Bool :=
  match l with
  | .transfer _ (.refund _) => o.id == some id
  | _ => false

/-- **A claim on the target** paid the id. -/
def targetClaims (id : Bytes32) (e : MeshStep σ τ) : Bool :=
  match e.label with
  | .target l => claims id l e.out
  | _ => false

/-- **A refund on the source** paid the id. -/
def sourceRefunds (id : Bytes32) (e : MeshStep σ τ) : Bool :=
  match e.label with
  | .source l => refunds id l e.out
  | _ => false

/-- Any payout of the id at all, by a claim or a refund on either gate. -/
def pays (id : Bytes32) (e : MeshStep σ τ) : Bool :=
  match e.label with
  | .source l => claims id l e.out || refunds id l e.out
  | .target l => claims id l e.out || refunds id l e.out
  | .sign _ _ => false

/-- What the steps of the mesh hashed. -/
def meshHashed (tr : List (MeshStep σ τ)) : List Bytes :=
  tr.flatMap fun e => match e.label with
    | .source l => hashedBy M.source ⟨e.pre.source, l, e.out, e.post.source⟩
    | .target l => hashedBy M.target ⟨e.pre.target, l, e.out, e.post.target⟩
    | .sign _ _ => []

variable {M}

/-! ### One gate: payouts against flags -/

section OneGate

variable {E : Chain σ} {w w' : World σ} {l : Label σ} {o : Out}

/-- **A claim of an id uses up its execution**, and so does a cancellation. -/
theorem claims_step (hd : w.gate.setupDeadline ≠ 0) (h : exec E w l = some (w', o))
    (id : Bytes32) :
    (claims id l o).toNat + (w'.gate.cancelled id).toNat + (w.gate.executed id).toNat ≤
      (w'.gate.executed id).toNat + (w.gate.cancelled id).toNat := by
  by_cases hl : ∀ c x, l ≠ .transfer c x
  · have hb := books_of_not_transfer hd h hl
    have hx : w'.gate.executed = w.gate.executed := congrArg Books.executed hb
    have hc : w'.gate.cancelled = w.gate.cancelled := congrArg Books.cancelled hb
    have hno : claims id l o = false := by
      cases l with
      | transfer c x => exact absurd rfl (hl c x)
      | _ => rfl
    rw [hno, hx, hc, Bool.toNat_false]
    omega
  · push Not at hl
    obtain ⟨c, x, rfl⟩ := hl
    obtain ⟨-, -, r, hr, rfl, rfl⟩ := exec_transfer h
    cases x with
    | send a =>
      obtain ⟨wire, S⟩ := sends_of_send hr
      show _ + (r.gate.cancelled id).toNat + _ ≤ (r.gate.executed id).toNat + _
      rw [S.gate, show claims id (.transfer c (.send a) : Label σ) ⟨r.log, some r.id⟩ = false
        from rfl, Bool.toNat_false]
      dsimp only
      omega
    | claim a =>
      obtain ⟨localAmount, recipient, C⟩ := claims_of_claim hr
      have hx : r.gate.executed = Function.update w.gate.executed r.id true :=
        congrArg Gate.executed C.gate
      have hc : r.gate.cancelled = w.gate.cancelled := by rw [C.gate]
      show (claims id (.transfer c (.claim a) : Label σ) ⟨r.log, some r.id⟩).toNat +
        (r.gate.cancelled id).toNat + _ ≤ (r.gate.executed id).toNat + _
      rw [hx, hc, claims]
      rcases eq_or_ne id r.id with rfl | hne
      · rw [C.executed, Function.update_self]
        simp
      · have hno : (some r.id == some id) = false := beq_false_of_ne (by simpa using hne.symm)
        rw [Function.update_of_ne hne, hno, Bool.toNat_false]
        omega
    | cancel a =>
      have C := cancels_of_cancel hr
      have hx : r.gate.executed = Function.update w.gate.executed r.id true :=
        congrArg Gate.executed C.gate
      have hc : r.gate.cancelled = Function.update w.gate.cancelled r.id true :=
        congrArg Gate.cancelled C.gate
      show (claims id (.transfer c (.cancel a) : Label σ) ⟨r.log, some r.id⟩).toNat +
        (r.gate.cancelled id).toNat + _ ≤ (r.gate.executed id).toNat + _
      rw [hx, hc, show claims id (.transfer c (.cancel a) : Label σ) ⟨r.log, some r.id⟩ = false
        from rfl, Bool.toNat_false]
      rcases eq_or_ne id r.id with rfl | hne
      · rw [C.executed, Function.update_self, Function.update_self]
        simp
      · rw [Function.update_of_ne hne, Function.update_of_ne hne]
        omega
    | refund a =>
      obtain ⟨localAmount, R⟩ := refunds_of_refund hr
      show _ + (r.gate.cancelled id).toNat + _ ≤ (r.gate.executed id).toNat + _
      rw [R.gate, show claims id (.transfer c (.refund a) : Label σ) ⟨r.log, some r.id⟩ = false
        from rfl, Bool.toNat_false]
      dsimp only
      omega

/-- **A refund of an id marks it**, and a marked id is not refunded. -/
theorem refunds_step (hd : w.gate.setupDeadline ≠ 0) (h : exec E w l = some (w', o))
    (id : Bytes32) :
    (refunds id l o).toNat + (w.gate.refunded id).toNat ≤ (w'.gate.refunded id).toNat := by
  have hkept : (w.gate.refunded id).toNat ≤ (w'.gate.refunded id).toNat := by
    rcases Bool.eq_false_or_eq_true (w.gate.refunded id) with hold | hold
    · rw [hold, (kept_step hd h).refunded id hold]
    · rw [hold, Bool.toNat_false]
      exact Nat.zero_le _
  rcases Bool.eq_false_or_eq_true (refunds id l o) with hpays | hno
  · cases l with
    | transfer c x =>
      cases x with
      | refund a =>
        have hout : o.id = some id := eq_of_beq hpays
        obtain ⟨localAmount, id', R⟩ := refunded_of_exec (e := ⟨w, _, o, w'⟩) h rfl
        obtain rfl : id' = id := Option.some.inj (R.out.symm.trans hout)
        have hold : w.gate.refunded id' = false := R.spec.refunded
        have hnew : w'.gate.refunded id' = true := R.marks
        rw [hpays, hold, hnew]
        rfl
      | _ => exact absurd hpays (by simp [refunds])
    | _ => exact absurd hpays (by simp [refunds])
  · rw [hno, Bool.toNat_false]
    omega

end OneGate

/-! ### Both gates -/

variable {m₀ m m' : Mesh σ τ} {tr : List (MeshStep σ τ)} {l : MeshLabel σ τ} {o : Out}

/-- A step of the mesh is a step of one gate, or a signature. -/
theorem meshExec_cases (h : meshExec M m l = some (m', o)) :
    (∃ x w, l = .source x ∧ exec M.source m.source x = some (w, o) ∧
        m' = { m with source := w }) ∨
      (∃ x w, l = .target x ∧ exec M.target m.target x = some (w, o) ∧
        m' = { m with target := w }) ∨
      ∃ v d, l = .sign v d ∧ o = ⟨[], none⟩ ∧ m' = { m with signed := (v, d) :: m.signed } := by
  cases l with
  | source x =>
    obtain ⟨⟨w, o'⟩, hx, heq⟩ := Option.map_eq_some_iff.mp h
    obtain ⟨rfl, rfl⟩ := Prod.mk.inj heq
    exact .inl ⟨x, w, rfl, hx, rfl⟩
  | target x =>
    obtain ⟨⟨w, o'⟩, hx, heq⟩ := Option.map_eq_some_iff.mp h
    obtain ⟨rfl, rfl⟩ := Prod.mk.inj heq
    exact .inr (.inl ⟨x, w, rfl, hx, rfl⟩)
  | sign v d =>
    obtain ⟨rfl, rfl⟩ := Prod.mk.inj (Option.some.inj h)
    exact .inr (.inr ⟨v, d, rfl, rfl, rfl⟩)

/-- Both setup deadlines are set, along a run. -/
theorem meshDeadlines (h₀ : MeshInitial m₀) (hrun : Run (meshExec M) m₀ tr m) :
    m.source.gate.setupDeadline ≠ 0 ∧ m.target.gate.setupDeadline ≠ 0 := by
  refine hrun.invariant (P := fun m => m.source.gate.setupDeadline ≠ 0 ∧
    m.target.gate.setupDeadline ≠ 0) ⟨h₀.1.gate_eq.1, h₀.2.1.gate_eq.1⟩ ?_
  rintro m l m' o ⟨hs, ht⟩ h
  rcases meshExec_cases h with ⟨x, w, rfl, hx, rfl⟩ | ⟨x, w, rfl, hx, rfl⟩ | ⟨v, d, rfl, -, rfl⟩
  · exact ⟨setupDeadline_step hs hx, ht⟩
  · exact ⟨hs, setupDeadline_step ht hx⟩
  · exact ⟨hs, ht⟩

/-- **A refund of the source is of an id that the target has cancelled**: its quorum
signed, and a quorum signs only then. -/
theorem cancelled_of_refunds {w : World σ} {x : Label σ} {id : Bytes32}
    (h : exec M.source m.source x = some (w, o)) (hpays : refunds id x o = true)
    (hpolicy : RefundPolicy M m)
    (hunforged : Unforged M ⟨m, .source x, o, { m with source := w }⟩) :
    m.target.gate.cancelled id = true := by
  cases x with
  | transfer c y =>
    cases y with
    | refund a =>
      have hout : o.id = some id := eq_of_beq hpays
      obtain ⟨localAmount, id', R⟩ := refunded_of_exec (e := ⟨m.source, _, o, w⟩) h rfl
      obtain rfl : id' = id := Option.some.inj (R.out.symm.trans hout)
      obtain ⟨signers, Q⟩ := quorum_of_verify R.spec.quorum
      refine hpolicy id' signers Q.nodup Q.enough fun v hv => ⟨Q.isValidator v hv, ?_⟩
      obtain ⟨signature, hmem, hrec⟩ := Q.signed v hv
      exact hunforged c a id' rfl hout signature hmem v hrec (Q.isValidator v hv)
    | _ => exact absurd hpays (by simp [refunds])
  | _ => exact absurd hpays (by simp [refunds])

/-- **The invariant of an id**: its payouts, below its flags. -/
structure Tally (tr : List (MeshStep σ τ)) (m : Mesh σ τ) (id : Bytes32) : Prop where
  claims_le : tr.countP (targetClaims id) + (m.target.gate.cancelled id).toNat ≤
    (m.target.gate.executed id).toNat
  refunds_le : tr.countP (sourceRefunds id) ≤ (m.source.gate.refunded id).toNat
  refunded_le : (m.source.gate.refunded id).toNat ≤ (m.target.gate.cancelled id).toNat

theorem tally_initial (h₀ : MeshInitial m₀) (id : Bytes32) :
    Tally ([] : List (MeshStep σ τ)) m₀ id := by
  obtain ⟨-, -, -, hs⟩ := h₀.1.gate_eq
  obtain ⟨-, -, -, ht⟩ := h₀.2.1.gate_eq
  constructor
  · rw [ht]
    exact le_rfl
  · rw [hs]
    exact le_rfl
  · rw [hs]
    exact Nat.zero_le _

/-- One more step counts, or not. -/
theorem countP_snoc {α : Type*} (f : α → Bool) (as : List α) (a : α) :
    (as ++ [a]).countP f = as.countP f + (f a).toNat := by
  rw [List.countP_append, List.countP_singleton]
  rcases Bool.eq_false_or_eq_true (f a) with h | h <;> simp [h]

/-- What meets one of two conditions meets the one or the other. -/
theorem countP_or_le {α : Type*} {f g : α → Bool} (as : List α) :
    as.countP (fun a => f a || g a) ≤ as.countP f + as.countP g := by
  induction as with
  | nil => exact le_rfl
  | cons a as ih =>
    simp only [List.countP_cons]
    rcases Bool.eq_false_or_eq_true (f a) with hf | hf <;>
      rcases Bool.eq_false_or_eq_true (g a) with hg | hg <;> simp [hf, hg] <;> omega

/-- **Every step keeps the invariant**: of the target, of the source, or a signature. -/
theorem tally_step {id : Bytes32} (hd : m.source.gate.setupDeadline ≠ 0 ∧
      m.target.gate.setupDeadline ≠ 0) (h : meshExec M m l = some (m', o))
    (hpolicy : RefundPolicy M m) (hunforged : Unforged M ⟨m, l, o, m'⟩) (ht : Tally tr m id) :
    Tally (tr ++ [⟨m, l, o, m'⟩]) m' id := by
  obtain ⟨h₁, h₂, h₃⟩ := ht
  rcases meshExec_cases h with ⟨x, w, rfl, hx, rfl⟩ | ⟨x, w, rfl, hx, rfl⟩ | ⟨v, d, rfl, -, rfl⟩
  · have hstep := refunds_step hd.1 hx id
    refine ⟨?_, ?_, ?_⟩
    · rw [countP_snoc]
      exact h₁
    · rw [countP_snoc]
      show tr.countP (sourceRefunds id) + (refunds id x o).toNat ≤ (w.gate.refunded id).toNat
      omega
    · -- An id that is refunded now was refunded before, or its quorum found it cancelled.
      show (w.gate.refunded id).toNat ≤ (m.target.gate.cancelled id).toNat
      rcases Bool.eq_false_or_eq_true (w.gate.refunded id) with hnew | hnew
      · rcases refunded_step hd.1 hx hnew with hold | ⟨c, a, rfl, hout⟩
        · rw [hold] at h₃
          exact le_trans (Bool.toNat_le _) h₃
        · have hpays : refunds id (.transfer c (.refund a) : Label σ) o = true := by
            simp [refunds, hout]
          rw [cancelled_of_refunds hx hpays hpolicy hunforged]
          exact Bool.toNat_le _
      · rw [hnew]
        exact Nat.zero_le _
  · have hstep := claims_step hd.2 hx id
    have hkept : (m.target.gate.cancelled id).toNat ≤ (w.gate.cancelled id).toNat := by
      rcases Bool.eq_false_or_eq_true (m.target.gate.cancelled id) with hold | hold
      · rw [hold, (kept_step hd.2 hx).cancelled id hold]
      · rw [hold]
        exact Nat.zero_le _
    refine ⟨?_, ?_, h₃.trans hkept⟩
    · rw [countP_snoc]
      show tr.countP (targetClaims id) + (claims id x o).toNat + (w.gate.cancelled id).toNat ≤
        (w.gate.executed id).toNat
      omega
    · rw [countP_snoc]
      exact h₂
  · exact ⟨by rw [countP_snoc]; exact h₁, by rw [countP_snoc]; exact h₂, h₃⟩

/-- **The invariant holds along every run.** -/
theorem tally_run (h₀ : MeshInitial m₀) (hrun : Run (meshExec M) m₀ tr m)
    (hpolicy : ∀ e ∈ tr, RefundPolicy M e.pre) (hunforged : ∀ e ∈ tr, Unforged M e)
    (id : Bytes32) : Tally tr m id := by
  refine hrun.rec_trace (P := fun tr m => (∀ e ∈ tr, RefundPolicy M e.pre) →
    (∀ e ∈ tr, Unforged M e) → Tally tr m id) ?_ ?_ hpolicy hunforged
  · exact fun _ _ => tally_initial h₀ id
  · intro tr m l m' o hr ih h hp hu
    refine tally_step (meshDeadlines h₀ hr) h (hp ⟨m, l, o, m'⟩ (by simp))
      (hu ⟨m, l, o, m'⟩ (by simp)) (ih ?_ ?_)
    · exact fun e he => hp e (List.mem_append_left _ he)
    · exact fun e he => hu e (List.mem_append_left _ he)

/-! ### Other payouts of a transfer from the source to the target -/

section Elsewhere

variable {E : Chain σ} {e : Step σ} {c c' : Call} {s : SendArgs} {wire localAmount : U256}
  {id : Bytes32} {strings : List Bytes}

/-- A transfer to another chain is not claimed on the chain it left. -/
theorem not_claimed_of_sent {e' : Step σ} {a : ClaimArgs} {recipient : Address}
    (S : Sent E e c s wire id) (C : Claimed E e' c' a localAmount recipient id)
    (hto : s.chainIdTo ≠ E.chainId) (hcoll : CollisionFree E.keccak256 strings)
    (hs : ∀ bs ∈ hashedBy E e, bs ∈ strings) (hs' : ∀ bs ∈ hashedBy E e', bs ∈ strings) :
    False := by
  obtain ⟨t, ht₁, ht₂⟩ := submission_eq_of_idFor_eq S.spec.id C.spec.id fun x y hx hy =>
    hcoll x (hs x (S.hashed.2 x hx)) y (hs' y (C.hashed hy))
  have h₁ : t.chainIdTo = s.chainIdTo := (submission_eq_some ht₁).2.2.2.2.2.1
  have h₂ : t.chainIdTo = E.chainId := (submission_eq_some ht₂).2.2.2.2.2.1
  exact hto (h₁.symm.trans h₂)

/-- A transfer is not refunded on another chain than the one it left. -/
theorem not_refunded_of_sent {D : Chain τ} {e' : Step τ} {a : RefundArgs}
    (S : Sent E e c s wire id) (R : Refunded D e' c' a localAmount id)
    (hkeccak : D.keccak256 = E.keccak256) (hfrom : D.chainId ≠ E.chainId)
    (hcoll : CollisionFree E.keccak256 strings) (hs : ∀ bs ∈ hashedBy E e, bs ∈ strings)
    (hs' : ∀ bs ∈ hashedBy D e', bs ∈ strings) : False := by
  have hid := R.spec.id
  have hhashed := R.hashed.2
  rw [hkeccak] at hid hhashed
  obtain ⟨t, ht₁, ht₂⟩ := submission_eq_of_idFor_eq S.spec.id hid fun x y hx hy =>
    hcoll x (hs x (S.hashed.2 x hx)) y (hs' y (hhashed y hy))
  have h₁ : t.chainIdFrom = E.chainId := (submission_eq_some ht₁).2.2.2.2.1
  have h₂ : t.chainIdFrom = D.chainId := (submission_eq_some ht₂).2.2.2.2.1
  exact hfrom (h₂.symm.trans h₁)

end Elsewhere

/-- **A send of the source to the target's chain**, in a run of the mesh. -/
structure SentAcross (M : Chains σ τ) (e : MeshStep σ τ) (id : Bytes32) : Prop where
  sent : ∃ c s, e.label = .source (.transfer c (.send s)) ∧ s.chainIdTo = M.target.chainId
  out : e.out.id = some id

/-- The step of one gate behind a step of the mesh. -/
theorem exec_of_meshExec {e : MeshStep σ τ} {x : Label σ}
    (h : meshExec M e.pre e.label = some (e.post, e.out)) (hl : e.label = .source x) :
    exec M.source e.pre.source x = some (e.post.source, e.out) := by
  rcases meshExec_cases h with ⟨y, w, hy, hx, hpost⟩ | ⟨y, w, hy, -⟩ | ⟨v, d, hy, -⟩
  · obtain rfl := MeshLabel.source.inj (hl.symm.trans hy)
    rw [hpost]
    exact hx
  · exact absurd (hl.symm.trans hy) (by simp)
  · exact absurd (hl.symm.trans hy) (by simp)

/-- **Nothing else pays a transfer from the source to the target**: of the four ways a
step of the mesh can pay an id, only a claim on the target and a refund on the source are
left. -/
theorem pays_eq_of_sentAcross {e f : MeshStep σ τ} {id : Bytes32} (S : SentAcross M e id)
    (he : meshExec M e.pre e.label = some (e.post, e.out)) (hf : meshExec M f.pre f.label =
      some (f.post, f.out)) (hmem : e ∈ tr) (hmem' : f ∈ tr)
    (hcoll : CollisionFree M.source.keccak256 (meshHashed M tr)) :
    pays id f = (targetClaims id f || sourceRefunds id f) := by
  obtain ⟨⟨c, s, hl, hto⟩, hout⟩ := S
  obtain ⟨wire, id', hS⟩ := sent_of_exec (e := ⟨e.pre.source, _, e.out, e.post.source⟩)
    (exec_of_meshExec he hl) rfl
  obtain rfl : id' = id := Option.some.inj (hS.out.symm.trans hout)
  have hs : ∀ bs ∈ hashedBy M.source ⟨e.pre.source, .transfer c (.send s), e.out, e.post.source⟩,
      bs ∈ meshHashed M tr := by
    intro bs hbs
    refine List.mem_flatMap.mpr ⟨e, hmem, ?_⟩
    rw [hl]
    exact hbs
  rcases meshExec_cases hf with ⟨x, w, hx, hstep, hpost⟩ | ⟨x, w, hx, hstep, hpost⟩ | ⟨v, d, hx, -⟩
  · have hno : claims id' x f.out = false := by
      rw [Bool.eq_false_iff]
      intro hpays
      cases x with
      | transfer c' y =>
        cases y with
        | claim a =>
          obtain ⟨localAmount, recipient, id'', C⟩ :=
            claimed_of_exec (e := ⟨f.pre.source, _, f.out, w⟩) hstep rfl
          obtain rfl : id'' = id' :=
            Option.some.inj (C.out.symm.trans (eq_of_beq hpays))
          refine not_claimed_of_sent hS C (by rw [hto]; exact M.chainId_ne) hcoll hs ?_
          intro bs hbs
          refine List.mem_flatMap.mpr ⟨f, hmem', ?_⟩
          rw [hx]
          exact hbs
        | _ => exact absurd hpays (by simp [claims])
      | _ => exact absurd hpays (by simp [claims])
    rw [pays, targetClaims, sourceRefunds, hx]
    dsimp only
    rw [hno]
  · have hno : refunds id' x f.out = false := by
      rw [Bool.eq_false_iff]
      intro hpays
      cases x with
      | transfer c' y =>
        cases y with
        | refund a =>
          obtain ⟨localAmount, id'', R⟩ :=
            refunded_of_exec (e := ⟨f.pre.target, _, f.out, w⟩) hstep rfl
          obtain rfl : id'' = id' :=
            Option.some.inj (R.out.symm.trans (eq_of_beq hpays))
          refine not_refunded_of_sent hS R M.keccak256_eq M.chainId_ne hcoll hs ?_
          intro bs hbs
          refine List.mem_flatMap.mpr ⟨f, hmem', ?_⟩
          rw [hx]
          exact hbs
        | _ => exact absurd hpays (by simp [refunds])
      | _ => exact absurd hpays (by simp [refunds])
    rw [pays, targetClaims, sourceRefunds, hx]
    dsimp only
    rw [hno]
  · rw [pays, targetClaims, sourceRefunds, hx]
    rfl

/-- **No double payout.** Along any interleaving of the calls on the two gates, an id is
paid at most once by claims on the target and refunds on the source together; an id that
the target cancelled is executed there and was paid by no claim; and a transfer that was
sent from the source to the target is paid at most once in all, by whatever call on
whichever gate. -/
theorem no_double_payout (h₀ : MeshInitial m₀) (hrun : Run (meshExec M) m₀ tr m)
    (hpolicy : ∀ e ∈ tr, RefundPolicy M e.pre) (hunforged : ∀ e ∈ tr, Unforged M e)
    (hcoll : CollisionFree M.source.keccak256 (meshHashed M tr)) (id : Bytes32) :
    tr.countP (targetClaims id) + tr.countP (sourceRefunds id) ≤ 1 ∧
      (m.target.gate.cancelled id = true →
        m.target.gate.executed id = true ∧ tr.countP (targetClaims id) = 0) ∧
      ((∃ e ∈ tr, SentAcross M e id) → tr.countP (pays id) ≤ 1) := by
  obtain ⟨h₁, h₂, h₃⟩ := tally_run h₀ hrun hpolicy hunforged id
  have hle : (m.target.gate.executed id).toNat ≤ 1 := Bool.toNat_le _
  have hsum : tr.countP (targetClaims id) + tr.countP (sourceRefunds id) ≤ 1 := by omega
  refine ⟨hsum, ?_, ?_⟩
  · intro hc
    rw [hc, Bool.toNat_true] at h₁
    refine ⟨?_, by omega⟩
    rw [← Bool.toNat_eq_one]
    omega
  · rintro ⟨e, he, S⟩
    have hpays : ∀ f ∈ tr, pays id f = (targetClaims id f || sourceRefunds id f) := fun f hf =>
      pays_eq_of_sentAcross S (hrun.exec_of_mem he) (hrun.exec_of_mem hf) he hf hcoll
    have hcount : tr.countP (pays id) =
        tr.countP fun f => targetClaims id f || sourceRefunds id f :=
      List.countP_congr fun f hf => by rw [hpays f hf]
    rw [hcount]
    exact (countP_or_le tr).trans hsum

/-! ### A transfer that is cancelled and refunded -/

/-- What a step shows of the assumptions on the signers, in a run with one validator
whose only signature is for the refund of one id. -/
def oneSigner (M : Chains σ τ) (v : Address) (id : Bytes32) (e : MeshStep σ τ) : Bool :=
  decide (e.pre.source.gate.threshold = 1) &&
    (decide (e.pre.signed = []) || e.pre.target.gate.cancelled id &&
      decide (e.pre.signed = [(v, refundDigest M.source id)])) &&
    match e.label, e.out.id with
    | .source (.transfer _ (.refund a)), some i => a.signatures.all fun signature =>
      (M.source.recover (refundDigest M.source i) signature).all fun v =>
        decide ((v, refundDigest M.source i) ∈ e.pre.signed)
    | _, _ => true

/-- Such a step meets them, when the digest names the id. -/
theorem policy_of_oneSigner {v : Address} {id : Bytes32} {e : MeshStep σ τ}
    (hinj : ∀ i, refundDigest M.source i = refundDigest M.source id → i = id)
    (h : oneSigner M v id e = true) : RefundPolicy M e.pre ∧ Unforged M e := by
  simp only [oneSigner, Bool.and_eq_true, Bool.or_eq_true, decide_eq_true_eq] at h
  obtain ⟨⟨hthreshold, hsigned⟩, hrefund⟩ := h
  constructor
  · intro i signers _ hlen hall
    rw [hthreshold] at hlen
    obtain ⟨u, hu⟩ := List.exists_mem_of_length_pos (l := signers) hlen
    have hmem := (hall u hu).2
    rcases hsigned with hs | ⟨hcancelled, hs⟩
    · rw [hs] at hmem
      exact absurd hmem List.not_mem_nil
    · rw [hs, List.mem_singleton, Prod.mk.injEq] at hmem
      rw [hinj i hmem.2]
      exact hcancelled
  · intro c a i hl hout signature hmem u hrec _
    rw [hl, hout] at hrefund
    have hall := List.all_eq_true.mp hrefund signature hmem
    rw [hrec] at hall
    exact of_decide_eq_true hall

/-- Two chains with their tables. -/
def tableChains : Chains Ledger Ledger where
  source := tableChain 1 0xf1
  target := tableChain 2 0xf2
  keccak256_eq := rfl
  chainId_ne := by decide

/-- The cancellation of the locked transfer, with the signature of the target's
validator. -/
def lockedCancel : ClaimArgs where
  debridgeId := 0xafdef99c1704a7d5f4cacc1c621cef270dae98e2ea1f2add9fa0fd4e7201018a
  amount := 1000
  bridgeDecimals := 6
  chainIdFrom := 1
  nonce := 0
  receiver := addressBytes 0xbb
  autoParams := []
  nativeSender := addressBytes 0xcc
  signatures := [signatureBytes
    0xa7cdf84e4ab86d4a010dfaec39d1bc7b35f109fb29a3eef86d9215314f8a9935
    0x74e507999f7db4a7424c2857307f5cf7a237b6b50be6d4ca5613281a43617baf 28]

/-- Two gates with nothing signed. -/
def bothStarted : Mesh Ledger Ledger := ⟨started funded, started noTokens, []⟩

/-- The source locks, the target cancels, the validator sees it and signs, the source
refunds. -/
def cancelledAndRefunded : List (MeshStep Ledger Ledger) × Mesh Ledger Ledger :=
  traceOf (meshExec tableChains) bothStarted
    [.source (.govern (callAt 0x0a 1001) (.setBridgeDecimals 0xaa 6)),
      .source (.govern (callAt 0x0a 1002) (.setSupportedChain 2 true)),
      .source (.transfer (callAt 0xcc 1003) (.send lockedSend)),
      .target (.transfer (callAt 0xdd 1004) (.cancel lockedCancel)),
      .sign validator₁ (refundDigest (tableChain 1 0xf1) lockedId),
      .source (.transfer (callAt 0xdd 1005) (.refund lockedRefund))]

/-- On the table, a refund digest names its id. -/
theorem lockedId_of_refundDigest {id : Bytes32}
    (h : refundDigest (tableChain 1 0xf1) id = refundDigest (tableChain 1 0xf1) lockedId) :
    id = lockedId := by
  have h₁ : (25 : UInt8) :: ascii "Ethereum Signed Message:\n32" ++
      wordBytes (BridgeHash.getRefundId digestOf id) =
        (25 : UInt8) :: ascii "Ethereum Signed Message:\n32" ++
          wordBytes (BridgeHash.getRefundId digestOf lockedId) :=
    eq_of_digestOf_eq (by simp) h (by decide +kernel)
  have h₂ : digestOf (BridgeHash.packedRefund id) = digestOf (BridgeHash.packedRefund lockedId) :=
    wordBytes_inj.mp (List.append_cancel_left h₁)
  exact BridgeHash.packedRefund_inj.mp (eq_of_digestOf_eq (by simp) h₂ (by decide +kernel))

theorem no_double_payout_cancelled :
    cancelledAndRefunded.1.countP (sourceRefunds lockedId) = 1 ∧
      cancelledAndRefunded.1.countP (targetClaims lockedId) +
        cancelledAndRefunded.1.countP (sourceRefunds lockedId) ≤ 1 ∧
      (cancelledAndRefunded.2.target.gate.cancelled lockedId = true →
        cancelledAndRefunded.2.target.gate.executed lockedId = true ∧
          cancelledAndRefunded.1.countP (targetClaims lockedId) = 0) ∧
      ((∃ e ∈ cancelledAndRefunded.1, SentAcross tableChains e lockedId) →
        cancelledAndRefunded.1.countP (pays lockedId) ≤ 1) := by
  have hcheck : cancelledAndRefunded.1.all (oneSigner tableChains validator₁ lockedId) = true := by
    decide +kernel
  have hpolicy : ∀ e ∈ cancelledAndRefunded.1,
      RefundPolicy tableChains e.pre ∧ Unforged tableChains e := fun e he =>
    policy_of_oneSigner (fun _ => lockedId_of_refundDigest) (List.all_eq_true.mp hcheck e he)
  have h₀ : MeshInitial bothStarted := ⟨initial_started funded, initial_started noTokens, rfl⟩
  have hrun : Run (meshExec tableChains) bothStarted cancelledAndRefunded.1
      cancelledAndRefunded.2 := run_traceOf (by decide +kernel)
  have hcoll : CollisionFree digestOf (meshHashed tableChains cancelledAndRefunded.1) := by
    decide +kernel
  exact ⟨by decide +kernel, no_double_payout h₀ hrun (fun e he => (hpolicy e he).1)
    (fun e he => (hpolicy e he).2) hcoll lockedId⟩

end Gate

end SelendraBridge
