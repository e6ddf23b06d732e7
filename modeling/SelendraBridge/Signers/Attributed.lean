import SelendraBridge.Signers.Mesh

/-!
# What there is in a mesh has a reason

The invariant of a mesh attributes what there is to what was read before
(`SelendraBridge.Signers.Mesh.Attributed`): a thread that goes on will end with the evidence for
whatever it signs, and an honest signature is over the id of a transfer, or has its evidence in the
blocks that are confirmed. Every fair step keeps that
(`SelendraBridge.Signers.Mesh.Attributed.step`), whatever the order in which the chains and the
signers go on.
-/

namespace SelendraBridge

namespace Signers

open Store Transition Deployment

variable {ι ε κ : Type} {N : Network ι ε}
  {keccak256 : Bytes → Bytes32} {timeout : ℤ} {Honest : Address → Prop}
  {m₀ m m' : Mesh N κ} {a : MeshLabel N κ} {fx : Effects} {tr : List (MeshStep N κ)}

/-! ### What was hashed -/

/-- What a step hashed: strings of ids, and strings of messages. -/
def hashed (fx : Effects) : List Bytes :=
  fx.strings ++ fx.deeds.filterMap fun d => d.act.kind.bind fun kind => messageString kind d.id

/-- What a run hashed. -/
def hashedIn (tr : List (MeshStep N κ)) : List Bytes := tr.flatMap fun e => hashed e.out

theorem hashedIn_snoc {e : MeshStep N κ} : hashedIn (tr ++ [e]) = hashedIn tr ++ hashed e.out := by
  rw [hashedIn, List.flatMap_append, List.flatMap_singleton]
  rfl

variable (N keccak256 timeout) in
/-- **What stands behind a signature**: it is over the id of a transfer, or there is evidence. -/
def Founded (strings : List Bytes) (p : Past ι) (message : Bytes32) : Prop :=
  (∃ x ∈ strings, IsSubmission x ∧ message = keccak256 x) ∨
    ∃ kind, ∃ x ∈ strings, ∃ y ∈ strings, messageString kind (keccak256 x) = some y ∧
      message = keccak256 y ∧ Evidence N p timeout x (keccak256 x) kind

theorem Founded.mono {strings strings' : List Bytes} {p q : Past ι} {message : Bytes32}
    (h : Founded N keccak256 timeout strings p message) (hsub : strings ⊆ strings') (hpq : p ≤ q) :
    Founded N keccak256 timeout strings' q message := by
  rcases h with ⟨x, hx, hfront, rfl⟩ | ⟨kind, x, hx, y, hy, hmessage, rfl, hevidence⟩
  · exact .inl ⟨x, hsub hx, hfront, rfl⟩
  · exact .inr ⟨kind, x, hsub hx, y, hsub hy, hmessage, rfl, hevidence.later hpq⟩

/-- The message of a kind is the hash of its string. -/
theorem digest_of_messageString {kind : SigKind} {id : Bytes32} {y : Bytes}
    (h : messageString kind id = some y) : kind.digest keccak256 id = keccak256 y := by
  cases kind with
  | transfer => cases h
  | cancel =>
    obtain rfl := Option.some.inj h
    rfl
  | refund =>
    obtain rfl := Option.some.inj h
    rfl

/-- Strings of messages say of which kind they are, and of which id. -/
theorem messageString_inj {kind kind' : SigKind} {id id' : Bytes32} {y : Bytes}
    (h : messageString kind id = some y) (h' : messageString kind' id' = some y) :
    kind = kind' ∧ id = id' := by
  cases kind <;> cases kind' <;> simp only [messageString, Option.some.injEq, reduceCtorEq] at h h'
  · exact ⟨rfl, BridgeHash.packedCancel_inj.mp (h.trans h'.symm)⟩
  · exact absurd (h.trans h'.symm) (BridgeHash.packedCancel_ne_packedRefund _ _)
  · exact absurd (h'.trans h.symm) (BridgeHash.packedCancel_ne_packedRefund _ _)
  · exact ⟨rfl, BridgeHash.packedRefund_inj.mp (h.trans h'.symm)⟩

/-- And are no strings of ids. -/
theorem not_isSubmission_of_messageString {kind : SigKind} {id : Bytes32} {y : Bytes}
    (h : messageString kind id = some y) : ¬IsSubmission y := by
  rintro ⟨rest, rfl⟩
  cases kind with
  | transfer => cases h
  | cancel =>
    have hp := (wordBytes_append_inj.mp (Option.some.inj h)).1
    exact absurd hp (by decide)
  | refund =>
    have hp := (wordBytes_append_inj.mp (Option.some.inj h)).1
    exact absurd hp (by decide)

/-! ### The invariant -/

variable (keccak256 timeout Honest) in
/-- **What there is has a reason.** -/
structure Mesh.Attributed (tr : List (MeshStep N κ)) (m : Mesh N κ) : Prop where
  inOrder : ∀ i, (m.chains i).InOrder
  threads : ∀ k thread, m.threads k = some thread → Honest thread.worker.address →
    thread.worker.keccak256 = keccak256 ∧
      (∀ x, thread.worker.boundString thread.candidate.params = some x → x ∈ hashedIn tr) ∧
      thread.reading.Ends (Answers N) (Judged N timeout thread.worker thread.candidate) m.past
  signed : ∀ v message, (v, message) ∈ m.signed → Honest v →
    Founded N keccak256 timeout (hashedIn tr) m.past message

theorem Mesh.Genesis.attributed (h : m.Genesis) : m.Attributed keccak256 timeout Honest [] where
  inOrder i := ⟨(h.chains i).ordered, (h.chains i).time_le, (h.chains i).confirmed_le⟩
  threads k thread hthread := by
    rw [h.threads k] at hthread
    cases hthread
  signed v message hmem := by
    rw [h.signed] at hmem
    cases hmem

/-- **Who signs what it judged has a reason.** -/
theorem founded_of_judged {p : Past ι} {worker : Worker ε} {candidate : SignedRecord}
    {id : Bytes32} {kind : SigKind} {strings : List Bytes}
    (h : Judged N timeout worker candidate p (id, some kind)) (hkeccak : worker.keccak256 = keccak256)
    (hstring : ∀ x, worker.boundString candidate.params = some x → x ∈ strings)
    (hmessage : ∀ y, messageString kind id = some y → y ∈ strings) :
    Founded N keccak256 timeout strings p (kind.digest keccak256 id) := by
  obtain ⟨-, x, hx, hid, hevidence⟩ := h
  have hev := hevidence kind rfl
  rw [hkeccak] at hid
  dsimp only at hid hev
  subst hid
  cases hy : messageString kind (keccak256 x) with
  | none =>
    cases kind with
    | transfer => exact hev.elim
    | _ => cases hy
  | some y => exact .inr ⟨kind, x, hstring x hx, y, hmessage y hy, hy, digest_of_messageString hy, hev⟩

variable [DecidableEq κ]

/-- A step leaves the threads alone, but for one. -/
theorem thread_of_setThread {k j : κ} {thread : Option (Thread ε)} {th : Thread ε}
    (h : (m.setThread k thread).threads j = some th) :
    j = k ∧ thread = some th ∨ m.threads j = some th := by
  rcases eq_or_ne j k with rfl | hne
  · exact .inl ⟨rfl, by simpa [Mesh.setThread] using h⟩
  · exact .inr (by simpa [Mesh.setThread, Function.update_of_ne hne] using h)

variable [DecidableEq ι]

/-- Every chain stays in order, and the past only grows. -/
theorem inOrder_of_moved (hm : ∀ i, (m.chains i).InOrder) (h : Moved keccak256 m a m' fx) :
    (∀ i, (m'.chains i).InOrder) ∧ m.past ≤ m'.past := by
  cases h with
  | @chain j a c fx htick =>
    constructor
    · intro i
      rcases eq_or_ne i j with rfl | hne
      · simpa using (hm i).tick htick
      · simpa [Function.update_of_ne hne] using hm i
    · intro i
      rcases eq_or_ne i j with rfl | hne
      · simpa [Mesh.past] using past_prefix_of_tick (hm i) htick
      · simp [Mesh.past, Function.update_of_ne hne]
  | _ => exact ⟨hm, le_refl m.past⟩

/-- **A fair step keeps it.** -/
theorem Mesh.Attributed.step (hm : m.Attributed keccak256 timeout Honest tr)
    (h : meshExec keccak256 m a = some (m', fx))
    (hfair : Fair keccak256 timeout Honest ⟨m, a, fx, m'⟩) :
    m'.Attributed keccak256 timeout Honest (tr ++ [⟨m, a, fx, m'⟩]) := by
  have hmoved := moved_of_meshExec keccak256 h
  obtain ⟨horder, hpast⟩ := inOrder_of_moved hm.inOrder hmoved
  have hsub : hashedIn tr ⊆ hashedIn (tr ++ [⟨m, a, fx, m'⟩]) := by
    rw [hashedIn_snoc]
    exact List.subset_append_left _ _
  have hfx : ∀ x ∈ fx.strings, x ∈ hashedIn (tr ++ [⟨m, a, fx, m'⟩]) := by
    intro x hx
    rw [hashedIn_snoc]
    exact List.mem_append_right _ (List.mem_append_left _ hx)
  -- what was there before keeps its reason
  have hthreads : ∀ k thread, m.threads k = some thread → Honest thread.worker.address →
      thread.worker.keccak256 = keccak256 ∧
        (∀ x, thread.worker.boundString thread.candidate.params = some x →
          x ∈ hashedIn (tr ++ [⟨m, a, fx, m'⟩])) ∧
        thread.reading.Ends (Answers N) (Judged N timeout thread.worker thread.candidate)
          m'.past := by
    intro k thread hthread hhonest
    obtain ⟨hkeccak, hstring, hends⟩ := hm.threads k thread hthread hhonest
    exact ⟨hkeccak, fun x hx => hsub (hstring x hx), hends.later hpast⟩
  have hsigned : ∀ v message, (v, message) ∈ m.signed → Honest v →
      Founded N keccak256 timeout (hashedIn (tr ++ [⟨m, a, fx, m'⟩])) m'.past message :=
    fun v message hmem hhonest => (hm.signed v message hmem hhonest).mono hsub hpast
  cases hmoved with
  | chain htick => exact ⟨horder, hthreads, hsigned⟩
  | @start k worker candidate =>
    refine ⟨horder, fun j th hth hhonest => ?_, hsigned⟩
    rcases thread_of_setThread hth with ⟨rfl, hnew⟩ | hold
    · obtain rfl := Option.some.inj hnew
      obtain ⟨hsound, hkeccak⟩ := hfair.worker j worker candidate rfl hhonest
      exact ⟨hkeccak, fun x hx => hfx x (by simp [hx]), hsound.ends_consider candidate _⟩
    · exact hthreads j th hold hhonest
  | @answer k reply worker candidate q next hthread =>
    refine ⟨horder, fun j th hth hhonest => ?_, hsigned⟩
    rcases thread_of_setThread hth with ⟨rfl, hnew⟩ | hold
    · obtain rfl := Option.some.inj hnew
      obtain ⟨hkeccak, hstring, hends⟩ := hm.threads j _ hthread hhonest
      have htrue := hfair.answer j reply worker candidate q next rfl hthread
      exact ⟨hkeccak, fun x hx => hsub (hstring x hx), hends _ le_rfl reply htrue⟩
    · exact hthreads j th hold hhonest
  | @attest k worker candidate id kind hthread =>
    refine ⟨horder, fun j th hth hhonest => ?_, fun v message hmem hhonest => ?_⟩
    · rcases thread_of_setThread hth with ⟨-, hnew⟩ | hold
      · cases hnew
      · exact hthreads j th hold hhonest
    · rcases List.mem_append.mp hmem with hmem | hmem
      · exact hsigned v message hmem hhonest
      · obtain ⟨rfl, rfl⟩ := Prod.mk.inj (List.mem_singleton.mp hmem)
        obtain ⟨hkeccak, hstring, hends⟩ := hm.threads k _ hthread hhonest
        exact founded_of_judged (hends _ hpast) hkeccak (fun x hx => hsub (hstring x hx))
          fun y hy => hfx y (by simp [hy])
  | @transfer v x =>
    refine ⟨horder, hthreads, fun v' message hmem hhonest => ?_⟩
    rcases List.mem_append.mp hmem with hmem | hmem
    · exact hsigned v' message hmem hhonest
    · obtain ⟨rfl, rfl⟩ := Prod.mk.inj (List.mem_singleton.mp hmem)
      exact .inl ⟨x, hfx x (List.mem_singleton_self _), hfair.transfer v' x rfl hhonest, rfl⟩
  | @message v message =>
    refine ⟨horder, hthreads, fun v' message' hmem hhonest => ?_⟩
    rcases List.mem_append.mp hmem with hmem | hmem
    · exact hsigned v' message' hmem hhonest
    · obtain ⟨rfl, rfl⟩ := Prod.mk.inj (List.mem_singleton.mp hmem)
      exact absurd hhonest (hfair.message v' message' rfl)

end Signers

end SelendraBridge
