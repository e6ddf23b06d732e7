import SelendraBridge.Signers.Chain
import SelendraBridge.Signers.LoopEvidence
import SelendraBridge.Signers.RelayerEvidence

/-!
# A mesh whose signers read it

Many chains, each with a gate, and those who sign cancels and refunds. A signer reads the chains one
answer at a time, and between two of its reads anything else may happen: calls, blocks, the reads of
other signers, signatures. So a decision is made of answers from different times
(`SelendraBridge.Signers.meshExec`).

What is assumed of a run, step by step (`SelendraBridge.Signers.Fair`):

* an honest endpoint says what is true of the blocks that are confirmed, or nothing;
* a signer asks endpoints of which fewer lie than have to agree;
* an honest key signs what its signer decides, and ids of transfers, and nobody else signs with it;
* fewer validators of a gate are dishonest than have to sign a cancel or a refund.

A validator that is not honest signs anything, at any time, and endpoints that are not honest say
anything.
-/

namespace SelendraBridge

namespace Signers

open Store Transition Deployment

variable {ι ε κ : Type}

/-! ### Who signs -/

/-- **Somebody who signs cancels and refunds**: the loop of a validator, or the attester of a
relayer. -/
inductive Worker (ε : Type)
  | validator (V : RefundLoop ε) (sourceReaders destReaders : U64 → Reader ε)
  | relayer (A : Attester ε)

namespace Worker

/-- The address that it signs as. -/
def address : Worker ε → Address
  | .validator V _ _ => V.signerAddr
  | .relayer A => A.me

/-- Its hash function. -/
def keccak256 : Worker ε → Bytes → Bytes32
  | .validator V _ _ => V.keccak256
  | .relayer A => A.keccak256

/-- The id that a candidate states. -/
def statedId : Worker ε → SubmissionRecord → Option Bytes32
  | .validator V _ _, rec => V.parsers.b256 rec.submissionId
  | .relayer A, rec => SolanaRelayer.hex32 A.parsers rec.submissionId

/-- The string that the id of a candidate is the hash of. -/
def boundString : Worker ε → SubmissionRecord → Option Bytes
  | .validator V _ _, rec => V.boundString rec
  | .relayer A, rec => A.boundString rec

/-- **What it does with a candidate**: the id that it judges, and what it signs for it. -/
def consider : Worker ε → SignedRecord → Reading ε (Bytes32 × Option SigKind)
  | .validator V sourceReaders destReaders, candidate => do
    let r ← V.consider sourceReaders destReaders candidate
    return (r.1, r.2.attests)
  | .relayer A, candidate => A.consider candidate

/-- It can be relied on: it reads chains through endpoints that it may believe, and its timeout is
not shorter than what it should be. -/
def Sound (N : Network ι ε) (timeout : ℤ) : Worker ε → Prop
  | .validator V sourceReaders destReaders => RefundLoop.Reads N sourceReaders ∧
    RefundLoop.Reads N destReaders ∧ timeout ≤ V.timeoutSecs.toInt
  | .relayer A => ∃ i R, A.Sound N i R ∧ ∀ t ∈ A.timeoutSecs, timeout ≤ t.toInt

end Worker

/-- **A judgement with its evidence**: of the id that the candidate states, which is the hash of the
candidate's string. -/
def Judged (N : Network ι ε) (timeout : ℤ) (w : Worker ε) (candidate : SignedRecord)
    (p : Past ι) (r : Bytes32 × Option SigKind) : Prop :=
  w.statedId candidate.params = some r.1 ∧
    ∃ x, w.boundString candidate.params = some x ∧ w.keccak256 x = r.1 ∧
      ∀ kind, r.2 = some kind → Evidence N p timeout x r.1 kind

/-- **Whoever signs has the evidence.** -/
theorem Worker.Sound.ends_consider {N : Network ι ε} {timeout : ℤ} {w : Worker ε}
    (hw : w.Sound N timeout) (candidate : SignedRecord) (p : Past ι) :
    (w.consider candidate).Ends (Answers N) (Judged N timeout w candidate) p := by
  cases w with
  | validator V sourceReaders destReaders =>
    obtain ⟨hsource, hdest, hle⟩ := hw
    refine Ask.ends_bind ((RefundLoop.ends_consider hsource hdest).mono ?_)
    rintro q - r ⟨hstated, x, hx, hhash, hevidence⟩
    exact Ask.ends_pure fun q' hq' =>
      ⟨hstated, x, hx, hhash, fun kind hkind => ((hevidence kind hkind).of_le hle).later hq'⟩
  | relayer A =>
    obtain ⟨i, R, hA, htimeout⟩ := hw
    exact hA.ends_consider htimeout

/-! ### The machine -/

/-- A candidate that is being judged. -/
structure Thread (ε : Type) where
  worker : Worker ε
  candidate : SignedRecord
  reading : Reading ε (Bytes32 × Option SigKind)

/-- **The mesh**: the chains, what is being judged, and who has signed which message. -/
structure Mesh (N : Network ι ε) (κ : Type) where
  chains : ∀ i, Timeline (N.deployment i)
  threads : κ → Option (Thread ε)
  signed : List (Address × Bytes32)

/-- What is confirmed in a mesh. -/
def Mesh.past {N : Network ι ε} (m : Mesh N κ) : Past ι := ⟨fun i => (m.chains i).past⟩

/-- What can happen next. -/
inductive MeshLabel (N : Network ι ε) (κ : Type)
  /-- A chain takes a step. -/
  | chain (i : ι) (a : Tick (N.deployment i))
  /-- A worker begins to judge a candidate. -/
  | start (k : κ) (worker : Worker ε) (candidate : SignedRecord)
  /-- It gets an answer. -/
  | answer (k : κ) (reply : Reply)
  /-- It signs what it has decided. -/
  | attest (k : κ)
  /-- Somebody signs the id of a transfer. -/
  | transfer (v : Address) (x : Bytes)
  /-- Somebody signs a message. -/
  | message (v : Address) (message : Bytes32)

/-- The string that a message of a kind hashes, unless it is an id. -/
def messageString : SigKind → Bytes32 → Option Bytes
  | .transfer, _ => none
  | .cancel, id => some (BridgeHash.packedCancel id)
  | .refund, id => some (BridgeHash.packedRefund id)

variable [DecidableEq ι] [DecidableEq κ] {N : Network ι ε} (keccak256 : Bytes → Bytes32)

/-- A thread is set to something else. -/
def Mesh.setThread (m : Mesh N κ) (k : κ) (thread : Option (Thread ε)) : Mesh N κ :=
  { m with threads := Function.update m.threads k thread }

/-- Somebody signs. -/
def Mesh.sign (m : Mesh N κ) (v : Address) (message : Bytes32) : Mesh N κ :=
  { m with signed := m.signed ++ [(v, message)] }

/-- **One step of the mesh.** -/
def meshExec (m : Mesh N κ) : MeshLabel N κ → Option (Mesh N κ × Effects)
  | .chain i a => (tick (N.deployment i) (m.chains i) a).map fun r =>
    ({ m with chains := Function.update m.chains i r.1 }, r.2)
  | .start k worker candidate =>
    some (m.setThread k (some ⟨worker, candidate, worker.consider candidate⟩),
      ⟨[], (worker.boundString candidate.params).toList, []⟩)
  | .answer k reply =>
    match m.threads k with
    | some ⟨worker, candidate, .ask _ next⟩ =>
      some (m.setThread k (some ⟨worker, candidate, next reply⟩), ⟨[], [], []⟩)
    | _ => none
  | .attest k =>
    match m.threads k with
    | some ⟨worker, _, .done (id, some kind)⟩ =>
      some ((m.setThread k none).sign worker.address (kind.digest keccak256 id),
        ⟨[], (messageString kind id).toList, []⟩)
    | _ => none
  | .transfer v x => some (m.sign v (keccak256 x), ⟨[], [x], []⟩)
  | .message v message => some (m.sign v message, ⟨[], [], []⟩)

/-- **What a step of the mesh can be.** -/
inductive Moved (m : Mesh N κ) : MeshLabel N κ → Mesh N κ → Effects → Prop
  | chain {i : ι} {a : Tick (N.deployment i)} {c : Timeline (N.deployment i)} {fx : Effects}
      (htick : tick (N.deployment i) (m.chains i) a = some (c, fx)) :
      Moved m (.chain i a) { m with chains := Function.update m.chains i c } fx
  | start {k : κ} {worker : Worker ε} {candidate : SignedRecord} :
      Moved m (.start k worker candidate)
        (m.setThread k (some ⟨worker, candidate, worker.consider candidate⟩))
        ⟨[], (worker.boundString candidate.params).toList, []⟩
  | answer {k : κ} {reply : Reply} {worker : Worker ε} {candidate : SignedRecord}
      {q : ε × Question} {next : Reply → Reading ε (Bytes32 × Option SigKind)}
      (hthread : m.threads k = some ⟨worker, candidate, .ask q next⟩) :
      Moved m (.answer k reply) (m.setThread k (some ⟨worker, candidate, next reply⟩)) ⟨[], [], []⟩
  | attest {k : κ} {worker : Worker ε} {candidate : SignedRecord} {id : Bytes32} {kind : SigKind}
      (hthread : m.threads k = some ⟨worker, candidate, .done (id, some kind)⟩) :
      Moved m (.attest k) ((m.setThread k none).sign worker.address (kind.digest keccak256 id))
        ⟨[], (messageString kind id).toList, []⟩
  | transfer {v : Address} {x : Bytes} :
      Moved m (.transfer v x) (m.sign v (keccak256 x)) ⟨[], [x], []⟩
  | message {v : Address} {message : Bytes32} :
      Moved m (.message v message) (m.sign v message) ⟨[], [], []⟩

theorem moved_of_meshExec {m m' : Mesh N κ} {a : MeshLabel N κ} {fx : Effects}
    (h : meshExec keccak256 m a = some (m', fx)) : Moved keccak256 m a m' fx := by
  cases a with
  | chain i a =>
    obtain ⟨⟨c, fx'⟩, htick, heq⟩ := Option.map_eq_some_iff.mp h
    obtain ⟨rfl, rfl⟩ := Prod.mk.inj heq
    exact .chain htick
  | start k worker candidate =>
    obtain ⟨rfl, rfl⟩ := Prod.mk.inj (Option.some.inj h)
    exact .start
  | answer k reply =>
    rw [meshExec] at h
    split at h
    · next worker candidate q next hthread =>
      obtain ⟨rfl, rfl⟩ := Prod.mk.inj (Option.some.inj h)
      exact .answer hthread
    · cases h
  | attest k =>
    rw [meshExec] at h
    split at h
    · next worker candidate id kind hthread =>
      obtain ⟨rfl, rfl⟩ := Prod.mk.inj (Option.some.inj h)
      exact .attest hthread
    · cases h
  | transfer v x =>
    obtain ⟨rfl, rfl⟩ := Prod.mk.inj (Option.some.inj h)
    exact .transfer
  | message v message =>
    obtain ⟨rfl, rfl⟩ := Prod.mk.inj (Option.some.inj h)
    exact .message

/-- A step of a run of the mesh. -/
abbrev MeshStep (N : Network ι ε) (κ : Type) := Entry (Mesh N κ) (MeshLabel N κ) Effects

/-- **Where a run starts**: no chain has a gate in its blocks, and nothing is signed. -/
structure Mesh.Genesis (m : Mesh N κ) : Prop where
  chains : ∀ i, (m.chains i).Genesis
  threads : ∀ k, m.threads k = none
  signed : m.signed = []

/-- One hash function, chain ids that tell the chains apart, and runtimes that keep their rules. -/
structure Network.Regular (N : Network ι ε) (keccak256 : Bytes → Bytes32) : Prop where
  lawful : ∀ i, (N.deployment i).Lawful
  keccak256_eq : ∀ i, (N.deployment i).keccak256 = keccak256
  chainId_inj : ∀ i j, N.chainId i = N.chainId j → i = j

/-- **What is assumed of a step.** -/
structure Fair (timeout : ℤ) (Honest : Address → Prop) (e : MeshStep N κ) : Prop where
  chainId : ∀ i a, e.label = .chain i a → a.ChainIdIs (N.chainId i)
  /-- Fewer validators are dishonest than have to sign. -/
  few : ∀ i l, e.label = .chain i (.call l) → ∀ d ∈ e.out.deeds, d.act = .cancel ∨ d.act = .refund →
    ∀ liars : List Address, liars.Nodup →
      (∀ v ∈ liars, (N.deployment i).IsValidator (e.pre.chains i).gate v ∧ ¬Honest v) →
      liars.length < (N.deployment i).threshold (e.pre.chains i).gate
  /-- Nobody else signs with an honest key. -/
  unforged : ∀ i l, e.label = .chain i (.call l) → ∀ d ∈ e.out.deeds, ∀ kind,
    d.act.kind = some kind → ∀ signature ∈ (N.deployment i).presented l, ∀ v, Honest v →
      (N.deployment i).signerOf (kind.digest keccak256 d.id) signature = some v →
        (v, kind.digest keccak256 d.id) ∈ e.pre.signed
  worker : ∀ k w candidate, e.label = .start k w candidate → Honest w.address →
    w.Sound N timeout ∧ w.keccak256 = keccak256
  /-- Honest endpoints tell the truth. -/
  answer : ∀ k reply w candidate q next, e.label = .answer k reply →
    e.pre.threads k = some ⟨w, candidate, .ask q next⟩ → Answers N e.pre.past q reply
  transfer : ∀ v x, e.label = .transfer v x → Honest v → IsSubmission x
  message : ∀ v message, e.label = .message v message → ¬Honest v

end Signers

end SelendraBridge
