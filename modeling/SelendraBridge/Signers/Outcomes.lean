import SelendraBridge.Gate.Mesh
import SelendraBridge.Signers.Safety
import SelendraBridge.Store.Standard

/-!
# No id is paid twice, and none is cancelled early

What a mesh whose signers read it is worth, in every fair run:

* an honest key has signed ids of transfers, cancels of what was sent the timeout before, and
  refunds of what was cancelled (`SelendraBridge.Signers.honest_signature`);
* no id is paid twice, by whatever gates (`SelendraBridge.Signers.paid_once`);
* a refund comes after a cancellation, and a cancellation after a send, by as much as the timeout
  (`SelendraBridge.Signers.orderly`).

The order of calls, blocks, reads and signatures is any, and the answers that a decision rests on
are from different times.
-/

namespace SelendraBridge

namespace Signers

open Store Transition Deployment

variable {ι ε κ : Type} [DecidableEq ι] [DecidableEq κ] {N : Network ι ε}
  {keccak256 : Bytes → Bytes32} {timeout : ℤ} {Honest : Address → Prop} {m₀ m : Mesh N κ}
  {tr : List (MeshStep N κ)}

/-! ### A mesh to run

Two contracts on two chains, one validator, one endpoint of each chain that tells the truth, and a
key that is not honest. A transfer is sent, not claimed for the timeout, cancelled and refunded. -/

namespace Sample

/-- The chain that the transfer leaves, and the one that it goes to. -/
def deployment : Bool → Deployment
  | false => .evm (tableChain 1 0xf1)
  | true => .evm (tableChain 2 0xf2)

/-- The network. -/
def network : Network Bool Bool where
  deployment
  chainId b := if b then 2 else 1
  depth _ := 0
  chainOf := id
  Honest _ := True

/-- How a chain is read. -/
def reader (chainId : U64) (gate : Address) (e : Bool) : GateReader Bool where
  chainId
  gate
  endpoints := [e]
  blockConfirmation := 0
  minAgree := minAgree 1 false

/-- The readers of the validator. -/
def readers (c : U64) : Reader Bool :=
  if c = 1 then .ready (reader 1 0xf1 false)
  else if c = 2 then .ready (reader 2 0xf2 true)
  else .notConfigured

/-- The validator, whose timeout is twelve seconds. -/
def validator : RefundLoop Bool where
  keccak256 := digestOf
  parsers := .standard
  recovery := ⟨fun _ _ => none, fun _ => none⟩
  signerAddr := Gate.validator₁
  timeoutSecs := 12
  timeoutSecs_pos := by decide
  url := toString
  debugDestination _ := ""
  debugSource _ := ""
  debugBool _ := ""

/-- The same as somebody who signs. -/
def worker : Worker Bool := .validator validator readers readers

/-- The key that is not honest. -/
def liar : Address := 0xbad

/-- The transfer, as a candidate. -/
def candidate : SignedRecord where
  params :=
    { submissionId := Hex.encode (wordBytes Gate.lockedId)
      bridgeDomain := Hex.encode (wordBytes 0xd0)
      debridgeId := Hex.encode (wordBytes Gate.lockedRefund.debridgeId)
      amount := "1000".toList
      bridgeDecimals := some 6
      chainIdFrom := 1
      chainIdTo := 2
      nonce := 0
      receiver := Hex.encode (addressBytes 0xbb)
      autoParams := []
      nativeSender := Hex.encode (addressBytes 0xcc)
      token := [] }
  signatures := []
  cancelSignatures := []
  refundSignatures := []

/-- Both gates just initialized, and no blocks yet. -/
def chains : ∀ b, Timeline (network.deployment b)
  | false => ⟨(Gate.started Gate.funded : Gate.World Ledger), 1001, [], 0⟩
  | true => ⟨(Gate.started Gate.noTokens : Gate.World Ledger), 1004, [], 0⟩

/-- Where the run starts. -/
def mesh : Mesh network Unit := ⟨chains, fun _ => none, []⟩

/-- A call of a gate. -/
def call : Bool → Gate.Label Ledger → MeshLabel network Unit
  | false, l => .chain false (.call l)
  | true, l => .chain true (.call l)

/-- A block, and as many confirmed ones as there are. -/
def block (b : Bool) (time : ℤ) (n : ℕ) : List (MeshLabel network Unit) :=
  [.chain b (.block time), .chain b (.confirm n)]

/-- What the validator is told, one question after the other. -/
def answers (replies : List Reply) : List (MeshLabel network Unit) :=
  .start () worker candidate :: replies.map (.answer ()) ++ [.attest ()]

/-- **Sent, aged, cancelled and refunded**: the validator signs the cancel after ten answers, and
the refund after six more. -/
def labels : List (MeshLabel network Unit) :=
  [call false (.govern (Gate.callAt 0x0a 1001) (.setBridgeDecimals 0xaa 6)),
    call false (.govern (Gate.callAt 0x0a 1001) (.setSupportedChain 2 true)),
    call false (.transfer (Gate.callAt 0xcc 1001) (.send Gate.lockedSend)),
    .message liar (SigKind.refund.digest digestOf Gate.lockedId)] ++
  block false 1100 1 ++ block false 1200 2 ++ block true 1104 1 ++
  answers [.number 0, .bool false, .bool false, .number 1, .address 0xcc, .bool false, .number 1,
    .timestamp 1100, .timestamp 1001, .address 0xcc] ++
  [call true (.transfer (Gate.callAt 0xdd 1104) (.cancel Gate.lockedCancel))] ++
  block true 1204 2 ++
  answers [.number 1, .bool true, .bool true, .number 1, .address 0xcc, .bool false] ++
  [call false (.transfer (Gate.callAt 0xdd 1200) (.refund Gate.lockedRefund))]

/-- The steps, and where they lead. -/
def run : List (MeshStep network Unit) × Mesh network Unit :=
  traceOf (meshExec digestOf) mesh labels

/-- The gate of a chain. -/
def gateAt (m : Mesh network Unit) : Bool → Gate
  | false => (m.chains false : Timeline (.evm (tableChain 1 0xf1))).gate.gate
  | true => (m.chains true : Timeline (.evm (tableChain 2 0xf2))).gate.gate

/-- What a step shows of what is assumed. -/
def checked (e : MeshStep network Unit) : Bool :=
  match e.label with
  | .chain i (.call l) =>
    decide ((gateAt e.pre i).threshold = 1 ∧ (gateAt e.pre i).isValidator liar = false) &&
      e.out.deeds.all fun d => (d.act.kind.map fun kind =>
        ((network.deployment i).presented l).all fun signature =>
          ((network.deployment i).signerOf (kind.digest digestOf d.id) signature).all fun v =>
            e.pre.signed.any fun s =>
              decide (s.1 = v) && decide (s.2 = kind.digest digestOf d.id)).getD true
  | .answer k reply =>
    (e.pre.threads k).all fun thread => thread.reading.asked.all fun q =>
      decide (reply = truth (network.deployment q.1) (e.pre.past.moments q.1) q.2)
  | .transfer _ _ => false
  | .message v _ => decide (v = liar)
  | _ => true

theorem regular : network.Regular digestOf where
  lawful b := by cases b <;> trivial
  keccak256_eq b := by cases b <;> rfl
  chainId_inj b b' h := by cases b <;> cases b' <;> first | rfl | exact absurd h (by decide)

theorem genesis_mesh : mesh.Genesis where
  chains b := by
    cases b with
    | false => exact ⟨Gate.initial_started _, by simp [mesh, chains], by simp [mesh, chains],
        by simp [mesh, chains], le_rfl⟩
    | true => exact ⟨Gate.initial_started _, by simp [mesh, chains], by simp [mesh, chains],
        by simp [mesh, chains], le_rfl⟩
  threads _ := rfl
  signed := rfl

/-- The validator may believe what it reads. -/
theorem sound_worker : worker.Sound network 12 := by
  have hsound (b : Bool) (gate : Address) (hgate : gateOf (network.deployment b) = some gate) :
      (reader (network.chainId b) gate b).Sound network b :=
    ⟨rfl, hgate, fun e he => List.mem_singleton.mp he, le_rfl, ⟨1, false, rfl⟩, fun l hl hall => by
      have hnil : l = [] := List.eq_nil_iff_forall_not_mem.mpr fun e he => hall e he trivial
      rw [hnil]
      exact Nat.one_pos⟩
  have hreads : RefundLoop.Reads network readers := by
    intro c r h
    rw [readers] at h
    split at h
    · next hc =>
      obtain rfl := Reader.ready.inj h
      exact ⟨false, hc.symm, hsound false 0xf1 rfl⟩
    · split at h
      · next hc =>
        obtain rfl := Reader.ready.inj h
        exact ⟨true, hc.symm, hsound true 0xf2 rfl⟩
      · cases h
  exact ⟨hreads, hreads, by decide⟩

/-- Such a step is fair. -/
theorem fair_of_checked {e : MeshStep network Unit} (h : checked e = true)
    (hworker : ∀ k w c, e.label = .start k w c → w = worker) : Fair digestOf 12 (· ≠ liar) e where
  chainId i a _ := by
    cases a with
    | call l => cases i <;> rfl
    | _ => trivial
  few i l hlabel d hd hact liars hnodup hliars := by
    rw [checked, hlabel] at h
    obtain ⟨hthreshold, hliar⟩ := of_decide_eq_true (Bool.and_eq_true_iff.mp h).1
    have hthreshold : (network.deployment i).threshold (e.pre.chains i).gate = 1 := by
      cases i <;> exact congrArg BitVec.toNat hthreshold
    have hnil : liars = [] := by
      refine List.eq_nil_iff_forall_not_mem.mpr fun v hv => ?_
      obtain ⟨hvalidator, hv⟩ := hliars v hv
      obtain rfl := not_ne_iff.mp hv
      cases i <;> exact Bool.noConfusion (hvalidator.symm.trans hliar)
    rw [hthreshold, hnil]
    exact Nat.one_pos
  unforged i l hlabel d hd kind hkind signature hsignature v hv hsigner := by
    rw [checked, hlabel] at h
    have hdeed := List.all_eq_true.mp (Bool.and_eq_true_iff.mp h).2 d hd
    rw [hkind, Option.map_some, Option.getD_some] at hdeed
    have hone := List.all_eq_true.mp hdeed signature hsignature
    rw [hsigner] at hone
    obtain ⟨⟨v', message⟩, hmem, hsame⟩ := List.any_eq_true.mp hone
    obtain ⟨hv, hmessage⟩ := Bool.and_eq_true_iff.mp hsame
    obtain rfl : v' = v := of_decide_eq_true hv
    obtain rfl : message = kind.digest digestOf d.id := of_decide_eq_true hmessage
    exact hmem
  worker k w c hlabel _ := by
    obtain rfl := hworker k w c hlabel
    exact ⟨sound_worker, rfl⟩
  answer k reply w c q next hlabel hthread := by
    simp only [checked, hlabel, hthread, Ask.asked, Option.all_some] at h
    rw [of_decide_eq_true h]
    exact fun _ => says_truth _ _ _ _
  transfer v x hlabel _ := by
    rw [checked, hlabel] at h
    cases h
  message v message hlabel := by
    rw [checked, hlabel] at h
    exact not_not_intro (of_decide_eq_true h)

/-- What the run shows, all of it computed at once. -/
theorem shown_run : (runFrom (meshExec digestOf) mesh labels).isSome = true ∧
    run.1.all checked = true ∧ ((hashedIn run.1).dedup.map digestOf).Nodup ∧
    deedsIn run.1 = [(false, ⟨.send, Gate.lockedId⟩), (true, ⟨.cancel, Gate.lockedId⟩),
      (false, ⟨.refund, Gate.lockedId⟩)] ∧
    run.2.signed = [(liar, SigKind.refund.digest digestOf Gate.lockedId),
      (Gate.validator₁, SigKind.cancel.digest digestOf Gate.lockedId),
      (Gate.validator₁, SigKind.refund.digest digestOf Gate.lockedId)] := by decide +kernel

theorem isSome_run : (runFrom (meshExec digestOf) mesh labels).isSome = true := shown_run.1

theorem run_run : Run (meshExec digestOf) mesh run.1 run.2 := run_traceOf isSome_run

theorem fair_run : ∀ e ∈ run.1, Fair digestOf 12 (· ≠ liar) e := by
  intro e he
  refine fair_of_checked (List.all_eq_true.mp shown_run.2.1 e he) fun k w c hlabel => ?_
  have hmem : e.label ∈ labels := label_traceOf isSome_run ▸ List.mem_map_of_mem he
  rw [hlabel] at hmem
  simp only [labels, call, block, answers, List.mem_append, List.mem_cons, List.mem_map,
    List.not_mem_nil, reduceCtorEq, and_false, exists_false, false_or, or_false, or_self,
    MeshLabel.start.injEq] at hmem
  exact hmem.2.1

/-- There are no accounts to tell apart. -/
theorem apart (b : Bool) {id : Bytes32} {seeds : List (List Bytes)} :
    (network.deployment b).Apart id seeds := by cases b <;> trivial

theorem collisionFree_run : CollisionFree digestOf (hashedIn run.1) := by
  obtain ⟨-, -, hnodup, -⟩ := shown_run
  intro x hx y hy h
  exact List.inj_on_of_nodup_map hnodup (List.mem_dedup.mpr hx) (List.mem_dedup.mpr hy) h

end Sample

/-! ### What it is worth -/

/-- **No id is paid twice.** In every fair run of a mesh, whatever the order of calls, blocks, reads
and signatures: of all the claims and refunds that go through, on all chains, no two are of one
id. -/
theorem paid_once (hN : N.Regular keccak256) (h₀ : m₀.Genesis)
    (hrun : Run (meshExec keccak256) m₀ tr m) (hfair : ∀ e ∈ tr, Fair keccak256 timeout Honest e)
    (hcoll : CollisionFree keccak256 (hashedIn tr))
    (hapart : ∀ x ∈ deedsIn tr, ∀ j, (N.deployment j).Apart x.2.id (writtenIn j tr)) :
    ((deedsIn tr).filterMap fun x => x.2.paid).Nodup := by
  have hsettled := once_of_nodup fun i =>
    nodup_settled (hN.lawful i) (h₀.chains i) (chain_run hrun i)
  have hrefunded := once_of_nodup fun i =>
    nodup_refunded (hN.lawful i) (h₀.chains i) (chain_run hrun i)
  rw [List.Nodup, List.pairwise_filterMap]
  refine (hsettled.and hrefunded).imp_of_mem fun {a b} ha hb hab id hid id' hid' heq => ?_
  subst heq
  obtain ⟨i, act, id₁⟩ := a
  obtain ⟨j, act', id₂⟩ := b
  cases act <;> cases act' <;> simp only [Deed.paid, reduceCtorEq, Option.some.injEq] at hid hid' <;>
    subst hid hid'
  · have hsame : i = j := same_chain hN h₀ hrun hfair hcoll hapart ha hb rfl rfl
    exact hab.1 hsame _ rfl rfl
  · exact not_refunded_of_claimed hN h₀ hrun hfair hcoll hapart ha hb
  · exact not_refunded_of_claimed hN h₀ hrun hfair hcoll hapart hb ha
  · have hsame : i = j := same_chain hN h₀ hrun hfair hcoll hapart ha hb rfl rfl
    exact hab.2 hsame _ rfl rfl

/-- The transfer is paid back, and that is all. -/
theorem paid_once_sample :
    ((deedsIn Sample.run.1).filterMap fun x => x.2.paid) = [Gate.lockedId] ∧
      ((deedsIn Sample.run.1).filterMap fun x => x.2.paid).Nodup := by
  obtain ⟨-, -, -, hdeeds, -⟩ := Sample.shown_run
  refine ⟨by rw [hdeeds]; rfl, ?_⟩
  exact paid_once Sample.regular Sample.genesis_mesh Sample.run_run Sample.fair_run
    Sample.collisionFree_run fun _ _ j => Sample.apart j

/-- **What comes before what**, in every fair run: a refund comes after a cancellation of its id,
and a cancellation after a send of its id, by as much as the timeout, by the clock of the chain that
sent it. -/
theorem orderly (hN : N.Regular keccak256) (h₀ : m₀.Genesis)
    (hrun : Run (meshExec keccak256) m₀ tr m) (hfair : ∀ e ∈ tr, Fair keccak256 timeout Honest e)
    (hcoll : CollisionFree keccak256 (hashedIn tr))
    (hapart : ∀ x ∈ deedsIn tr, ∀ j, (N.deployment j).Apart x.2.id (writtenIn j tr)) :
    ∀ tr₁ e tr₂, tr = tr₁ ++ e :: tr₂ → ∀ i id,
      ((i, ⟨.refund, id⟩) ∈ deedsOf e → ∃ j, (j, ⟨.cancel, id⟩) ∈ deedsIn tr₁) ∧
      ((i, ⟨.cancel, id⟩) ∈ deedsOf e → ∃ j, ∃ e₀ ∈ tr₁, (j, ⟨.send, id⟩) ∈ deedsOf e₀ ∧
        (e₀.pre.chains j).clock + timeout ≤ (e.pre.chains j).clock) := by
  rintro tr₁ e tr₂ rfl i id
  have hsub {d : Deed} (hd : (i, d) ∈ deedsOf e) (j : ι) :
      (N.deployment j).Apart d.id (writtenIn j tr₁) :=
    apart_of_append (hapart (i, d) (List.mem_flatMap.mpr ⟨e, by simp, hd⟩) j)
  exact ⟨fun hd => cancel_of_refund hN h₀ hrun hfair hcoll (hsub hd) hd,
    fun hd => send_of_cancel hN h₀ hrun hfair hcoll (hsub hd) hd⟩

/-- It was sent, cancelled more than twelve seconds later, and then refunded. -/
theorem orderly_sample : (∃ e ∈ Sample.run.1, (false, ⟨.refund, Gate.lockedId⟩) ∈ deedsOf e) ∧
    ∀ tr₁ e tr₂, Sample.run.1 = tr₁ ++ e :: tr₂ → ∀ i id,
      ((i, ⟨.refund, id⟩) ∈ deedsOf e → ∃ j, (j, ⟨.cancel, id⟩) ∈ deedsIn tr₁) ∧
      ((i, ⟨.cancel, id⟩) ∈ deedsOf e → ∃ j, ∃ e₀ ∈ tr₁, (j, ⟨.send, id⟩) ∈ deedsOf e₀ ∧
        (e₀.pre.chains j).clock + 12 ≤ (e.pre.chains j).clock) := by
  obtain ⟨-, -, -, hdeeds, -⟩ := Sample.shown_run
  refine ⟨?_, orderly Sample.regular Sample.genesis_mesh Sample.run_run Sample.fair_run
    Sample.collisionFree_run fun _ _ j => Sample.apart j⟩
  have hmem : (false, ⟨.refund, Gate.lockedId⟩) ∈ deedsIn Sample.run.1 := by
    rw [hdeeds]
    simp
  exact List.mem_flatMap.mp hmem

end Signers

end SelendraBridge
