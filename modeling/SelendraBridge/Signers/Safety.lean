import SelendraBridge.Signers.Attributed

/-!
# From signatures back to deeds

A run of a mesh is a run of each of its chains (`SelendraBridge.Signers.chain_run`), and what a
confirmed block shows, a deed of that run has done. A cancellation and a refund need a quorum, in a
quorum there is an honest key, and an honest key has signed on evidence. So the evidence leads back
to deeds:

| there is | so before it there was |
|---|---|
| a refund | a cancellation, on the destination |
| a cancellation | a send, on the source, the timeout before by the clock of the source |

See `SelendraBridge.Signers.cancel_of_refund` and `SelendraBridge.Signers.send_of_cancel`.
-/

namespace SelendraBridge

namespace Signers

open Store Transition Deployment

variable {ι ε κ : Type} {N : Network ι ε} {keccak256 : Bytes → Bytes32} {timeout : ℤ}
  {Honest : Address → Prop} {m₀ m : Mesh N κ} {tr : List (MeshStep N κ)} {i j : ι} {d : Deed}
  {e : MeshStep N κ}

/-! ### What was done -/

/-- What a step did, and on which chain. -/
def deedsOf (e : MeshStep N κ) : List (ι × Deed) :=
  match e.label with
  | .chain i _ => e.out.deeds.map (Prod.mk i)
  | _ => []

/-- **What a run did.** -/
def deedsIn (tr : List (MeshStep N κ)) : List (ι × Deed) := tr.flatMap deedsOf

theorem mem_deedsOf : (i, d) ∈ deedsOf e ↔ ∃ a, e.label = .chain i a ∧ d ∈ e.out.deeds := by
  rw [deedsOf]
  split
  · next j a hlabel =>
    constructor
    · intro h
      obtain ⟨d', hd', heq⟩ := List.mem_map.mp h
      obtain ⟨rfl, rfl⟩ := Prod.mk.inj heq
      exact ⟨a, hlabel, hd'⟩
    · rintro ⟨a', hlabel', hd⟩
      obtain ⟨rfl, -⟩ := MeshLabel.chain.inj (hlabel.symm.trans hlabel')
      exact List.mem_map_of_mem hd
  · next hnot =>
    constructor
    · intro h
      cases h
    · rintro ⟨a, hlabel, -⟩
      exact absurd hlabel (hnot i a)

/-- On no chain two deeds name one id. -/
def Once (names : Deed → Option Bytes32) (done : List (ι × Deed)) : Prop :=
  done.Pairwise fun a b => a.1 = b.1 → ∀ id, names a.2 = some id → names b.2 ≠ some id

theorem Once.eq {names : Deed → Option Bytes32} {done : List (ι × Deed)} (h : Once names done)
    {x y : ι × Deed} (hx : x ∈ done) (hy : y ∈ done) (hsame : x.1 = y.1) {id : Bytes32}
    (hxid : names x.2 = some id) (hyid : names y.2 = some id) : x = y := by
  by_contra hne
  have hsymm : Std.Symm fun a b : ι × Deed =>
      a.1 = b.1 → ∀ id, names a.2 = some id → names b.2 ≠ some id :=
    ⟨fun a b h heq id hb ha => h heq.symm id ha hb⟩
  exact List.Pairwise.forall h hx hy hne hsame id hxid hyid

variable [DecidableEq ι]

/-- A step of one chain. -/
def part (i : ι) (e : MeshStep N κ) : Option (ChainStep (N.deployment i)) :=
  match e.label with
  | .chain j a => if h : j = i then some ⟨e.pre.chains i, h ▸ a, e.out, e.post.chains i⟩ else none
  | _ => none

theorem part_eq_some {e' : ChainStep (N.deployment i)} : part i e = some e' ↔
    ∃ a, e.label = .chain i a ∧ e' = ⟨e.pre.chains i, a, e.out, e.post.chains i⟩ := by
  rw [part]
  split
  · next j a hlabel =>
    constructor
    · intro h
      split at h
      · next heq =>
        subst heq
        exact ⟨a, hlabel, (Option.some.inj h).symm⟩
      · cases h
    · rintro ⟨a', hlabel', rfl⟩
      obtain ⟨rfl, heq⟩ := MeshLabel.chain.inj (hlabel.symm.trans hlabel')
      obtain rfl := eq_of_heq heq
      rw [dif_pos rfl]
  · next hnot =>
    constructor
    · intro h
      cases h
    · rintro ⟨a, hlabel, -⟩
      exact absurd hlabel (hnot i a)

/-- What a chain did, a run did. -/
theorem mem_deedsOf_of_part {e' : ChainStep (N.deployment i)} (he : e' ∈ tr.filterMap (part i))
    (hd : d ∈ e'.out.deeds) : ∃ e ∈ tr, (i, d) ∈ deedsOf e ∧ e'.pre = e.pre.chains i := by
  obtain ⟨e, hmem, he⟩ := List.mem_filterMap.mp he
  obtain ⟨a, hlabel, rfl⟩ := part_eq_some.mp he
  exact ⟨e, hmem, mem_deedsOf.mpr ⟨a, hlabel, hd⟩, rfl⟩

/-- The ids that some deeds of a chain name in a step. -/
theorem filterMap_deedsOf (names : Deed → Option Bytes32) (i : ι) (e : MeshStep N κ) :
    (deedsOf e).filterMap (fun x => if x.1 = i then names x.2 else none) =
      (part i e).toList.flatMap fun e => e.out.deeds.filterMap names := by
  rw [deedsOf, part]
  split
  · next j a hlabel =>
    rcases eq_or_ne j i with rfl | hne
    · simp [List.filterMap_map]
    · simp [List.filterMap_map, hne]
  · rfl

/-- And in a run. -/
theorem filterMap_deedsIn (names : Deed → Option Bytes32) (i : ι) (tr : List (MeshStep N κ)) :
    (deedsIn tr).filterMap (fun x => if x.1 = i then names x.2 else none) =
      (tr.filterMap (part i)).flatMap fun e => e.out.deeds.filterMap names := by
  rw [deedsIn, List.filterMap_flatMap, List.filterMap_eq_flatMap_toList, List.flatMap_assoc]
  congr 1
  funext e
  exact filterMap_deedsOf names i e

/-- **What no chain does twice, a run does once on each.** -/
theorem once_of_nodup {names : Deed → Option Bytes32}
    (hnodup : ∀ i, ((tr.filterMap (part i)).flatMap fun e => e.out.deeds.filterMap names).Nodup) :
    Once names (deedsIn tr) := by
  rw [Once, List.pairwise_iff_getElem]
  intro k l hk hl hkl hsame id ha hb
  have hpair := hnodup (deedsIn tr)[k].1
  rw [← filterMap_deedsIn, List.Nodup, List.pairwise_filterMap, List.pairwise_iff_getElem] at hpair
  exact hpair k l hk hl hkl id (by simp [ha]) id (by simp [← hsame, hb]) rfl

/-- The accounts that a run wrote on a chain. -/
def writtenIn (i : ι) (tr : List (MeshStep N κ)) : List (List Bytes) :=
  (tr.filterMap (part i)).flatMap fun e => e.out.seeds

/-- What is apart from all accounts of a run is apart from those of its beginning. -/
theorem apart_of_append {tr₁ tr₂ : List (MeshStep N κ)} {id : Bytes32}
    (h : (N.deployment i).Apart id (writtenIn i (tr₁ ++ tr₂))) :
    (N.deployment i).Apart id (writtenIn i tr₁) := by
  refine h.mono fun sd hsd => ?_
  rw [writtenIn, List.filterMap_append, List.flatMap_append]
  exact List.mem_append_left _ hsd

variable [DecidableEq κ]

/-- **A run of the mesh is a run of each of its chains.** -/
theorem chain_run (hrun : Run (meshExec keccak256) m₀ tr m) (i : ι) :
    Run (tick (N.deployment i)) (m₀.chains i) (tr.filterMap (part i)) (m.chains i) := by
  refine hrun.project (f := fun m => m.chains i) fun m a m' fx h => ?_
  have hmoved := moved_of_meshExec keccak256 h
  cases hmoved with
  | @chain j a c fx htick =>
    rcases eq_or_ne j i with rfl | hne
    · right
      refine ⟨a, fx, part_eq_some.mpr ⟨a, rfl, rfl⟩, ?_⟩
      simpa using htick
    · left
      refine ⟨by simp [part, hne], ?_⟩
      simp [Function.update_of_ne hne.symm]
  | _ => exact .inl ⟨rfl, rfl⟩

/-- A deed is that of a call. -/
theorem call_of_deed (h : meshExec keccak256 e.pre e.label = some (e.post, e.out))
    (hd : (i, d) ∈ deedsOf e) : d ∈ e.out.deeds ∧ ∃ l w, e.label = .chain i (.call l) ∧
      (N.deployment i).step (e.pre.chains i).gate l = some (w, e.out) := by
  obtain ⟨a, hlabel, hd⟩ := mem_deedsOf.mp hd
  rw [hlabel] at h
  obtain ⟨⟨c, fx⟩, htick, heq⟩ := Option.map_eq_some_iff.mp h
  obtain ⟨-, rfl⟩ := Prod.mk.inj heq
  refine ⟨hd, ?_⟩
  rcases tick_cases htick with ⟨l, w, rfl, -, hstep, -⟩ | ⟨time, -, hfx, -⟩ | ⟨n, -, -, hfx, -⟩
  · exact ⟨l, w, hlabel, hstep⟩
  · rw [hfx] at hd
    cases hd
  · rw [hfx] at hd
    cases hd

/-- **An honest key signed for a deed that needs it.** -/
theorem exists_honest_signature (hN : N.Regular keccak256)
    (h : meshExec keccak256 e.pre e.label = some (e.post, e.out))
    (hfair : Fair keccak256 timeout Honest e) (hd : (i, d) ∈ deedsOf e)
    (hact : d.act = .cancel ∨ d.act = .refund) {kind : SigKind} (hkind : d.act.kind = some kind) :
    ∃ v, Honest v ∧ (v, kind.digest keccak256 d.id) ∈ e.pre.signed := by
  obtain ⟨hmem, l, w, hlabel, hstep⟩ := call_of_deed h hd
  obtain ⟨signers, hnodup, henough, hsigners⟩ := quorum_of_step hstep hmem hkind
  rw [hN.keccak256_eq i] at hsigners
  by_cases hhonest : ∃ v ∈ signers, Honest v
  · obtain ⟨v, hv, hhonest⟩ := hhonest
    obtain ⟨-, signature, hsig, hsigner⟩ := hsigners v hv
    exact ⟨v, hhonest, hfair.unforged i l hlabel d hmem kind hkind signature hsig v hhonest hsigner⟩
  · -- the signers would be too many liars
    have hlt := hfair.few i l hlabel d hmem hact signers hnodup fun v hv =>
      ⟨(hsigners v hv).1, fun hh => hhonest ⟨v, hv, hh⟩⟩
    omega

section Fair

variable (hN : N.Regular keccak256) (h₀ : m₀.Genesis)
  (hrun : Run (meshExec keccak256) m₀ tr m) (hfair : ∀ e ∈ tr, Fair keccak256 timeout Honest e)
include h₀ hrun hfair

theorem attributed_run : m.Attributed keccak256 timeout Honest tr := by
  induction hrun with
  | nil => exact h₀.attributed
  | snoc hrun h ih =>
    exact (ih fun e he => hfair e (List.mem_append_left _ he)).step h
      (hfair _ (List.mem_append_right _ (List.mem_singleton_self _)))

include hN

theorem remembers_mesh {id : Bytes32} (hapart : (N.deployment i).Apart id (writtenIn i tr)) :
    (m.chains i).Remembers id (N.chainId i) (tr.filterMap (part i)) := by
  refine remembers_run (hN.lawful i) (h₀.chains i) (chain_run hrun i) ?_ hapart
  intro e' he'
  obtain ⟨e, he, hpart⟩ := List.mem_filterMap.mp he'
  obtain ⟨a, hlabel, rfl⟩ := part_eq_some.mp hpart
  exact (hfair e he).chainId i a hlabel

/-- **What is cancelled in a confirmed block was cancelled.** -/
theorem cancel_of_burned {id : Bytes32} (hapart : (N.deployment i).Apart id (writtenIn i tr))
    {b : Moment} (hb : b ∈ m.past.moments i) (hburned : Burned (N.deployment i) b id) :
    (i, ⟨.cancel, id⟩) ∈ deedsIn tr := by
  have hrem := (remembers_mesh hN h₀ hrun hfair hapart).blocks b (List.mem_of_mem_take hb)
  obtain ⟨e', he', hd⟩ := hrem.burned hburned
  obtain ⟨e, he, hmem, -⟩ := mem_deedsOf_of_part he' hd
  exact List.mem_flatMap.mpr ⟨e, he, hmem⟩

/-- **What has been locked for a time was sent that long ago.** -/
theorem send_of_agedOut {id : Bytes32} (hapart : (N.deployment i).Apart id (writtenIn i tr))
    (h : AgedOut N m.past timeout i id) : ∃ e ∈ tr, (i, ⟨.send, id⟩) ∈ deedsOf e ∧
      (e.pre.chains i).clock + timeout ≤ (m.chains i).clock := by
  obtain ⟨b, hb, since, hlocked, now, hnow, hle⟩ := h
  have hrem := (remembers_mesh hN h₀ hrun hfair hapart).blocks b (List.mem_of_mem_take hb)
  obtain ⟨e', he', hd, hclock⟩ := hrem.locked since hlocked
  obtain ⟨e, he, hmem, hpre⟩ := mem_deedsOf_of_part he' hd
  have htime := (inOrder_run (h₀.chains i) (chain_run hrun i)).time_le now
    (List.mem_of_mem_take hnow)
  rw [hpre] at hclock
  exact ⟨e, he, hmem, by omega⟩

end Fair

/-! ### What comes before a cancellation and a refund -/

section Step

variable {tr₁ tr₂ : List (MeshStep N κ)} (hN : N.Regular keccak256) (h₀ : m₀.Genesis)
  (hrun : Run (meshExec keccak256) m₀ (tr₁ ++ e :: tr₂) m)
  (hfair : ∀ e' ∈ tr₁ ++ e :: tr₂, Fair keccak256 timeout Honest e')
include hN h₀ hrun hfair

/-- **The string behind a deed of a run.** -/
theorem behind_of_deed (hapart : (N.deployment i).Apart d.id (writtenIn i tr₁))
    (hd : (i, d) ∈ deedsOf e) :
    ∃ x ∈ hashed e.out, d.Behind keccak256 (N.chainId i).toNat x := by
  obtain ⟨hrun₁, he, -⟩ := hrun.split
  obtain ⟨hmem, l, w, hlabel, hstep⟩ := call_of_deed he hd
  have hrem := remembers_mesh hN h₀ hrun₁ (fun e' he' => hfair e' (List.mem_append_left _ he'))
    hapart
  have hid := (hfair e (by simp)).chainId i _ hlabel
  obtain ⟨x, hx, hbehind⟩ := behind_of_step hrem.sound hid hstep hmem
  rw [hN.keccak256_eq i] at hbehind
  exact ⟨x, List.mem_append_left _ hx, hbehind⟩

/-- **Evidence behind a cancellation or a refund**, of the string of its id. -/
theorem evidence_of_deed (hcoll : CollisionFree keccak256 (hashedIn (tr₁ ++ e :: tr₂)))
    (hapart : (N.deployment i).Apart d.id (writtenIn i tr₁)) (hd : (i, d) ∈ deedsOf e)
    (hact : d.act = .cancel ∨ d.act = .refund) {kind : SigKind} (hkind : d.act.kind = some kind) :
    ∃ x, d.Behind keccak256 (N.chainId i).toNat x ∧
      Evidence N e.pre.past timeout x d.id kind := by
  obtain ⟨hrun₁, he, -⟩ := hrun.split
  have hold : hashedIn tr₁ ⊆ hashedIn (tr₁ ++ e :: tr₂) := by
    rw [hashedIn, hashedIn, List.flatMap_append]
    exact List.subset_append_left _ _
  have hnew : hashed e.out ⊆ hashedIn (tr₁ ++ e :: tr₂) := fun x hx =>
    List.mem_flatMap.mpr ⟨e, by simp, hx⟩
  obtain ⟨x₀, hx₀, hbehind⟩ := behind_of_deed hN h₀ hrun hfair hapart hd
  obtain ⟨y, hy⟩ : ∃ y, messageString kind d.id = some y := by
    rcases hact with hact | hact <;> rw [hact] at hkind <;> obtain rfl := Option.some.inj hkind <;>
      exact ⟨_, rfl⟩
  have hmem : y ∈ hashed e.out := by
    refine List.mem_append_right _ (List.mem_filterMap.mpr ⟨d, (mem_deedsOf.mp hd).choose_spec.2, ?_⟩)
    rw [hkind]
    exact hy
  obtain ⟨v, hhonest, hsigned⟩ := exists_honest_signature hN he (hfair e (by simp)) hd hact hkind
  rw [digest_of_messageString hy] at hsigned
  have hatt := attributed_run h₀ hrun₁ fun e' he' => hfair e' (List.mem_append_left _ he')
  rcases hatt.signed v _ hsigned hhonest with ⟨x, hx, hfront, heq⟩ |
    ⟨kind', x, hx, y', hy', hmessage, heq, hevidence⟩
  · -- it would be the string of an id
    obtain rfl := hcoll _ (hnew hmem) _ (hold hx) heq
    exact absurd hfront (not_isSubmission_of_messageString hy)
  · obtain rfl := hcoll _ (hnew hmem) _ (hold hy') heq
    obtain ⟨rfl, hid⟩ := messageString_inj hy hmessage
    obtain rfl := hcoll _ (hnew hx₀) _ (hold hx) (hbehind.hash.trans hid)
    rw [← hid] at hevidence
    exact ⟨x₀, hbehind, hevidence⟩

variable (hcoll : CollisionFree keccak256 (hashedIn (tr₁ ++ e :: tr₂))) {id : Bytes32}
  (hapart : ∀ j, (N.deployment j).Apart id (writtenIn j tr₁))
include hcoll hapart

/-- **Before a refund comes a cancellation**, on the destination. -/
theorem cancel_of_refund (hd : (i, ⟨.refund, id⟩) ∈ deedsOf e) :
    ∃ j, (j, ⟨.cancel, id⟩) ∈ deedsIn tr₁ := by
  obtain ⟨hrun₁, -, -⟩ := hrun.split
  obtain ⟨x, -, c, j, -, b, hb, hburned⟩ :=
    evidence_of_deed hN h₀ hrun hfair hcoll (hapart i) hd (.inr rfl) rfl
  exact ⟨j, cancel_of_burned hN h₀ hrun₁
    (fun e' he' => hfair e' (List.mem_append_left _ he')) (hapart j) hb hburned⟩

/-- **Before a cancellation comes a send**, on the source, by as much as the timeout. -/
theorem send_of_cancel (hd : (j, ⟨.cancel, id⟩) ∈ deedsOf e) :
    ∃ i, ∃ e₀ ∈ tr₁, (i, ⟨.send, id⟩) ∈ deedsOf e₀ ∧
      (e₀.pre.chains i).clock + timeout ≤ (e.pre.chains i).clock := by
  obtain ⟨hrun₁, -, -⟩ := hrun.split
  have hfair₁ : ∀ e' ∈ tr₁, Fair keccak256 timeout Honest e' := fun e' he' =>
    hfair e' (List.mem_append_left _ he')
  obtain ⟨x, -, i, -, -, -, hage⟩ :=
    evidence_of_deed hN h₀ hrun hfair hcoll (hapart j) hd (.inl rfl) rfl
  have horder := inOrder_run (h₀.chains i) (chain_run hrun₁ i)
  have hordered : e.pre.past.Ordered i := List.Pairwise.sublist (List.take_sublist _ _) horder.ordered
  exact ⟨i, send_of_agedOut hN h₀ hrun₁ hfair₁ (hapart i) (hage hordered)⟩

end Step

/-! ### Over a run -/

/-- Deeds of one id on one side of it are of one chain. -/
theorem chainId_eq_of_behind {d' : Deed} {c c' : ℕ} {x : Bytes} (h : d.Behind keccak256 c x)
    (h' : d'.Behind keccak256 c' x) (hside : d.act.atSource = d'.act.atSource) : c = c' := by
  obtain ⟨other, hnames⟩ := h.names
  obtain ⟨other', hnames'⟩ := h'.names
  rw [← hside] at hnames'
  cases hact : d.act.atSource with
  | true =>
    rw [hact] at hnames hnames'
    exact hnames.source.symm.trans hnames'.source
  | false =>
    rw [hact] at hnames hnames'
    exact hnames.destination.symm.trans hnames'.destination

section Run

variable (hN : N.Regular keccak256) (h₀ : m₀.Genesis) (hrun : Run (meshExec keccak256) m₀ tr m)
  (hfair : ∀ e ∈ tr, Fair keccak256 timeout Honest e)
  (hcoll : CollisionFree keccak256 (hashedIn tr))
  (hapart : ∀ x ∈ deedsIn tr, ∀ j, (N.deployment j).Apart x.2.id (writtenIn j tr))
include hN h₀ hrun hfair hapart

/-- The string behind each deed. -/
theorem behind_of_mem {x : ι × Deed} (hx : x ∈ deedsIn tr) :
    ∃ y ∈ hashedIn tr, x.2.Behind keccak256 (N.chainId x.1).toNat y := by
  have hall := hapart x hx x.1
  obtain ⟨e, he, hd⟩ := List.mem_flatMap.mp hx
  obtain ⟨tr₁, tr₂, rfl⟩ := List.append_of_mem he
  obtain ⟨y, hy, hbehind⟩ := behind_of_deed hN h₀ hrun hfair (apart_of_append hall) hd
  exact ⟨y, List.mem_flatMap.mpr ⟨e, he, hy⟩, hbehind⟩

include hcoll

/-- Deeds of one id on one side of it are done on one chain. -/
theorem same_chain {x y : ι × Deed} (hx : x ∈ deedsIn tr) (hy : y ∈ deedsIn tr)
    (hid : x.2.id = y.2.id) (hside : x.2.act.atSource = y.2.act.atSource) : x.1 = y.1 := by
  obtain ⟨s, hs, hbehind⟩ := behind_of_mem hN h₀ hrun hfair hapart hx
  obtain ⟨t, ht, hbehind'⟩ := behind_of_mem hN h₀ hrun hfair hapart hy
  obtain rfl := hcoll s hs t ht (hbehind.hash.trans (hid.trans hbehind'.hash.symm))
  exact hN.chainId_inj _ _ (BitVec.eq_of_toNat_eq (chainId_eq_of_behind hbehind hbehind' hside))

/-- **What is refunded was cancelled.** -/
theorem cancelled_of_refunded {id : Bytes32} (hd : (i, ⟨.refund, id⟩) ∈ deedsIn tr) :
    ∃ j, (j, ⟨.cancel, id⟩) ∈ deedsIn tr := by
  have hall := hapart _ hd
  obtain ⟨e, he, hmem⟩ := List.mem_flatMap.mp hd
  obtain ⟨tr₁, tr₂, rfl⟩ := List.append_of_mem he
  obtain ⟨j, hcancel⟩ :=
    cancel_of_refund hN h₀ hrun hfair hcoll (fun j => apart_of_append (hall j)) hmem
  refine ⟨j, ?_⟩
  rw [deedsIn, List.flatMap_append]
  exact List.mem_append_left _ hcancel

/-- **What is claimed is not refunded**: it would be cancelled, and its chain settles it once. -/
theorem not_refunded_of_claimed {id : Bytes32} (hclaim : (i, ⟨.claim, id⟩) ∈ deedsIn tr) :
    (j, ⟨.refund, id⟩) ∉ deedsIn tr := by
  intro hrefund
  have hsettled := once_of_nodup fun i =>
    nodup_settled (hN.lawful i) (h₀.chains i) (chain_run hrun i)
  obtain ⟨k, hcancel⟩ := cancelled_of_refunded hN h₀ hrun hfair hcoll hapart hrefund
  have hsame : i = k := same_chain hN h₀ hrun hfair hcoll hapart hclaim hcancel rfl rfl
  have heq := hsettled.eq hclaim hcancel hsame rfl rfl
  cases heq

end Run

end Signers

end SelendraBridge
