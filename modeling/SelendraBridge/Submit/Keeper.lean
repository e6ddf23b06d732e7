import SelendraBridge.Gate.Seats
import SelendraBridge.Lib.Roster
import SelendraBridge.Store.Binding
import SelendraBridge.Store.Signatures
import SelendraBridge.Submit.LowS

/-!
# The array that the keeper submits

The rows of a record are hostile: anybody who may write to the store can add one. The keeper
recovers each of them and keeps one for each address that its row names
(`SelendraBridge.Keeper.authenticateSignatures`), asks the gate which of the addresses are
validators (`SelendraBridge.Keeper.memberSignatures`), puts what is left in order and encodes
it (`SelendraBridge.Keeper.sortedSignatures`).

Answers about membership are remembered, and a memo that is wrong shows as more members than
there are validators; then the gate is asked again, and what it says now ranks before what it
said before. If all answers are right, none of that happens.
-/

namespace SelendraBridge

namespace Keeper

open Revert Store

/-- `Membership`: how it was established in this tick. -/
inductive Membership
  | fresh (isMember : Bool)
  | cached (isMember : Bool)
  deriving DecidableEq, Repr

/-- `is_member`. -/
def Membership.isMember : Membership → Bool
  | .fresh m => m
  | .cached m => m

/-- It is from the memo. -/
def Membership.isCached : Membership → Bool
  | .fresh _ => false
  | .cached _ => true

/-- A signature with its signer, and what is known of the signer. -/
structure Resolved where
  addr : Address
  membership : Membership
  sig : SignerSig
  deriving DecidableEq, Repr

section Pipeline

variable (keccak256 : Bytes → Bytes32) (P : Parsers) (R : Recovery)

/-- The loop of `authenticate_signatures`, after the addresses seen. -/
def authenticate (id : Bytes32) (kind : SigKind) :
    List Address → List SignerSig → List (Address × SignerSig)
  | _, [] => []
  | seen, s :: sigs =>
    match verifyAttestation keccak256 P R id kind s with
    | .error _ => authenticate id kind seen sigs
    | .ok recovered =>
      if seen.contains recovered then authenticate id kind seen sigs
      else (recovered, { signer := hexText (addressBytes recovered), signature := s.signature }) ::
        authenticate id kind (recovered :: seen) sigs

/-- `authenticate_signatures`. -/
def authenticateSignatures (id : Bytes32) (kind : SigKind) (sigs : List SignerSig) :
    List (Address × SignerSig) :=
  authenticate keccak256 P R id kind [] sigs

/-- The first loop of `member_signatures`: membership from the memo, or else from the gate,
whose answer is remembered. A read that fails drops the signer. -/
def resolve (isValidator : Address → Option Bool) :
    (Address → Option Bool) → List (Address × SignerSig) → List Resolved
  | _, [] => []
  | memo, a :: authentic =>
    match memo a.1, isValidator a.1 with
    | some m, _ => ⟨a.1, .cached m, a.2⟩ :: resolve isValidator memo authentic
    | none, some m =>
      ⟨a.1, .fresh m, a.2⟩ :: resolve isValidator (Function.update memo a.1 (some m)) authentic
    | none, none => resolve isValidator memo authentic

/-- The second loop: the memo is asked again. -/
def reread (isValidator : Address → Option Bool) (r : Resolved) : Resolved :=
  if r.membership.isCached then
    { r with membership := ((isValidator r.addr).map Membership.fresh).getD r.membership }
  else r

/-- The order of the choice in `filter_members`: fresh answers first, and addresses up. -/
def ranked (a b : Resolved) : Bool :=
  if a.membership.isCached = b.membership.isCached then decide (a.addr ≤ b.addr)
  else b.membership.isCached

/-- `filter_members`. -/
def filterMembers (resolved : List Resolved) (validatorCount : ℕ) : List SignerSig :=
  let kept := resolved.filter fun r => r.membership.isMember
  let kept := kept.mergeSort ranked
  let kept := kept.take validatorCount
  let kept := Roster.sortByKey Resolved.addr kept
  kept.map Resolved.sig

/-- `member_signatures`. -/
def memberSignatures (isValidator memo : Address → Option Bool) (validatorCount : ℕ)
    (submissionId : Text) (kind : SigKind) (sigs : List SignerSig) : List SignerSig :=
  match P.b256 submissionId with
  | none => []
  | some id =>
    let authentic := authenticateSignatures keccak256 P R id kind sigs
    let resolved := resolve isValidator memo authentic
    let members := (resolved.filter fun r => r.membership.isMember).length
    let resolved := if validatorCount < members then resolved.map (reread isValidator) else resolved
    filterMembers resolved validatorCount

/-- `bytes_of`. -/
def bytesOf (hexStr : Text) : Option Bytes :=
  let s := stripHexPrefix hexStr
  if s = [] then some [] else P.hexDecode s

/-- A signature in the encoding of the gate, or as it is stored if it has none. -/
def encoded (s : SignerSig) : Option Bytes :=
  match canonicalSignature P R s with
  | .ok canonical => bytesOf P canonical.signature
  | .error _ => bytesOf P s.signature

/-- `sorted_signatures`. -/
def sortedSignatures (sigs : List SignerSig) : Option (List Bytes) :=
  let sigs := Roster.sortByKey (fun s => (P.address s.signer).getD 0) sigs
  sigs.mapM (encoded P R)

end Pipeline

/-! ### What is relied on -/

/-- **What the keeper relies on of its library**, over what the gate recovers: a signature that
recovers has a canonical form, with the same signer, and of canonical forms the gate recovers
the same signers. -/
structure Recovers (keccak256 : Bytes → Bytes32) (recover : Bytes32 → Bytes → Option Address)
    (R : Recovery) : Prop where
  canonical : ∀ {m raw a}, R.recover m raw = some a →
    ∃ c, R.canonical raw = some c ∧ BridgeSolana.Canonical c ∧ R.recover m c = some a
  contract : ∀ {m c}, BridgeSolana.Canonical c →
    recover (toEthSignedMessageHash keccak256 m) c = R.recover m c

variable {keccak256 : Bytes → Bytes32} {P : Parsers} {R : Recovery}

/-- **A row is genuine for an address**: it recovers to it, and names it. -/
def Genuine (keccak256 : Bytes → Bytes32) (P : Parsers) (R : Recovery) (id : Bytes32)
    (kind : SigKind) (sigs : List SignerSig) (a : Address) : Prop :=
  ∃ s ∈ sigs, verifyAttestation keccak256 P R id kind s = .ok a

/-! ### Authentication -/

/-- **One row for each address that a row is genuine for.** -/
theorem authenticate_spec {id : Bytes32} {kind : SigKind} (seen : List Address)
    (sigs : List SignerSig) :
    ((authenticate keccak256 P R id kind seen sigs).map Prod.fst).Nodup ∧
      (∀ a, a ∈ (authenticate keccak256 P R id kind seen sigs).map Prod.fst ↔
        a ∉ seen ∧ Genuine keccak256 P R id kind sigs a) ∧
      ∀ p ∈ authenticate keccak256 P R id kind seen sigs, ∃ s ∈ sigs,
        verifyAttestation keccak256 P R id kind s = .ok p.1 ∧
          p.2 = { signer := hexText (addressBytes p.1), signature := s.signature } := by
  induction sigs generalizing seen with
  | nil => simp [authenticate, Genuine]
  | cons s sigs ih =>
    rcases hs : verifyAttestation keccak256 P R id kind s with e | recovered
    · obtain ⟨hnodup, hmem, hsig⟩ := ih seen
      rw [authenticate, hs]
      refine ⟨hnodup, fun a => ?_, fun p hp => ?_⟩
      · rw [hmem a]
        simp [Genuine, hs]
      · obtain ⟨s', hs', h⟩ := hsig p hp
        exact ⟨s', List.mem_cons_of_mem _ hs', h⟩
    · rw [authenticate, hs]
      dsimp only
      by_cases hseen : recovered ∈ seen
      · obtain ⟨hnodup, hmem, hsig⟩ := ih seen
        rw [if_pos (List.contains_iff_mem.mpr hseen)]
        refine ⟨hnodup, fun a => ?_, fun p hp => ?_⟩
        · rw [hmem a, Genuine, Genuine]
          constructor
          · rintro ⟨ha, s', hs', h⟩
            exact ⟨ha, s', List.mem_cons_of_mem _ hs', h⟩
          · rintro ⟨ha, s', hs', h⟩
            rcases List.mem_cons.mp hs' with rfl | hs'
            · obtain rfl := Except.ok.inj (hs.symm.trans h)
              exact absurd hseen ha
            · exact ⟨ha, s', hs', h⟩
        · obtain ⟨s', hs', h⟩ := hsig p hp
          exact ⟨s', List.mem_cons_of_mem _ hs', h⟩
      · obtain ⟨hnodup, hmem, hsig⟩ := ih (recovered :: seen)
        rw [if_neg (mt List.contains_iff_mem.mp hseen)]
        refine ⟨?_, fun a => ?_, fun p hp => ?_⟩
        · rw [List.map_cons, List.nodup_cons]
          exact ⟨fun h => ((hmem recovered).mp h).1 List.mem_cons_self, hnodup⟩
        · rw [List.map_cons, List.mem_cons, hmem a, Genuine, Genuine]
          constructor
          · rintro (rfl | ⟨ha, s', hs', h⟩)
            · exact ⟨hseen, s, List.mem_cons_self, hs⟩
            · exact ⟨fun h => ha (List.mem_cons_of_mem _ h), s', List.mem_cons_of_mem _ hs', h⟩
          · rintro ⟨ha, s', hs', h⟩
            by_cases hrec : a = recovered
            · exact .inl hrec
            · rcases List.mem_cons.mp hs' with rfl | hs'
              · exact absurd (Except.ok.inj (h.symm.trans hs)) hrec
              · exact .inr ⟨by simp [hrec, ha], s', hs', h⟩
        · rcases List.mem_cons.mp hp with rfl | hp
          · exact ⟨s, List.mem_cons_self, hs, rfl⟩
          · obtain ⟨s', hs', h⟩ := hsig p hp
            exact ⟨s', List.mem_cons_of_mem _ hs', h⟩

/-! ### Membership -/

/-- The answers about membership are right: those of the gate, and those remembered. -/
structure Right (isMember : Address → Bool) (isValidator memo : Address → Option Bool) : Prop where
  read : ∀ a, isValidator a = some (isMember a)
  memo : ∀ a m, memo a = some m → m = isMember a

/-- **Right answers drop nobody**, and are what is known of the signers. -/
theorem resolve_right {isMember : Address → Bool} {isValidator memo : Address → Option Bool}
    (h : Right isMember isValidator memo) (authentic : List (Address × SignerSig)) :
    (resolve isValidator memo authentic).map (fun r => (r.addr, r.sig)) = authentic ∧
      ∀ r ∈ resolve isValidator memo authentic, r.membership.isMember = isMember r.addr := by
  induction authentic generalizing memo with
  | nil => simp [resolve]
  | cons a authentic ih =>
    rcases hm : memo a.1 with _ | m
    · -- The gate is asked, and its answer remembered.
      have hmemo : Right isMember isValidator (Function.update memo a.1 (some (isMember a.1))) := by
        refine ⟨h.read, fun b m hb => ?_⟩
        rcases eq_or_ne b a.1 with rfl | hne
        · rw [Function.update_self] at hb
          exact (Option.some.inj hb).symm
        · rw [Function.update_of_ne hne] at hb
          exact h.memo b m hb
      obtain ⟨hmap, hall⟩ := ih hmemo
      simp only [resolve, hm, h.read a.1]
      refine ⟨by rw [List.map_cons, hmap], fun r hr => ?_⟩
      rcases List.mem_cons.mp hr with rfl | hr
      · rfl
      · exact hall r hr
    · obtain ⟨hmap, hall⟩ := ih h
      simp only [resolve, hm]
      refine ⟨by rw [List.map_cons, hmap], fun r hr => ?_⟩
      rcases List.mem_cons.mp hr with rfl | hr
      · exact h.memo a.1 m hm
      · exact hall r hr

/-- **What is kept**, where no more are members than there is room for: all members, in
ascending order. -/
theorem filterMembers_eq {resolved : List Resolved} {n : ℕ}
    (hnodup : (resolved.map Resolved.addr).Nodup)
    (hroom : (resolved.filter fun r => r.membership.isMember).length ≤ n) :
    ∃ kept : List Resolved, (∀ r, r ∈ kept ↔ r ∈ resolved ∧ r.membership.isMember = true) ∧
      (kept.map Resolved.addr).Pairwise (· < ·) ∧
      filterMembers resolved n = kept.map Resolved.sig := by
  have hsort := List.mergeSort_perm (resolved.filter fun r => r.membership.isMember) ranked
  have htake : ((resolved.filter fun r => r.membership.isMember).mergeSort ranked).take n =
      (resolved.filter fun r => r.membership.isMember).mergeSort ranked :=
    List.take_of_length_le (by rw [hsort.length_eq]; exact hroom)
  have hperm := (Roster.perm_sortByKey Resolved.addr
    ((resolved.filter fun r => r.membership.isMember).mergeSort ranked)).trans hsort
  refine ⟨Roster.sortByKey Resolved.addr
    ((resolved.filter fun r => r.membership.isMember).mergeSort ranked), ?_, ?_, ?_⟩
  · intro r
    rw [hperm.mem_iff, List.mem_filter]
  · refine Roster.ascending_sortByKey ((hsort.map Resolved.addr).nodup_iff.mpr ?_)
    exact hnodup.sublist (List.filter_sublist.map Resolved.addr)
  · rw [filterMembers, htake]

/-! ### Encoding -/

/-- A text that was written is read back. -/
theorem bytesOf_hexText (hP : P.Lawful) (bs : Bytes) : bytesOf P (hexText bs) = some bs := by
  rw [bytesOf, stripHexPrefix_hexText]
  by_cases hnil : Hex.encode bs = []
  · have hlen := Hex.length_encode bs
    rw [hnil, List.length_nil] at hlen
    obtain rfl : bs = [] := List.length_eq_zero_iff.mp (by omega)
    rw [if_pos hnil]
  · rw [if_neg hnil]
    exact hP.hexDecode_iff.mpr (lower_hexEncode bs)

/-- An address that was written is read back. -/
theorem address_hexText (hP : P.Lawful) (a : Address) :
    P.address (hexText (addressBytes a)) = some a :=
  hP.address_iff.mpr (by rw [stripHexPrefix_hexText, lower_hexEncode])

/-- **A genuine row is encoded for the gate**, which recovers its signer. -/
theorem encoded_of_genuine {recover : Bytes32 → Bytes → Option Address}
    (hR : Recovers keccak256 recover R) (hP : P.Lawful) {id : Bytes32} {kind : SigKind}
    {s : SignerSig} {a : Address} (h : verifyAttestation keccak256 P R id kind s = .ok a)
    {signer : Text} : ∃ c, encoded P R { signer, signature := s.signature } = some c ∧
      recover (toEthSignedMessageHash keccak256 (kind.digest keccak256 id)) c = some a := by
  simp only [verifyAttestation, verifySignature, bind_eq_ok, exists_unit, orRevert_eq_ok,
    revertIf_eq_ok, pure_eq_ok, not_not] at h
  obtain ⟨claimed, -, raw, hraw, recovered, hrec, -, rfl⟩ := h
  obtain ⟨c, hc, hcanonical, hsame⟩ := hR.canonical hrec
  refine ⟨c, ?_, (hR.contract hcanonical).trans hsame⟩
  have hcs : canonicalSignature P R { signer, signature := s.signature } =
      .ok { signer, signature := hexText c } := by
    simp only [canonicalSignature, bind_eq_ok, orRevert_eq_ok, pure_eq_ok]
    exact ⟨raw, hraw, c, hc, rfl⟩
  rw [encoded, hcs]
  exact bytesOf_hexText hP c

/-- What can be done to each can be done to all, one for one. -/
theorem mapM_of_forall {α β γ : Type} {f : α → Option β} {Q : β → γ → Prop} {name : α → γ}
    {l : List α} (h : ∀ a ∈ l, ∃ b, f a = some b ∧ Q b (name a)) :
    ∃ bs, l.mapM f = some bs ∧ List.Forall₂ Q bs (l.map name) := by
  induction l with
  | nil => exact ⟨[], rfl, .nil⟩
  | cons a l ih =>
    obtain ⟨b, hb, hq⟩ := h a List.mem_cons_self
    obtain ⟨bs, hbs, hqs⟩ := ih fun x hx => h x (List.mem_cons_of_mem _ hx)
    refine ⟨b :: bs, ?_, .cons hq hqs⟩
    simp [List.mapM_cons, hb, hbs]

variable {σ : Type}

/-- **The array that the keeper builds**, of any rows: it names, in ascending order, the
validators that a row is genuine for, and nobody else. -/
theorem names_sortedSignatures {E : Chain σ} (hR : Recovers E.keccak256 E.recover R)
    (hP : P.Lawful) {g : Gate} {members : List Address} (hm : Gate.Members g members)
    {isValidator memo : Address → Option Bool} (hright : Right g.isValidator isValidator memo)
    {submissionId : Text} {id : Bytes32} (hid : P.b256 submissionId = some id) (kind : SigKind)
    (sigs : List SignerSig) : ∃ out signers,
      sortedSignatures P R (memberSignatures E.keccak256 P R isValidator memo
        g.validatorCount.toNat submissionId kind sigs) = some out ∧
      Tally.Names (Gate.signerOf E (kind.digest E.keccak256 id)) out signers ∧
      signers.Pairwise (· < ·) ∧
      ∀ a, a ∈ signers ↔ a ∈ members ∧ Genuine E.keccak256 P R id kind sigs a := by
  obtain ⟨hnodup, hmem, hsig⟩ :=
    @authenticate_spec E.keccak256 P R id kind [] sigs
  obtain ⟨hmap, hall⟩ := resolve_right hright (authenticateSignatures E.keccak256 P R id kind sigs)
  generalize hres : resolve isValidator memo (authenticateSignatures E.keccak256 P R id kind sigs) =
    resolved at hmap hall
  have haddr : resolved.map Resolved.addr =
      (authenticateSignatures E.keccak256 P R id kind sigs).map Prod.fst := by
    rw [← hmap, List.map_map]
    rfl
  have hnodup' : (resolved.map Resolved.addr).Nodup := haddr ▸ hnodup
  -- No more members than validators, so nobody is asked again or left out.
  have hroom : (resolved.filter fun r => r.membership.isMember).length ≤
      g.validatorCount.toNat := by
    rw [hm.count, ← List.length_map Resolved.addr]
    refine (List.Nodup.subperm (hnodup'.sublist (List.filter_sublist.map _)) ?_).length_le
    intro a ha
    obtain ⟨r, hr, rfl⟩ := List.mem_map.mp ha
    obtain ⟨hr, hmember⟩ := List.mem_filter.mp hr
    exact (hm.mem_iff r.addr).mpr ((hall r hr).symm.trans hmember)
  obtain ⟨kept, hkept, hascending, hfilter⟩ := filterMembers_eq hnodup' hroom
  have hmembers : memberSignatures E.keccak256 P R isValidator memo g.validatorCount.toNat
      submissionId kind sigs = kept.map Resolved.sig := by
    simp only [memberSignatures, hid, hres, if_neg (not_lt.mpr hroom), hfilter]
  -- Each that is kept comes from a genuine row, and names its signer.
  have hrow : ∀ r ∈ kept, ∃ s ∈ sigs, verifyAttestation E.keccak256 P R id kind s = .ok r.addr ∧
      r.sig = { signer := hexText (addressBytes r.addr), signature := s.signature } := by
    intro r hr
    have hmem' : (r.addr, r.sig) ∈ authenticateSignatures E.keccak256 P R id kind sigs := by
      rw [← hmap]
      exact List.mem_map_of_mem (f := fun r => (r.addr, r.sig)) ((hkept r).mp hr).1
    exact hsig _ hmem'
  have hkeys : (kept.map Resolved.sig).map (fun s => (P.address s.signer).getD 0) =
      kept.map Resolved.addr := by
    rw [List.map_map]
    refine List.map_congr_left fun r hr => ?_
    obtain ⟨s, -, -, hs⟩ := hrow r hr
    rw [Function.comp_apply, hs, address_hexText hP, Option.getD_some]
  have hordered : Roster.sortByKey (fun s : SignerSig => (P.address s.signer).getD 0)
      (kept.map Resolved.sig) = kept.map Resolved.sig :=
    Roster.sortByKey_of_ascending (by rw [hkeys]; exact hascending)
  have hencoded : ∀ r ∈ kept, ∃ c, (encoded P R ∘ Resolved.sig) r = some c ∧
      Gate.signerOf E (kind.digest E.keccak256 id) c = .ok r.addr := by
    intro r hr
    obtain ⟨s, -, hs, hsig'⟩ := hrow r hr
    obtain ⟨c, hc, hrec⟩ := encoded_of_genuine hR hP hs
    exact ⟨c, by rw [Function.comp_apply, hsig', hc], orRevert_eq_ok.mpr hrec⟩
  have hall' : ∃ out, kept.mapM (encoded P R ∘ Resolved.sig) = some out ∧
      List.Forall₂ (fun c a => Gate.signerOf E (kind.digest E.keccak256 id) c = .ok a) out
        (kept.map Resolved.addr) := mapM_of_forall hencoded
  obtain ⟨out, hout, hnames⟩ := hall'
  refine ⟨out, kept.map Resolved.addr, ?_, hnames, hascending, fun a => ?_⟩
  · rw [hmembers, sortedSignatures, hordered, List.mapM_map]
    exact hout
  · rw [List.mem_map]
    constructor
    · rintro ⟨r, hr, rfl⟩
      obtain ⟨s, hs, hok, -⟩ := hrow r hr
      obtain ⟨hr, hmember⟩ := (hkept r).mp hr
      exact ⟨(hm.mem_iff r.addr).mpr ((hall r hr).symm.trans hmember), s, hs, hok⟩
    · rintro ⟨ha, hgenuine⟩
      have hin : a ∈ resolved.map Resolved.addr := by
        rw [haddr]
        exact (hmem a).mpr ⟨List.not_mem_nil, hgenuine⟩
      obtain ⟨r, hr, rfl⟩ := List.mem_map.mp hin
      exact ⟨r, (hkept r).mpr ⟨hr, (hall r hr).trans ((hm.mem_iff r.addr).mp ha)⟩, rfl⟩

end Keeper

end SelendraBridge
