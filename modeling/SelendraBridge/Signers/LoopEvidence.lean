import SelendraBridge.Signers.Evidence

/-!
# A validator signs on evidence

What each function of the loop ends with, from the single reads up to a candidate. The majorities
come first: of a chain's endpoints fewer lie than have to agree, so an honest one is among those that
agree, and a head or an aged block is at most that of an honest one.

At the end, whatever the queue held and however the chains went on between two reads, a validator
that signs has the evidence for it (`SelendraBridge.Signers.RefundLoop.ends_consider`).
-/

namespace SelendraBridge

namespace Signers

open Store
open Provider (majority majorityFloor)

variable {ι ε : Type} {N : Network ι ε} {p q : Past ι} {timeout : ℤ} {x : Bytes} {id : Bytes32}
  {i j : ι} {e : ε}

/-! ### Of those who agree, one is honest -/

/-- **A reader that can be relied on** for a chain: it asks the chain's endpoints about the chain's
gate, waits for enough blocks, and fewer of its endpoints lie than have to agree. -/
structure GateReader.Sound (N : Network ι ε) (r : GateReader ε) (i : ι) : Prop where
  chainId : N.chainId i = r.chainId
  gate : gateOf (N.deployment i) = some r.gate
  chain : ∀ e ∈ r.endpoints, N.chainOf e = i
  depth : N.depth i ≤ r.blockConfirmation
  minAgree : ∃ configured require, r.minAgree = Signers.minAgree configured require
  liars : ∀ l : List ε, l.Sublist r.endpoints → (∀ e ∈ l, ¬N.Honest e) → l.length < r.minAgree

/-- What at least as many say as have to agree, an honest endpoint says. -/
theorem GateReader.Sound.exists_honest {r : GateReader ε} (hr : r.Sound N i) {T : Type}
    {answers : List (ε × T)} (hsub : (answers.map Prod.fst).Sublist r.endpoints)
    {claims : ε × T → Bool} (h : r.minAgree ≤ answers.countP claims) :
    ∃ a ∈ answers, N.Honest a.1 ∧ claims a = true := by
  by_contra hnone
  push Not at hnone
  have hlt := hr.liars ((answers.filter claims).map Prod.fst)
    ((List.filter_sublist.map Prod.fst).trans hsub) ?_
  · rw [List.length_map, ← List.countP_eq_length_filter] at hlt
    omega
  · intro e he hhonest
    obtain ⟨a, ha, rfl⟩ := List.mem_map.mp he
    obtain ⟨hmem, hclaims⟩ := List.mem_filter.mp ha
    exact hnone a hmem hhonest hclaims

/-- As many have to agree as a majority takes. -/
theorem le_countP_of_majority {T : Type} [DecidableEq T] {debug : List (String × T) → String}
    {answers : List (String × T)} {k : ℕ} {v : T} (h : majority debug answers k = .ok v) :
    k ≤ answers.countP fun a => decide (a.2 = v) := by
  rw [majority] at h
  split at h
  · cases h
  split at h
  · rename_i candidate hfind
    obtain rfl := Except.ok.inj h
    have hbackers := List.find?_some hfind
    rw [Bool.and_eq_true, decide_eq_true_iff, decide_eq_true_iff] at hbackers
    exact hbackers.1
  · cases h

/-- More than half of the values are at or above the floor. -/
theorem lt_countP_of_majorityFloor {T : Type} [LinearOrder T] {values : List T} {v : T}
    (h : majorityFloor values = some v) :
    values.length / 2 < values.countP fun a => decide (v ≤ a) := by
  rw [majorityFloor] at h
  split at h
  · cases h
  · have hsorted := List.pairwise_insertionSort (· ≥ ·) values
    have hperm := List.perm_insertionSort (· ≥ ·) values
    have hlt := Votes.lt_countP_ge hsorted h
    rwa [hperm.countP_eq] at hlt

/-- One or two have to agree, and so enough are at or above a floor. -/
theorem GateReader.Sound.le_countP_of_floor {r : GateReader ε} (hr : r.Sound N i) {T : Type}
    [LinearOrder T] {values : List T} {v : T} (hlen : r.minAgree ≤ values.length)
    (h : majorityFloor values = some v) :
    r.minAgree ≤ values.countP fun a => decide (v ≤ a) := by
  have hlt := lt_countP_of_majorityFloor h
  obtain ⟨configured, require, hmin⟩ := hr.minAgree
  have hle : r.minAgree ≤ 2 := by
    rw [hmin, Signers.minAgree]
    split <;> omega
  have hpos : 0 < r.minAgree := by
    rw [hmin, Signers.minAgree]
    split <;> omega
  omega

/-- Nothing is asked of a program when nothing is concluded from it. -/
theorem ends_trivial {α : Type} (program : Reading ε α) :
    program.Ends (Answers N) (fun _ _ => True) p := by
  induction program generalizing p with
  | done a => exact fun _ _ => trivial
  | fail => trivial
  | ask question next ih => exact fun _ _ reply _ => ih reply

/-- **What all endpoints of a reader are asked**: the honest among those who answered say what is
true. -/
theorem GateReader.Sound.ends_askAll {r : GateReader ε} (hr : r.Sound N i) {T : Type}
    {read : ε → Reading ε T} (good : Past ι → T → Prop)
    (hstable : ∀ p q a, p ≤ q → good p a → good q a)
    (h : ∀ e, N.Honest e → N.chainOf e = i → ∀ q, p ≤ q →
      (read e).Ends (Answers N) good q) :
    (Ask.askAll read r.endpoints).Ends (Answers N) (fun p answers =>
      (answers.map Prod.fst).Sublist r.endpoints ∧
        ∀ a ∈ answers, N.Honest a.1 → good p a.2) p := by
  refine Ask.ends_askAll (fun p e a => N.Honest e → good p a)
    (fun p q e a hpq hgood he => hstable p q a hpq (hgood he)) fun e he q hq => ?_
  by_cases hhonest : N.Honest e
  · exact (h e hhonest (hr.chain e he) q hq).mono fun _ _ _ hgood _ => hgood
  · exact (ends_trivial (read e)).mono fun _ _ _ _ he => absurd he hhonest

/-- **What a reader agrees on is true.** -/
theorem GateReader.Sound.ends_agreed {r : GateReader ε} (hr : r.Sound N i) {url : ε → String}
    {T : Type} [DecidableEq T] {debug : List (String × T) → String} {read : ε → Reading ε T}
    {good : Past ι → T → Prop} (hstable : ∀ p q a, p ≤ q → good p a → good q a)
    (h : ∀ e, N.Honest e → N.chainOf e = i → ∀ q, p ≤ q → (read e).Ends (Answers N) good q) :
    (r.agreed url debug read).Ends (Answers N) good p := by
  refine Ask.ends_bind ((hr.ends_askAll good hstable h).mono ?_)
  rintro q - answers ⟨hsub, hgood⟩
  refine Ask.ends_orFail fun v hv q' hq' => ?_
  rcases hm : majority debug (answers.map fun x => (url x.1, x.2)) r.minAgree with err | v'
  · rw [hm] at hv
    cases hv
  · rw [hm] at hv
    obtain rfl := Option.some.inj hv
    have hcount := le_countP_of_majority hm
    rw [List.countP_map] at hcount
    obtain ⟨a, ha, hhonest, hclaims⟩ := hr.exists_honest hsub hcount
    obtain rfl : a.2 = v' := of_decide_eq_true hclaims
    exact hstable q q' _ hq' (hgood a ha hhonest)

/-- **The confirmed block is confirmed.** -/
theorem GateReader.Sound.ends_confirmedBlock {r : GateReader ε} (hr : r.Sound N i) :
    r.confirmedBlock.Ends (Answers N) (fun p n => n < (p.moments i).length) p := by
  refine Ask.ends_bind ((hr.ends_askAll (fun p n => p.moments i ≠ [] ∧
    n < (p.moments i).length + N.depth i) ?_ fun e he hc q _ => ends_getBlockNumber he hc).mono ?_)
  · rintro p q n hpq ⟨hne, hlt⟩
    refine ⟨fun hnil => hne (List.prefix_nil.mp (hnil ▸ hpq i)), hlt.trans_le ?_⟩
    exact Nat.add_le_add_right (length_le hpq i) _
  · rintro q - heads ⟨hsub, hgood⟩
    refine Ask.ends_bind (Ask.ends_ensure fun hlen q₁ hq₁ => ?_)
    refine Ask.ends_bind (Ask.ends_orFail fun latest hlatest q₂ hq₂ => ?_)
    refine Ask.ends_pure fun q₃ hq₃ => ?_
    have hcount := hr.le_countP_of_floor (by rwa [List.length_map]) hlatest
    rw [List.countP_map] at hcount
    obtain ⟨a, ha, hhonest, hclaims⟩ := hr.exists_honest hsub hcount
    have hle : latest ≤ a.2 := of_decide_eq_true hclaims
    obtain ⟨hne, hlt⟩ := hgood a ha hhonest
    have hpos := List.length_pos_iff.mpr hne
    have hdepth := hr.depth
    have hlater := length_le ((hq₁.trans hq₂).trans hq₃) i
    omega

/-! ### What the gate says, at a confirmed block -/

theorem GateReader.Sound.gate_isSome {r : GateReader ε} (hr : r.Sound N i) :
    ∃ gate, gateOf (N.deployment i) = some gate := ⟨r.gate, hr.gate⟩

/-- What the blocks of a chain with a contract say of an id. -/
theorem burned_of_tells (hgate : ∃ gate, gateOf (N.deployment j) = some gate) {block : ℕ}
    (h : Tells p j block fun g => g.cancelled id = true) :
    ∃ m ∈ p.moments j, Burned (N.deployment j) m id := by
  obtain ⟨m, g, hm, hscene, hc⟩ := h
  obtain ⟨gate, hgate⟩ := hgate
  refine ⟨m, BlockAt.mem hm, ?_⟩
  cases hD : N.deployment j with
  | evm E => exact ⟨g, hscene, hc⟩
  | solana R => rw [hD] at hgate; cases hgate

theorem unspent_of_tells (hgate : ∃ gate, gateOf (N.deployment j) = some gate) {block : ℕ}
    (h : Tells p j block fun g => g.executed id = false) :
    ∃ m ∈ p.moments j, Unspent (N.deployment j) m id := by
  obtain ⟨m, g, hm, hscene, hx⟩ := h
  obtain ⟨gate, hgate⟩ := hgate
  refine ⟨m, BlockAt.mem hm, ?_⟩
  cases hD : N.deployment j with
  | evm E => exact ⟨g, hscene, hx⟩
  | solana R => rw [hD] at hgate; cases hgate

/-- **A destination that is read tells what it is.** -/
theorem told_of_tells (hgate : ∃ gate, gateOf (N.deployment j) = some gate) {b c : ℕ}
    {s : DestinationState} (hx : Tells p j b fun g => g.executed id = s.executed)
    (hc : Tells p j c fun g => g.cancelled id = s.cancelled) : Told N p j id s where
  unspent hs := unspent_of_tells hgate (hs ▸ hx)
  burned hs := burned_of_tells hgate (hs ▸ hc)

theorem GateReader.Sound.ends_destinationState {r : GateReader ε} (hr : r.Sound N i)
    {url : ε → String} {debug : List (String × DestinationState) → String} :
    (r.destinationState url debug id).Ends (Answers N) (fun p s => Told N p i id s) p := by
  refine Ask.ends_bind (hr.ends_confirmedBlock.mono fun q _ block hblock => ?_)
  refine hr.ends_agreed (fun _ _ _ hpq h => h.later hpq) fun e he hc q₁ hq₁ => ?_
  have hblock₁ := hblock.trans_le (length_le hq₁ i)
  refine Ask.ends_bind ((ends_callBool he hc hr.gate hblock₁ .executed).mono fun q₂ hq₂ b hb => ?_)
  have hblock₂ := hblock₁.trans_le (length_le hq₂ i)
  refine Ask.ends_bind ((ends_callBool he hc hr.gate hblock₂ .cancelled).mono
    fun q₃ hq₃ b' hb' => Ask.ends_pure fun q₄ hq₄ => told_of_tells hr.gate_isSome
      (b := block) (c := block) ?_ ?_)
  · obtain ⟨m, g, hm, hscene, hreply⟩ := hb.later (hq₃.trans hq₄)
    exact ⟨m, g, hm, hscene, Reply.bool.inj hreply⟩
  · obtain ⟨m, g, hm, hscene, hreply⟩ := hb'.later hq₄
    exact ⟨m, g, hm, hscene, Reply.bool.inj hreply⟩

/-- **A block that is old enough**, or an older one. -/
def Aged (p : Past ι) (i : ι) (timeout : ℤ) (block : ℕ) : Prop :=
  ∃ b m, block ≤ b ∧ BlockAt p i b m ∧ ∃ now ∈ p.moments i, m.time + timeout ≤ now.time

theorem Aged.later {block : ℕ} (h : Aged p i timeout block) (hpq : p ≤ q) :
    Aged q i timeout block := by
  obtain ⟨b, m, hle, hm, now, hnow, htime⟩ := h
  exact ⟨b, m, hle, hm.later hpq, now, Past.mem_moments hpq hnow, htime⟩

/-- The steps back end at a block at or before the target. -/
theorem ends_agedBlockFrom (he : N.Honest e) (hc : N.chainOf e = i) {headNum : ℕ} {target : ℤ}
    {now : Moment} (htarget : ∀ t : ℤ, 0 ≤ t → t ≤ target → t + timeout ≤ now.time)
    (rounds step : ℕ) (hhead : headNum < (p.moments i).length) (hnow : now ∈ p.moments i) :
    (agedBlockFrom e headNum target rounds step).Ends (Answers N)
      (fun p b => ∀ block, b = some block → Aged p i timeout block) p := by
  induction rounds generalizing step p with
  | zero => exact Ask.ends_pure fun _ _ _ h => absurd h (by simp)
  | succ rounds ih =>
    rw [agedBlockFrom]
    split
    · exact Ask.ends_pure fun _ _ _ h => absurd h (by simp)
    · have hcandidate : headNum - step < (p.moments i).length := by omega
      refine Ask.ends_bind ((ends_blockTimestamp he hc hcandidate).mono ?_)
      rintro q hq t ⟨hlt, m, hm, htime⟩
      have hint : t.toInt = t.toNat := BitVec.toInt_eq_toNat_of_lt (by omega)
      split
      · next hold =>
        refine Ask.ends_pure fun q' hq' block hblock => ?_
        obtain rfl := Option.some.inj hblock
        refine ⟨_, m, le_rfl, hm.later hq', now, Past.mem_moments (hq.trans hq') hnow, ?_⟩
        rw [htime]
        exact htarget _ (Int.natCast_nonneg _) (hint ▸ hold)
      · exact ih _ (hhead.trans_le (length_le hq i)) (Past.mem_moments hq hnow)

/-- **An honest endpoint finds a block that is old enough.** -/
theorem ends_agedBlockOn (he : N.Honest e) (hc : N.chainOf e = i) {headNum : ℕ}
    {timeoutSecs : BitVec 64} (hhead : headNum < (p.moments i).length) :
    (agedBlockOn e headNum timeoutSecs).Ends (Answers N)
      (fun p b => ∀ block, b = some block → Aged p i timeoutSecs.toInt block) p := by
  refine Ask.ends_bind ((ends_blockTimestamp he hc hhead).mono ?_)
  rintro q hq t ⟨hlt, now, hnow, htime⟩
  have hint : t.toInt = t.toNat := BitVec.toInt_eq_toNat_of_lt (by omega)
  refine ends_agedBlockFrom he hc ?_ _ _ (hhead.trans_le (length_le hq i)) hnow.mem
  intro s hs hle
  have hmax := timeoutSecs.toInt_lt
  rw [saturatingSub, i64Min, i64Max] at hle
  omega

theorem vouched_le {block : ℕ} {found : Option ℕ} (h : (block : WithBot ℕ) ≤ vouched found) :
    ∃ b, found = some b ∧ block ≤ b := by
  cases found with
  | none => exact absurd h (by simp [vouched])
  | some b => exact ⟨b, rfl, WithBot.coe_le_coe.mp h⟩

theorem GateReader.Sound.ends_agedBlock {r : GateReader ε} (hr : r.Sound N i)
    {timeoutSecs : BitVec 64} :
    (r.agedBlock timeoutSecs).Ends (Answers N)
      (fun p b => ∀ block, b = some block → Aged p i timeoutSecs.toInt block) p := by
  refine Ask.ends_bind (hr.ends_confirmedBlock.mono fun q _ headNum hhead => ?_)
  refine Ask.ends_bind ((hr.ends_askAll (fun p b => ∀ block, b = some block →
    Aged p i timeoutSecs.toInt block) ?_ fun e he hc q₁ hq₁ =>
      ends_agedBlockOn he hc (hhead.trans_le (length_le hq₁ i))).mono ?_)
  · exact fun p q b hpq h block hb => (h block hb).later hpq
  · rintro q₁ - found ⟨hsub, hgood⟩
    refine Ask.ends_bind (Ask.ends_ensure fun hlen q₂ hq₂ => Ask.ends_pure fun q₃ hq₃ => ?_)
    intro block hblock
    obtain ⟨v, hv, hunbot⟩ := Option.bind_eq_some_iff.mp hblock
    have hcount := hr.le_countP_of_floor (by simpa using hlen) hv
    rw [List.countP_map, List.countP_map] at hcount
    obtain ⟨a, ha, hhonest, hclaims⟩ := hr.exists_honest hsub hcount
    obtain rfl : v = (block : WithBot ℕ) := by
      induction v using WithBot.recBotCoe with
      | bot => cases hunbot
      | coe b => exact congrArg _ (Option.some.inj hunbot)
    obtain ⟨b, hb, hle⟩ := vouched_le (of_decide_eq_true hclaims)
    obtain ⟨b', m, hle', hm⟩ := (hgood a ha hhonest b hb).later (hq₂.trans hq₃)
    exact ⟨b', m, hle.trans hle', hm⟩

/-! ### A validator -/

/-- Was it locked by then? -/
theorem GateReader.Sound.ends_wasSentByBlock {r : GateReader ε} (hr : r.Sound N i)
    {url : ε → String} {debug : List (String × Bool) → String} {block : ℕ}
    (hblock : block < (p.moments i).length) :
    (r.wasSentByBlock url debug id block).Ends (Answers N)
      (fun p sent => sent = true → Tells p i block fun g => g.sentBy id ≠ 0) p := by
  refine hr.ends_agreed (fun _ _ _ hpq h hsent => (h hsent).later hpq) fun e he hc q hq => ?_
  refine Ask.ends_bind ((ends_callAddress he hc hr.gate (hblock.trans_le (length_le hq i))
    .sentBy).mono fun q₁ _ a ha => Ask.ends_pure fun q₂ hq₂ hsent => ?_)
  obtain ⟨m, g, hm, hscene, hreply⟩ := ha.later hq₂
  refine ⟨m, g, hm, hscene, ?_⟩
  rintro hzero
  rw [Getter.reply, hzero] at hreply
  exact of_decide_eq_true hsent (Reply.address.inj hreply).symm

/-- **Locked at a block that is old enough is locked for the timeout.** -/
theorem agedOut_of_tells (hgate : ∃ gate, gateOf (N.deployment i) = some gate) {block : ℕ}
    (haged : Aged p i timeout block) (hsent : Tells p i block fun g => g.sentBy id ≠ 0)
    (hordered : p.Ordered i) : AgedOut N p timeout i id := by
  obtain ⟨b, m', hle, hm', now, hnow, htime⟩ := haged
  obtain ⟨m, g, hm, hscene, hby⟩ := hsent
  have hearlier := hordered.time_le hle hm hm'
  refine ⟨m, BlockAt.mem hm, m.time, ?_, now, hnow, by omega⟩
  obtain ⟨gate, hgate⟩ := hgate
  cases hD : N.deployment i with
  | evm E => exact ⟨g, hscene, hby, rfl⟩
  | solana R => rw [hD] at hgate; cases hgate

/-- A block that is old enough is confirmed. -/
theorem Aged.lt_length {block : ℕ} (h : Aged p i timeout block) :
    block < (p.moments i).length := by
  obtain ⟨b, m, hle, hm, -⟩ := h
  exact hle.trans_lt (List.getElem?_eq_some_iff.mp hm).1

namespace RefundLoop

variable {V : RefundLoop ε} {candidate : SignedRecord}

/-- **An age that is found is an age**, whether or not a reader was there to find it. -/
theorem ends_agedOut {src : GateReader ε} (hsrc : src.Sound N i) :
    (V.agedOut (some src) id false).Ends (Answers N)
      (fun p aged => aged = true → p.Ordered i → AgedOut N p V.timeoutSecs.toInt i id) p := by
  refine Ask.ends_bind (hsrc.ends_agedBlock.mono fun q _ found hfound => ?_)
  rcases found with _ | block
  · exact Ask.ends_pure fun _ _ h => absurd h (by simp)
  · have haged := hfound block rfl
    refine (hsrc.ends_wasSentByBlock haged.lt_length).mono fun q' hq' sent hsent h hordered => ?_
    exact agedOut_of_tells hsrc.gate_isSome (haged.later hq') (hsent h) hordered

/-- **What is decided is what was read.** -/
theorem of_decision {src : Option SourceState} {dst : DestinationState} {aged c r : Bool} :
    (decision src dst aged c r = .attestRefund → dst.cancelled = true) ∧
      (decision src dst aged c r = .attestCancel →
        dst.cancelled = false ∧ dst.executed = false ∧ aged = true ∧ src ≠ none) := by
  unfold decision
  constructor
  · intro h
    by_contra hc
    simp only [hc] at h
    grind
  · intro h
    grind

/-- **A judgement is worth its evidence.** -/
theorem ends_judge {dst : GateReader ε} {src : Option (GateReader ε)} {c : ℕ}
    (hx : Corridor x c (N.chainId j).toNat) (hdst : dst.Sound N j)
    (hsrc : ∀ s, src = some s → ∃ i, (N.chainId i).toNat = c ∧ s.Sound N i) :
    (V.judge candidate id dst src).Ends (Answers N) (fun p concluded =>
      ∀ kind, concluded.attests = some kind → Evidence N p V.timeoutSecs.toInt x id kind) p := by
  refine Ask.ends_bind (hdst.ends_destinationState.mono fun q hq dstState htold => ?_)
  refine Ask.ends_bind ((ends_trivial _).mono fun q₁ hq₁ srcState _ => ?_)
  split
  · exact Ask.ends_pure fun _ _ kind h => absurd h (by simp)
  split
  · exact Ask.ends_pure fun _ _ kind h => absurd h (by simp)
  refine Ask.ends_bind_of (fun p aged => dstState.cancelled = false → aged = true →
    ∃ i, (N.chainId i).toNat = c ∧ (p.Ordered i → AgedOut N p V.timeoutSecs.toInt i id)) ?_ ?_
  · rcases hcancelled : dstState.cancelled with _ | _
    · cases src with
      | none => exact Ask.ends_pure fun _ _ _ h => absurd h (by simp)
      | some s =>
        obtain ⟨i, hfrom, hs⟩ := hsrc s rfl
        exact (ends_agedOut hs).mono fun _ _ aged haged _ h => ⟨i, hfrom, haged h⟩
    · cases src <;> exact Ask.ends_pure fun _ _ h => absurd h (by simp)
  · intro q₂ hq₂ aged haged
    refine Ask.ends_pure fun q₃ hq₃ kind hkind => ?_
    have hd := @of_decision srcState dstState aged
      (V.attestedBy candidate.cancelSignatures id .cancel)
      (V.attestedBy candidate.refundSignatures id .refund)
    have hpast := htold.later ((hq₁.trans hq₂).trans hq₃)
    split at hkind
    · exact absurd hkind (by simp)
    · next hcase =>
      obtain rfl := Option.some.inj hkind
      obtain ⟨hcancelled, hexecuted, haged', -⟩ := hd.2 hcase
      obtain ⟨i, rfl, hage⟩ := haged hcancelled haged'
      refine ⟨i, j, hx, hpast.unspent hexecuted, ?_⟩
      exact fun hordered => (hage (hordered.of_le hq₃)).later hq₃
    · next hcase =>
      obtain rfl := Option.some.inj hkind
      exact ⟨c, j, hx, hpast.burned (hd.1 hcase)⟩

/-- The string of a record names the corridor of the record. -/
theorem corridor_packRecord {keccak256 : Bytes → Bytes32} {rec : SubmissionRecord}
    {p : ParsedRecord} :
    Corridor (packRecord keccak256 rec p) rec.chainIdFrom.toNat rec.chainIdTo.toNat := by
  have hwide (v : U64) : (v.setWidth 256).toNat = v.toNat :=
    BitVec.toNat_setWidth_of_le (by omega)
  rw [← hwide rec.chainIdFrom, ← hwide rec.chainIdTo, packRecord, BridgeCore.packedSubmission_eq,
    BridgeHash.packedSubmission]
  cases p.auto with
  | none => exact corridor_append _ _ _ _ _ _
  | some auto =>
    simp only [List.append_assoc]
    exact corridor_append _ _ _ _ _ _

/-- The string that a bound candidate's id is the hash of. -/
def boundString (V : RefundLoop ε) (rec : SubmissionRecord) : Option Bytes :=
  (recordPreimage V.keccak256 V.parsers rec).toOption

/-- The string of a record names its corridor. -/
theorem corridor_boundString {rec : SubmissionRecord} (h : V.boundString rec = some x) :
    Corridor x rec.chainIdFrom.toNat rec.chainIdTo.toNat := by
  obtain ⟨p, -, rfl⟩ := recordPreimage_eq_ok.mp (Revert.toOption_eq_some.mp h)
  exact corridor_packRecord

/-- **A bound candidate states the id of its own parameters.** -/
theorem of_boundSubmissionId {rec : SubmissionRecord} (h : V.boundSubmissionId rec = some id) :
    V.parsers.b256 rec.submissionId = some id ∧
      ∃ x, V.boundString rec = some x ∧ V.keccak256 x = id := by
  obtain ⟨claimed, hclaimed, h⟩ := Option.bind_eq_some_iff.mp h
  obtain ⟨computed, hcomputed, h⟩ := Option.bind_eq_some_iff.mp h
  obtain ⟨p, hp, hhash⟩ := canonicalSubmissionId_eq_ok.mp (Revert.toOption_eq_some.mp hcomputed)
  split at h
  · next hsame =>
    obtain rfl := Option.some.inj h
    exact ⟨hclaimed, packRecord V.keccak256 rec p,
      Revert.toOption_eq_some.mpr (recordPreimage_eq_ok.mpr ⟨p, hp, rfl⟩), hhash.trans hsame⟩
  · cases h

/-- The readers of a validator can be relied on. -/
def Reads (N : Network ι ε) (readers : U64 → Reader ε) : Prop :=
  ∀ c r, readers c = .ready r → ∃ i, N.chainId i = c ∧ r.Sound N i

/-- **A validator signs on evidence**, for the id that the candidate's own parameters hash to. -/
theorem ends_consider {sourceReaders destReaders : U64 → Reader ε}
    (hsource : Reads N sourceReaders) (hdest : Reads N destReaders) :
    (V.consider sourceReaders destReaders candidate).Ends (Answers N) (fun p r =>
      V.parsers.b256 candidate.params.submissionId = some r.1 ∧
        ∃ x, V.boundString candidate.params = some x ∧ V.keccak256 x = r.1 ∧
          ∀ kind, r.2.attests = some kind → Evidence N p V.timeoutSecs.toInt x r.1 kind) p := by
  refine Ask.ends_bind (Ask.ends_orFail fun id hid q _ => ?_)
  obtain ⟨hstated, x, hx, hhash⟩ := of_boundSubmissionId hid
  have hcorridor := corridor_boundString hx
  refine Ask.ends_bind (Ask.ends_ensure fun _ q₁ _ => ?_)
  refine Ask.ends_bind_of (fun p concluded =>
    ∀ kind, concluded.attests = some kind → Evidence N p V.timeoutSecs.toInt x id kind) ?_ ?_
  · unfold handleCandidate
    split
    · exact Ask.ends_pure fun _ _ _ h => absurd h (by simp)
    · exact Ask.ends_pure fun _ _ _ h => absurd h (by simp)
    · next dst hready =>
      obtain ⟨j, hj, hdst⟩ := hdest _ _ hready
      rw [← hj] at hcorridor
      rcases hs : sourceReaders candidate.params.chainIdFrom with s | _ | _
      · obtain ⟨i, hi, hsrc⟩ := hsource _ _ hs
        refine ends_judge hcorridor hdst fun s' hs' => ⟨i, by rw [hi], ?_⟩
        obtain rfl := Option.some.inj hs'
        exact hsrc
      · exact Ask.ends_pure fun _ _ _ h => absurd h (by simp)
      · exact ends_judge hcorridor hdst fun s' hs' => absurd hs' (by simp)
  · intro q₂ _ concluded h
    exact Ask.ends_pure fun q₃ hq₃ =>
      ⟨hstated, x, hx, hhash, fun kind hkind => (h kind hkind).later hq₃⟩

end RefundLoop

end Signers

end SelendraBridge
