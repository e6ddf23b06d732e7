import SelendraBridge.Signers.LoopEvidence

/-!
# The relayer signs on evidence

The same for the attester of the Solana relayer, which has one endpoint for each chain: that one has
to be honest. What it decodes by hand is what the getter returned
(`SelendraBridge.Signers.decodeBool_word`), and what it reads of an account is what a slot says.
-/

namespace SelendraBridge

namespace Signers

open Store
open BridgeSolana (domainId CANCEL_PREFIX REFUND_PREFIX)
open Solana (MARKER_CANCELLED executedSeeds sentSeeds)
open SolanaRelayer (hex32)

variable {ι ε : Type} {N : Network ι ε} {p q : Past ι} {timeout : ℤ} {x : Bytes} {id : Bytes32}
  {i j : ι} {e : ε}

/-! ### Words -/

/-- **A word that is decoded as a `bool` is that of the `bool`.** -/
theorem decodeBool_word (b : Bool) : decodeBool (wordBytes (boolWord b)) = some b := by
  cases b <;> decide +kernel

/-- The bytes of an address, widened to a word. -/
theorem wordBytes_addressWord (a : Address) :
    wordBytes (addressWord a) = List.replicate 12 0 ++ addressBytes a := by
  have ha : a.toNat < 256 ^ 20 := a.isLt
  rw [wordBytes, addressWord, BigEndian.ofWord, addressBytes, BigEndian.ofWord,
    BitVec.toNat_setWidth_of_le (by omega), BigEndian.toBytes_add 12 ha]

/-- **A word that is decoded as an address says whether it is zero.** -/
theorem decodeAddressIsSet_word (a : Address) :
    decodeAddressIsSet (wordBytes (addressWord a)) = some (decide (a ≠ 0)) := by
  have hlen : (List.replicate 12 (0 : UInt8)).length = 12 := rfl
  have hfront : (List.replicate 12 (0 : UInt8)).any (· ≠ 0) = false := by decide
  rw [decodeAddressIsSet, if_neg (by rw [length_wordBytes]; decide), wordBytes_addressWord,
    List.take_left' hlen, List.drop_left' hlen, hfront, if_neg Bool.false_ne_true]
  refine congrArg some (Bool.eq_iff_iff.mpr ?_)
  rw [List.any_eq_true, decide_eq_true_iff]
  constructor
  · rintro ⟨b, hb, hne⟩ rfl
    have hzero : addressBytes 0 = List.replicate 20 0 := by decide
    rw [hzero] at hb
    exact of_decide_eq_true hne (List.eq_of_mem_replicate hb)
  · intro hne
    by_contra hall
    refine hne (BigEndian.ofWord_inj (n := 20) ?_)
    have hrep := List.eq_replicate_iff.mpr ⟨BigEndian.length_ofWord (n := 20) a,
      fun b hb => by_contra fun hb' => hall ⟨b, hb, decide_eq_true hb'⟩⟩
    exact hrep.trans (by decide)

/-- What a getter returns is decoded. -/
theorem decodeBool_executed (y : Gate) :
    decodeBool (Getter.executed.word y id) = some (y.executed id) := decodeBool_word _

theorem decodeBool_cancelled (y : Gate) :
    decodeBool (Getter.cancelled.word y id) = some (y.cancelled id) := decodeBool_word _

theorem decodeAddressIsSet_sentBy (y : Gate) :
    decodeAddressIsSet (Getter.sentBy.word y id) = some (decide (y.sentBy id ≠ 0)) :=
  decodeAddressIsSet_word _

/-! ### Reading an EVM gate -/

/-- **A reader that can be relied on.** -/
structure EvmReader.Sound (N : Network ι ε) (r : EvmReader ε) (i : ι) : Prop where
  gate : gateOf (N.deployment i) = some r.gate
  chain : N.chainOf r.rpc = i
  depth : N.depth i ≤ r.blockConfirmation
  honest : N.Honest r.rpc

namespace EvmReader

variable {r : EvmReader ε} (hr : r.Sound N i)
include hr

theorem Sound.ends_confirmedBlock :
    r.confirmedBlock.Ends (Answers N) (fun p n => n < (p.moments i).length) p := by
  refine Ask.ends_bind ((ends_getBlockNumber hr.honest hr.chain).mono ?_)
  rintro q - latest ⟨hne, hlt⟩
  refine Ask.ends_pure fun q' hq' => ?_
  have hpos := List.length_pos_iff.mpr hne
  have hdepth := hr.depth
  have hlater := length_le hq' i
  omega

theorem Sound.ends_readBool {block : ℕ} (hblock : block < (p.moments i).length) (g : Getter) :
    (r.readBool g id block).Ends (Answers N)
      (fun p b => Tells p i block fun y => decodeBool (g.word y id) = some b) p := by
  refine Ask.ends_bind ((ends_ethCall hr.honest hr.chain hr.gate hblock g).mono ?_)
  refine fun q _ ret htells => Ask.ends_orFail fun b hb q' hq' => ?_
  have hne : ret ≠ [] := by
    rintro rfl
    exact absurd hb (by simp [decodeBool])
  obtain ⟨m, y, hm, hscene, hret⟩ := (htells hne).later hq'
  rw [hret] at hb
  exact ⟨m, y, hm, hscene, hb⟩

theorem Sound.ends_wasSentByBlock {block : ℕ} (hblock : block < (p.moments i).length) :
    (r.wasSentByBlock id block).Ends (Answers N)
      (fun p sent => sent = true → Tells p i block fun y => y.sentBy id ≠ 0) p := by
  refine Ask.ends_bind ((ends_ethCall hr.honest hr.chain hr.gate hblock .sentBy).mono ?_)
  refine fun q _ ret htells => Ask.ends_orFail fun b hb q' hq' hsent => ?_
  have hne : ret ≠ [] := by
    rintro rfl
    exact absurd hb (by simp [decodeAddressIsSet])
  obtain ⟨m, y, hm, hscene, hret⟩ := (htells hne).later hq'
  rw [hret, decodeAddressIsSet_sentBy, Option.some.injEq, hsent] at hb
  exact ⟨m, y, hm, hscene, of_decide_eq_true hb⟩

theorem Sound.ends_destinationState :
    (r.destinationState id).Ends (Answers N) (fun p s => Told N p i id s) p := by
  refine Ask.ends_bind (hr.ends_confirmedBlock.mono fun q _ block hblock => ?_)
  refine Ask.ends_bind ((hr.ends_readBool hblock .executed).mono fun q₁ hq₁ executed hx => ?_)
  refine Ask.ends_bind ((hr.ends_readBool (hblock.trans_le (length_le hq₁ i)) .cancelled).mono
    fun q₂ hq₂ cancelled hc => Ask.ends_pure fun q₃ hq₃ => told_of_tells ⟨r.gate, hr.gate⟩
      (b := block) (c := block) ?_ ?_)
  · obtain ⟨m, y, hm, hscene, hdecoded⟩ := hx.later (hq₂.trans hq₃)
    rw [decodeBool_executed] at hdecoded
    exact ⟨m, y, hm, hscene, Option.some.inj hdecoded⟩
  · obtain ⟨m, y, hm, hscene, hdecoded⟩ := hc.later hq₃
    rw [decodeBool_cancelled] at hdecoded
    exact ⟨m, y, hm, hscene, Option.some.inj hdecoded⟩

/-- **An age that is found is an age.** -/
theorem Sound.ends_agedOut {timeoutSecs : BitVec 64} :
    (r.agedOut id timeoutSecs).Ends (Answers N)
      (fun p aged => aged = true → p.Ordered i → AgedOut N p timeoutSecs.toInt i id) p := by
  refine Ask.ends_bind_of (fun p found => ∀ block, found = some block →
    Aged p i timeoutSecs.toInt block) ?_ ?_
  · exact Ask.ends_bind (hr.ends_confirmedBlock.mono fun q _ headNum hhead =>
      ends_agedBlockOn hr.honest hr.chain hhead)
  · intro q _ found hfound
    rcases found with _ | block
    · exact Ask.ends_pure fun _ _ h => absurd h (by simp)
    · have haged := hfound block rfl
      refine (hr.ends_wasSentByBlock haged.lt_length).mono fun q' hq' sent hsent h hordered => ?_
      exact agedOut_of_tells ⟨r.gate, hr.gate⟩ (haged.later hq') (hsent h) hordered

theorem Sound.ends_evmAge {timeoutSecs : BitVec 64} {cancelled : Bool} :
    (Attester.evmAge r id timeoutSecs cancelled).Ends (Answers N)
      (fun p aged => aged = some true → p.Ordered i → AgedOut N p timeoutSecs.toInt i id) p := by
  rw [Attester.evmAge]
  split
  · exact Ask.ends_pure fun _ _ h => absurd h (by simp)
  · refine Ask.ends_bind (hr.ends_agedOut.mono fun q _ aged haged =>
      Ask.ends_pure fun q' hq' h hordered => ?_)
    exact (haged (Option.some.inj h) (hordered.of_le hq')).later hq'

end EvmReader

/-! ### Reading Solana -/

/-- What an honest endpoint shows of an account, a slot has. -/
theorem ends_getAccount {R : Solana.Runtime} (he : N.Honest e) (hchain : N.chainOf e = i)
    (hD : N.deployment i = .solana R) (key : Pubkey) :
    (getAccount e key).Ends (Answers N) (fun p shown => ∃ m ∈ p.moments i, ∃ s,
      m.contents = .slot s ∧ Shows (.solana R) shown (s key)) p := by
  refine Ask.ends_question fun q _ reply hreply shown hread q' hq' => ?_
  have hanswer := says_of_answers he hchain hreply
  cases reply with
  | account shown' =>
    obtain rfl := Option.some.inj hread
    obtain ⟨shown, hshown, m, hm, s, hscene, hshows⟩ := hanswer
    obtain rfl := Reply.account.inj hshown
    exact ⟨m, Past.mem_moments hq' hm, s, hscene, hD ▸ hshows⟩
  | _ => exact absurd hread (by simp)

/-- And what it says of the clock, a slot had. -/
theorem ends_solanaNow (he : N.Honest e) (hchain : N.chainOf e = i) :
    (solanaNow e).Ends (Answers N) (fun p t => ∃ now ∈ p.moments i, now.time = t.toInt) p := by
  refine Ask.ends_question fun q _ reply hreply t hread q' hq' => ?_
  have hanswer := says_of_answers he hchain hreply
  cases reply with
  | clock t' =>
    obtain rfl := Option.some.inj hread
    obtain ⟨t, ht, m, hm, -, htime⟩ := hanswer
    obtain rfl := Reply.clock.inj ht
    exact ⟨m, Past.mem_moments hq' hm, htime⟩
  | _ => exact absurd hread (by simp)

/-- **A record that is neither missing nor retired is a lock**, since the time in it. -/
theorem locked_of_solanaSourceRecord {R : Solana.Runtime} {m : Moment} {s : Solana.Accounts}
    {shown : Option Solana.Account} (hscene : m.contents = .slot s)
    (hshows : Shows (.solana R) shown (s (R.findProgramAddress (sentSeeds id))))
    {rec : SolanaSourceRecord} (hrec : solanaSourceRecord
      (shown.map fun a => (decide (a.owner = R.programId), a.data)) = rec)
    (hsent : rec.state.sent = true) (hlive : rec.state.refunded = false) :
    Locked (.solana R) m id rec.lockedAt.toInt := by
  subst hrec
  cases shown with
  | none => exact absurd hsent (by simp [solanaSourceRecord])
  | some a =>
    obtain ⟨howner, hdata⟩ := hshows
    rw [Option.map_some, solanaSourceRecord] at hsent hlive ⊢
    split at hsent
    · exact absurd hsent (by simp)
    next hprogram =>
    rw [if_neg hprogram] at hlive ⊢
    split at hsent
    · exact absurd hsent (by simp)
    next record hdecoded =>
    rw [hdecoded] at hlive
    dsimp only at hlive
    split at hlive
    · exact absurd hlive (by simp)
    next hamount =>
    rw [if_neg hamount]
    refine ⟨s, hscene, ?_, record, ?_, hamount, rfl⟩
    · rw [← howner]
      exact of_decide_eq_true (Bool.eq_true_of_not_eq_false hprogram)
    · rw [← hdata]
      exact hdecoded

/-- **A time that has passed by the record and the clock has passed.** -/
theorem le_of_solanaAgedOut {lockedAt now timeoutSecs : BitVec 64} (hpos : 0 < timeoutSecs.toInt)
    (h : solanaAgedOut lockedAt now timeoutSecs = true) :
    lockedAt.toInt + timeoutSecs.toInt ≤ now.toInt := by
  rw [solanaAgedOut, Bool.and_eq_true, decide_eq_true_iff, decide_eq_true_iff, saturatingSub,
    i64Min, i64Max] at h
  omega

/-! ### The attester -/

/-- **An attester that can be relied on**: its one endpoint of the cluster is honest and its program
is the one that is deployed there, and so are its readers. -/
structure Attester.Sound (N : Network ι ε) (A : Attester ε) (i : ι) (R : Solana.Runtime) :
    Prop where
  deployment : N.deployment i = .solana R
  programId : A.programId = R.programId
  findProgramAddress : A.findProgramAddress = R.findProgramAddress
  chainId : N.chainId i = A.chainId
  chain : N.chainOf A.rpc = i
  honest : N.Honest A.rpc
  evm : ∀ c r, A.evm c = some r → ∃ j, N.chainId j = c ∧ r.Sound N j

namespace Attester

/-- **Facts that can be acted on**: what the destination tells, and that the source has had the id
locked for the timeout, when the facts say so. -/
structure Backed (N : Network ι ε) (p : Past ι) (timeout : ℤ) (c : ℕ) (j : ι) (id : Bytes32)
    (facts : Facts) : Prop where
  told : Told N p j id facts.dst
  aged : facts.agedOut = some true → ∃ i, (N.chainId i).toNat = c ∧
    (p.Ordered i → AgedOut N p timeout i id)

theorem Backed.later {c : ℕ} {facts : Facts} (h : Backed N p timeout c j id facts) (hpq : p ≤ q) :
    Backed N q timeout c j id facts where
  told := h.told.later hpq
  aged haged := by
    obtain ⟨i, hi, hage⟩ := h.aged haged
    exact ⟨i, hi, fun hordered => (hage (hordered.of_le hpq)).later hpq⟩

/-- **What is decided is what was read.** -/
theorem of_relayerDecision {src : Option LockState} {dst : DestinationState} {aged : Option Bool}
    {c r : Bool} :
    (relayerDecision src dst aged c r = .attestRefund → dst.cancelled = true) ∧
      (relayerDecision src dst aged c r = .attestCancel →
        dst.executed = false ∧ aged = some true) := by
  unfold relayerDecision
  constructor <;> intro h <;> grind

variable {A : Attester ε}

/-- The string of a bound candidate names its corridor. -/
theorem corridor_boundString {rec : SubmissionRecord} (h : A.boundString rec = some x) :
    Corridor x rec.chainIdFrom.toNat rec.chainIdTo.toNat := by
  have hwide (v : U64) : (v.setWidth 256).toNat = v.toNat :=
    BitVec.toNat_setWidth_of_le (by omega)
  rw [← hwide rec.chainIdFrom, ← hwide rec.chainIdTo]
  simp only [boundString, Option.bind_eq_bind, Option.bind_eq_some_iff, Option.pure_def,
    Option.some.injEq] at h
  obtain ⟨domain, -, debridgeId, -, amount, -, decimals, -, receiver, -, nativeSender, -, blob, -,
    auto, -, rfl⟩ := h
  cases auto with
  | none =>
    simp only [BridgeSolana.packedSubmission, Solana.be32_eq, List.nil_append, List.append_assoc]
    exact corridor_append _ _ _ _ _ _
  | some w =>
    simp only [BridgeSolana.packedSubmission, Solana.be32_eq, List.nil_append, List.append_assoc]
    exact corridor_append _ _ _ _ _ _

/-- **A bound candidate states the id of its own parameters.** -/
theorem of_boundSubmissionId {rec : SubmissionRecord} (h : A.boundSubmissionId rec = some id) :
    hex32 A.parsers rec.submissionId = some id ∧
      ∃ x, A.boundString rec = some x ∧ A.keccak256 x = id := by
  obtain ⟨claimed, hclaimed, h⟩ := Option.bind_eq_some_iff.mp h
  obtain ⟨x, hx, h⟩ := Option.bind_eq_some_iff.mp h
  split at h
  · next hsame =>
    obtain rfl := Option.some.inj h
    exact ⟨hclaimed, x, hx, hsame⟩
  · cases h

variable {R : Solana.Runtime} (hA : A.Sound N i R)
  (htimeout : ∀ t ∈ A.timeoutSecs, timeout ≤ t.toInt)
include hA

theorem Sound.ends_solanaDestinationState :
    (A.solanaDestinationState id).Ends (Answers N) (fun p s => Told N p i id s) p := by
  refine Ask.ends_bind ((ends_getAccount hA.honest hA.chain hA.deployment _).mono ?_)
  rintro q - shown ⟨m, hm, s, hscene, hshows⟩
  refine Ask.ends_pure fun q' hq' => ?_
  rw [hA.findProgramAddress] at hshows
  have hm' := Past.mem_moments hq' hm
  have hunspent (h : ¬((s (R.findProgramAddress (executedSeeds id))).owner = R.programId ∧
      (s (R.findProgramAddress (executedSeeds id))).data ≠ [])) :
      ∃ m ∈ q'.moments i, Unspent (N.deployment i) m id := by
    refine ⟨m, hm', ?_⟩
    rw [hA.deployment]
    exact ⟨s, hscene, h⟩
  cases shown with
  | none => exact ⟨fun _ => hunspent fun h => h.2 hshows.data, fun h => absurd h (by simp)⟩
  | some a =>
    obtain ⟨howner, hdata⟩ := hshows
    dsimp only
    rw [← howner, ← hdata] at hunspent
    rw [hA.programId]
    split
    · next h =>
      refine ⟨fun h => absurd h (by simp), fun hburned => ⟨m, hm', ?_⟩⟩
      rw [hA.deployment]
      refine ⟨s, hscene, howner ▸ h.1, ?_⟩
      rw [← hdata]
      obtain ⟨b, rest, hcons⟩ := List.exists_cons_of_ne_nil h.2
      rw [hcons] at hburned ⊢
      exact congrArg some (eq_of_beq hburned)
    · next h => exact ⟨fun _ => hunspent h, fun h => absurd h (by simp)⟩

theorem Sound.ends_solanaSourceState :
    (A.solanaSourceState id).Ends (Answers N) (fun p rec => rec.state.sent = true →
      rec.state.refunded = false →
      ∃ m ∈ p.moments i, Locked (N.deployment i) m id rec.lockedAt.toInt) p := by
  refine Ask.ends_bind ((ends_getAccount hA.honest hA.chain hA.deployment _).mono ?_)
  rintro q - shown ⟨m, hm, s, hscene, hshows⟩
  refine Ask.ends_pure fun q' hq' hsent hlive => ⟨m, Past.mem_moments hq' hm, ?_⟩
  rw [hA.findProgramAddress] at hshows
  rw [hA.programId] at hsent hlive ⊢
  rw [hA.deployment]
  exact locked_of_solanaSourceRecord hscene hshows rfl hsent hlive

include htimeout

theorem Sound.ends_solanaAge {src : SolanaSourceRecord} {cancelled : Bool}
    (hsrc : src.state.sent = true → src.state.refunded = false →
      ∃ m ∈ p.moments i, Locked (N.deployment i) m id src.lockedAt.toInt) :
    (A.solanaAge src cancelled).Ends (Answers N)
      (fun p aged => aged = some true → AgedOut N p timeout i id) p := by
  rw [Attester.solanaAge]
  split
  · next t ht =>
    split
    · next hlive =>
      obtain ⟨m, hm, hlocked⟩ := hsrc hlive.2.1 hlive.2.2
      refine Ask.ends_bind ((ends_solanaNow hA.honest hA.chain).mono ?_)
      rintro q hq t' ⟨now, hnow, htime⟩
      refine Ask.ends_pure fun q' hq' h => ?_
      have hle := le_of_solanaAgedOut (A.timeoutSecs_pos t ht) (Option.some.inj h)
      have hmin := htimeout t ht
      refine ⟨m, Past.mem_moments (hq.trans hq') hm, _, hlocked, now,
        Past.mem_moments hq' hnow, ?_⟩
      omega
    · exact Ask.ends_pure fun _ _ h => absurd h (by simp)
  · exact Ask.ends_pure fun _ _ h => absurd h (by simp)

/-- **From a contract to the program.** -/
theorem Sound.ends_evmToSolanaFacts {chainIdFrom : U64} :
    (A.evmToSolanaFacts id chainIdFrom).Ends (Answers N)
      (fun p facts => Backed N p timeout chainIdFrom.toNat i id facts) p := by
  refine Ask.ends_bind (hA.ends_solanaDestinationState.mono fun q _ dst hdst => ?_)
  have hnone (src : Option LockState) : Backed N q timeout chainIdFrom.toNat i id
      ⟨src, dst, none⟩ := ⟨hdst, fun h => absurd h (by simp)⟩
  cases ht : A.timeoutSecs with
  | none => exact Ask.ends_pure fun q' hq' => (hnone none).later hq'
  | some t =>
    cases hr : A.evm chainIdFrom with
    | none => exact Ask.ends_pure fun q' hq' => (hnone none).later hq'
    | some reader =>
      obtain ⟨j, hj, hreader⟩ := hA.evm _ _ hr
      refine Ask.ends_bind ((ends_trivial _).mono fun q₁ hq₁ s _ => ?_)
      refine Ask.ends_bind ((hreader.ends_evmAge).mono fun q₂ hq₂ aged haged =>
        Ask.ends_pure fun q₃ hq₃ => ⟨?_, fun h => ⟨j, by rw [hj], fun hordered => ?_⟩⟩)
      · exact hdst.later ((hq₁.trans hq₂).trans hq₃)
      · have hage := haged h (hordered.of_le hq₃)
        exact (hage.later hq₃).of_le (htimeout t ht)

/-- **From the program to a contract.** -/
theorem Sound.ends_solanaToEvmFacts {chainIdTo : U64} :
    (A.solanaToEvmFacts id chainIdTo).Ends (Answers N)
      (fun p facts => ∃ j, N.chainId j = chainIdTo ∧
        Backed N p timeout A.chainId.toNat j id facts) p := by
  refine Ask.ends_bind (Ask.ends_orFail fun reader hr q _ => ?_)
  obtain ⟨j, hj, hreader⟩ := hA.evm _ _ hr
  refine Ask.ends_bind (hreader.ends_destinationState.mono fun q₁ _ dst hdst => ?_)
  refine Ask.ends_bind (hA.ends_solanaSourceState.mono fun q₂ hq₂ src hsrc => ?_)
  refine Ask.ends_bind ((hA.ends_solanaAge htimeout hsrc).mono fun q₃ hq₃ aged haged =>
    Ask.ends_pure fun q₄ hq₄ => ⟨j, hj, ?_, fun h => ⟨i, by rw [hA.chainId], fun _ => ?_⟩⟩)
  · exact hdst.later ((hq₂.trans hq₃).trans hq₄)
  · exact (haged h).later hq₄

/-- What the two chains of a candidate say. -/
theorem Sound.ends_facts {rec : SubmissionRecord} :
    (A.facts id rec).Ends (Answers N) (fun p facts => ∃ c j,
      rec.chainIdFrom.toNat = c ∧ rec.chainIdTo = N.chainId j ∧ Backed N p timeout c j id facts) p := by
  rw [facts]
  split
  · next hto =>
    refine (hA.ends_evmToSolanaFacts htimeout).mono fun q _ facts h => ⟨_, i, rfl, ?_, h⟩
    rw [hto, hA.chainId]
  split
  · next hfrom =>
    refine (hA.ends_solanaToEvmFacts htimeout).mono ?_
    rintro q - facts ⟨j, hj, h⟩
    exact ⟨_, j, rfl, hj.symm, hfrom ▸ h⟩
  · trivial

/-- **An attester signs on evidence**, for the id that the candidate's own parameters hash to. -/
theorem Sound.ends_consider {candidate : SignedRecord} :
    (A.consider candidate).Ends (Answers N) (fun p r =>
      hex32 A.parsers candidate.params.submissionId = some r.1 ∧
        ∃ x, A.boundString candidate.params = some x ∧ A.keccak256 x = r.1 ∧
          ∀ kind, r.2 = some kind → Evidence N p timeout x r.1 kind) p := by
  refine Ask.ends_bind (Ask.ends_orFail fun id hid q _ => ?_)
  obtain ⟨hstated, x, hx, hhash⟩ := of_boundSubmissionId hid
  have hcorridor := corridor_boundString hx
  refine Ask.ends_bind ((hA.ends_facts htimeout).mono ?_)
  rintro q₁ - facts ⟨c, j, rfl, hto, hbacked⟩
  rw [hto] at hcorridor
  refine Ask.ends_pure fun q₂ hq₂ => ⟨hstated, x, hx, hhash, fun kind hkind => ?_⟩
  have hlater := hbacked.later hq₂
  have hd := @of_relayerDecision facts.src facts.dst facts.agedOut
    (A.attestedBy candidate.cancelSignatures (domainId A.keccak256 CANCEL_PREFIX id))
    (A.attestedBy candidate.refundSignatures (domainId A.keccak256 REFUND_PREFIX id))
  dsimp only at hkind
  split at hkind
  · cases hkind
  · next hcase =>
    obtain rfl := Option.some.inj hkind
    obtain ⟨hexecuted, haged⟩ := hd.2 hcase
    obtain ⟨i', hi', hage⟩ := hlater.aged haged
    rw [← hi'] at hcorridor
    exact ⟨i', j, hcorridor, hlater.told.unspent hexecuted, hage⟩
  · next hcase =>
    obtain rfl := Option.some.inj hkind
    exact ⟨_, j, hcorridor, hlater.told.burned (hd.1 hcase)⟩

end Attester

end Signers

end SelendraBridge
