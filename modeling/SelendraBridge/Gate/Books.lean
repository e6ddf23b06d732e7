import SelendraBridge.Gate.Governed

/-!
# What is never lost, and who writes what

Along a run of a gate the books only grow: a nonce does not go back, and an id that is
executed, cancelled or refunded stays so. The registry grows too: a token keeps the scale
and an asset keeps the token it was given. All of this is one reflexive and transitive
relation, `SelendraBridge.Gate.Kept`, which every step meets and so every stretch of a run
does.

The other way about, what the books say was written by a step of the kind that writes it:
an id is refunded by a refund of that id (`SelendraBridge.Gate.refunded_step`), cancelled
by a cancellation of it, executed by a claim or a cancellation, and has a sender by a send.
-/

namespace SelendraBridge

namespace Gate

open Transition

variable {σ : Type} {E : Chain σ}

/-- **Nothing on record is lost** from one storage to another. -/
structure Kept (g g' : Gate) : Prop where
  bridgeDomain : g'.bridgeDomain = g.bridgeDomain
  nonceTo : ∀ chain, (g.nonceTo chain).toNat ≤ (g'.nonceTo chain).toNat
  refunded : ∀ id, g.refunded id = true → g'.refunded id = true
  executed : ∀ id, g.executed id = true → g'.executed id = true
  cancelled : ∀ id, g.cancelled id = true → g'.cancelled id = true
  scale : ∀ token, (g.bridgeDecimalsOf token).set = true →
    g'.bridgeDecimalsOf token = g.bridgeDecimalsOf token
  token : ∀ d, g.tokenOf d ≠ 0 → g'.tokenOf d = g.tokenOf d

theorem Kept.refl (g : Gate) : Kept g g :=
  ⟨rfl, fun _ => le_rfl, fun _ h => h, fun _ h => h, fun _ h => h, fun _ _ => rfl, fun _ _ => rfl⟩

theorem Kept.trans {g₁ g₂ g₃ : Gate} (h : Kept g₁ g₂) (h' : Kept g₂ g₃) : Kept g₁ g₃ where
  bridgeDomain := h'.bridgeDomain.trans h.bridgeDomain
  nonceTo chain := (h.nonceTo chain).trans (h'.nonceTo chain)
  refunded id hid := h'.refunded id (h.refunded id hid)
  executed id hid := h'.executed id (h.executed id hid)
  cancelled id hid := h'.cancelled id (h.cancelled id hid)
  scale token hs := by
    have hs' := h.scale token hs
    rw [h'.scale token (by rw [hs']; exact hs), hs']
  token d hd := by
    have hd' := h.token d hd
    rw [h'.token d (by rw [hd']; exact hd), hd']

/-- A flag that is set is never cleared by setting a flag. -/
theorem update_true_of_true {f : Bytes32 → Bool} {id id' : Bytes32} (h : f id = true) :
    Function.update f id' true id = true := by
  rcases eq_or_ne id id' with rfl | hne
  · exact Function.update_self ..
  · rw [Function.update_of_ne hne]
    exact h

/-- A flag that is set was set before, or is the one that was set now. -/
theorem of_update_true {f : Bytes32 → Bool} {id id' : Bytes32}
    (h : Function.update f id' true id = true) : f id = true ∨ id = id' := by
  rcases eq_or_ne id id' with rfl | hne
  · exact .inr rfl
  · rw [Function.update_of_ne hne] at h
    exact .inl h

/-- A governing call leaves the books alone and the registry as far as it is written. -/
theorem Governed.kept {c : Call} {x : GovCall} {g g' : Gate} (h : Governed E c g x g') :
    Kept g g' where
  bridgeDomain := congrArg Books.bridgeDomain h.books
  nonceTo chain := by
    have hb : g'.nonceTo = g.nonceTo := congrArg Books.nonceTo h.books
    rw [hb]
  refunded id hid := by
    have hb : g'.refunded = g.refunded := congrArg Books.refunded h.books
    rwa [hb]
  executed id hid := by
    have hb : g'.executed = g.executed := congrArg Books.executed h.books
    rwa [hb]
  cancelled id hid := by
    have hb : g'.cancelled = g.cancelled := congrArg Books.cancelled h.books
    rwa [hb]
  scale token hs := by
    rcases h.scales token with hsame | ⟨hunset, -⟩
    · exact hsame
    · exact absurd (hs.symm.trans hunset) (by simp)
  token d hd := by
    rcases h.tokens d with hsame | ⟨hzero, -⟩
    · exact hsame
    · exact absurd hzero hd

/-- A transfer call only adds to the books. -/
theorem kept_of_transfer {c : Call} {g : Gate} {tokens : σ} {x : TransferCall} {r : Done σ}
    (h : transfer E c g tokens x = .ok r) : Kept g r.gate := by
  cases x with
  | send a =>
    obtain ⟨wire, S⟩ := sends_of_send h
    rw [S.gate]
    refine ⟨rfl, ?_, fun _ h => h, fun _ h => h, fun _ h => h, fun _ _ => rfl, fun _ _ => rfl⟩
    intro chain
    dsimp only
    rcases eq_or_ne chain a.chainIdTo with rfl | hne
    · rw [Function.update_self, S.nonce]
      omega
    · rw [Function.update_of_ne hne]
  | claim a =>
    obtain ⟨localAmount, recipient, C⟩ := claims_of_claim h
    rw [C.gate]
    exact ⟨rfl, fun _ => le_rfl, fun _ h => h, fun _ h => update_true_of_true h, fun _ h => h,
      fun _ _ => rfl, fun _ _ => rfl⟩
  | cancel a =>
    have C := cancels_of_cancel h
    rw [C.gate]
    exact ⟨rfl, fun _ => le_rfl, fun _ h => h, fun _ h => update_true_of_true h,
      fun _ h => update_true_of_true h, fun _ _ => rfl, fun _ _ => rfl⟩
  | refund a =>
    obtain ⟨localAmount, R⟩ := refunds_of_refund h
    rw [R.gate]
    exact ⟨rfl, fun _ => le_rfl, fun _ h => update_true_of_true h, fun _ h => h, fun _ h => h,
      fun _ _ => rfl, fun _ _ => rfl⟩

variable {w w' : World σ} {l : Label σ} {o : Out}

/-- **No step loses anything on record.** -/
theorem kept_step (hd : w.gate.setupDeadline ≠ 0) (h : exec E w l = some (w', o)) :
    Kept w.gate w'.gate := by
  cases l with
  | govern c x =>
    obtain ⟨-, -, hgov, -⟩ := exec_govern h
    exact (governed_of_govern hgov hd).kept
  | transfer c x =>
    obtain ⟨-, -, r, hr, rfl, -⟩ := exec_transfer h
    exact kept_of_transfer hr
  | tokens s =>
    obtain ⟨rfl, -⟩ := exec_tokens h
    exact .refl _

/-- **Nor does a stretch of a run.** -/
theorem kept_run {tr : List (Step σ)} (hd : w.gate.setupDeadline ≠ 0)
    (h : Run (exec E) w tr w') : Kept w.gate w'.gate := by
  have hinv : w'.gate.setupDeadline ≠ 0 ∧ Kept w.gate w'.gate := by
    refine h.invariant (P := fun v => v.gate.setupDeadline ≠ 0 ∧ Kept w.gate v.gate)
      ⟨hd, .refl _⟩ ?_
    rintro v l v' o ⟨hdv, hk⟩ he
    exact ⟨setupDeadline_step hdv he, hk.trans (kept_step hdv he)⟩
  exact hinv.2

/-! ### Who writes what -/

/-- A step other than a transfer call leaves the books alone. -/
theorem books_of_not_transfer (hd : w.gate.setupDeadline ≠ 0) (h : exec E w l = some (w', o))
    (hl : ∀ c x, l ≠ .transfer c x) : w'.gate.books = w.gate.books := by
  cases l with
  | govern c x =>
    obtain ⟨-, -, hgov, -⟩ := exec_govern h
    exact (governed_of_govern hgov hd).books
  | transfer c x => exact absurd rfl (hl c x)
  | tokens s =>
    obtain ⟨rfl, -⟩ := exec_tokens h
    rfl

/-- **An id is refunded by a refund of it.** -/
theorem refunded_step (hd : w.gate.setupDeadline ≠ 0) (h : exec E w l = some (w', o))
    {id : Bytes32} (hid : w'.gate.refunded id = true) :
    w.gate.refunded id = true ∨ ∃ c a, l = .transfer c (.refund a) ∧ o.id = some id := by
  by_cases hl : ∀ c x, l ≠ .transfer c x
  · have hb : w'.gate.refunded = w.gate.refunded :=
      congrArg Books.refunded (books_of_not_transfer hd h hl)
    exact .inl (by rwa [hb] at hid)
  · push Not at hl
    obtain ⟨c, x, rfl⟩ := hl
    obtain ⟨-, -, r, hr, rfl, rfl⟩ := exec_transfer h
    cases x with
    | send a =>
      obtain ⟨wire, S⟩ := sends_of_send hr
      rw [S.gate] at hid
      exact .inl hid
    | claim a =>
      obtain ⟨localAmount, recipient, C⟩ := claims_of_claim hr
      rw [C.gate] at hid
      exact .inl hid
    | cancel a =>
      rw [(cancels_of_cancel hr).gate] at hid
      exact .inl hid
    | refund a =>
      obtain ⟨localAmount, R⟩ := refunds_of_refund hr
      rw [R.gate] at hid
      rcases of_update_true hid with hold | rfl
      · exact .inl hold
      · exact .inr ⟨c, a, rfl, rfl⟩

/-- **An id is executed by a claim or a cancellation of it.** -/
theorem executed_step (hd : w.gate.setupDeadline ≠ 0) (h : exec E w l = some (w', o))
    {id : Bytes32} (hid : w'.gate.executed id = true) :
    w.gate.executed id = true ∨
      ∃ c a, (l = .transfer c (.claim a) ∨ l = .transfer c (.cancel a)) ∧ o.id = some id := by
  by_cases hl : ∀ c x, l ≠ .transfer c x
  · have hb : w'.gate.executed = w.gate.executed :=
      congrArg Books.executed (books_of_not_transfer hd h hl)
    exact .inl (by rwa [hb] at hid)
  · push Not at hl
    obtain ⟨c, x, rfl⟩ := hl
    obtain ⟨-, -, r, hr, rfl, rfl⟩ := exec_transfer h
    cases x with
    | send a =>
      obtain ⟨wire, S⟩ := sends_of_send hr
      rw [S.gate] at hid
      exact .inl hid
    | claim a =>
      obtain ⟨localAmount, recipient, C⟩ := claims_of_claim hr
      rw [C.gate] at hid
      rcases of_update_true hid with hold | rfl
      · exact .inl hold
      · exact .inr ⟨c, a, .inl rfl, rfl⟩
    | cancel a =>
      rw [(cancels_of_cancel hr).gate] at hid
      rcases of_update_true hid with hold | rfl
      · exact .inl hold
      · exact .inr ⟨c, a, .inr rfl, rfl⟩
    | refund a =>
      obtain ⟨localAmount, R⟩ := refunds_of_refund hr
      rw [R.gate] at hid
      exact .inl hid

/-- **An id is cancelled by a cancellation of it**, which executes it too. -/
theorem cancelled_step (hd : w.gate.setupDeadline ≠ 0) (h : exec E w l = some (w', o))
    {id : Bytes32} (hid : w'.gate.cancelled id = true) :
    w.gate.cancelled id = true ∨ w.gate.executed id = false ∧ w'.gate.executed id = true ∧
      ∃ c a, l = .transfer c (.cancel a) ∧ o.id = some id := by
  by_cases hl : ∀ c x, l ≠ .transfer c x
  · have hb : w'.gate.cancelled = w.gate.cancelled :=
      congrArg Books.cancelled (books_of_not_transfer hd h hl)
    exact .inl (by rwa [hb] at hid)
  · push Not at hl
    obtain ⟨c, x, rfl⟩ := hl
    obtain ⟨-, -, r, hr, rfl, rfl⟩ := exec_transfer h
    cases x with
    | send a =>
      obtain ⟨wire, S⟩ := sends_of_send hr
      rw [S.gate] at hid
      exact .inl hid
    | claim a =>
      obtain ⟨localAmount, recipient, C⟩ := claims_of_claim hr
      rw [C.gate] at hid
      exact .inl hid
    | cancel a =>
      have C := cancels_of_cancel hr
      rw [C.gate] at hid
      rcases of_update_true hid with hold | rfl
      · exact .inl hold
      · refine .inr ⟨C.executed, ?_, c, a, rfl, rfl⟩
        rw [C.gate]
        exact Function.update_self ..
    | refund a =>
      obtain ⟨localAmount, R⟩ := refunds_of_refund hr
      rw [R.gate] at hid
      exact .inl hid

/-- **The sender of an id is written by a send or a refund of that id.** -/
theorem sentBy_frame (hd : w.gate.setupDeadline ≠ 0) (h : exec E w l = some (w', o))
    {id : Bytes32} (hsend : ∀ c a, l = .transfer c (.send a) → o.id ≠ some id)
    (hrefund : ∀ c a, l = .transfer c (.refund a) → o.id ≠ some id) :
    w'.gate.sentBy id = w.gate.sentBy id := by
  by_cases hl : ∀ c x, l ≠ .transfer c x
  · have hb : w'.gate.sentBy = w.gate.sentBy :=
      congrArg Books.sentBy (books_of_not_transfer hd h hl)
    rw [hb]
  · push Not at hl
    obtain ⟨c, x, rfl⟩ := hl
    obtain ⟨-, -, r, hr, rfl, rfl⟩ := exec_transfer h
    cases x with
    | send a =>
      obtain ⟨wire, S⟩ := sends_of_send hr
      have hne : id ≠ r.id := fun he => hsend c a rfl (congrArg some he.symm)
      dsimp only
      rw [S.gate]
      exact Function.update_of_ne hne ..
    | claim a =>
      obtain ⟨localAmount, recipient, C⟩ := claims_of_claim hr
      dsimp only
      rw [C.gate]
    | cancel a =>
      dsimp only
      rw [(cancels_of_cancel hr).gate]
    | refund a =>
      obtain ⟨localAmount, R⟩ := refunds_of_refund hr
      have hne : id ≠ r.id := fun he => hrefund c a rfl (congrArg some he.symm)
      dsimp only
      rw [R.gate]
      exact Function.update_of_ne hne ..

/-- **An id has a sender by a send of it**, who called it. -/
theorem sentBy_step (hd : w.gate.setupDeadline ≠ 0) (h : exec E w l = some (w', o))
    {id : Bytes32} (hid : w'.gate.sentBy id ≠ 0) :
    w'.gate.sentBy id = w.gate.sentBy id ∨
      ∃ c a, l = .transfer c (.send a) ∧ o.id = some id ∧ w'.gate.sentBy id = c.sender := by
  by_cases hl : ∀ c x, l ≠ .transfer c x
  · have hb : w'.gate.sentBy = w.gate.sentBy :=
      congrArg Books.sentBy (books_of_not_transfer hd h hl)
    exact .inl (by rw [hb])
  · push Not at hl
    obtain ⟨c, x, rfl⟩ := hl
    obtain ⟨-, -, r, hr, rfl, rfl⟩ := exec_transfer h
    cases x with
    | send a =>
      obtain ⟨wire, S⟩ := sends_of_send hr
      dsimp only
      rw [S.gate]
      rcases eq_or_ne id r.id with rfl | hne
      · exact .inr ⟨c, a, rfl, rfl, Function.update_self ..⟩
      · exact .inl (Function.update_of_ne hne ..)
    | claim a =>
      obtain ⟨localAmount, recipient, C⟩ := claims_of_claim hr
      exact .inl (by rw [C.gate])
    | cancel a => exact .inl (by rw [(cancels_of_cancel hr).gate])
    | refund a =>
      obtain ⟨localAmount, R⟩ := refunds_of_refund hr
      rcases eq_or_ne id r.id with rfl | hne
      · rw [R.gate] at hid
        exact absurd (Function.update_self ..) hid
      · refine .inl ?_
        dsimp only
        rw [R.gate]
        exact Function.update_of_ne hne ..

end Gate

end SelendraBridge
