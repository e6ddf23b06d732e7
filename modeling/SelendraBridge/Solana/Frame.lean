import SelendraBridge.Solana.State

/-!
# What a write leaves alone

Every instruction is a chain of a few primitives: take an account of its own, write one,
have tokens moved. Each is inverted here once, under the rules of the runtime, and each
is `SelendraBridge.Solana.Wrote`: it writes the accounts it names, leaves every other
account alone unless it holds tokens, and never gives up or shortens one that the program
has. Chains compose by `SelendraBridge.Solana.Wrote.trans`.
-/

namespace SelendraBridge

namespace Solana

open Revert

variable {R : Runtime} {s s' s'' : Accounts}

@[refl] theorem Account.Same.refl (a : Account) : a.Same a := ⟨rfl, rfl⟩

theorem Account.Same.trans {a b c : Account} (h : a.Same b) (h' : b.Same c) : a.Same c :=
  ⟨h'.owner.trans h.owner, h'.data.trans h.data⟩

variable (R) in
/-- **Writing some accounts**, and no others but token accounts. -/
structure Wrote (keys : List Pubkey) (s s' : Accounts) : Prop where
  same : ∀ k, (s k).owner ≠ R.splTokenId → k ∉ keys → (s k).Same (s' k)
  /-- What the program has it keeps. -/
  kept : ∀ k, (s k).owner = R.programId →
    (s' k).owner = R.programId ∧ (s k).data.length ≤ (s' k).data.length

namespace Wrote

variable {keys keys' : List Pubkey}

theorem refl (keys : List Pubkey) (s : Accounts) : Wrote R keys s s :=
  ⟨fun _ _ _ => .refl _, fun _ h => ⟨h, le_rfl⟩⟩

theorem trans (h : Wrote R keys s s') (h' : Wrote R keys s' s'') : Wrote R keys s s'' := by
  refine ⟨?_, ?_⟩
  · intro k hk hkey
    have hs := h.same k hk hkey
    exact hs.trans (h'.same k (hs.owner ▸ hk) hkey)
  · intro k hk
    obtain ⟨ho, hl⟩ := h.kept k hk
    obtain ⟨ho', hl'⟩ := h'.kept k ho
    exact ⟨ho', hl.trans hl'⟩

theorem mono (h : Wrote R keys s s') (hsub : keys ⊆ keys') : Wrote R keys' s s' :=
  ⟨fun k hk hkey => h.same k hk fun hmem => hkey (hsub hmem), h.kept⟩

end Wrote

/-! ### The primitives, inverted -/

theorem check_eq_ok {p : Prop} [Decidable p] {e : GateError} {u : Unit} :
    check p e = .ok u ↔ p := by
  rw [check, revertIf_eq_ok, not_not]

theorem invoke_eq_ok {r : Option Accounts} : invoke r = .ok s ↔ r = some s := orRevert_eq_ok

theorem verifyPda_eq_ok {ai : AccountInfo} {seeds : List Bytes} {u : Unit} :
    verifyPda R s ai seeds = .ok u ↔
      ai.key = R.findProgramAddress seeds ∧ (s ai.key).owner = R.programId := by
  rw [verifyPda, revertIf_bind_eq_ok, revertIf_eq_ok, not_not, not_not]

theorem writeData_eq_ok {ai : AccountInfo} {data : Bytes} :
    writeData R s ai data = .ok s' ↔ ai.isWritable = true ∧ (s ai.key).owner = R.programId ∧
      s' = Function.update s ai.key { s ai.key with data } := by
  rw [writeData, revertIf_bind_eq_ok, revertIf_bind_eq_ok, pure_eq_ok, Bool.not_eq_false, not_not,
    eq_comm (a := s')]

/-- What a write of data leaves behind. -/
theorem wrote_of_writeData {ai : AccountInfo} {data : Bytes}
    (h : writeData R s ai data = .ok s') (hlen : (s ai.key).data.length ≤ data.length) :
    Wrote R [ai.key] s s' := by
  obtain ⟨-, -, rfl⟩ := writeData_eq_ok.mp h
  refine ⟨?_, ?_⟩
  · intro k _ hk
    have hne : k ≠ ai.key := fun he => hk (he ▸ List.mem_singleton_self _)
    rw [Function.update_of_ne hne]
  · intro k hk
    rcases eq_or_ne k ai.key with rfl | hne
    · rw [Function.update_self]
      exact ⟨hk, hlen⟩
    · rw [Function.update_of_ne hne]
      exact ⟨hk, le_rfl⟩

theorem writeFront_eq_ok {ai : AccountInfo} {front : Bytes} :
    writeFront R s ai front = .ok s' ↔ front.length ≤ (s ai.key).data.length ∧
      writeData R s ai (front ++ (s ai.key).data.drop front.length) = .ok s' := by
  rw [writeFront, revertIf_bind_eq_ok, not_lt]

theorem wrote_of_writeFront {ai : AccountInfo} {front : Bytes}
    (h : writeFront R s ai front = .ok s') : Wrote R [ai.key] s s' := by
  obtain ⟨hle, h⟩ := writeFront_eq_ok.mp h
  refine wrote_of_writeData h ?_
  rw [List.length_append, List.length_drop]
  omega

theorem writeZeroPadded_eq_ok {ai : AccountInfo} {front : Bytes} :
    writeZeroPadded R s ai front = .ok s' ↔ front.length ≤ (s ai.key).data.length ∧
      writeData R s ai
        (front ++ List.replicate ((s ai.key).data.length - front.length) 0) = .ok s' := by
  rw [writeZeroPadded, revertIf_bind_eq_ok, not_lt]

theorem wrote_of_writeZeroPadded {ai : AccountInfo} {front : Bytes}
    (h : writeZeroPadded R s ai front = .ok s') : Wrote R [ai.key] s s' := by
  obtain ⟨hle, h⟩ := writeZeroPadded_eq_ok.mp h
  refine wrote_of_writeData h ?_
  rw [List.length_append, List.length_replicate]
  omega

/-! ### Accounts of the program's own -/

/-- Paying rent moves lamports. -/
theorem same_of_payRent (hR : R.Lawful) {payer target : AccountInfo} {space : ℕ}
    (h : payRent R s payer target space = .ok s') (k : Pubkey) : (s k).Same (s' k) := by
  dsimp only [payRent] at h
  split at h
  · exact hR.systemTransfer (invoke_eq_ok.mp h) k
  · obtain rfl := Except.ok.inj h
    rfl

theorem wrote_of_payRent (hR : R.Lawful) {payer target : AccountInfo} {space : ℕ}
    (h : payRent R s payer target space = .ok s') : Wrote R [] s s' := by
  refine ⟨fun k _ _ => same_of_payRent hR h k, fun k hk => ?_⟩
  have hs := same_of_payRent hR h k
  exact ⟨hs.owner.trans hk, by rw [hs.data]⟩

/-- **Taking an account**: it was free, it is the program's now and holds some data, and
nothing else changed but balances. -/
structure Took (R : Runtime) (target : Pubkey) (data : Bytes) (s s' : Accounts) : Prop where
  free : (s target).Free R
  owner : (s' target).owner = R.programId
  data_eq : (s' target).data = data
  other : ∀ k, k ≠ target → (s k).Same (s' k)

theorem Took.wrote (hR : R.Lawful) {target : Pubkey} {data : Bytes} (h : Took R target data s s') :
    Wrote R [target] s s' := by
  refine ⟨?_, ?_⟩
  · intro k _ hk
    exact h.other k fun he => hk (he ▸ List.mem_singleton_self _)
  · intro k hk
    -- The account taken was nobody's, so it is not one the program had.
    have hne : k ≠ target := by
      rintro rfl
      exact hR.programId_ne_systemId (hk.symm.trans h.free.owner)
    have hs := h.other k hne
    exact ⟨hs.owner.trans hk, by rw [hs.data]⟩

theorem took_of_createPdaAccount (hR : R.Lawful) {payer target : AccountInfo} {space : ℕ}
    (h : createPdaAccount R s payer target space = .ok s') :
    Took R target.key (List.replicate space 0) s s' := by
  simp only [createPdaAccount, bind_eq_ok, invoke_eq_ok] at h
  obtain ⟨s₁, hrent, s₂, halloc, hassign⟩ := h
  have hsame := same_of_payRent hR hrent
  obtain ⟨hfree, rfl⟩ := hR.systemAllocate halloc
  obtain rfl := hR.systemAssign hassign
  refine ⟨⟨?_, ?_⟩, ?_, ?_, ?_⟩
  · exact (hsame target.key).owner.symm.trans hfree.owner
  · exact (hsame target.key).data.symm.trans hfree.data
  · rw [Function.update_self]
  · rw [Function.update_self, Function.update_self]
  · intro k hk
    rw [Function.update_of_ne hk, Function.update_of_ne hk]
    exact hsame k

/-- **Taking an account and writing its front**, as markers and sent records are made. -/
theorem took_of_create_write (hR : R.Lawful) {payer target : AccountInfo} {space : ℕ}
    {front : Bytes} {s₁ : Accounts} (hc : createPdaAccount R s payer target space = .ok s₁)
    (hw : writeFront R s₁ target front = .ok s') :
    Took R target.key (front ++ List.replicate (space - front.length) 0) s s' := by
  have ht := took_of_createPdaAccount hR hc
  obtain ⟨-, hwd⟩ := writeFront_eq_ok.mp hw
  obtain ⟨-, -, rfl⟩ := writeData_eq_ok.mp hwd
  refine ⟨ht.free, ?_, ?_, ?_⟩
  · rw [Function.update_self]
    exact ht.owner
  · rw [Function.update_self]
    show front ++ (s₁ target.key).data.drop front.length = _
    rw [ht.data_eq, List.drop_replicate]
  · intro k hk
    rw [Function.update_of_ne hk]
    exact ht.other k hk

theorem took_of_createMarker (hR : R.Lawful) {payer marker : AccountInfo} {state : UInt8}
    (h : createMarker R s payer marker state = .ok s') : Took R marker.key [state] s s' := by
  obtain ⟨s₁, hc, hw⟩ := bind_eq_ok.mp h
  exact took_of_create_write hR hc hw

@[simp] theorem length_put_sentRecord (record : SentRecord) :
    (sentCodec.put record).length = SENT_RECORD_LEN := by
  simp [sentCodec, Borsh.Codec.iso, Borsh.Codec.pair, word, u64, Borsh.Codec.array,
    Borsh.Codec.uint, SENT_RECORD_LEN]

theorem took_of_createSentRecord (hR : R.Lawful) {payer sent : AccountInfo} {record : SentRecord}
    (h : createSentRecord R s payer sent record = .ok s') :
    Took R sent.key (sentCodec.put record) s s' := by
  simp only [createSentRecord, bind_eq_ok, exists_unit] at h
  obtain ⟨-, s₁, hc, hw⟩ := h
  have ht := took_of_create_write hR hc hw
  rwa [length_put_sentRecord, Nat.sub_self, List.replicate_zero, List.append_nil] at ht

theorem wrote_of_growProgramAccount (hR : R.Lawful) {payer target : AccountInfo} {space : ℕ}
    (h : growProgramAccount R s payer target space = .ok s') : Wrote R [target.key] s s' := by
  obtain ⟨s₁, hrent, hw⟩ := bind_eq_ok.mp h
  refine ((wrote_of_payRent hR hrent).mono (List.nil_subset _)).trans (wrote_of_writeData hw ?_)
  rw [List.length_append]
  omega

/-- **Moving tokens writes token accounts only.** -/
theorem wrote_of_splTransfer (hR : R.Lawful) {source target authority : Pubkey} {signed : Bool}
    {amount : U64} (h : R.splTransfer source target authority signed amount s = some s') :
    Wrote R [] s s' := by
  obtain ⟨hsource, htarget, howner, hmoved⟩ := hR.splTransfer h
  have hother : ∀ k, (s k).owner ≠ R.splTokenId → s' k = s k := by
    intro k hk
    refine hmoved.other k ?_ ?_
    · rintro rfl
      exact hk hsource
    · rintro rfl
      exact hk htarget
  refine ⟨?_, ?_⟩
  · intro k hk _
    rw [hother k hk]
  · intro k hk
    have hne : (s k).owner ≠ R.splTokenId := hk ▸ hR.programId_ne_splTokenId
    rw [hother k hne]
    exact ⟨hk, le_rfl⟩

/-- What was written as a sent record is read back. -/
theorem decodeSentRecord_put (record : SentRecord) :
    decodeSentRecord (sentCodec.put record) = .ok record := by
  have hget := sentCodec.get_put (a := record) [] (by
    simp [sentCodec, Borsh.Codec.iso, Borsh.Codec.pair, word, u64, Borsh.Codec.array,
      Borsh.Codec.uint])
  rw [List.append_nil] at hget
  rw [decodeSentRecord, if_neg (by rw [length_put_sentRecord]; decide), hget]
  rfl

end Solana

end SelendraBridge
