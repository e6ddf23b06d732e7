import SelendraBridge.Clients.Readers
import SelendraBridge.Solana.Outcome
import SelendraBridge.Solana.Wire

/-!
# The proof of a send's origin

Anybody can print a line with an id that is the hash of what the line says. So the relayer asks the
gate for the account of the id's record, which only a send makes, and compares it with the line
(`SelendraBridge.BridgeSolana.verifySentRecord`).

| the account of the record | what the relayer makes of it |
|---|---|
| is nobody's, or somebody else's | a forgery: no send of this id went through |
| was written by a send | a proof, if the line says the same |
| was zeroed by a refund | retired: it proves nothing any more |

A record that was zeroed stays zeroed, because a send needs a free account
(`SelendraBridge.Solana.retired_run`). So an account that passes, at any moment of any run, is that
of a send that went through and was not refunded (`SelendraBridge.SolanaSource.live_of_verified`).
-/

namespace SelendraBridge

open Borsh Revert Transition

/-! ### What the relayer checks -/

namespace BridgeSolana

open Solana (SentEvent SentRecord SENT_RECORD_LEN sentCodec)

/-- `LEGACY_SENT_RECORD_LEN`. -/
def LEGACY_SENT_RECORD_LEN : ℕ := SENT_RECORD_LEN - 8

/-- `decode_sent_record`, of the layout that the program has: unlike the program, it takes no body
of another length. -/
def decodeSentRecord (data : Bytes) : Option SentRecord :=
  if data.length = SENT_RECORD_LEN then sentCodec.fromSlice data
  else if data.length = LEGACY_SENT_RECORD_LEN then
    sentCodec.fromSlice (data ++ List.replicate 8 0)
  else none

/-- `SentRecordError`. -/
inductive SentRecordError
  | missing
  | notProgramOwned
  | badLength (length : ℕ)
  | malformed
  | retired
  | mismatch (field : String)
  | badBridgeUnit
  deriving DecidableEq, Repr

/-- **`verify_sent_record`**: an account is whether the program has it, and its data. -/
def verifySentRecord (account : Option (Bool × Bytes)) (event : SentEvent) (bridgeUnit : U64) :
    Except SentRecordError SentRecord := do
  revertIf (bridgeUnit = 0) .badBridgeUnit
  let account ← orRevert .missing account
  revertIf (account.1 = false) .notProgramOwned
  revertIf (account.2 = []) .missing
  revertIf (account.2.length ≠ SENT_RECORD_LEN ∧ account.2.length ≠ LEGACY_SENT_RECORD_LEN)
    (.badLength account.2.length)
  let record ← orRevert .malformed (decodeSentRecord account.2)
  revertIf (record.amount = 0 ∧ record.debridgeId = 0) .retired
  revertIf (record.debridgeId ≠ event.debridgeId) (.mismatch "debridge_id")
  let expectedLocal : U64 ← checked (.mismatch "amount") (event.amount.toNat * bridgeUnit.toNat)
  revertIf (record.amount ≠ expectedLocal) (.mismatch "amount")
  revertIf (record.mint ≠ event.mint) (.mismatch "mint")
  return record

/-- **What passes**: an account of the program, with a record that is not retired and agrees with
the event. -/
theorem verifySentRecord_eq_ok {account : Option (Bool × Bytes)} {event : SentEvent} {unit : U64}
    {record : SentRecord} (h : verifySentRecord account event unit = .ok record) :
    ∃ data, account = some (true, data) ∧ decodeSentRecord data = some record ∧
      ¬(record.amount = 0 ∧ record.debridgeId = 0) ∧ record.debridgeId = event.debridgeId ∧
      record.amount.toNat = event.amount.toNat * unit.toNat ∧ record.mint = event.mint := by
  simp only [verifySentRecord, bind_eq_ok, exists_unit, revertIf_eq_ok, orRevert_eq_ok,
    checked_eq_ok, pure_eq_ok, not_not, Bool.not_eq_false] at h
  obtain ⟨-, ⟨owned, data⟩, haccount, rfl, -, -, record', hdecode, hlive, hid, expected, hexpected,
    heq, hmint, rfl⟩ := h
  exact ⟨data, haccount, hdecode, hlive, hid, heq ▸ hexpected, hmint⟩

/-- **A body of zeros is a retired record.** -/
theorem retired_of_zeros {data : Bytes} {record : SentRecord} (hzero : ∀ b ∈ data, b = 0)
    (h : decodeSentRecord data = some record) : record.amount = 0 ∧ record.debridgeId = 0 := by
  have hall : sentCodec.fromSlice (List.replicate SENT_RECORD_LEN 0) =
      some ⟨0, 0, 0, 0, 0, 0⟩ := by decide +kernel
  have hdata : data = List.replicate data.length 0 := List.eq_replicate_iff.mpr ⟨rfl, hzero⟩
  have hrecord : sentCodec.fromSlice (List.replicate SENT_RECORD_LEN 0) = some record := by
    rw [decodeSentRecord] at h
    split at h
    · next hlen => rwa [← hlen, ← hdata]
    · split at h
      · next hlen =>
        rw [hdata, hlen, ← List.replicate_add] at h
        exact h
      · exact absurd h (Option.some_ne_none _).symm
  obtain rfl := Option.some.inj (hall.symm.trans hrecord)
  exact ⟨rfl, rfl⟩

end BridgeSolana

/-! ### A refund is for good -/

namespace Solana

variable {R : Runtime} {s₀ s : Accounts} {tr : List Step}

variable (R) in
/-- The account of a record once its id was refunded: the program's, and zeroed. -/
def Retired (tr : List Step) (s : Accounts) (id : Bytes32) : Prop :=
  id ∈ refunds tr → (s (R.findProgramAddress (sentSeeds id))).owner = R.programId ∧
    ∀ b ∈ (s (R.findProgramAddress (sentSeeds id))).data, b = 0

/-- A refund zeroes the record. -/
theorem Refunds.zeroed (hR : R.Lawful) {s s' : Accounts} {a : RefundArgs} {x : RefundAccounts}
    {cfg : Config} {asset : AssetConfig} {sent : SentRecord} {id : Bytes32} {log : List Log}
    (F : Refunds R s a x cfg asset sent id s' log) :
    (s' (R.findProgramAddress (sentSeeds id))).owner = R.programId ∧
      ∀ b ∈ (s' (R.findProgramAddress (sentSeeds id))).data, b = 0 := by
  obtain ⟨s₁, s₂, -, hs₂, hs₃⟩ := F.steps
  obtain ⟨-, howner, rfl⟩ := writeData_eq_ok.mp hs₂
  rw [← F.sent_key]
  -- the transfer of the tokens comes last, and the record is no token account
  have hs := (wrote_of_splTransfer hR hs₃).same x.sent.key
    (by rw [Function.update_self]; exact howner ▸ hR.programId_ne_splTokenId) List.not_mem_nil
  rw [Function.update_self] at hs
  refine ⟨hs.owner.trans howner, fun b hb => ?_⟩
  rw [hs.data] at hb
  exact List.eq_of_mem_replicate hb

/-- **No step writes a record that was zeroed**: a send of the id would need a free account. -/
theorem retired_step (hR : R.Lawful) {e : Step}
    (he : exec R e.pre e.label = some (e.post, e.out)) {id : Bytes32}
    (hinj : ∀ sd ∈ writesOf R e,
      R.findProgramAddress sd = R.findProgramAddress (sentSeeds id) → sd = sentSeeds id)
    (howner : (e.pre (R.findProgramAddress (sentSeeds id))).owner ≠ R.splTokenId)
    (h : Retired R tr e.pre id) : Retired R (tr ++ [e]) e.post id := by
  intro hid
  rw [refunds, List.flatMap_append] at hid
  rcases sentAccount_step hR he hinj howner with hs | ⟨a, x, asset, hsent⟩ | href
  · rcases List.mem_append.mp hid with hid | hid
    · obtain ⟨hprogram, hzero⟩ := h hid
      exact ⟨hs.owner.trans hprogram, fun b hb => hzero b (hs.data ▸ hb)⟩
    · obtain ⟨clock, accounts, a, x, cfg, asset, sent, -, F⟩ := refunds_of_mem he hid
      exact F.zeroed hR
  · rcases List.mem_append.mp hid with hid | hid
    · exact absurd (h hid).1 (hsent.written hR).1
    · obtain ⟨clock, accounts, a, x, cfg, asset, sent, -, F⟩ := refunds_of_mem he hid
      exact F.zeroed hR
  · obtain ⟨clock, accounts, a, x, cfg, asset, sent, -, F⟩ := refunds_of_mem he href
    exact F.zeroed hR

/-- **What was refunded stays zeroed**, in every run. -/
theorem retired_run (hR : R.Lawful) (h₀ : Deployed R s₀) (hrun : Run (exec R) s₀ tr s)
    {id : Bytes32} (hinj : ∀ sd ∈ tr.flatMap (writesOf R),
      R.findProgramAddress sd = R.findProgramAddress (sentSeeds id) → sd = sentSeeds id) :
    Retired R tr s id := by
  induction hrun with
  | nil => exact fun hid => absurd hid List.not_mem_nil
  | snoc hrun he ih =>
    rw [List.flatMap_append] at hinj
    have hinj₁ := fun sd hsd => hinj sd (List.mem_append_left _ hsd)
    refine retired_step hR (e := ⟨_, _, _, _⟩) he (fun sd hsd => ?_)
      (recorded_run hR h₀ hrun hinj₁).1 (ih hinj₁)
    exact hinj sd (List.mem_append_right _ (by rwa [List.flatMap_singleton]))

end Solana

/-! ### What a record proves -/

namespace SolanaSource

open BridgeSolana (verifySentRecord verifySentRecord_eq_ok retired_of_zeros)
open Solana

variable {R : Runtime}

/-- **A record that passes is that of a send that is alive**: in every run, if what the relayer
reads is what the account of an id holds, and it passes for an event, then the id was sent in the
run, and was not refunded in it. -/
theorem live_of_verified (hR : R.Lawful) {s₀ s : Accounts} {tr : List Step} (h₀ : Deployed R s₀)
    (hrun : Run (exec R) s₀ tr s) {id : Bytes32}
    (hinj : ∀ sd ∈ tr.flatMap (writesOf R),
      R.findProgramAddress sd = R.findProgramAddress (sentSeeds id) → sd = sentSeeds id)
    {account : Option Account}
    (htrue : ∀ a, account = some a → (s (R.findProgramAddress (sentSeeds id))).Same a)
    {event : SentEvent} {unit : U64} {record : SentRecord}
    (h : verifySentRecord (account.map fun a => (decide (a.owner = R.programId), a.data)) event
      unit = .ok record) :
    (∃ e ∈ tr, ∃ a x asset, Solana.Sent R e a x asset id) ∧ id ∉ refunds tr := by
  obtain ⟨data, hview, hdecode, hlive, -⟩ := verifySentRecord_eq_ok h
  obtain ⟨a, ha, hview⟩ := Option.map_eq_some_iff.mp hview
  obtain ⟨howned, rfl⟩ := Prod.mk.inj hview
  have hsame := htrue a ha
  have howner := hsame.owner.symm.trans (of_decide_eq_true howned)
  obtain ⟨e, he, b, x, asset, hsent, -⟩ := (recorded_run hR h₀ hrun hinj).2 howner
  refine ⟨⟨e, he, b, x, asset, hsent⟩, fun hid => hlive ?_⟩
  have hzero := (retired_run hR h₀ hrun hinj hid).2
  exact retired_of_zeros (fun b hb => hzero b (hsame.data ▸ hb)) hdecode

end SolanaSource

end SelendraBridge
