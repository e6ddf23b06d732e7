import SelendraBridge.Solana.Storage

/-!
# What a vault is bound to, it stays bound to

An asset's record says which vault backs it and how many decimals cross the bridge, and several
assets may share a vault. No instruction sees two records at once. They agree because of a third:

| | where | says |
|---|---|---|
| the record | at its asset | the mint, the vault, the decimals |
| the binding | at the vault | the mint, the decimals |
| the vault | the token program's | the mint, and who holds it |

A registration is refused if the vault is bound to something else, and binds it if it is bound to
nothing, so whatever a record says is what the binding of its vault says
(`SelendraBridge.Solana.Booked`). A record is written once (`SelendraBridge.Solana.Settled`), except
for one that is from before there were decimals: it is written once more
(`SelendraBridge.Solana.Legacy`). What all of it comes to is
`SelendraBridge.Solana.bindings_consistent`.
-/

namespace SelendraBridge

namespace Solana

open Revert Transition Borsh

variable {R : Runtime} {s s' s'' : Accounts} {clock : Clock} {accounts : List AccountInfo}
  {log : List Log}

/-! ### Token accounts -/

variable (R) in
/-- **Token accounts are as they were**, but for their amounts and for delegates that are gone. -/
def KeepsTokens (s s' : Accounts) : Prop :=
  ∀ k, (s k).owner = R.splTokenId → ∀ t, R.unpackTokenAccount (s k).data = some t →
    (s' k).owner = R.splTokenId ∧
      ∃ t', R.unpackTokenAccount (s' k).data = some t' ∧ t.Stays t'

namespace KeepsTokens

theorem refl (s : Accounts) : KeepsTokens R s s := fun _ hk t ht => ⟨hk, t, ht, .refl t⟩

theorem trans (h : KeepsTokens R s s') (h' : KeepsTokens R s' s'') : KeepsTokens R s s'' := by
  intro k hk t ht
  obtain ⟨hk', t', ht', hstays⟩ := h k hk t ht
  obtain ⟨hk'', t'', ht'', hstays'⟩ := h' k hk' t' ht'
  exact ⟨hk'', t'', ht'', hstays.trans hstays'⟩

theorem of_same (h : ∀ k, (s k).owner = R.splTokenId → (s k).Same (s' k)) :
    KeepsTokens R s s' := by
  intro k hk t ht
  exact ⟨(h k hk).owner.trans hk, t, by rw [(h k hk).data]; exact ht, .refl t⟩

end KeepsTokens

theorem Took.keepsTokens (hR : R.Lawful) {target : Pubkey} {data : Bytes}
    (h : Took R target data s s') : KeepsTokens R s s' := by
  refine .of_same fun k hk => h.other k ?_
  rintro rfl
  exact hR.systemId_ne_splTokenId (h.free.owner.symm.trans hk)

theorem keepsTokens_of_writeData (hR : R.Lawful) {ai : AccountInfo} {data : Bytes}
    (h : writeData R s ai data = .ok s') : KeepsTokens R s s' := by
  obtain ⟨-, howner, rfl⟩ := writeData_eq_ok.mp h
  refine .of_same fun k hk => ?_
  have hne : k ≠ ai.key := by
    rintro rfl
    exact hR.programId_ne_splTokenId (howner.symm.trans hk)
  rw [Function.update_of_ne hne]

theorem keepsTokens_of_writeFront (hR : R.Lawful) {ai : AccountInfo} {front : Bytes}
    (h : writeFront R s ai front = .ok s') : KeepsTokens R s s' :=
  keepsTokens_of_writeData hR (writeFront_eq_ok.mp h).2

theorem keepsTokens_of_writeZeroPadded (hR : R.Lawful) {ai : AccountInfo} {front : Bytes}
    (h : writeZeroPadded R s ai front = .ok s') : KeepsTokens R s s' :=
  keepsTokens_of_writeData hR (writeZeroPadded_eq_ok.mp h).2

theorem keepsTokens_of_store (hR : R.Lawful) {cfg : Config} {ai : AccountInfo}
    (h : cfg.store R s ai = .ok s') : KeepsTokens R s s' := by
  simp only [Config.store, revertIf_bind_eq_ok] at h
  exact keepsTokens_of_writeZeroPadded hR h.2

/-- **A transfer changes amounts**, and of a source the delegate. -/
theorem keepsTokens_of_splTransfer (hR : R.Lawful) {source target authority : Pubkey}
    {signed : Bool} {amount : U64}
    (h : R.splTransfer source target authority signed amount s = some s') : KeepsTokens R s s' := by
  obtain ⟨-, -, howner, hmoved⟩ := hR.splTransfer h
  intro k hk t ht
  refine ⟨(howner k).trans hk, ?_⟩
  by_cases hself : source = target
  · rw [hmoved.self hself]
    exact ⟨t, ht, .refl t⟩
  by_cases hsource : k = source
  · obtain ⟨u, u', hu, hu', hstays, -⟩ := hmoved.lost hself
    rw [← hsource] at hu hu'
    obtain rfl := Option.some.inj (ht.symm.trans hu)
    exact ⟨u', hu', hstays⟩
  by_cases htarget : k = target
  · obtain ⟨u, u', hu, hu', hkeeps, -⟩ := hmoved.gained hself
    rw [← htarget] at hu hu'
    obtain rfl := Option.some.inj (ht.symm.trans hu)
    exact ⟨u', hu', .of_amount hkeeps⟩
  · rw [hmoved.other k hsource htarget]
    exact ⟨t, ht, .refl t⟩

theorem keepsTokens_of_consumeGovernanceIf (hR : R.Lawful) {p : Prop} [Decidable p]
    {ai : Option AccountInfo} {actionId : Bytes32}
    (h : consumeGovernanceIf R clock s p ai actionId = .ok s') : KeepsTokens R s s' := by
  unfold consumeGovernanceIf at h
  split at h
  · simp only [consumeGovernance, bind_eq_ok, exists_unit] at h
    obtain ⟨gov, -, -, -, _, -, _, -, -, hw⟩ := h
    exact keepsTokens_of_writeFront hR hw
  · obtain rfl := Except.ok.inj h
    exact .refl _

theorem keepsTokens_of_createUnless (hR : R.Lawful) {p : Prop} [Decidable p]
    {payer target : AccountInfo} {space : ℕ}
    (h : createUnless R s p payer target space = .ok s') : KeepsTokens R s s' := by
  unfold createUnless at h
  split at h
  · obtain rfl := Except.ok.inj h
    exact .refl _
  · exact (took_of_createPdaAccount hR h).keepsTokens hR

theorem keepsTokens_of_bindVault (hR : R.Lawful) {payer ai : AccountInfo} {vault : Pubkey}
    {want : VaultBinding} (h : bindVault R s payer ai vault want = .ok s') :
    KeepsTokens R s s' := by
  simp only [bindVault, bind_eq_ok, exists_unit] at h
  obtain ⟨-, _, -, -, s₁, hc, hw⟩ := h
  exact (keepsTokens_of_createUnless hR hc).trans (keepsTokens_of_writeFront hR hw)

theorem keepsTokens_of_makeRoom (hR : R.Lawful) {owner ai : AccountInfo} {space : ℕ}
    (h : makeRoom R s owner ai space = .ok s') : KeepsTokens R s s' := by
  unfold makeRoom at h
  split at h
  · exact (took_of_createPdaAccount hR h).keepsTokens hR
  · split at h
    · obtain ⟨s₁, hrent, hw⟩ := bind_eq_ok.mp h
      exact (KeepsTokens.of_same fun k _ => same_of_payRent hR hrent k).trans
        (keepsTokens_of_writeData hR hw)
    · obtain rfl := Except.ok.inj h
      exact .refl _

theorem keepsTokens_of_consumeRegistration (hR : R.Lawful) {cfg : Config} {r : Registering}
    {ai : Option AccountInfo} {actionId : Bytes32}
    (h : consumeRegistration R clock s cfg r ai actionId = .ok s') : KeepsTokens R s s' := by
  unfold consumeRegistration at h
  split at h
  · rw [orRevert_bind_eq_ok] at h
    obtain ⟨now, -, h⟩ := h
    exact keepsTokens_of_consumeGovernanceIf hR h
  · obtain rfl := Except.ok.inj h
    exact .refl _

/-- **An instruction of the owner's** that consumes a schedule and stores a config. -/
theorem keepsTokens_of_governed (hR : R.Lawful) {p : Prop} [Decidable p] {gov : Option AccountInfo}
    {actionId : Bytes32} {cfg : Config} {ai : AccountInfo}
    (h : consumeGovernanceIf R clock s p gov actionId = .ok s')
    (h' : cfg.store R s' ai = .ok s'') : KeepsTokens R s s'' :=
  (keepsTokens_of_consumeGovernanceIf hR h).trans (keepsTokens_of_store hR h')

theorem keepsTokens_of_processSetPaused (hR : R.Lawful) {paused : Bool}
    (h : processSetPaused R s accounts paused = .ok s') : KeepsTokens R s s' := by
  simp only [processSetPaused, bind_eq_ok, exists_unit] at h
  obtain ⟨x, -, cfg, -, -, -, h⟩ := h
  split at h
  · obtain rfl := pure_eq_ok.mp h
    exact .refl _
  · exact keepsTokens_of_store hR h

theorem keepsTokens_of_processRegisterAsset (hR : R.Lawful) {d : Bytes32} {n : UInt8}
    (h : processRegisterAsset R clock s accounts d n = .ok s') : KeepsTokens R s s' := by
  simp only [processRegisterAsset, bind_eq_ok, exists_unit] at h
  obtain ⟨x, -, cfg, -, -, localDecimals, -, -, r, -, s₁, hgov, s₂, hbind, h⟩ := h
  have hbound := (keepsTokens_of_consumeRegistration hR hgov).trans
    (keepsTokens_of_bindVault hR hbind)
  split at h
  · obtain rfl := pure_eq_ok.mp h
    exact hbound
  · simp only [bind_eq_ok] at h
    obtain ⟨s₃, hroom, hw⟩ := h
    exact (hbound.trans (keepsTokens_of_makeRoom hR hroom)).trans
      (keepsTokens_of_writeZeroPadded hR hw)

/-- **No instruction changes a token account** but for its amount, one case for each kind. -/
theorem keepsTokens_of_processInstruction (hR : R.Lawful) {ix : Instruction}
    (h : processInstruction R clock s accounts ix = .ok (s', log)) : KeepsTokens R s s' := by
  cases ix with
  | init a =>
    have h := (quiet_eq_ok.mp h).1
    simp only [processInit, bind_eq_ok, exists_unit] at h
    obtain ⟨x, -, -, -, -, -, -, -, -, s₁, hc, -, _, -, hs⟩ := h
    exact ((took_of_createPdaAccount hR hc).keepsTokens hR).trans (keepsTokens_of_store hR hs)
  | send a =>
    obtain ⟨x, cfg, asset, wire, id, -, S⟩ := sends_of_processSend h
    obtain ⟨bumped, s₁, s₂, lockedAt, -, hs₁, hs₂, hs₃⟩ := S.steps
    exact ((keepsTokens_of_store hR hs₁).trans
      ((took_of_createSentRecord hR hs₂).keepsTokens hR)).trans (keepsTokens_of_splTransfer hR hs₃)
  | claim a =>
    obtain ⟨x, cfg, asset, localAmount, id, -, C⟩ := claims_of_processClaim h
    obtain ⟨s₁, hs₁, hs₂⟩ := C.steps
    exact ((took_of_createMarker hR hs₁).keepsTokens hR).trans (keepsTokens_of_splTransfer hR hs₂)
  | cancel a =>
    obtain ⟨x, cfg, id, -, C⟩ := cancels_of_processCancel h
    exact (took_of_createMarker hR C.step).keepsTokens hR
  | refund a =>
    obtain ⟨x, cfg, asset, sent, id, -, F⟩ := refunds_of_processRefund h
    obtain ⟨s₁, s₂, hs₁, hs₂, hs₃⟩ := F.steps
    exact (((took_of_createMarker hR hs₁).keepsTokens hR).trans
      (keepsTokens_of_writeData hR hs₂)).trans (keepsTokens_of_splTransfer hR hs₃)
  | setValidator v active =>
    have h := (quiet_eq_ok.mp h).1
    simp only [processSetValidator, bind_eq_ok, exists_unit] at h
    obtain ⟨x, -, cfg, -, -, -, h⟩ := h
    split at h
    · simp only [bind_eq_ok, exists_unit] at h
      obtain ⟨-, s₁, hgov, hs⟩ := h
      exact keepsTokens_of_governed hR hgov hs
    · split at h
      · simp only [bind_eq_ok, exists_unit] at h
        exact keepsTokens_of_store hR h.2
      · obtain rfl := pure_eq_ok.mp h
        exact .refl _
  | setThreshold t =>
    have h := (quiet_eq_ok.mp h).1
    simp only [processSetThreshold, bind_eq_ok, exists_unit] at h
    obtain ⟨x, -, cfg, -, -, -, -, s₁, hgov, hs⟩ := h
    exact keepsTokens_of_governed hR hgov hs
  | registerAsset d n => exact keepsTokens_of_processRegisterAsset hR (quiet_eq_ok.mp h).1
  | registerCorridor chainIdTo =>
    have h := (quiet_eq_ok.mp h).1
    simp only [processRegisterCorridor, bind_eq_ok, exists_unit] at h
    obtain ⟨x, -, cfg, -, -, -, h⟩ := h
    split at h
    · obtain rfl := pure_eq_ok.mp h
      exact .refl _
    · simp only [bind_eq_ok, exists_unit] at h
      exact keepsTokens_of_store hR h.2
  | pause => exact keepsTokens_of_processSetPaused hR (quiet_eq_ok.mp h).1
  | unpause => exact keepsTokens_of_processSetPaused hR (quiet_eq_ok.mp h).1
  | setGuardian g =>
    have h := (quiet_eq_ok.mp h).1
    simp only [processSetGuardian, bind_eq_ok, exists_unit] at h
    obtain ⟨x, -, cfg, -, -, h⟩ := h
    split at h
    · obtain rfl := pure_eq_ok.mp h
      exact .refl _
    · simp only [bind_eq_ok] at h
      obtain ⟨_, -, s₁, hgov, hs⟩ := h
      exact keepsTokens_of_governed hR hgov hs
  | scheduleGovernance id => exact absurd h (by simp [processInstruction])
  | cancelScheduledGovernance id =>
    have h := (quiet_eq_ok.mp h).1
    simp only [processCancelScheduledGovernance, bind_eq_ok, exists_unit] at h
    obtain ⟨x, -, gov, -, cfg, -, -, -, -, h⟩ := h
    split at h
    · obtain rfl := pure_eq_ok.mp h
      exact .refl _
    · exact keepsTokens_of_writeFront hR h
  | sealGate =>
    have h := (quiet_eq_ok.mp h).1
    simp only [processSeal, bind_eq_ok, exists_unit] at h
    obtain ⟨x, -, cfg, -, -, -, hs⟩ := h
    exact keepsTokens_of_store hR hs
  | scheduleAction action =>
    simp only [processInstruction, processScheduleAction, writeSchedule, bind_eq_ok, exists_unit,
      pure_eq_ok, Prod.mk.injEq] at h
    obtain ⟨x, -, cfg, -, -, actionId, -, s₁, ⟨-, -, s₂, hc, _, -, _, -, hw⟩, rfl, -⟩ := h
    exact (keepsTokens_of_createUnless hR hc).trans (keepsTokens_of_writeFront hR hw)

/-! ### Vaults and bindings -/

variable (R) in
/-- **A vault as it has to be**: a token account of the mint, held by the authority of the program
and controlled by nobody else. -/
structure Vault (s : Accounts) (vault mint : Pubkey) : Prop where
  owner : (s vault).owner = R.splTokenId
  state : ∃ t, R.unpackTokenAccount (s vault).data = some t ∧ t.mint = mint ∧
    t.owner = R.findProgramAddress vaultAuthoritySeeds ∧ t.delegate = none ∧
    t.closeAuthority = none

theorem Vault.keeps {vault mint : Pubkey} (h : Vault R s vault mint) (hk : KeepsTokens R s s') :
    Vault R s' vault mint := by
  obtain ⟨t, ht, hstate⟩ := h.state
  obtain ⟨howner, t', ht', hstays⟩ := hk vault h.owner t ht
  exact ⟨howner, t', ht', hstays.held hstate⟩

/-- **What a registration checks** of its mint and its vault. -/
theorem vault_of_checkAssetAccounts {mint vault tokenProgram : AccountInfo} {n decimals : UInt8}
    (h : checkAssetAccounts R s mint vault tokenProgram n = .ok decimals) :
    (s mint.key).owner = R.splTokenId ∧ Vault R s vault.key mint.key := by
  simp only [checkAssetAccounts, bind_eq_ok, exists_unit, revertIf_eq_ok, orRevert_eq_ok,
    splMintAndOwner_eq_ok, pure_eq_ok, not_or, not_not] at h
  obtain ⟨hspl, hmint, _, -, -, t, ⟨howner, ht⟩, hm, hauth, ⟨hdelegate, hclose⟩, -⟩ := h
  exact ⟨hmint.trans hspl, howner.trans hspl, t, ht, hm, hauth, hdelegate, hclose⟩

variable (R) in
/-- What a vault is bound to, if its binding is written. -/
def bindingAt (s : Accounts) (vault : Pubkey) : Option VaultBinding :=
  let a := s (R.findProgramAddress (vaultSeeds vault))
  if isBinding R a then (bindingCodec.get a.data).map Prod.fst else none

theorem bindingAt_same {vault : Pubkey}
    (h : (s (R.findProgramAddress (vaultSeeds vault))).Same
      (s' (R.findProgramAddress (vaultSeeds vault)))) :
    bindingAt R s' vault = bindingAt R s vault := by
  have hiff : isBinding R (s' (R.findProgramAddress (vaultSeeds vault))) ↔
      isBinding R (s (R.findProgramAddress (vaultSeeds vault))) := by
    rw [isBinding, isBinding, h.owner, h.data]
  simp only [bindingAt, hiff, h.data]

/-- A binding belongs to the program. -/
theorem owner_of_bindingAt {vault : Pubkey} {b : VaultBinding} (h : bindingAt R s vault = some b) :
    (s (R.findProgramAddress (vaultSeeds vault))).owner = R.programId := by
  rw [bindingAt, Option.ite_none_right_eq_some] at h
  exact h.1.1

/-- **Binding a vault** writes what is wanted, and finds nothing else there: a binding of no mint is
none. -/
theorem binds_of_bindVault {payer ai : AccountInfo} {vault : Pubkey} {want : VaultBinding}
    (h : bindVault R s payer ai vault want = .ok s') :
    (∀ b, bindingAt R s vault = some b → b.mint ≠ 0 → b = want) ∧
      bindingAt R s' vault = some want := by
  simp only [bindVault, bind_eq_ok, exists_unit, revertIf_eq_ok, check_eq_ok, not_not] at h
  obtain ⟨hkey, existing, hexisting, hallowed, s₁, -, hw⟩ := h
  constructor
  · intro b hb hmint
    rw [bindingAt, Option.ite_none_right_eq_some] at hb
    rw [vaultBinding, hkey, if_pos hb.1] at hexisting
    simp only [hb.2, orRevert, ok_bind, if_neg hmint, pure_eq_ok] at hexisting
    rcases hallowed with hnone | hsame
    · rw [hnone] at hexisting
      cases hexisting
    · exact Option.some.inj (hexisting.trans hsame)
  · obtain ⟨hlen, hwd⟩ := writeFront_eq_ok.mp hw
    obtain ⟨-, howner, rfl⟩ := writeData_eq_ok.mp hwd
    rw [length_put_binding] at hlen
    have hbinding : isBinding R { s₁ ai.key with
        data := bindingCodec.put want ++ (s₁ ai.key).data.drop (bindingCodec.put want).length } := by
      refine ⟨howner, ?_⟩
      rw [List.length_append, length_put_binding]
      exact Nat.le_add_right _ _
    rw [bindingAt, ← hkey]
    simp only [Function.update_self, hbinding, if_true]
    rw [bindingCodec.get_put _ ⟨trivial, trivial⟩]
    rfl

/-! ### Registrations -/

/-- The length of a record from before there were decimals. -/
def LegacyLength (data : Bytes) : Prop :=
  data.length = LEGACY_ASSET_CONFIG_LEN ∨ data.length = LEGACY_ASSET_CONFIG_LEN + 1

variable (R) in
/-- The account of an asset's record. -/
def assetKey (d : Bytes32) : Pubkey := R.findProgramAddress (assetSeeds d)

/-- **What a registration finds**: nothing, an older record of the same mint and vault, an account
that was never written, or just what it would write. -/
inductive Finds (R : Runtime) (a : Account) (record : AssetConfig) : Registering → Prop
  | empty (data : a.data = []) : Finds R a record .fresh
  | legacy {existing : AssetConfig} (owner : a.owner = R.programId)
      (decoded : decodeAssetConfig a.data = .ok existing)
      (allowed : legacyAssetUpgradeAllowed a.data.length existing record) :
      Finds R a record .legacyUpgrade
  | unwritten {existing : AssetConfig} (owner : a.owner = R.programId)
      (decoded : decodeAssetConfig a.data = .ok existing)
      (none : existing.mint = 0 ∧ existing.vault = 0) : Finds R a record .fresh
  | same (owner : a.owner = R.programId) (decoded : decodeAssetConfig a.data = .ok record) :
      Finds R a record .rerun

theorem finds_of_registering {a : Account} {record : AssetConfig} {r : Registering}
    (h : registering R a record = .ok r) : Finds R a record r := by
  unfold registering at h
  split at h
  · next hempty =>
    obtain rfl := Except.ok.inj h
    exact .empty hempty
  · simp only [bind_eq_ok, exists_unit, revertIf_eq_ok, not_not] at h
    obtain ⟨howner, existing, hdecode, h⟩ := h
    split at h
    · next hallowed =>
      obtain rfl := pure_eq_ok.mp h
      exact .legacy howner hdecode hallowed
    · simp only [bind_eq_ok, assetWriteAllowed, pure_eq_ok] at h
      obtain ⟨write, hwrite, rfl⟩ := h
      split at hwrite
      · next hnone =>
        obtain rfl := Except.ok.inj hwrite
        exact .unwritten howner hdecode hnone
      · split at hwrite
        · next heq =>
          obtain rfl := Except.ok.inj hwrite
          exact .same howner (heq ▸ hdecode)
        · cases hwrite

/-- **A registration that went through.** -/
structure Registers (R : Runtime) (clock : Clock) (s : Accounts) (x : RegisterAccounts)
    (d : Bytes32) (n localDecimals : UInt8) (r : Registering) (s₁ s₂ s' : Accounts) : Prop where
  mint_owner : (s x.mint.key).owner = R.splTokenId
  vault : Vault R s x.vault.key x.mint.key
  key : x.asset.key = assetKey R d
  finds : Finds R (s (assetKey R d)) ⟨d, x.mint.key, x.vault.key, n, localDecimals⟩ r
  consumed : WroteSeeds R
    [govSeeds (registerAssetActionId R.keccak256 d x.mint.key x.vault.key n)] s s₁
  bound : bindVault R s₁ x.owner x.binding x.vault.key ⟨x.mint.key, n⟩ = .ok s₂
  rerun : r = .rerun → s' = s₂
  written : r ≠ .rerun →
    ¬LegacyLength (s' (assetKey R d)).data ∧ (s' (assetKey R d)).owner = R.programId ∧
      decodeAssetConfig (s' (assetKey R d)).data =
        .ok ⟨d, x.mint.key, x.vault.key, n, localDecimals⟩
  wrote : WroteSeeds R [assetSeeds d] s₂ s'

theorem registers_of_processRegisterAsset (hR : R.Lawful) {d : Bytes32} {n : UInt8}
    (h : processRegisterAsset R clock s accounts d n = .ok s') :
    ∃ x localDecimals r s₁ s₂, RegisterAccounts.next accounts = .ok x ∧
      Registers R clock s x d n localDecimals r s₁ s₂ s' := by
  simp only [processRegisterAsset, bind_eq_ok, exists_unit, revertIf_eq_ok, not_not] at h
  obtain ⟨x, hx, cfg, -, -, localDecimals, hcheck, hkey, r, hr, s₁, hgov, s₂, hbind, h⟩ := h
  obtain ⟨hmint, hvault⟩ := vault_of_checkAssetAccounts hcheck
  rw [hkey] at hr
  refine ⟨x, localDecimals, r, s₁, s₂, hx, hmint, hvault, hkey, finds_of_registering hr,
    wrote_of_consumeRegistration hgov, hbind, fun hrerun => ?_, fun hne => ?_, ?_⟩
  · rw [if_pos hrerun] at h
    exact (pure_eq_ok.mp h).symm
  · rw [if_neg hne] at h
    simp only [bind_eq_ok] at h
    obtain ⟨s₃, hroom, hw⟩ := h
    have hspace := le_length_of_makeRoom hR hroom
    obtain ⟨-, hwd⟩ := writeZeroPadded_eq_ok.mp hw
    obtain ⟨-, howner, rfl⟩ := writeData_eq_ok.mp hwd
    rw [show assetKey R d = x.asset.key from hkey.symm, Function.update_self]
    simp only [ASSET_CONFIG_LEN, ASSET_CONFIG_SLACK] at hspace
    have hrest : List.replicate ((s₃ x.asset.key).data.length - (assetCodec.put
        ⟨d, x.mint.key, x.vault.key, n, localDecimals⟩).length) (0 : UInt8) ≠ [] := by
      rw [ne_eq, List.replicate_eq_nil_iff, length_put_asset, ASSET_CONFIG_LEN]
      omega
    refine ⟨?_, howner, decodeAssetConfig_put _ hrest⟩
    rw [LegacyLength, List.length_append, List.length_replicate, length_put_asset,
      ASSET_CONFIG_LEN, LEGACY_ASSET_CONFIG_LEN]
    omega
  · split at h
    · obtain rfl := pure_eq_ok.mp h
      exact .refl _ _
    · simp only [bind_eq_ok] at h
      obtain ⟨s₃, hroom, hw⟩ := h
      exact ((wrote_of_makeRoom hR hroom).trans (wrote_of_writeZeroPadded hw)).seeds hkey
        List.mem_cons_self

/-! ### Whose address is written -/

variable (R) in
/-- **The address of some seeds is that of no others** among a list. -/
def Alone (target : List Bytes) (seeds : List (List Bytes)) : Prop :=
  ∀ sd ∈ seeds, R.findProgramAddress sd = R.findProgramAddress target → sd = target

theorem Alone.mono {target : List Bytes} {seeds seeds' : List (List Bytes)}
    (h : Alone R target seeds) (hsub : ∀ sd ∈ seeds', sd ∈ seeds) : Alone R target seeds' :=
  fun sd hsd => h sd (hsub sd hsd)

theorem alone_of_injOn {target : List Bytes} {L : List (List Bytes)}
    (hinj : Set.InjOn R.findProgramAddress {sd | sd ∈ L}) (hmem : target ∈ L) : Alone R target L :=
  fun _ hsd heq => hinj hsd hmem heq

/-- What is not written stays. -/
theorem Alone.same {target : List Bytes} {seeds : List (List Bytes)} (h : Alone R target seeds)
    (hnot : target ∉ seeds) (howner : (s (R.findProgramAddress target)).owner ≠ R.splTokenId)
    (hw : WroteSeeds R seeds s s') :
    (s (R.findProgramAddress target)).Same (s' (R.findProgramAddress target)) := by
  refine hw.same _ howner fun hmem => ?_
  obtain ⟨sd, hsd, heq⟩ := List.mem_map.mp hmem
  exact hnot (h sd hsd heq ▸ hsd)

theorem assetSeeds_inj {d d' : Bytes32} : assetSeeds d = assetSeeds d' ↔ d = d' := by
  simp [assetSeeds]

theorem vaultSeeds_inj {v v' : Pubkey} : vaultSeeds v = vaultSeeds v' ↔ v = v' := by
  simp [vaultSeeds]

/-- The seeds of a record and those of a binding are those of no other account. -/
theorem recordSeeds_ne {tag : Bytes} (htag : tag = ascii "asset" ∨ tag = ascii "vault")
    (i : Bytes32) : [tag, wordBytes i] ≠ configSeeds ∧ (∀ j, [tag, wordBytes i] ≠ executedSeeds j) ∧
      (∀ j, [tag, wordBytes i] ≠ refundedSeeds j) ∧ (∀ j, [tag, wordBytes i] ≠ sentSeeds j) ∧
      ∀ j, [tag, wordBytes i] ≠ govSeeds j := by
  have hhead : ∀ {b : Bytes} {y : List Bytes}, tag ≠ b → [tag, wordBytes i] ≠ b :: y :=
    fun hne heq => hne (List.head_eq_of_cons_eq heq)
  rcases htag with rfl | rfl
  all_goals exact ⟨hhead (by decide), fun _ => hhead (by decide), fun _ => hhead (by decide),
    fun _ => hhead (by decide), fun _ => hhead (by decide)⟩

theorem assetSeeds_ne_vaultSeeds (d : Bytes32) (v : Pubkey) : assetSeeds d ≠ vaultSeeds v := by
  have hne : ascii "asset" ≠ ascii "vault" := by decide
  exact fun heq => hne (List.head_eq_of_cons_eq heq)

/-- **Only a registration writes records and bindings.** -/
theorem notMem_writes {ix : Instruction} (hix : ∀ d n, ix ≠ .registerAsset d n) {tag : Bytes}
    (htag : tag = ascii "asset" ∨ tag = ascii "vault") (i : Bytes32) :
    [tag, wordBytes i] ∉ ix.writes R accounts log := by
  obtain ⟨hc, hx, hr, hs, hg⟩ := recordSeeds_ne htag i
  have hmap : ∀ {f : Bytes32 → List Bytes}, (∀ j, [tag, wordBytes i] ≠ f j) →
      ∀ js : List Bytes32, [tag, wordBytes i] ∉ js.map f := by
    intro f hf js hmem
    obtain ⟨j, -, heq⟩ := List.mem_map.mp hmem
    exact hf j heq.symm
  cases ix with
  | registerAsset d n => exact absurd rfl (hix d n)
  | init a => simp [Instruction.writes, hc]
  | send a => exact List.not_mem_cons_of_ne_of_not_mem hc (hmap hs _)
  | claim a => exact hmap hx _
  | setValidator v active => simp [Instruction.writes, hc, hg]
  | setThreshold t => simp [Instruction.writes, hc, hg]
  | registerCorridor c => simp [Instruction.writes, hc]
  | pause => simp [Instruction.writes, hc]
  | unpause => simp [Instruction.writes, hc]
  | setGuardian g => simp [Instruction.writes, hc, hg]
  | cancel a => exact hmap hx _
  | refund a => simp [Instruction.writes, hr, hs]
  | scheduleGovernance id => simp [Instruction.writes]
  | cancelScheduledGovernance id => simp [Instruction.writes, hg]
  | sealGate => simp [Instruction.writes, hc]
  | scheduleAction action => exact hmap hg _

theorem writes_registerAsset {x : RegisterAccounts} {d : Bytes32} {n : UInt8}
    (hx : RegisterAccounts.next accounts = .ok x) :
    Instruction.writes R accounts log (.registerAsset d n) = [assetSeeds d, vaultSeeds x.vault.key,
      govSeeds (registerAssetActionId R.keccak256 d x.mint.key x.vault.key n)] := by
  rw [Instruction.writes, registerSeeds, hx]

/-! ### A record that is written -/

variable (R) in
/-- **A record in the current layout**, of some mint or vault. -/
structure Settled (s : Accounts) (d : Bytes32) (a : AssetConfig) : Prop where
  owner : (s (assetKey R d)).owner = R.programId
  long : ¬LegacyLength (s (assetKey R d)).data
  decoded : decodeAssetConfig (s (assetKey R d)).data = .ok a
  named : ¬(a.mint = 0 ∧ a.vault = 0)

variable (R) in
/-- **A record from before there were decimals**, of some mint or vault. -/
structure Legacy (s : Accounts) (d : Bytes32) (a : AssetConfig) : Prop where
  owner : (s (assetKey R d)).owner = R.programId
  short : LegacyLength (s (assetKey R d)).data
  decoded : decodeAssetConfig (s (assetKey R d)).data = .ok a
  named : ¬(a.mint = 0 ∧ a.vault = 0)

/-- A record with the same decimals on both sides. -/
def AssetConfig.atIdentity (a : AssetConfig) (n : UInt8) : AssetConfig :=
  { a with bridgeDecimals := n, localDecimals := n }

/-- At identity the unit is one. -/
theorem AssetConfig.unit_atIdentity (a : AssetConfig) (n : UInt8) :
    (a.atIdentity n).unit = .ok 1 := by
  rw [AssetConfig.unit_eq_ok, AssetConfig.scale]
  exact ⟨le_rfl, by simp [AssetConfig.atIdentity]⟩

section Steps

variable {d : Bytes32} {a : AssetConfig}

theorem Settled.same (h : Settled R s d a)
    (hs : (s (assetKey R d)).Same (s' (assetKey R d))) : Settled R s' d a :=
  ⟨hs.owner.trans h.owner, hs.data ▸ h.long, hs.data ▸ h.decoded, h.named⟩

theorem Legacy.same (h : Legacy R s d a)
    (hs : (s (assetKey R d)).Same (s' (assetKey R d))) : Legacy R s' d a :=
  ⟨hs.owner.trans h.owner, hs.data ▸ h.short, hs.data ▸ h.decoded, h.named⟩

/-- It reads with no decimals on either side. -/
theorem Legacy.atIdentity (h : Legacy R s d a) : a = a.atIdentity 0 := by
  have hdecoded := h.decoded
  have hshort := h.short
  rw [LegacyLength] at hshort
  rw [decodeAssetConfig, if_pos hshort] at hdecoded
  simp only [bind_eq_ok, pure_eq_ok] at hdecoded
  obtain ⟨r, -, rfl⟩ := hdecoded
  rfl

/-- What decodes is not empty. -/
theorem data_ne_of_decode {data : Bytes} (h : decodeAssetConfig data = .ok a) : data ≠ [] := by
  rintro rfl
  have hnone : decodeAssetConfig [] = .error .invalidAccountData := by decide
  rw [hnone] at h
  cases h

/-- **What a registration of its asset makes of a record that is there**: nothing, unless it is the
older one of the same mint and vault. -/
theorem Registers.of_record (hR : R.Lawful) {x : RegisterAccounts} {n localDecimals : UInt8}
    {r : Registering} {s₁ s₂ : Accounts} (h : Registers R clock s x d n localDecimals r s₁ s₂ s')
    (hvault : Alone R (assetSeeds d) [vaultSeeds x.vault.key])
    (hgov : Alone R (assetSeeds d)
      [govSeeds (registerAssetActionId R.keccak256 d x.mint.key x.vault.key n)])
    (howner : (s (assetKey R d)).owner = R.programId)
    (hdecoded : decodeAssetConfig (s (assetKey R d)).data = .ok a)
    (hnamed : ¬(a.mint = 0 ∧ a.vault = 0)) :
    (s (assetKey R d)).Same (s' (assetKey R d)) ∨
      LegacyLength (s (assetKey R d)).data ∧ Settled R s' d (a.atIdentity n) := by
  have huntokened : (s (assetKey R d)).owner ≠ R.splTokenId := howner ▸ hR.programId_ne_splTokenId
  have hfinds := h.finds
  generalize hrecord : (⟨d, x.mint.key, x.vault.key, n, localDecimals⟩ : AssetConfig) = record
    at hfinds
  cases hfinds with
  | empty data => exact absurd data (data_ne_of_decode hdecoded)
  | legacy owner decoded allowed =>
    obtain rfl := Except.ok.inj (decoded.symm.trans hdecoded)
    obtain ⟨hlength, -, hid, hmint, hvaultEq, -, -, hidentity⟩ := allowed
    obtain ⟨hlong, howner', hdecoded'⟩ := h.written (by simp)
    subst hrecord
    refine .inr ⟨hlength, howner', hlong, ?_, hnamed⟩
    have hlocal : n = localDecimals := hidentity
    rw [hdecoded', AssetConfig.atIdentity, hid, hmint, hvaultEq, ← hlocal]
  | unwritten owner decoded none =>
    obtain rfl := Except.ok.inj (decoded.symm.trans hdecoded)
    exact absurd none hnamed
  | same owner decoded =>
    -- A registration that finds what it would write writes a schedule and a binding only.
    obtain rfl := h.rerun rfl
    have hgov' := hgov.same (fun hmem => (recordSeeds_ne (.inl rfl) d).2.2.2.2 _
      (List.mem_singleton.mp hmem)) huntokened h.consumed
    refine .inl (hgov'.trans (hvault.same ?_ ?_ (wrote_of_bindVault hR h.bound)))
    · exact fun hmem => assetSeeds_ne_vaultSeeds _ _ (List.mem_singleton.mp hmem)
    · rw [hgov'.owner]
      exact huntokened

/-- **What a step makes of a record that is there.** -/
theorem record_step (hR : R.Lawful) {l : Label} (he : exec R s l = some (s', log))
    (halone : Alone R (assetSeeds d) (writesOf R ⟨s, l, log, s'⟩))
    (howner : (s (assetKey R d)).owner = R.programId)
    (hdecoded : decodeAssetConfig (s (assetKey R d)).data = .ok a)
    (hnamed : ¬(a.mint = 0 ∧ a.vault = 0)) :
    (s (assetKey R d)).Same (s' (assetKey R d)) ∨
      LegacyLength (s (assetKey R d)).data ∧ ∃ n, Settled R s' d (a.atIdentity n) := by
  cases l with
  | others want =>
    simp only [exec, Option.some.injEq, Prod.mk.injEq] at he
    rw [← he.1, others, if_pos (.inr howner)]
    exact .inl ⟨rfl, rfl⟩
  | instruction clock accounts ix =>
    have h := exec_instruction he
    have huntokened : (s (assetKey R d)).owner ≠ R.splTokenId :=
      howner ▸ hR.programId_ne_splTokenId
    have hother : assetSeeds d ∉ ix.writes R accounts log →
        (s (assetKey R d)).Same (s' (assetKey R d)) := fun hnot =>
      Alone.same halone hnot huntokened (wrote_of_processInstruction hR h)
    by_cases hix : ∃ n, ix = .registerAsset d n
    · obtain ⟨n, rfl⟩ := hix
      obtain ⟨x, localDecimals, r, s₁, s₂, hx, hr⟩ :=
        registers_of_processRegisterAsset hR (quiet_eq_ok.mp h).1
      have hwrites := @writes_registerAsset R accounts log x d n hx
      have halone' : Alone R (assetSeeds d) (Instruction.writes R accounts log
        (.registerAsset d n)) := halone
      rw [hwrites] at halone'
      rcases hr.of_record hR (halone'.mono (by simp)) (halone'.mono (by simp)) howner hdecoded
        hnamed with hsame | ⟨hlegacy, hset⟩
      · exact .inl hsame
      · exact .inr ⟨hlegacy, n, hset⟩
    · refine .inl (hother ?_)
      by_cases hreg : ∃ d' n, ix = .registerAsset d' n
      · obtain ⟨d', n, rfl⟩ := hreg
        obtain ⟨x, localDecimals, r, s₁, s₂, hx, -⟩ :=
          registers_of_processRegisterAsset hR (quiet_eq_ok.mp h).1
        have hne : assetSeeds d ≠ assetSeeds d' := fun heq =>
          hix ⟨n, by rw [assetSeeds_inj.mp heq]⟩
        rw [writes_registerAsset hx]
        simp only [List.mem_cons, List.not_mem_nil, or_false, not_or]
        exact ⟨hne, assetSeeds_ne_vaultSeeds _ _, (recordSeeds_ne (.inl rfl) d).2.2.2.2 _⟩
      · exact notMem_writes (fun d' n heq => hreg ⟨d', n, heq⟩) (.inl rfl) d

/-- **A record that is written stays.** -/
theorem Settled.step (hR : R.Lawful) {l : Label} (h : Settled R s d a)
    (he : exec R s l = some (s', log))
    (halone : Alone R (assetSeeds d) (writesOf R ⟨s, l, log, s'⟩)) :
    (s (assetKey R d)).Same (s' (assetKey R d)) :=
  (record_step hR he halone h.owner h.decoded h.named).resolve_right fun hlegacy =>
    h.long hlegacy.1

/-- **An older record stays, or becomes one at identity.** -/
theorem Legacy.step (hR : R.Lawful) {l : Label} (h : Legacy R s d a)
    (he : exec R s l = some (s', log))
    (halone : Alone R (assetSeeds d) (writesOf R ⟨s, l, log, s'⟩)) :
    (s (assetKey R d)).Same (s' (assetKey R d)) ∨ ∃ n, Settled R s' d (a.atIdentity n) :=
  (record_step hR he halone h.owner h.decoded h.named).imp_right And.right

/-- **A run leaves a record that is written.** -/
theorem Settled.run (hR : R.Lawful) {tr : List Step} (h : Settled R s d a)
    (hrun : Run (exec R) s tr s') (halone : Alone R (assetSeeds d) (tr.flatMap (writesOf R))) :
    Settled R s' d a ∧ (s (assetKey R d)).Same (s' (assetKey R d)) ∧
      ∀ e ∈ tr, (e.pre (assetKey R d)).Same (e.post (assetKey R d)) := by
  induction hrun with
  | nil => exact ⟨h, .refl _, fun e he => absurd he (by simp)⟩
  | @snoc tr w w' l log hr he ih =>
    rw [List.flatMap_append] at halone
    obtain ⟨hset, hstays, hsame⟩ := ih (halone.mono fun sd hsd => List.mem_append_left _ hsd)
    have hlast := hset.step hR he (halone.mono fun sd hsd =>
      List.mem_append_right _ (by rwa [List.flatMap_singleton]))
    refine ⟨hset.same hlast, hstays.trans hlast, fun e hmem => ?_⟩
    rcases List.mem_append.mp hmem with hmem | hmem
    · exact hsame e hmem
    · obtain rfl := List.mem_singleton.mp hmem
      exact hlast

/-- **A run leaves an older record, or has written it once more.** -/
theorem Legacy.run (hR : R.Lawful) {tr : List Step} (h : Legacy R s d a)
    (hrun : Run (exec R) s tr s') (halone : Alone R (assetSeeds d) (tr.flatMap (writesOf R))) :
    Legacy R s' d a ∨ ∃ n, Settled R s' d (a.atIdentity n) := by
  induction hrun with
  | nil => exact .inl h
  | @snoc tr w w' l log hr he ih =>
    rw [List.flatMap_append] at halone
    have hlast : Alone R (assetSeeds d) (writesOf R ⟨w, l, log, w'⟩) := halone.mono fun sd hsd =>
      List.mem_append_right _ (by rwa [List.flatMap_singleton])
    rcases ih (halone.mono fun sd hsd => List.mem_append_left _ hsd) with hlegacy | ⟨n, hset⟩
    · exact (hlegacy.step hR he hlast).imp_left hlegacy.same
    · exact .inr ⟨n, hset.same (hset.step hR he hlast)⟩

/-- **An older record changes at most once**: nothing before that and nothing after it, and then it
is at identity. -/
theorem Legacy.once (hR : R.Lawful) {tr₁ tr₂ : List Step} {e : Step} (h : Legacy R s d a)
    (hrun : Run (exec R) s (tr₁ ++ e :: tr₂) s')
    (halone : Alone R (assetSeeds d) ((tr₁ ++ e :: tr₂).flatMap (writesOf R)))
    (hchanged : ¬(e.pre (assetKey R d)).Same (e.post (assetKey R d))) :
    (∀ e' ∈ tr₁ ++ tr₂, (e'.pre (assetKey R d)).Same (e'.post (assetKey R d))) ∧
      ∃ n, Settled R e.post d (a.atIdentity n) := by
  have hpart : ∀ tr : List Step, (∀ e' ∈ tr, e' ∈ tr₁ ++ e :: tr₂) →
      Alone R (assetSeeds d) (tr.flatMap (writesOf R)) := fun tr hsub =>
    halone.mono fun sd hsd => by
      obtain ⟨e', he', hmem⟩ := List.mem_flatMap.mp hsd
      exact List.mem_flatMap.mpr ⟨e', hsub e' he', hmem⟩
  have hwrites : ∀ e' ∈ tr₁ ++ e :: tr₂, Alone R (assetSeeds d) (writesOf R e') := fun e' he' =>
    halone.mono fun sd hsd => List.mem_flatMap.mpr ⟨e', he', hsd⟩
  obtain ⟨hrun₁, he, hrun₂⟩ := hrun.split
  have halone₁ := hpart tr₁ fun e' he' => List.mem_append_left _ he'
  have halone₂ := hpart tr₂ fun e' he' => List.mem_append_right _ (List.mem_cons_of_mem _ he')
  have hmem : e ∈ tr₁ ++ e :: tr₂ := List.mem_append_right _ List.mem_cons_self
  -- If it were already written once more, the step would leave it.
  have hlegacy : Legacy R e.pre d a := by
    rcases h.run hR hrun₁ halone₁ with hlegacy | ⟨n, hset⟩
    · exact hlegacy
    · exact absurd (hset.step hR he (hwrites e hmem)) hchanged
  obtain ⟨n, hset⟩ := (hlegacy.step hR he (hwrites e hmem)).resolve_left hchanged
  refine ⟨fun e' he' => ?_, n, hset⟩
  rcases List.mem_append.mp he' with he' | he'
  · obtain ⟨tr₃, tr₄, rfl⟩ := List.append_of_mem he'
    obtain ⟨hrun₃, hexec, hrun₄⟩ := hrun₁.split
    have hsub : ∀ e'' ∈ tr₃, e'' ∈ (tr₃ ++ e' :: tr₄) ++ e :: tr₂ := fun e'' h'' =>
      List.mem_append_left _ (List.mem_append_left _ h'')
    have hsub' : ∀ e'' ∈ tr₄, e'' ∈ (tr₃ ++ e' :: tr₄) ++ e :: tr₂ := fun e'' h'' =>
      List.mem_append_left _ (List.mem_append_right _ (List.mem_cons_of_mem _ h''))
    have halone' := hwrites e' (List.mem_append_left _ he')
    rcases h.run hR hrun₃ (hpart tr₃ hsub) with hlegacy' | ⟨m, hset'⟩
    · rcases hlegacy'.step hR hexec halone' with hsame | ⟨m, hset'⟩
      · exact hsame
      · exact absurd hlegacy.short (hset'.run hR hrun₄ (hpart tr₄ hsub')).1.long
    · exact hset'.step hR hexec halone'
  · exact (hset.run hR hrun₂ halone₂).2.2 e' he'

end Steps

/-! ### Records, bindings and vaults together -/

/-- **A binding stays**, whatever is registered: a registration that names its vault finds it
there. -/
theorem binding_step (hR : R.Lawful) {l : Label} {v : Pubkey} {b : VaultBinding}
    (he : exec R s l = some (s', log))
    (halone : Alone R (vaultSeeds v) (writesOf R ⟨s, l, log, s'⟩))
    (hb : bindingAt R s v = some b) (hmint : b.mint ≠ 0) : bindingAt R s' v = some b := by
  have howner := owner_of_bindingAt hb
  cases l with
  | others want =>
    simp only [exec, Option.some.injEq, Prod.mk.injEq] at he
    rw [← hb, ← he.1]
    refine bindingAt_same ?_
    rw [others, if_pos (.inr howner)]
    exact ⟨rfl, rfl⟩
  | instruction clock accounts ix =>
    have h := exec_instruction he
    have huntokened : (s (R.findProgramAddress (vaultSeeds v))).owner ≠ R.splTokenId :=
      howner ▸ hR.programId_ne_splTokenId
    have hother : vaultSeeds v ∉ ix.writes R accounts log → bindingAt R s' v = some b :=
      fun hnot => (bindingAt_same (Alone.same halone hnot huntokened
        (wrote_of_processInstruction hR h))).trans hb
    by_cases hreg : ∃ d n, ix = .registerAsset d n
    · obtain ⟨d, n, rfl⟩ := hreg
      obtain ⟨x, localDecimals, r, s₁, s₂, hx, hr⟩ :=
        registers_of_processRegisterAsset hR (quiet_eq_ok.mp h).1
      have halone' : Alone R (vaultSeeds v) (Instruction.writes R accounts log
        (.registerAsset d n)) := halone
      rw [writes_registerAsset hx] at halone'
      have hgov := (recordSeeds_ne (.inr rfl) v).2.2.2.2
      by_cases hv : v = x.vault.key
      · -- Its schedule is used up, then it is found bound, then the record is written.
        have hsame₁ := (halone'.mono (by simp)).same
          (fun hmem => hgov _ (List.mem_singleton.mp hmem)) huntokened hr.consumed
        have hb₁ : bindingAt R s₁ v = some b := (bindingAt_same hsame₁).trans hb
        obtain ⟨hfound, hbound⟩ := binds_of_bindVault hr.bound
        rw [← hv] at hfound hbound
        rw [← hfound b hb₁ hmint] at hbound
        have huntokened₂ : (s₂ (R.findProgramAddress (vaultSeeds v))).owner ≠ R.splTokenId :=
          owner_of_bindingAt hbound ▸ hR.programId_ne_splTokenId
        refine (bindingAt_same ((halone'.mono (by simp)).same ?_ huntokened₂ hr.wrote)).trans hbound
        exact fun hmem => assetSeeds_ne_vaultSeeds _ _ (List.mem_singleton.mp hmem).symm
      · refine hother ?_
        rw [writes_registerAsset hx]
        simp only [List.mem_cons, List.not_mem_nil, or_false, not_or, vaultSeeds_inj]
        exact ⟨(assetSeeds_ne_vaultSeeds _ _).symm, hv, hgov _⟩
    · exact hother (notMem_writes (fun d n heq => hreg ⟨d, n, heq⟩) (.inr rfl) v)

variable (R) in
/-- **A record in the books**: it names its asset and some mint, its vault is one, and the binding
of the vault says what it says. -/
structure Booked (L : List (List Bytes)) (s : Accounts) (d : Bytes32) (a : AssetConfig) :
    Prop extends Settled R s d a where
  debridgeId_eq : a.debridgeId = d
  mint_ne : a.mint ≠ 0
  mem : vaultSeeds a.vault ∈ L
  bound : bindingAt R s a.vault = some ⟨a.mint, a.bridgeDecimals⟩
  vault : Vault R s a.vault a.mint

/-- **Two records that name one vault agree.** -/
theorem Booked.agree {L : List (List Bytes)} {d d' : Bytes32} {a a' : AssetConfig}
    (h : Booked R L s d a) (h' : Booked R L s d' a') (hvault : a.vault = a'.vault) :
    a.mint = a'.mint ∧ a.bridgeDecimals = a'.bridgeDecimals := by
  have hbound := h'.bound
  rw [← hvault, h.bound, Option.some.injEq, VaultBinding.mk.injEq] at hbound
  exact hbound

/-- It is what is registered. -/
theorem Settled.assetAt_eq {d : Bytes32} {a : AssetConfig} (h : Settled R s d a) :
    assetAt R s d = some a := by
  have howner := h.owner
  have hdecoded := h.decoded
  rw [assetKey] at howner hdecoded
  rw [assetAt, if_pos ⟨howner, data_ne_of_decode hdecoded⟩, hdecoded]
  exact if_neg h.named

variable (R) in
/-- **What nobody else can do**: take a vault from the authority of the program, and make a mint at
the zero address, which is the system program's. -/
structure Respects (e : Step) : Prop where
  vaults : ∀ want, e.label = .others want → ∀ v mint, Vault R e.pre v mint → Vault R e.post v mint
  zero : (e.pre 0).owner ≠ R.splTokenId

/-- **A vault stays one.** -/
theorem vault_step (hR : R.Lawful) {l : Label} {v mint : Pubkey}
    (he : exec R s l = some (s', log)) (hrespects : Respects R ⟨s, l, log, s'⟩)
    (h : Vault R s v mint) : Vault R s' v mint := by
  cases l with
  | others want => exact hrespects.vaults want rfl v mint h
  | instruction clock accounts ix =>
    exact h.keeps (keepsTokens_of_processInstruction hR (exec_instruction he))

section Books

variable {L : List (List Bytes)} {ids : List Bytes32}

variable (R L) in
/-- **The books of some assets**: no record of theirs is a token account, and those that there are,
are in the books. -/
def Books (ids : List Bytes32) (s : Accounts) : Prop :=
  ∀ d ∈ ids, (s (assetKey R d)).owner ≠ R.splTokenId ∧
    ((s (assetKey R d)).owner = R.programId → ∃ a, Booked R L s d a)

/-- **A record that was not there**: it was registered, and is in the books. -/
theorem booked_of_new (hR : R.Lawful) {l : Label} {d : Bytes32}
    (hinj : Set.InjOn R.findProgramAddress {sd | sd ∈ L}) (hd : assetSeeds d ∈ L)
    (he : exec R s l = some (s', log)) (hsub : ∀ sd ∈ writesOf R ⟨s, l, log, s'⟩, sd ∈ L)
    (hrespects : Respects R ⟨s, l, log, s'⟩)
    (huntokened : (s (assetKey R d)).owner ≠ R.splTokenId)
    (hbefore : (s (assetKey R d)).owner ≠ R.programId)
    (hchanged : ¬(s (assetKey R d)).Same (s' (assetKey R d))) : ∃ a, Booked R L s' d a := by
  have halone := (alone_of_injOn hinj hd).mono hsub
  cases l with
  | others want =>
    simp only [exec, Option.some.injEq, Prod.mk.injEq] at he
    refine absurd ?_ hchanged
    rw [← he.1, others, if_pos (.inl (hR.isDerived _))]
    exact ⟨rfl, rfl⟩
  | instruction clock accounts ix =>
    have h := exec_instruction he
    have hmem : assetSeeds d ∈ ix.writes R accounts log := by
      by_contra hnot
      exact hchanged (Alone.same halone hnot huntokened (wrote_of_processInstruction hR h))
    by_cases hreg : ∃ d' n, ix = .registerAsset d' n
    · obtain ⟨d', n, rfl⟩ := hreg
      have hp := (quiet_eq_ok.mp h).1
      obtain ⟨x, localDecimals, r, s₁, s₂, hx, hr⟩ := registers_of_processRegisterAsset hR hp
      have hsub' : ∀ sd ∈ Instruction.writes R accounts log (.registerAsset d' n), sd ∈ L := hsub
      rw [writes_registerAsset hx] at hmem hsub'
      obtain rfl : d = d' := by
        simp only [List.mem_cons, List.not_mem_nil, or_false] at hmem
        rcases hmem with heq | heq | heq
        · exact assetSeeds_inj.mp heq
        · exact absurd heq (assetSeeds_ne_vaultSeeds _ _)
        · exact absurd heq ((recordSeeds_ne (.inl rfl) d).2.2.2.2 _)
      have hfresh : r ≠ .rerun := by
        rintro rfl
        cases hr.finds with
        | same owner decoded => exact hbefore owner
      have hmint : x.mint.key ≠ 0 := by
        intro hzero
        have hmint := hr.mint_owner
        rw [hzero] at hmint
        exact hrespects.zero hmint
      obtain ⟨hlong, howner, hdecoded⟩ := hr.written hfresh
      obtain ⟨-, hbound⟩ := binds_of_bindVault hr.bound
      have huntokened₂ : (s₂ (R.findProgramAddress (vaultSeeds x.vault.key))).owner ≠
          R.splTokenId := owner_of_bindingAt hbound ▸ hR.programId_ne_splTokenId
      have hvaultMem : vaultSeeds x.vault.key ∈ L := hsub' _ (by simp)
      have halone' : Alone R (vaultSeeds x.vault.key) [assetSeeds d] :=
        (alone_of_injOn hinj hvaultMem).mono (by simpa using hd)
      have hsame := halone'.same (fun hmem => assetSeeds_ne_vaultSeeds _ _
        (List.mem_singleton.mp hmem).symm) huntokened₂ hr.wrote
      exact ⟨_, ⟨howner, hlong, hdecoded, fun hzero => hmint hzero.1⟩, rfl, hmint, hvaultMem,
        (bindingAt_same hsame).trans hbound,
        hr.vault.keeps (keepsTokens_of_processRegisterAsset hR hp)⟩
    · exact absurd hmem (notMem_writes (fun d' n heq => hreg ⟨d', n, heq⟩) (.inl rfl) d)

/-- **One step keeps the books.** -/
theorem Books.step (hR : R.Lawful) {l : Label}
    (hinj : Set.InjOn R.findProgramAddress {sd | sd ∈ L}) (hids : ∀ d ∈ ids, assetSeeds d ∈ L)
    (h : Books R L ids s) (he : exec R s l = some (s', log))
    (hsub : ∀ sd ∈ writesOf R ⟨s, l, log, s'⟩, sd ∈ L) (hrespects : Respects R ⟨s, l, log, s'⟩) :
    Books R L ids s' := by
  intro d hd
  obtain ⟨huntokened, hbooked⟩ := h d hd
  have halone := (alone_of_injOn hinj (hids d hd)).mono hsub
  by_cases howner : (s (assetKey R d)).owner = R.programId
  · obtain ⟨a, hb⟩ := hbooked howner
    have hsame := hb.toSettled.step hR he halone
    have hbound := binding_step hR he ((alone_of_injOn hinj hb.mem).mono hsub) hb.bound hb.mint_ne
    refine ⟨hsame.owner ▸ huntokened, fun _ => ⟨a, hb.toSettled.same hsame, hb.debridgeId_eq,
      hb.mint_ne, hb.mem, hbound, vault_step hR he hrespects hb.vault⟩⟩
  · by_cases hsame : (s (assetKey R d)).Same (s' (assetKey R d))
    · exact ⟨hsame.owner ▸ huntokened, fun howner' => absurd (hsame.owner.symm.trans howner') howner⟩
    · obtain ⟨a, hb⟩ := booked_of_new hR hinj (hids d hd) he hsub hrespects huntokened howner hsame
      exact ⟨hb.owner ▸ hR.programId_ne_splTokenId, fun _ => ⟨a, hb⟩⟩

/-- **A run keeps the books.** -/
theorem books_of_run (hR : R.Lawful) {s₀ : Accounts} {tr : List Step}
    (hinj : Set.InjOn R.findProgramAddress {sd | sd ∈ L}) (hids : ∀ d ∈ ids, assetSeeds d ∈ L)
    (h₀ : Deployed R s₀) (hrun : Run (exec R) s₀ tr s)
    (hsub : ∀ e ∈ tr, ∀ sd ∈ writesOf R e, sd ∈ L) (hrespects : ∀ e ∈ tr, Respects R e) :
    Books R L ids s := by
  induction hrun with
  | nil =>
    intro d _
    have hfree := h₀.derived _ (hR.isDerived (assetSeeds d))
    refine ⟨?_, fun howner => absurd howner (h₀.none _)⟩
    rw [assetKey, hfree.owner]
    exact hR.systemId_ne_splTokenId
  | @snoc tr w w' l log hr he ih =>
    have hbooks := ih (fun e hmem => hsub e (List.mem_append_left _ hmem))
      fun e hmem => hrespects e (List.mem_append_left _ hmem)
    have hlast : (⟨w, l, log, w'⟩ : Step) ∈ tr ++ [⟨w, l, log, w'⟩] :=
      List.mem_append_right _ (List.mem_singleton_self _)
    exact hbooks.step hR hinj hids he (hsub _ hlast) (hrespects _ hlast)

end Books

/-! ### Whose vault is moved -/

/-- Where a line of the log says that tokens came from. -/
def Log.paidFrom : Log → Option Pubkey
  | .splTransfer source _ _ _ => some source
  | _ => none

/-- Where a line of the log says that tokens went to. -/
def Log.paidTo : Log → Option Pubkey
  | .splTransfer _ target _ _ => some target
  | _ => none

/-- **The vaults that a step moves tokens of**, with their assets: a send pays into one, a claim and
a refund pay out of one. -/
def vaultsOf (e : Step) : List (Bytes32 × Pubkey) :=
  match e.label with
  | .instruction _ _ (.send a) => (e.out.filterMap Log.paidTo).map (Prod.mk a.debridgeId)
  | .instruction _ _ (.claim a) => (e.out.filterMap Log.paidFrom).map (Prod.mk a.debridgeId)
  | .instruction _ _ (.refund a) => (e.out.filterMap Log.paidFrom).map (Prod.mk a.debridgeId)
  | _ => []

/-- It was the vault of a record that was loaded. -/
theorem bound_of_mem_vaultsOf {l : Label} {d : Bytes32} {v : Pubkey}
    (he : exec R s l = some (s', log)) (hmem : (d, v) ∈ vaultsOf ⟨s, l, log, s'⟩) :
    ∃ ai asset tp vault counterpart, Registered R s d ai asset ∧
      Bound R s asset tp vault counterpart ∧ vault.key = v := by
  cases l with
  | others want => exact absurd hmem (by simp [vaultsOf])
  | instruction clock accounts ix =>
    have h := exec_instruction he
    cases ix with
    | send a =>
      obtain ⟨x, cfg, asset, wire, id, -, S⟩ := sends_of_processSend h
      simp only [vaultsOf, S.log, List.filterMap_cons, List.filterMap_nil, Log.paidTo,
        List.map_cons, List.map_nil, List.mem_singleton, Prod.mk.injEq] at hmem
      obtain ⟨rfl, rfl⟩ := hmem
      exact ⟨_, asset, _, x.vault, _, S.registered, S.bound, rfl⟩
    | claim a =>
      obtain ⟨x, cfg, asset, localAmount, id, -, C⟩ := claims_of_processClaim h
      simp only [vaultsOf, C.log, List.filterMap_cons, List.filterMap_nil, Log.paidFrom,
        List.map_cons, List.map_nil, List.mem_singleton, Prod.mk.injEq] at hmem
      obtain ⟨rfl, rfl⟩ := hmem
      exact ⟨_, asset, _, x.vault, _, C.registered, C.bound, rfl⟩
    | refund a =>
      obtain ⟨x, cfg, asset, sent, id, -, F⟩ := refunds_of_processRefund h
      simp only [vaultsOf, F.log, List.filterMap_cons, List.filterMap_nil, Log.paidFrom,
        List.map_cons, List.map_nil, List.mem_singleton, Prod.mk.injEq] at hmem
      obtain ⟨rfl, rfl⟩ := hmem
      exact ⟨_, asset, _, x.vault, _, F.registered, F.bound, rfl⟩
    | _ => exact absurd hmem (by simp [vaultsOf])

variable (R) in
/-- **The vault of an asset**: the one that the asset is registered with, a token account of its
mint that the authority of the program holds. -/
def VaultOf (s : Accounts) (d : Bytes32) (v : Pubkey) : Prop :=
  ∃ a, assetAt R s d = some a ∧ a.vault = v ∧ Vault R s v a.mint

/-! ### Any run -/

/-- What is registered is in the books. -/
theorem Books.booked {L : List (List Bytes)} {ids : List Bytes32} {d : Bytes32} {a : AssetConfig}
    (h : Books R L ids s) (hd : d ∈ ids) (ha : assetAt R s d = some a) : Booked R L s d a := by
  have howner := ha
  rw [assetAt, Option.ite_none_right_eq_some] at howner
  obtain ⟨b, hb⟩ := (h d hd).2 howner.1.1
  obtain rfl := Option.some.inj (ha.symm.trans hb.toSettled.assetAt_eq)
  exact hb

variable (R) in
/-- **A run from the deployment** with some assets in mind, whose accounts have addresses of their
own. -/
structure FromDeployment (ids : List Bytes32) (s₀ : Accounts) (tr : List Step) (s : Accounts) :
    Prop where
  deployed : Deployed R s₀
  run : Run (exec R) s₀ tr s
  respects : ∀ e ∈ tr, Respects R e
  seeds : Set.InjOn R.findProgramAddress {sd | sd ∈ ids.map assetSeeds ++ tr.flatMap (writesOf R)}

/-- In every state that it reaches, the books are kept. -/
theorem FromDeployment.books (hR : R.Lawful) {ids : List Bytes32} {s₀ : Accounts}
    {tr tr₁ tr₂ : List Step} (h : FromDeployment R ids s₀ tr s) (htr : tr = tr₁ ++ tr₂)
    (hrun : Run (exec R) s₀ tr₁ s') :
    Books R (ids.map assetSeeds ++ tr.flatMap (writesOf R)) ids s' := by
  have hsub : ∀ e ∈ tr₁, e ∈ tr := fun e he => htr ▸ List.mem_append_left _ he
  refine books_of_run hR h.seeds (fun d hd => List.mem_append_left _ (List.mem_map_of_mem hd))
    h.deployed hrun (fun e he sd hsd => ?_) fun e he => h.respects e (hsub e he)
  exact List.mem_append_right _ (List.mem_flatMap.mpr ⟨e, hsub e he, hsd⟩)

/-- **Bindings stay consistent.** In a run from the deployment, of any instructions with any
accounts:

* the records of a vault agree on its mint and its decimals;
* a record stays what it was once it is written;
* what a send, a claim or a refund moves tokens of is the vault of the asset.

In a run from any state, a record from before there were decimals reads with none, at a unit of one,
and changes at most once, to one that has as many on both sides and is the same otherwise. -/
theorem bindings_consistent {ids : List Bytes32} {s₀ w₀ w : Accounts} {tr trₗ : List Step}
    {dₗ : Bytes32} {aₗ : AssetConfig} (hR : R.Lawful) (h : FromDeployment R ids s₀ tr s)
    (hlegacy : Legacy R w₀ dₗ aₗ) (hrunₗ : Run (exec R) w₀ trₗ w)
    (haloneₗ : Alone R (assetSeeds dₗ) (trₗ.flatMap (writesOf R))) :
    (∀ d ∈ ids, ∀ d' ∈ ids, ∀ a a', assetAt R s d = some a → assetAt R s d' = some a' →
      a.vault = a'.vault → a.mint = a'.mint ∧ a.bridgeDecimals = a'.bridgeDecimals) ∧
    (∀ e ∈ tr, ∀ d ∈ ids, ∀ a, assetAt R e.post d = some a →
      assetAt R s d = some a ∧ (e.post (assetKey R d)).Same (s (assetKey R d))) ∧
    (∀ e ∈ tr, ∀ d v, (d, v) ∈ vaultsOf e → d ∈ ids → VaultOf R e.pre d v) ∧
    (aₗ.bridgeDecimals = 0 ∧ aₗ.localDecimals = 0 ∧ aₗ.unit = .ok 1) ∧
    ∀ tr₁ e tr₂, trₗ = tr₁ ++ e :: tr₂ →
      ¬(e.pre (assetKey R dₗ)).Same (e.post (assetKey R dₗ)) →
      (∀ e' ∈ tr₁ ++ tr₂, (e'.pre (assetKey R dₗ)).Same (e'.post (assetKey R dₗ))) ∧
        ∃ n, assetAt R e.post dₗ = some { aₗ with bridgeDecimals := n, localDecimals := n } ∧
          AssetConfig.unit { aₗ with bridgeDecimals := n, localDecimals := n } = .ok 1 := by
  refine ⟨?_, ?_, ?_, ?_, ?_⟩
  · intro d hd d' hd' a a' ha ha' hvault
    have hbooks := h.books hR (List.append_nil tr).symm h.run
    exact (hbooks.booked hd ha).agree (hbooks.booked hd' ha') hvault
  · intro e he d hd a ha
    obtain ⟨tr₁, tr₂, rfl⟩ := List.append_of_mem he
    obtain ⟨hrun₁, hexec, hrun₂⟩ := h.run.split
    have hbooks := h.books hR (List.append_cons tr₁ e tr₂) (hrun₁.snoc hexec)
    have hset := (hbooks.booked hd ha).toSettled
    have halone : Alone R (assetSeeds d) (tr₂.flatMap (writesOf R)) :=
      (alone_of_injOn h.seeds (List.mem_append_left _ (List.mem_map_of_mem hd))).mono
        fun sd hsd => by
          obtain ⟨e', he', hmem⟩ := List.mem_flatMap.mp hsd
          exact List.mem_append_right _ (List.mem_flatMap.mpr
            ⟨e', List.mem_append_right _ (List.mem_cons_of_mem _ he'), hmem⟩)
    obtain ⟨hset', hsame, -⟩ := hset.run hR hrun₂ halone
    exact ⟨hset'.assetAt_eq, hsame⟩
  · intro e he d v hmem hd
    obtain ⟨tr₁, tr₂, rfl⟩ := List.append_of_mem he
    obtain ⟨hrun₁, hexec, -⟩ := h.run.split
    have hbooks := h.books hR rfl hrun₁
    obtain ⟨ai, asset, tp, vault, counterpart, hreg, hbound, rfl⟩ :=
      bound_of_mem_vaultsOf hexec hmem
    have howner := hreg.owner
    have hdecoded := hreg.decoded
    rw [hreg.key] at howner hdecoded
    obtain ⟨a, hb⟩ := (hbooks d hd).2 howner
    obtain rfl := Except.ok.inj (hdecoded.symm.trans hb.decoded)
    exact ⟨asset, hb.toSettled.assetAt_eq, hbound.vault_eq.symm, hbound.vault_eq ▸ hb.vault⟩
  · have hidentity := hlegacy.atIdentity
    have hunit := aₗ.unit_atIdentity 0
    rw [← hidentity] at hunit
    exact ⟨by rw [hidentity]; rfl, by rw [hidentity]; rfl, hunit⟩
  · rintro tr₁ e tr₂ rfl hchanged
    obtain ⟨hrest, n, hset⟩ := hlegacy.once hR hrunₗ haloneₗ hchanged
    exact ⟨hrest, n, hset.assetAt_eq, aₗ.unit_atIdentity n⟩

/-! ### A vault that is used, and a record that is brought up to date -/

/-- A gate is wired, takes a transfer and gives it back. -/
def refunded : List Step × Accounts :=
  traceOf (exec Cluster.runtime) Cluster.deployed
    (Cluster.wiring ++ [Cluster.sending, Cluster.refunding])

/-- A gate that has the record of an asset from before there were decimals. -/
def aged : Accounts :=
  Function.update (traceOf (exec Cluster.runtime) Cluster.deployed (Cluster.wiring.take 1)).2
    (assetKey Cluster.runtime Cluster.debridgeId)
    ⟨Cluster.programId, 1000000000,
      legacyAssetCodec.put (Cluster.debridgeId, Cluster.mint, Cluster.vault) ++ [0]⟩

/-- It is registered again, with the decimals of its mint, and then once more. -/
def upgraded : List Step × Accounts :=
  let again : Label := .instruction Cluster.clock
    [Cluster.pda configSeeds, Cluster.signer Cluster.payer,
      Cluster.pda (assetSeeds Cluster.debridgeId), Cluster.writable Cluster.mint,
      Cluster.writable Cluster.vault, Cluster.writable Cluster.splTokenId, Cluster.writable 0,
      Cluster.pda (vaultSeeds Cluster.vault)]
    (.registerAsset Cluster.debridgeId 9)
  traceOf (exec Cluster.runtime) aged [again, again]

theorem fromDeployment_refunded : FromDeployment Cluster.runtime [Cluster.debridgeId]
    Cluster.deployed refunded.1 refunded.2 := by
  have hsome : (runFrom (exec Cluster.runtime) Cluster.deployed
      (Cluster.wiring ++ [Cluster.sending, Cluster.refunding])).isSome = true := by decide +kernel
  have hinj : ∀ a ∈ [Cluster.debridgeId].map assetSeeds ++
        refunded.1.flatMap (writesOf Cluster.runtime),
      ∀ b ∈ [Cluster.debridgeId].map assetSeeds ++ refunded.1.flatMap (writesOf Cluster.runtime),
        Cluster.runtime.findProgramAddress a = Cluster.runtime.findProgramAddress b → a = b := by
    decide +kernel
  have hzero : (refunded.1.all fun e => (e.pre 0).owner != Cluster.runtime.splTokenId) = true := by
    decide +kernel
  have hlabels : ((Cluster.wiring ++ [Cluster.sending, Cluster.refunding]).all fun l =>
      l.casesOn (motive := fun _ => Bool) (fun _ _ _ => true) fun _ => false) = true := rfl
  refine ⟨Cluster.deployed_deployed, run_traceOf hsome, fun e he => ⟨?_, ?_⟩,
    fun a ha b hb => hinj a ha b hb⟩
  · intro want hl
    have hmem : e.label ∈ refunded.1.map Entry.label := List.mem_map_of_mem he
    rw [refunded, label_traceOf hsome, hl] at hmem
    exact absurd (List.all_eq_true.mp hlabels _ hmem) (by simp)
  · have hne := List.all_eq_true.mp hzero e he
    simpa using hne

theorem bindings_consistent_refunded :
    (∃ e ∈ refunded.1, (Cluster.debridgeId, Cluster.vault) ∈ vaultsOf e ∧
      VaultOf Cluster.runtime e.pre Cluster.debridgeId Cluster.vault) ∧
    ∃ e ∈ upgraded.1, ∃ n, n ≠ 0 ∧ assetAt Cluster.runtime e.post Cluster.debridgeId =
      some ⟨Cluster.debridgeId, Cluster.mint, Cluster.vault, n, n⟩ := by
  have hlegacy : Legacy Cluster.runtime aged Cluster.debridgeId
      ⟨Cluster.debridgeId, Cluster.mint, Cluster.vault, 0, 0⟩ := by
    refine ⟨by decide +kernel, .inr (by decide +kernel), by decide +kernel, by decide⟩
  have halone : Alone Cluster.runtime (assetSeeds Cluster.debridgeId)
      (upgraded.1.flatMap (writesOf Cluster.runtime)) := by
    unfold Alone
    decide +kernel
  have hrun : Run (exec Cluster.runtime) aged upgraded.1 upgraded.2 :=
    run_traceOf (by decide +kernel)
  obtain ⟨-, -, hvaults, -, honce⟩ := bindings_consistent Cluster.lawful fromDeployment_refunded
    hlegacy hrun halone
  constructor
  · have hsends : (refunded.1.any fun e => vaultsOf e == [(Cluster.debridgeId, Cluster.vault)]) =
        true := by decide +kernel
    obtain ⟨e, he, hvault⟩ := List.any_eq_true.mp hsends
    have hmem : (Cluster.debridgeId, Cluster.vault) ∈ vaultsOf e := by
      rw [beq_iff_eq.mp hvault]
      exact List.mem_singleton_self _
    exact ⟨e, he, hmem, hvaults e he _ _ hmem (List.mem_singleton_self _)⟩
  · have hchanges : (upgraded.1.any fun e =>
        (e.pre (assetKey Cluster.runtime Cluster.debridgeId)).data.length !=
          (e.post (assetKey Cluster.runtime Cluster.debridgeId)).data.length) = true := by
      decide +kernel
    obtain ⟨e, he, hne⟩ := List.any_eq_true.mp hchanges
    obtain ⟨tr₁, tr₂, htr⟩ := List.append_of_mem he
    obtain ⟨-, n, hasset, -⟩ := honce tr₁ e tr₂ htr fun hsame => by
      rw [hsame.data] at hne
      simp at hne
    refine ⟨e, he, n, ?_, hasset⟩
    rintro rfl
    -- The mint has nine.
    have hnine : (upgraded.1.all fun e =>
        assetAt Cluster.runtime e.post Cluster.debridgeId !=
          some ⟨Cluster.debridgeId, Cluster.mint, Cluster.vault, 0, 0⟩) = true := by
      decide +kernel
    have hnot := List.all_eq_true.mp hnine e he
    rw [hasset] at hnot
    simp at hnot

end Solana

end SelendraBridge
