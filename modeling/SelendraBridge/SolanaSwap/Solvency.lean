import SelendraBridge.SolanaSwap.Drift

/-!
# What the pool has in reserve is in its vaults

A reserve is a number in a record, and the tokens are in a vault, which is an account of another
program. The two are changed one after the other, and the instruction names all accounts. Of each
record the pool keeps that its vault holds what the record says
(`SelendraBridge.SolanaSwap.Backed`), for three reasons:

* a vault is named in its record, and belongs to the authority of the program, which signs for
  nothing but the payouts (`SelendraBridge.SolanaSwap.Vault`);
* what arrives is what the vault got, not what was asked for
  (`SelendraBridge.SolanaSwap.Pulled`), and what is paid is in reserve;
* two records are of two mints, and so are their vaults
  (`SelendraBridge.SolanaSwap.Backed.vault_ne`).

A swap settles at the prices of the two records, less a fee, so the reserves do not lose worth
(`SelendraBridge.SolanaSwap.worth_le_of_swap`); and a move of a price is of another mint than the
hub (`SelendraBridge.SolanaSwap.HubAt.step`). Of a run all of it is said at once
(`SelendraBridge.SolanaSwap.pool_solvent`).
-/

namespace SelendraBridge

namespace SolanaSwap

open Revert SwapMath Transition
open Solana (AccountInfo Accounts Deployed)

variable {R : Runtime} {s s' s'' : Accounts}

/-! ### Runs -/

/-- **What the token program checks** of a transfer: the authority signed, and is the holder of the
source or its delegate. -/
structure Runtime.Authorizes (R : Runtime) : Prop where
  transfer : ∀ {source mint target authority signed amount decimals s s'},
    R.splTransferChecked source mint target authority signed amount decimals s = some s' →
      signed = true ∧ ∃ t, R.unpackTokenAccount (s source).data = some t ∧
        (t.owner = authority ∨ t.delegate = some authority)

variable (R) in
/-- **One step**, of an instruction that may fail: then it leaves everything as it was. -/
def attempt (s : Accounts) (l : Label) : Option (Accounts × List SwappedEvent) :=
  some ((exec R s l).getD (s, []))

variable (R) in
/-- What a token account holds. -/
def balance (s : Accounts) (k : Pubkey) : ℕ :=
  ((R.unpackTokenAccount (s k).data).map fun t => t.amount.toNat).getD 0

variable (R) in
/-- **The vaults keep what they have**, but for an amount that one of them pays. -/
def Pays (payer : Pubkey) (amount : ℕ) (s s' : Accounts) : Prop :=
  ∀ v mint, Vault R s v mint → Vault R s' v mint ∧
    balance R s v ≤ balance R s' v + if v = payer then amount else 0

variable (R) in
/-- **The vaults keep what they have.** -/
def Keeps (s s' : Accounts) : Prop :=
  ∀ v mint, Vault R s v mint → Vault R s' v mint ∧ balance R s v ≤ balance R s' v

variable (R) in
/-- **A step as the rules of the cluster have it**: an address that the program derives signs
nothing; a token account that the authority of the program holds, with no delegate and nobody to
close it, stays one, and others can only put into it; and the mints that are named have addresses
of their own. -/
structure Fair (s : Accounts) (l : Label) : Prop where
  signers : ∀ clock accounts ix, l = .instruction clock accounts ix → ∀ ai ∈ accounts,
    ai.isSigner = true → R.isDerived ai.key = false
  vaults : ∀ want, l = .others want → Keeps R s (Solana.others R.toRuntime s want)
  apart : ∀ m ∈ mintsOf s l, tokenKey R m ≠ poolKey R
  distinct : ∀ m ∈ mintsOf s l, ∀ m' ∈ mintsOf s l, tokenKey R m = tokenKey R m' → m = m'

/-! ### Vaults -/

theorem Keeps.refl (s : Accounts) : Keeps R s s := fun _ _ h => ⟨h, le_rfl⟩

theorem Keeps.trans (h : Keeps R s s') (h' : Keeps R s' s'') : Keeps R s s'' := by
  intro v mint hv
  obtain ⟨hv', hle⟩ := h v mint hv
  obtain ⟨hv'', hle'⟩ := h' v mint hv'
  exact ⟨hv'', hle.trans hle'⟩

/-- A vault is of one mint. -/
theorem Vault.mint_eq {v mint mint' : Pubkey} (h : Vault R s v mint) (h' : Vault R s v mint') :
    mint = mint' := by
  obtain ⟨t, ht, hmint, -⟩ := h.state
  obtain ⟨t', ht', hmint', -⟩ := h'.state
  obtain rfl := Option.some.inj (ht.symm.trans ht')
  exact hmint.symm.trans hmint'

theorem balance_eq {t : Solana.TokenAccount} {v : Pubkey}
    (h : R.unpackTokenAccount (s v).data = some t) : balance R s v = t.amount.toNat := by
  rw [balance, h]
  rfl

/-- A write to an account of the program's is none to a vault. -/
theorem Stored.keeps (hR : R.Lawful) {key : Pubkey} {bytes : Bytes}
    (h : Stored R key bytes s s') : Keeps R s s' := by
  intro v mint hv
  have hne : v ≠ key := by
    rintro rfl
    exact hR.toLawful.programId_ne_splTokenId (h.owner.symm.trans hv.owner)
  have hsame : s' v = s v := h.other hne
  refine ⟨⟨hsame ▸ hv.owner, hsame ▸ hv.state⟩, ?_⟩
  rw [balance, balance, hsame]

/-- What was taken was nobody's. -/
theorem Took.keeps (hR : R.Lawful) {key : Pubkey} {data : Bytes}
    (h : Solana.Took R.toRuntime key data s s') : Keeps R s s' := by
  intro v mint hv
  have hne : v ≠ key := by
    rintro rfl
    exact hR.toLawful.systemId_ne_splTokenId (h.free.owner.symm.trans hv.owner)
  have hsame := h.other v hne
  refine ⟨⟨hsame.owner.trans hv.owner, hsame.data ▸ hv.state⟩, ?_⟩
  rw [balance, balance, hsame.data]

/-- **A transfer** moves its amount, and leaves a vault a vault. -/
theorem pays_of_transfer (hR : R.Lawful) {source mint target authority : Pubkey} {signed : Bool}
    {amount : U64} {decimals : UInt8}
    (h : R.splTransferChecked source mint target authority signed amount decimals s = some s') :
    Pays R source amount.toNat s s' := by
  obtain ⟨-, -, howner, hmoved⟩ := hR.splTransferChecked h
  intro v m hv
  obtain ⟨t, ht, hstate⟩ := hv.state
  by_cases hself : source = target
  · obtain rfl := hmoved.self hself
    exact ⟨hv, Nat.le_add_right _ _⟩
  -- A vault has no delegate to lose, so whatever changes of it changes in its amount.
  have hchanged : ∃ t', R.unpackTokenAccount (s' v).data = some t' ∧ t.Stays t' ∧
      t.amount.toNat ≤ t'.amount.toNat + if v = source then amount.toNat else 0 := by
    by_cases hsource : v = source
    · obtain ⟨u, u', hu, hu', hstays, hamount⟩ := hmoved.lost hself
      rw [← hsource] at hu hu'
      obtain rfl := Option.some.inj (ht.symm.trans hu)
      exact ⟨u', hu', hstays, by rw [if_pos hsource]; omega⟩
    · rw [if_neg hsource]
      by_cases htarget : v = target
      · obtain ⟨u, u', hu, hu', hkeeps, hamount⟩ := hmoved.gained hself
        rw [← htarget] at hu hu'
        obtain rfl := Option.some.inj (ht.symm.trans hu)
        exact ⟨u', hu', .of_amount hkeeps, by omega⟩
      · exact ⟨t, by rw [hmoved.other v hsource htarget]; exact ht, .refl t, by omega⟩
  obtain ⟨t', ht', hstays, hle⟩ := hchanged
  refine ⟨⟨(howner v).trans hv.owner, t', ht', hstays.held hstate⟩, ?_⟩
  rw [balance_eq ht, balance_eq ht']
  exact hle

/-- **Nobody else pays from a vault.** -/
theorem keeps_of_transfer (hR : R.Lawful) (hA : R.Authorizes)
    {source mint target authority : Pubkey} {signed : Bool} {amount : U64} {decimals : UInt8}
    (hauthority : signed = true → R.isDerived authority = false)
    (h : R.splTransferChecked source mint target authority signed amount decimals s = some s') :
    Keeps R s s' := by
  obtain ⟨hsigned, t, ht, hholds⟩ := hA.transfer h
  intro v m hv
  have hne : v ≠ source := by
    rintro rfl
    obtain ⟨t', ht', -, howner, hdelegate, -⟩ := hv.state
    obtain rfl := Option.some.inj (ht.symm.trans ht')
    rcases hholds with hholds | hholds
    · have hderived := hR.toLawful.isDerived vaultAuthoritySeeds
      rw [← howner, hholds, hauthority hsigned] at hderived
      cases hderived
    · rw [hdelegate] at hholds
      cases hholds
  obtain ⟨hv', hle⟩ := pays_of_transfer hR h v m hv
  rw [if_neg hne] at hle
  exact ⟨hv', hle⟩

/-! ### Records and their vaults -/

variable (R) in
/-- **A record is backed**: it is where its mint has it, and its vault holds the reserve. -/
structure Backed (s : Accounts) (k : Pubkey) (t : TokenRec) : Prop where
  key : k = tokenKey R t.mint
  vault : Vault R s t.vault t.mint
  covered : t.reserve.toNat ≤ balance R s t.vault

variable (R) in
/-- **The pool is solvent**: all its records are backed. -/
def Solvent (s : Accounts) : Prop :=
  ∀ k, R.isDerived k = true → k ≠ poolKey R → (s k).owner = R.programId →
    ∃ t, decodeToken (s k).data = some t ∧ Backed R s k t

/-- **Two records have two vaults.** -/
theorem Backed.vault_ne {k k' : Pubkey} {t t' : TokenRec} (h : Backed R s k t)
    (h' : Backed R s k' t') (hne : k ≠ k') : t.vault ≠ t'.vault := by
  intro heq
  have hvault := h'.vault
  rw [← heq] at hvault
  have hmint := h.vault.mint_eq hvault
  exact hne (by rw [h.key, h'.key, hmint])

/-- A record stays backed while the vaults keep what they have. -/
theorem Backed.keeps {k : Pubkey} {t : TokenRec} (h : Backed R s k t) (hk : Keeps R s s') :
    Backed R s' k t := by
  obtain ⟨hv, hle⟩ := hk _ _ h.vault
  exact ⟨h.key, hv, h.covered.trans hle⟩

/-- So does one whose vault is not the one that pays. -/
theorem Backed.pays {k payer : Pubkey} {t : TokenRec} {amount : ℕ} (h : Backed R s k t)
    (hp : Pays R payer amount s s') (hne : t.vault ≠ payer) : Backed R s' k t := by
  obtain ⟨hv, hle⟩ := hp _ _ h.vault
  rw [if_neg hne] at hle
  exact ⟨h.key, hv, h.covered.trans hle⟩

/-- **Paying from the reserve.** -/
theorem Backed.pay {k : Pubkey} {t : TokenRec} {amount : U64} (h : Backed R s k t)
    (hp : Pays R t.vault amount.toNat s s') (hle : amount ≤ t.reserve) :
    Backed R s' k { t with reserve := t.reserve - amount } := by
  obtain ⟨hv, hkept⟩ := hp _ _ h.vault
  rw [if_pos rfl] at hkept
  have hcovered := h.covered
  have hsub : (t.reserve - amount).toNat = t.reserve.toNat - amount.toNat :=
    BitVec.toNat_sub_of_le hle
  refine ⟨h.key, hv, ?_⟩
  rw [hsub]
  show t.reserve.toNat - amount.toNat ≤ balance R s' t.vault
  omega

/-- **Adding to the reserve what arrived.** -/
theorem Backed.pull {k : Pubkey} {t : TokenRec} {transfer : Option Accounts}
    {received reserve : U64} (h : Backed R s k t) (hk : Keeps R s s')
    (hp : Pulled R t.vault transfer s received s')
    (hreserve : reserve.toNat = t.reserve.toNat + received.toNat) :
    Backed R s' k { t with reserve } := by
  obtain ⟨before, after, hbefore, hafter, hreceived⟩ := hp.arrived
  have hcovered := h.covered
  rw [balance_eq hbefore] at hcovered
  refine ⟨h.key, (hk _ _ h.vault).1, ?_⟩
  show reserve.toNat ≤ balance R s' t.vault
  rw [balance_eq hafter]
  omega

/-- A record that is loaded is backed. -/
theorem Solvent.load {ai : AccountInfo} {mint : Pubkey} {t : TokenRec} (hR : R.Lawful)
    (h : Solvent R s) (hkey : tokenKey R mint ≠ poolKey R) (hload : loadToken R s ai mint = .ok t) :
    ai.key = tokenKey R mint ∧ t.listed = true ∧ Backed R s ai.key t := by
  obtain ⟨⟨hai, howner⟩, hdecode, hlisted⟩ := loadToken_eq_ok.mp hload
  have hderived : R.isDerived ai.key = true := hai ▸ hR.toLawful.isDerived _
  obtain ⟨t', ht', hbacked⟩ := h ai.key hderived (fun heq => hkey (hai.symm.trans heq)) howner
  obtain rfl := Option.some.inj (hdecode.symm.trans ht')
  exact ⟨hai, hlisted, hbacked⟩

/-- **What changes no reserve** keeps the pool solvent. -/
theorem Solvent.of_same (h : Solvent R s) (hkeeps : Keeps R s s')
    (hrecords : ∀ k, R.isDerived k = true → k ≠ poolKey R → (s' k).owner = R.programId →
      ((s k).owner = R.programId ∧ ∀ t, decodeToken (s k).data = some t →
        ∃ t', decodeToken (s' k).data = some t' ∧ t'.mint = t.mint ∧ t'.vault = t.vault ∧
          t'.reserve = t.reserve) ∨
      ∃ mint vault decimals price now, k = tokenKey R mint ∧ Vault R s vault mint ∧
        decodeToken (s' k).data = some (freshRec mint vault decimals price now)) :
    Solvent R s' := by
  intro k hderived hk howner
  rcases hrecords k hderived hk howner with ⟨howner', hsame⟩ | ⟨mint, vault, decimals, price, now,
    hkey, hvault, hnew⟩
  · obtain ⟨t, ht, hbacked⟩ := h k hderived hk howner'
    obtain ⟨t', ht', hmint, hvault, hreserve⟩ := hsame t ht
    have hkept := hbacked.keeps hkeeps
    exact ⟨t', ht', hmint ▸ hkept.key, hvault ▸ hmint ▸ hkept.vault,
      hvault ▸ hreserve ▸ hkept.covered⟩
  · exact ⟨_, hnew, hkey, (hkeeps _ _ hvault).1, Nat.zero_le _⟩

/-- What the program has keeps its data in a transfer. -/
theorem data_of_transfer (hR : R.Lawful) {source mint target authority : Pubkey} {signed : Bool}
    {amount : U64} {decimals : UInt8}
    (h : R.splTransferChecked source mint target authority signed amount decimals s = some s')
    {k : Pubkey} (hk : (s k).owner = R.programId) : (s' k).data = (s k).data :=
  data_of_wrote hR (wrote_of_transfer hR h) hk (by simp)

/-! ### Who signs -/

theorem owner_mem {accounts : List AccountInfo} {x : LiquidityAccounts}
    (h : LiquidityAccounts.next accounts = .ok x) : x.owner ∈ accounts := by
  unfold LiquidityAccounts.next at h
  split at h
  · obtain rfl := Except.ok.inj h
    simp
  · cases h

theorem user_mem {accounts : List AccountInfo} {x : SwapAccounts}
    (h : SwapAccounts.next accounts = .ok x) : x.user ∈ accounts := by
  unfold SwapAccounts.next at h
  split at h
  · obtain rfl := Except.ok.inj h
    simp
  · cases h

theorem hubRec_mem {accounts : List AccountInfo} {x : InitAccounts}
    (h : InitAccounts.next accounts = .ok x) : x.hubRec ∈ accounts := by
  unfold InitAccounts.next at h
  split at h
  · obtain rfl := Except.ok.inj h
    simp
  · cases h

/-- The record of the hub is at the address of its mint, or signed itself. -/
theorem hubRec_of_processInit {clock : Clock} {accounts : List AccountInfo} {a : InitPoolArgs}
    {x : InitAccounts} (hx : InitAccounts.next accounts = .ok x)
    (h : processInit R clock s accounts a = .ok s') :
    x.hubRec.key = tokenKey R x.hubMint.key ∨ x.hubRec.isSigner = true := by
  simp only [processInit, processInit.createHubRec, bind_eq_ok, exists_unit, revertIf_eq_ok,
    hx, Except.ok.injEq] at h
  obtain ⟨_, rfl, -, -, -, -, -, s₁, -, s₂, -, now, -, decimals, -, -, s₃, ⟨hhub, -⟩, -⟩ := h
  rw [not_and_or, not_not, Bool.not_eq_false] at hhub
  exact hhub

/-! ### One step -/

section Steps

variable {clock : Clock} {accounts : List AccountInfo}

/-- An account that is as it was holds the record that it held. -/
theorem record_same {k : Pubkey} (hsame : (s k).Same (s' k))
    (howner : (s' k).owner = R.programId) : (s k).owner = R.programId ∧
      ∀ t, decodeToken (s k).data = some t → ∃ t', decodeToken (s' k).data = some t' ∧
        t'.mint = t.mint ∧ t'.vault = t.vault ∧ t'.reserve = t.reserve :=
  ⟨hsame.owner.symm.trans howner, fun t ht => ⟨t, hsame.data ▸ ht, rfl, rfl, rfl⟩⟩

/-- **Making the pool.** -/
theorem solvent_of_processInit (hR : R.Lawful) {a : InitPoolArgs}
    (hsigners : ∀ ai ∈ accounts, ai.isSigner = true → R.isDerived ai.key = false)
    (hs : Solvent R s) (h : processInit R clock s accounts a = .ok s') : Solvent R s' := by
  obtain ⟨x, decimals, now, s₁, s₂, s₃, hx, hm⟩ := makes_of_processInit hR h
  have hpool : Solvent R s₂ := by
    refine hs.of_same ((Took.keeps hR hm.tookPool).trans (hm.storedPool.keeps hR)) ?_
    intro k _ hk howner
    have hne : k ≠ x.pool.key := fun heq => hk (heq.trans hm.key)
    rw [hm.storedPool.other hne] at howner ⊢
    exact .inl (record_same (hm.tookPool.other k hne) howner)
  refine hpool.of_same ((Took.keeps hR hm.tookHub).trans (hm.storedHub.keeps hR)) ?_
  intro k hderived hk howner
  rcases eq_or_ne k x.hubRec.key with rfl | hne
  · have hkey := (hubRec_of_processInit hx h).resolve_right fun hsigned => by
      rw [hsigners _ (hubRec_mem hx) hsigned] at hderived
      cases hderived
    exact .inr ⟨_, _, _, _, _, hkey, hm.vault, hm.storedHub.decodeToken⟩
  · rw [hm.storedHub.other hne] at howner ⊢
    exact .inl (record_same (hm.tookHub.other k hne) howner)

/-- **A listing.** -/
theorem solvent_of_processListToken (hR : R.Lawful) {price : U128} (hs : Solvent R s)
    (h : processListToken R clock s accounts price = .ok s') : Solvent R s' := by
  obtain ⟨x, pool, decimals, now, s₁, -, hl⟩ := lists_of_processListToken hR h
  refine hs.of_same ((Took.keeps hR hl.took).trans (hl.stored.keeps hR)) ?_
  intro k _ _ howner
  rcases eq_or_ne k x.record.key with rfl | hne
  · exact .inr ⟨_, _, _, _, _, hl.key, hl.vault, hl.stored.decodeToken⟩
  · rw [hl.stored.other hne] at howner ⊢
    exact .inl (record_same (hl.took.other k hne) howner)

/-- **A price.** -/
theorem solvent_of_processSetPrice (hR : R.Lawful) {expected price : U128} (hs : Solvent R s)
    (h : processSetPrice R clock s accounts expected price = .ok s') : Solvent R s' := by
  obtain ⟨x, pool, t, now, -, hp⟩ := setsPrice_of_processSetPrice h
  refine hs.of_same (hp.stored.keeps hR) ?_
  intro k _ _ howner
  rcases eq_or_ne k x.record.key with rfl | hne
  · refine .inl ⟨hp.stored.owner, fun t' ht' => ?_⟩
    obtain rfl := Option.some.inj (ht'.symm.trans (loadToken_eq_ok.mp hp.token_load).2.1)
    exact ⟨_, hp.stored.decodeToken, rfl, rfl, rfl⟩
  · rw [hp.stored.other hne] at howner ⊢
    exact .inl (record_same (.refl _) howner)

/-- **A setter.** -/
theorem Governs.solvent (hR : R.Lawful) {ix : SwapInstruction} {x : RoleAccounts} {pool : Pool}
    (h : Governs R s ix x pool s') (hs : Solvent R s) : Solvent R s' := by
  obtain ⟨⟨hkey, -⟩, -⟩ := loadPool_eq_ok.mp h.pool_load
  refine hs.of_same (h.stored.keeps hR) ?_
  intro k _ hk howner
  rw [h.stored.other fun heq => hk (heq.trans hkey)] at howner ⊢
  exact .inl (record_same (.refl _) howner)

/-- **Liquidity seeded.** -/
theorem solvent_of_seed (hR : R.Lawful) (hA : R.Authorizes) {amount : U64}
    (hsigners : ∀ ai ∈ accounts, ai.isSigner = true → R.isDerived ai.key = false)
    (hapart : ∀ x, LiquidityAccounts.next accounts = .ok x → tokenKey R x.mint.key ≠ poolKey R)
    (hs : Solvent R s) (h : processLiquidity R s accounts amount true = .ok s') :
    Solvent R s' := by
  obtain ⟨x, pool, t, received, reserve, s₁, hx, hh, hseeds⟩ := seeds_of_processLiquidity h
  obtain ⟨-, -, hbacked⟩ := hs.load hR (hapart x hx) hh.token_load
  have hmoved := hseeds.pulled.moved
  have hkeeps := keeps_of_transfer hR hA (hsigners _ (owner_mem hx)) hmoved
  have hkeeps' := hseeds.stored.keeps hR
  intro k hderived hk howner
  rw [hseeds.stored.owner_eq, owner_of_transfer hR hmoved] at howner
  rcases eq_or_ne k x.record.key with rfl | hne
  · have hpulled := hseeds.pulled
    rw [← hh.vault_eq] at hpulled
    exact ⟨_, hseeds.stored.decodeToken,
      (hbacked.pull hkeeps hpulled hseeds.reserve_eq).keeps hkeeps'⟩
  · obtain ⟨t', ht', hb⟩ := hs k hderived hk howner
    refine ⟨t', ?_, (hb.keeps hkeeps).keeps hkeeps'⟩
    rw [hseeds.stored.other hne, data_of_transfer hR hmoved howner, ht']

/-- **Liquidity withdrawn.** -/
theorem solvent_of_withdraw (hR : R.Lawful) {amount : U64}
    (hapart : ∀ x, LiquidityAccounts.next accounts = .ok x → tokenKey R x.mint.key ≠ poolKey R)
    (hs : Solvent R s) (h : processLiquidity R s accounts amount false = .ok s') :
    Solvent R s' := by
  obtain ⟨x, pool, t, s₁, hx, hh, hw⟩ := withdraws_of_processLiquidity h
  obtain ⟨-, -, hbacked⟩ := hs.load hR (hapart x hx) hh.token_load
  have hpays := pays_of_transfer hR hw.moved
  rw [← hh.vault_eq] at hpays
  have hkeeps := hw.stored.keeps hR
  intro k hderived hk howner
  rw [hw.stored.owner_eq, owner_of_transfer hR hw.moved] at howner
  rcases eq_or_ne k x.record.key with rfl | hne
  · exact ⟨_, hw.stored.decodeToken, (hbacked.pay hpays hw.within).keeps hkeeps⟩
  · obtain ⟨t', ht', hb⟩ := hs k hderived hk howner
    refine ⟨t', ?_, (hb.pays hpays (hb.vault_ne hbacked hne)).keeps hkeeps⟩
    rw [hw.stored.other hne, data_of_transfer hR hw.moved howner, ht']

/-- **A swap pays from the one vault what is in the other record's reserve.** -/
theorem Swaps.solvent (hR : R.Lawful) (hA : R.Authorizes) {x : SwapAccounts} {pool : Pool}
    {recIn recOut : TokenRec} {now : Int64} {amountIn minAmountOut received out reserveIn : U64}
    {s₁ s₂ s₃ : Accounts}
    (huser : x.user.isSigner = true → R.isDerived x.user.key = false)
    (hin : Backed R s x.recIn.key recIn) (hout : Backed R s x.recOut.key recOut)
    (hne : x.recIn.key ≠ x.recOut.key) (hs : Solvent R s)
    (h : Swaps R clock s x pool recIn recOut now amountIn minAmountOut received out reserveIn s₁ s₂
      s₃ s') : Solvent R s' := by
  have hmoved := h.pulled.moved
  have hkeeps := keeps_of_transfer hR hA huser hmoved
  have hstored := (h.storedIn.keeps hR).trans (h.storedOut.keeps hR)
  have hpays := pays_of_transfer hR h.paid
  have hpulled := h.pulled
  rw [← h.vaultOut_eq] at hpays
  rw [← h.vaultIn_eq] at hpulled
  intro k hderived hk howner
  rw [owner_of_transfer hR h.paid] at howner
  have hdata : (s' k).data = (s₃ k).data := data_of_transfer hR h.paid howner
  rw [h.storedOut.owner_eq, h.storedIn.owner_eq, owner_of_transfer hR hmoved] at howner
  rw [hdata]
  rcases eq_or_ne k x.recOut.key with rfl | hneOut
  · have hkept := (hout.keeps hkeeps).keeps hstored
    exact ⟨_, h.storedOut.decodeToken, hkept.pay hpays h.locked⟩
  · rw [h.storedOut.other hneOut]
    rcases eq_or_ne k x.recIn.key with rfl | hneIn
    · have hkept := (hin.pull hkeeps hpulled h.reserveIn_eq).keeps hstored
      exact ⟨_, h.storedIn.decodeToken, hkept.pays hpays (hin.vault_ne hout hne)⟩
    · obtain ⟨t, ht, hb⟩ := hs k hderived hk howner
      refine ⟨t, ?_, ((hb.keeps hkeeps).keeps hstored).pays hpays (hb.vault_ne hout hneOut)⟩
      rw [h.storedIn.other hneIn, data_of_transfer hR hmoved howner, ht]

/-- **The two records of a swap.** -/
theorem Swaps.records (hR : R.Lawful) {x : SwapAccounts} {pool : Pool} {recIn recOut : TokenRec}
    {now : Int64} {amountIn minAmountOut received out reserveIn : U64} {s₁ s₂ s₃ : Accounts}
    (hx : SwapAccounts.next accounts = .ok x)
    (hf : Fair R s (.instruction clock accounts (.swap amountIn minAmountOut))) (hs : Solvent R s)
    (h : Swaps R clock s x pool recIn recOut now amountIn minAmountOut received out reserveIn s₁ s₂
      s₃ s') :
    (x.recIn.key = tokenKey R x.mintIn.key ∧ recIn.listed = true ∧ Backed R s x.recIn.key recIn) ∧
      (x.recOut.key = tokenKey R x.mintOut.key ∧ recOut.listed = true ∧
        Backed R s x.recOut.key recOut) ∧ x.recIn.key ≠ x.recOut.key := by
  have hmem : x.mintIn.key ∈ mintsOf s (.instruction clock accounts (.swap amountIn minAmountOut)) ∧
      x.mintOut.key ∈ mintsOf s (.instruction clock accounts (.swap amountIn minAmountOut)) := by
    simp [mintsOf, hx, Except.toOption]
  have hin := hs.load hR (hf.apart _ hmem.1) h.in_load
  have hout := hs.load hR (hf.apart _ hmem.2) h.out_load
  refine ⟨hin, hout, fun heq => ?_⟩
  rw [hin.1, hout.1] at heq
  exact h.mints_ne (hf.distinct _ hmem.1 _ hmem.2 heq)

end Steps

/-- **Every instruction that goes through keeps the pool solvent**, and so does everybody else. -/
theorem solvent_of_exec (hR : R.Lawful) (hA : R.Authorizes) {l : Label} {log : List SwappedEvent}
    (hf : Fair R s l) (hs : Solvent R s) (h : exec R s l = some (s', log)) : Solvent R s' := by
  cases l with
  | others want =>
    simp only [exec, Option.some.injEq, Prod.mk.injEq] at h
    rw [← h.1]
    refine hs.of_same (hf.vaults want rfl) fun k hderived _ howner => .inl (record_same ?_ howner)
    rw [Solana.others, if_pos (.inl hderived)]
    exact ⟨rfl, rfl⟩
  | instruction clock accounts ix =>
    have hsigners := hf.signers clock accounts ix rfl
    have h := exec_instruction h
    by_cases hix : ix.governs = true
    · obtain ⟨x, pool, hg⟩ := governs_of_instruction hix h
      exact hg.solvent hR hs
    · cases ix with
      | init a => exact solvent_of_processInit hR hsigners hs (quiet_eq_ok.mp h).1
      | listToken price => exact solvent_of_processListToken hR hs (quiet_eq_ok.mp h).1
      | setPrice price => exact absurd h (by simp [processInstruction])
      | setPriceFrom expected price => exact solvent_of_processSetPrice hR hs (quiet_eq_ok.mp h).1
      | seedLiquidity amount =>
        refine solvent_of_seed hR hA hsigners (fun x hx => ?_) hs (quiet_eq_ok.mp h).1
        exact hf.apart _ (by simp [mintsOf, hx, Except.toOption])
      | withdrawLiquidity amount =>
        refine solvent_of_withdraw hR (fun x hx => ?_) hs (quiet_eq_ok.mp h).1
        exact hf.apart _ (by simp [mintsOf, hx, Except.toOption])
      | swap amountIn minAmountOut =>
        obtain ⟨x, pool, recIn, recOut, now, received, out, reserveIn, s₁, s₂, s₃, hx, hswap, -⟩ :=
          swaps_of_processSwap h
        obtain ⟨hin, hout, hne⟩ := hswap.records hR hx hf hs
        exact hswap.solvent hR hA (hsigners _ (user_mem hx)) hin.2.2 hout.2.2 hne hs
      | _ => exact absurd rfl hix

/-! ### Runs -/

theorem attempt_eq_some {l : Label} {log : List SwappedEvent}
    (h : attempt R s l = some (s', log)) : exec R s l = some (s', log) ∨
      exec R s l = none ∧ s' = s ∧ log = [] := by
  rw [attempt, Option.some.injEq] at h
  rcases hexec : exec R s l with _ | r
  · rw [hexec] at h
    obtain ⟨rfl, rfl⟩ := Prod.mk.inj h
    exact .inr ⟨rfl, rfl, rfl⟩
  · rw [hexec] at h
    exact .inl (congrArg some h)

/-- **A run keeps the pool solvent.** -/
theorem solvent_of_run (hR : R.Lawful) (hA : R.Authorizes) {s₀ : Accounts} {tr : List Step}
    (h₀ : Deployed R.toRuntime s₀) (hrun : Run (attempt R) s₀ tr s)
    (hfair : ∀ e ∈ tr, Fair R e.pre e.label) : Solvent R s := by
  induction hrun with
  | nil => exact fun k _ _ howner => absurd howner (h₀.none k)
  | snoc hr he ih =>
    have hs := ih fun e hmem => hfair e (List.mem_append_left _ hmem)
    have hf := hfair _ (List.mem_append_right _ (List.mem_singleton_self _))
    rcases attempt_eq_some he with hexec | ⟨-, rfl, -⟩
    · exact solvent_of_exec hR hA hf hs hexec
    · exact hs

/-- **A run keeps the pool within its bounds**, and the record of a mint priced. -/
theorem sound_of_run (hR : R.Lawful) {mint : Pubkey} {s₀ : Accounts} {tr : List Step}
    (hkey : tokenKey R mint ≠ poolKey R) (h₀ : Deployed R.toRuntime s₀)
    (hrun : Run (attempt R) s₀ tr s) (hfair : ∀ e ∈ tr, Fair R e.pre e.label) :
    Sound R mint s := by
  induction hrun with
  | nil => exact sound_of_deployed h₀
  | snoc hr he ih =>
    have hs := ih fun e hmem => hfair e (List.mem_append_left _ hmem)
    have hf := hfair _ (List.mem_append_right _ (List.mem_singleton_self _))
    rcases attempt_eq_some he with hexec | ⟨-, rfl, -⟩
    · exact hs.step hR hkey hf.apart hexec
    · exact hs

/-! ### The worth of the reserves -/

variable (R) in
/-- The record that a mint is listed with. -/
def listedAt (mint : Pubkey) (s : Accounts) : Option TokenRec :=
  (tokenAt R mint s).filter fun t => t.mint = mint ∧ t.listed = true

/-- What a record quotes its mint at. -/
def TokenRec.listing (t : TokenRec) : Market.Listing := ⟨t.price.toNat, Nat.pow 10 t.decimals.toNat⟩

theorem TokenRec.listing_unit_pos (t : TokenRec) : 0 < t.listing.unit :=
  Nat.pow_pos (by decide : 0 < 10)

variable (R) in
/-- What the pool quotes. -/
def quotes (s : Accounts) (mint : Pubkey) : Market.Listing :=
  ((listedAt R mint s).map TokenRec.listing).getD ⟨0, 1⟩

variable (R) in
/-- What the pool has in reserve. -/
def reserves (s : Accounts) (mint : Pubkey) : ℕ :=
  ((listedAt R mint s).map fun t => t.reserve.toNat).getD 0

variable (R) in
/-- **The worth of the reserves**, exactly, at the prices there are. -/
def worth (s : Accounts) : ℚ := Market.value (quotes R s) Finset.univ (reserves R s)

theorem listedAt_eq_some {mint : Pubkey} {t : TokenRec} : listedAt R mint s = some t ↔
    tokenAt R mint s = some t ∧ t.mint = mint ∧ t.listed = true := by
  rw [listedAt, Option.filter_eq_some_iff, decide_eq_true_iff]

/-- Only numbers of decimals that have a power are traded. -/
theorem decimals_of_amountOut {amountIn out : U64} {priceIn priceOut : U128} {decIn decOut : UInt8}
    {feeBps : UInt16} (h : amountOut amountIn priceIn decIn priceOut decOut feeBps = some out) :
    decIn.toNat ≤ 38 ∧ decOut.toNat ≤ 38 := by
  rw [amountOut] at h
  split at h
  · cases h
  · simp only [Option.bind_eq_bind, Option.bind_eq_some_iff, pow10_eq_some] at h
    obtain ⟨-, ⟨hin, -⟩, -, -, -, -, -, ⟨hout, -⟩, -⟩ := h
    exact ⟨hin, hout⟩

section Trades

variable {clock : Clock} {accounts : List AccountInfo} {x : SwapAccounts} {pool : Pool}
  {recIn recOut : TokenRec} {now : Int64} {amountIn minAmountOut received out reserveIn : U64}
  {s₁ s₂ s₃ : Accounts}

/-- **The records after a swap**: two of them have other reserves. -/
theorem Swaps.tokenAt (hR : R.Lawful) (hne : x.recIn.key ≠ x.recOut.key)
    (h : Swaps R clock s x pool recIn recOut now amountIn minAmountOut received out reserveIn s₁ s₂
      s₃ s') (m : Pubkey) :
    (tokenKey R m = x.recIn.key → SolanaSwap.tokenAt R m s = some recIn ∧
      SolanaSwap.tokenAt R m s' = some { recIn with reserve := reserveIn }) ∧
    (tokenKey R m = x.recOut.key → SolanaSwap.tokenAt R m s = some recOut ∧
      SolanaSwap.tokenAt R m s' = some { recOut with reserve := recOut.reserve - out }) ∧
    (tokenKey R m ≠ x.recIn.key → tokenKey R m ≠ x.recOut.key →
      SolanaSwap.tokenAt R m s' = SolanaSwap.tokenAt R m s) := by
  have howner : ∀ k, (s' k).owner = (s k).owner := fun k => by
    rw [owner_of_transfer hR h.paid, h.storedOut.owner_eq, h.storedIn.owner_eq,
      owner_of_transfer hR h.pulled.moved]
  have hdata : ∀ k, (s k).owner = R.programId → (s' k).data = (s₃ k).data := fun k hk => by
    refine data_of_transfer hR h.paid ?_
    rw [← owner_of_transfer hR h.paid, howner, hk]
  obtain ⟨⟨-, hownerIn⟩, hdecodeIn, -⟩ := loadToken_eq_ok.mp h.in_load
  obtain ⟨⟨-, hownerOut⟩, hdecodeOut, -⟩ := loadToken_eq_ok.mp h.out_load
  refine ⟨fun hk => ?_, fun hk => ?_, fun hkIn hkOut => ?_⟩
  · simp only [tokenAt_eq_some, hk, howner]
    refine ⟨⟨hownerIn, hdecodeIn⟩, hownerIn, ?_⟩
    rw [hdata _ hownerIn, h.storedOut.other hne, h.storedIn.decodeToken]
  · simp only [tokenAt_eq_some, hk, howner]
    refine ⟨⟨hownerOut, hdecodeOut⟩, hownerOut, ?_⟩
    rw [hdata _ hownerOut, h.storedOut.decodeToken]
  · rw [SolanaSwap.tokenAt, SolanaSwap.tokenAt, howner]
    refine ite_congr rfl (fun hk => ?_) fun _ => rfl
    rw [hdata _ hk, h.storedOut.other hkOut, h.storedIn.other hkIn,
      data_of_transfer hR h.pulled.moved hk]

/-- What a mint is listed with after a swap. -/
theorem Swaps.listedAt (hR : R.Lawful) (hin : recIn.listed = true ∧ Backed R s x.recIn.key recIn)
    (hout : recOut.listed = true ∧ Backed R s x.recOut.key recOut)
    (hne : x.recIn.key ≠ x.recOut.key)
    (h : Swaps R clock s x pool recIn recOut now amountIn minAmountOut received out reserveIn s₁ s₂
      s₃ s') :
    (SolanaSwap.listedAt R recIn.mint s = some recIn ∧
      SolanaSwap.listedAt R recIn.mint s' = some { recIn with reserve := reserveIn }) ∧
    (SolanaSwap.listedAt R recOut.mint s = some recOut ∧
      SolanaSwap.listedAt R recOut.mint s' = some { recOut with reserve := recOut.reserve - out }) ∧
    ∀ m, m ≠ recIn.mint → m ≠ recOut.mint →
      SolanaSwap.listedAt R m s' = SolanaSwap.listedAt R m s := by
  refine ⟨?_, ?_, fun m hmIn hmOut => ?_⟩
  · obtain ⟨hbefore, hafter⟩ := (h.tokenAt hR hne recIn.mint).1 hin.2.key.symm
    exact ⟨listedAt_eq_some.mpr ⟨hbefore, rfl, hin.1⟩, listedAt_eq_some.mpr ⟨hafter, rfl, hin.1⟩⟩
  · obtain ⟨hbefore, hafter⟩ := (h.tokenAt hR hne recOut.mint).2.1 hout.2.key.symm
    exact ⟨listedAt_eq_some.mpr ⟨hbefore, rfl, hout.1⟩,
      listedAt_eq_some.mpr ⟨hafter, rfl, hout.1⟩⟩
  · obtain ⟨hkIn, hkOut, hother⟩ := h.tokenAt hR hne m
    rw [SolanaSwap.listedAt, SolanaSwap.listedAt]
    -- An address that two mints share has the record of neither.
    by_cases hIn : tokenKey R m = x.recIn.key
    · obtain ⟨hbefore, hafter⟩ := hkIn hIn
      rw [hbefore, hafter]
      simp [Option.filter, Ne.symm hmIn]
    by_cases hOut : tokenKey R m = x.recOut.key
    · obtain ⟨hbefore, hafter⟩ := hkOut hOut
      rw [hbefore, hafter]
      simp [Option.filter, Ne.symm hmOut]
    · rw [hother hIn hOut]

/-- **A swap moves no quote, and settles at those there are.** -/
theorem Swaps.settles (hR : R.Lawful) (hin : recIn.listed = true ∧ Backed R s x.recIn.key recIn)
    (hout : recOut.listed = true ∧ Backed R s x.recOut.key recOut)
    (hne : x.recIn.key ≠ x.recOut.key) (hfee : pool.feeBps.toNat ≤ SwapPool.BPS_DENOM)
    (h : Swaps R clock s x pool recIn recOut now amountIn minAmountOut received out reserveIn s₁ s₂
      s₃ s') :
    quotes R s' = quotes R s ∧
      Market.Trade.At SwapPool.BPS_DENOM pool.feeBps.toNat (quotes R s)
        ⟨recIn.mint, recOut.mint, received.toNat, out.toNat⟩ ∧
      Market.Trade.Settles ⟨recIn.mint, recOut.mint, received.toNat, out.toNat⟩ (reserves R s)
        (reserves R s') := by
  obtain ⟨⟨hbeforeIn, hafterIn⟩, ⟨hbeforeOut, hafterOut⟩, hother⟩ := h.listedAt hR hin hout hne
  have hmints : recIn.mint ≠ recOut.mint := by
    intro heq
    exact hne (by rw [hin.2.key, hout.2.key, heq])
  have hquotes : quotes R s' = quotes R s := by
    funext m
    rw [quotes, quotes]
    by_cases hIn : m = recIn.mint
    · rw [hIn, hbeforeIn, hafterIn]
      rfl
    by_cases hOut : m = recOut.mint
    · rw [hOut, hbeforeOut, hafterOut]
      rfl
    · rw [hother m hIn hOut]
  have hquoteIn : quotes R s recIn.mint = recIn.listing := by
    rw [quotes, hbeforeIn]
    rfl
  have hquoteOut : quotes R s recOut.mint = recOut.listing := by
    rw [quotes, hbeforeOut]
    rfl
  obtain ⟨hdecIn, hdecOut⟩ := decimals_of_amountOut h.out_eq
  obtain ⟨-, hprice, -, hquote⟩ :=
    (SwapMath.amountOut_eq_some hfee hdecIn hdecOut rfl rfl).mp h.out_eq
  have hpriceOut : 0 < recOut.listing.price :=
    Nat.pos_of_ne_zero fun hzero => hprice (BitVec.eq_of_toNat_eq hzero)
  refine ⟨hquotes, ?_, hmints, ?_, ?_, fun m hIn hOut => ?_⟩
  · rw [Market.Trade.At, hquoteIn, hquoteOut, hquote]
    exact Market.quoted_quote (by decide) hfee recIn.listing_unit_pos recOut.listing_unit_pos
      hpriceOut _
  · show reserves R s' recIn.mint = reserves R s recIn.mint + received.toNat
    rw [reserves, reserves, hbeforeIn, hafterIn]
    exact h.reserveIn_eq
  · show reserves R s' recOut.mint + out.toNat = reserves R s recOut.mint
    have hle : out.toNat ≤ recOut.reserve.toNat := h.locked
    rw [reserves, reserves, hbeforeOut, hafterOut]
    show (recOut.reserve - out).toNat + out.toNat = recOut.reserve.toNat
    rw [BitVec.toNat_sub_of_le h.locked]
    omega
  · rw [reserves, reserves, hother m hIn hOut]

/-- **A swap costs the reserves no worth**, at the prices there are, which it leaves. -/
theorem worth_le_of_swap (hR : R.Lawful) {log : List SwappedEvent} {mint : Pubkey}
    (hf : Fair R s (.instruction clock accounts (.swap amountIn minAmountOut))) (hs : Solvent R s)
    (hb : Sound R mint s)
    (h : exec R s (.instruction clock accounts (.swap amountIn minAmountOut)) = some (s', log)) :
    quotes R s' = quotes R s ∧ worth R s ≤ worth R s' := by
  obtain ⟨x, pool, recIn, recOut, now, received, out, reserveIn, s₁, s₂, s₃, hx, hswap, -⟩ :=
    swaps_of_processSwap (exec_instruction h)
  obtain ⟨hin, hout, hne⟩ := hswap.records hR hx hf hs
  -- The pool that was loaded is the pool, so its fee is bounded.
  have hfee : pool.feeBps.toNat ≤ SwapPool.BPS_DENOM := by
    obtain ⟨⟨hkey, howner⟩, hdecode⟩ := loadPool_eq_ok.mp hswap.pool_load
    rw [hkey] at howner hdecode
    obtain ⟨p, hp, hbounded⟩ := hb.pool howner
    obtain rfl := Option.some.inj (hdecode.symm.trans (poolAt_eq_some.mp hp).2)
    exact hbounded.fee.trans (by decide)
  obtain ⟨hquotes, hat, hsettles⟩ := hswap.settles hR hin.2 hout.2 hne hfee
  refine ⟨hquotes, ?_⟩
  rw [worth, worth, hquotes]
  exact Market.value_le_of_trade (by decide) hat hsettles (Finset.mem_univ _) (Finset.mem_univ _)

end Trades

/-! ### The price of the hub -/

variable (R) in
/-- **The hub is listed**, at a price. -/
structure HubAt (hub : Pubkey) (price : U128) (s : Accounts) : Prop where
  pool : ∃ p, poolAt R s = some p ∧ p.hubMint = hub
  listed : ∃ t, listedAt R hub s = some t ∧ t.price = price

/-- No setter makes another mint the hub. -/
theorem hubMint_govern (ix : SwapInstruction) (p : Pool) : (ix.govern p).hubMint = p.hubMint := by
  cases ix <;> rfl

/-- **One step leaves the hub its price**: a move names a mint that is not the hub. -/
theorem HubAt.step (hR : R.Lawful) {hub : Pubkey} {price : U128} {l : Label}
    {log : List SwappedEvent} (hkey : tokenKey R hub ≠ poolKey R)
    (hapart : ∀ m ∈ mintsOf s l, tokenKey R m ≠ poolKey R) (hs : HubAt R hub price s)
    (h : exec R s l = some (s', log)) : HubAt R hub price s' := by
  obtain ⟨p, hp, hhub⟩ := hs.pool
  obtain ⟨t, hlisted, hprice⟩ := hs.listed
  obtain ⟨ht, hmint, hon⟩ := listedAt_eq_some.mp hlisted
  constructor
  · rcases poolAt_of_exec hR hapart h hp with hsame | ⟨_, _, ix, -, hset, -⟩
    · exact ⟨p, hsame, hhub⟩
    · exact ⟨_, hset, (hubMint_govern ix p).trans hhub⟩
  · rcases tokenAt_of_exec hR hkey h ht with ⟨-, reserve, hsame⟩ | ⟨_, _, _, pool, _, _, _, -, -, -,
      hspec, -⟩
    · exact ⟨_, listedAt_eq_some.mpr ⟨hsame, hmint, hon⟩, hprice⟩
    · obtain ⟨⟨hpoolKey, -⟩, hpool⟩ := loadPool_eq_ok.mp hspec.pool_load
      rw [hpoolKey] at hpool
      obtain rfl := Option.some.inj (hpool.symm.trans (poolAt_eq_some.mp hp).2)
      exact absurd (hmint.trans hhub.symm) hspec.not_hub

/-- **A run leaves the hub its price.** -/
theorem HubAt.run (hR : R.Lawful) {hub : Pubkey} {price : U128} {s₁ : Accounts} {tr : List Step}
    (hkey : tokenKey R hub ≠ poolKey R) (hs : HubAt R hub price s₁)
    (hrun : Run (attempt R) s₁ tr s) (hfair : ∀ e ∈ tr, Fair R e.pre e.label) :
    HubAt R hub price s := by
  induction hrun with
  | nil => exact hs
  | snoc hr he ih =>
    have hs' := ih fun e hmem => hfair e (List.mem_append_left _ hmem)
    have hf := hfair _ (List.mem_append_right _ (List.mem_singleton_self _))
    rcases attempt_eq_some he with hexec | ⟨-, rfl, -⟩
    · exact hs'.step hR hkey hf.apart hexec
    · exact hs'

/-! ### Any run -/

/-- **The pool is solvent and loses nothing.** Whatever is submitted to it, by whomever and with
whatever accounts, from its deployment on:

* the reserve of a record is in the vault of the record, which is one of its mint;
* a swap that goes through leaves the quotes, and the reserves are worth no less at them;
* the hub, once it is listed, keeps its price;
* an instruction that fails leaves every account as it was, and logs nothing. -/
theorem pool_solvent {s₀ : Accounts} {tr : List Step} (hR : R.Lawful) (hA : R.Authorizes)
    (h₀ : Deployed R.toRuntime s₀) (hrun : Run (attempt R) s₀ tr s)
    (hfair : ∀ e ∈ tr, Fair R e.pre e.label) :
    (∀ mint t, tokenKey R mint ≠ poolKey R → tokenAt R mint s = some t →
      ∃ v, R.unpackTokenAccount (s t.vault).data = some v ∧ v.mint = t.mint ∧
        t.reserve.toNat ≤ v.amount.toNat) ∧
    (∀ e ∈ tr, ∀ clock accounts amountIn minAmountOut log,
      e.label = .instruction clock accounts (.swap amountIn minAmountOut) →
      processInstruction R clock e.pre accounts (.swap amountIn minAmountOut) = .ok (e.post, log) →
      quotes R e.post = quotes R e.pre ∧ worth R e.pre ≤ worth R e.post) ∧
    (∀ e ∈ tr, ∀ p t, tokenKey R p.hubMint ≠ poolKey R → poolAt R e.post = some p →
      listedAt R p.hubMint e.post = some t →
      ∃ p' t', poolAt R s = some p' ∧ p'.hubMint = p.hubMint ∧
        listedAt R p.hubMint s = some t' ∧ t'.price = t.price) ∧
    ∀ e ∈ tr, ∀ clock accounts ix failure, e.label = .instruction clock accounts ix →
      processInstruction R clock e.pre accounts ix = .error failure →
      e.post = e.pre ∧ e.out = [] := by
  refine ⟨?_, ?_, ?_, ?_⟩
  · intro mint t hkey ht
    obtain ⟨howner, hdecode⟩ := tokenAt_eq_some.mp ht
    obtain ⟨t', ht', hbacked⟩ := solvent_of_run hR hA h₀ hrun hfair _ (hR.toLawful.isDerived _) hkey
      howner
    obtain rfl := Option.some.inj (hdecode.symm.trans ht')
    obtain ⟨v, hv, hmint, -⟩ := hbacked.vault.state
    have hcovered := hbacked.covered
    rw [balance_eq hv] at hcovered
    exact ⟨v, hv, hmint, hcovered⟩
  · intro e he clock accounts amountIn minAmountOut log hl hok
    obtain ⟨tr₁, tr₂, rfl⟩ := List.append_of_mem he
    have hrun₁ := hrun.split.1
    have hfair₁ : ∀ e ∈ tr₁, Fair R e.pre e.label := fun e h =>
      hfair e (List.mem_append_left _ h)
    have hf := hfair e he
    rw [hl] at hf
    obtain ⟨x, _, _, _, _, _, _, _, _, _, _, hx, -⟩ := swaps_of_processSwap hok
    have hkey : tokenKey R x.mintIn.key ≠ poolKey R :=
      hf.apart _ (by simp [mintsOf, hx, Except.toOption])
    have hexec : exec R e.pre (.instruction clock accounts (.swap amountIn minAmountOut)) =
        some (e.post, log) := by
      rw [exec, hok]
    exact worth_le_of_swap hR hf (solvent_of_run hR hA h₀ hrun₁ hfair₁)
      (sound_of_run hR hkey h₀ hrun₁ hfair₁) hexec
  · intro e he p t hkey hp ht
    obtain ⟨tr₁, tr₂, rfl⟩ := List.append_of_mem he
    have hhub : HubAt R p.hubMint t.price e.post := ⟨⟨p, hp, rfl⟩, t, ht, rfl⟩
    obtain ⟨⟨p', hp', hmint⟩, t', ht', hprice⟩ := hhub.run hR hkey hrun.split.2.2 fun e h =>
      hfair e (List.mem_append_right _ (List.mem_cons_of_mem _ h))
    exact ⟨p', t', hp', hmint, ht', hprice⟩
  · intro e he clock accounts ix failure hl herror
    have hexec : exec R e.pre e.label = none := by
      rw [hl, exec, herror]
    have hstep := hrun.exec_of_mem he
    rw [attempt, hexec] at hstep
    obtain ⟨hpost, hout⟩ := Prod.mk.inj (Option.some.inj hstep)
    exact ⟨hpost.symm, hout.symm⟩

/-! ### A day at the pool -/

namespace Cluster

open Solana.Cluster (splTokenId mint vault userToken payer stored signer writable)

/-- The token program of the cluster checks who asks. -/
theorem authorizes : runtime.Authorizes where
  transfer := by
    intro source mintKey target authority signed amount decimals s s' h
    have h := (Option.ite_none_right_eq_some.mp h).2
    unfold Solana.Cluster.splTransfer at h
    split at h
    · next t u ht hu =>
      obtain ⟨⟨-, -, -, -, -, hsigned⟩, h⟩ := Option.ite_none_right_eq_some.mp h
      obtain ⟨t', hspend, -⟩ := Option.bind_eq_some_iff.mp h
      refine ⟨hsigned, t.account, ?_, Solana.Cluster.authorized_of_spend hspend⟩
      show (stored (s source).data).map Solana.Cluster.Stored.account = _
      rw [ht]
      rfl
    · cases h

/-- The hub is seeded with one whole token. -/
def seeding : Label :=
  .instruction (some 2000)
    [pda poolSeeds, signer payer, pda (tokenSeeds hubMint), writable hubToken, writable hubVault,
      writable hubMint, pda vaultAuthoritySeeds, writable splTokenId]
    (.seedLiquidity 1000000)

/-- A swap into the hub, for no less than some amount of it. -/
def swapping (minAmountOut : U64) : Label :=
  .instruction (some 3000)
    [pda poolSeeds, signer payer, pda (tokenSeeds mint), pda (tokenSeeds hubMint),
      writable userToken, writable hubToken, writable vault, writable hubVault, writable mint,
      writable hubMint, pda vaultAuthoritySeeds, writable splTokenId]
    (.swap 1000000 minAmountOut)

/-- The labels of a day: the pool is made and seeded, a swap goes through, and one that asks too
much fails. -/
def dayLabels : List Label :=
  listing SwapMath.PRICE_ONE ++ [seeding, swapping 997, swapping 998]

/-- The day. -/
def day : List Step × Accounts := traceOf (attempt runtime) deployed dayLabels

theorem fair_day {l : Label} (hl : l ∈ dayLabels) : Fair runtime s l := by
  have hpayer : (dayLabels.all fun l => l.casesOn (motive := fun _ => Bool)
      (fun _ accounts _ => accounts.all fun ai => !ai.isSigner || !isDerived ai.key)
      fun _ => false) = true := by decide +kernel
  have hsafe := List.all_eq_true.mp hpayer l hl
  have hmints : ∀ m ∈ mintsOf s l, m = mint ∨ m = hubMint := by
    intro m hm
    rcases List.mem_append.mp hl with hl | hl
    · rcases List.mem_pair.mp hl with rfl | rfl
      · cases hm
      · exact .inl (List.mem_singleton.mp hm)
    · simp only [List.mem_cons, List.not_mem_nil, or_false] at hl
      rcases hl with rfl | rfl | rfl
      · exact .inr (List.mem_singleton.mp hm)
      all_goals exact List.mem_pair.mp hm
  have hdistinct : tokenKey runtime mint ≠ tokenKey runtime hubMint := by decide +kernel
  refine ⟨?_, ?_, fun m _ => tokenKey_ne_poolKey m, ?_⟩
  · rintro clock accounts ix rfl ai hai hsigner
    have hai := List.all_eq_true.mp hsafe ai hai
    rw [hsigner] at hai
    exact Bool.not_eq_eq_eq_not.mp hai
  · rintro want rfl
    cases hsafe
  · intro m hm m' hm' heq
    rcases hmints m hm with rfl | rfl <;> rcases hmints m' hm' with rfl | rfl
    · rfl
    · exact absurd heq hdistinct
    · exact absurd heq.symm hdistinct
    · rfl

end Cluster

theorem pool_solvent_day :
    (∃ t v, tokenAt Cluster.runtime Cluster.hubMint Cluster.day.2 = some t ∧ t.reserve = 999003 ∧
      Cluster.runtime.unpackTokenAccount (Cluster.day.2 t.vault).data = some v ∧
      t.reserve.toNat ≤ v.amount.toNat) ∧
    ∃ e ∈ Cluster.day.1, e.label = Cluster.swapping 997 ∧
      worth Cluster.runtime e.pre ≤ worth Cluster.runtime e.post := by
  have hsome : (runFrom (attempt Cluster.runtime) Cluster.deployed Cluster.dayLabels).isSome =
      true := by decide +kernel
  have hlabels : Cluster.day.1.map Entry.label = Cluster.dayLabels := label_traceOf hsome
  have hfair : ∀ e ∈ Cluster.day.1, Fair Cluster.runtime e.pre e.label := fun e he =>
    Cluster.fair_day (hlabels ▸ List.mem_map_of_mem he)
  have hrun : Run (attempt Cluster.runtime) Cluster.deployed Cluster.day.1 Cluster.day.2 :=
    run_traceOf hsome
  obtain ⟨hreserves, hswaps, -⟩ := pool_solvent Cluster.lawful Cluster.authorizes
    Cluster.deployed_deployed hrun hfair
  constructor
  · have hhub : (tokenAt Cluster.runtime Cluster.hubMint Cluster.day.2).map
        (fun t => t.reserve) = some 999003 := by decide +kernel
    obtain ⟨t, ht, hreserve⟩ := Option.map_eq_some_iff.mp hhub
    obtain ⟨v, hv, -, hle⟩ := hreserves _ t (tokenKey_ne_poolKey _) ht
    exact ⟨t, v, ht, hreserve, hv, hle⟩
  · have houts : Cluster.day.1.map (fun e => e.out.length) = [0, 0, 0, 1, 0] := by decide +kernel
    have hfourth : (Cluster.day.1[3]?).isSome = true := by decide +kernel
    obtain ⟨e, he⟩ := Option.isSome_iff_exists.mp hfourth
    have hmem := List.mem_of_getElem? he
    have hlabel : e.label = Cluster.swapping 997 := by
      have hget := congrArg (fun ls => ls[3]?) hlabels
      simp only [List.getElem?_map, he, Option.map_some] at hget
      exact Option.some.inj hget
    have hout : e.out.length = 1 := by
      have hget := congrArg (fun ls => ls[3]?) houts
      simp only [List.getElem?_map, he, Option.map_some] at hget
      exact Option.some.inj hget
    -- It logged something, so it went through.
    rcases attempt_eq_some (hrun.exec_of_mem hmem) with hexec | ⟨-, -, hnil⟩
    · have hexec' := hexec
      rw [hlabel] at hexec'
      exact ⟨e, hmem, hlabel, (hswaps e hmem _ _ _ _ e.out hlabel (exec_instruction hexec')).2⟩
    · rw [hnil] at hout
      cases hout

end SolanaSwap

end SelendraBridge
