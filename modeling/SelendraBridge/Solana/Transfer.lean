import SelendraBridge.Solana.Ids

/-!
# The four instructions of a transfer

| instruction | where | takes | leaves |
|---|---|---|---|
| `send` | source | the sender's tokens | a sent record under the id, the corridor's next nonce |
| `claim` | target | a quorum on the id | the marker of the id, claimed |
| `cancel` | target | a quorum on the id's cancel digest | the same marker, cancelled |
| `refund` | source | a quorum on the id's refund digest | a marker of its own, the record zeroed |

Each takes its accounts from a list that the caller made up. What an instruction that
went through says about the state before and after it is inverted once, here
(`SelendraBridge.Solana.sends_of_processSend` and its three siblings).
-/

namespace SelendraBridge

namespace Solana

open Revert

/-- `SentEvent`. -/
structure SentEvent where
  version : UInt8
  submissionId : Bytes32
  debridgeId : Bytes32
  mint : Pubkey
  amount : U64
  bridgeDecimals : UInt8
  chainIdFrom : U64
  chainIdTo : U64
  nonce : U64
  receiver : Bytes
  nativeSender : Bytes
  auto : Option AutoParamsWire
  deriving DecidableEq, Repr

/-- `SENT_EVENT_VERSION`. -/
def SENT_EVENT_VERSION : UInt8 := 2

/-- What an instruction leaves in the log, with the transfers of tokens it called. -/
inductive Log
  | sent (e : SentEvent)
  | claimed (id : Bytes32)
  | cancelled (id debridgeId : Bytes32) (chainId nonce : U64)
  | refunded (id debridgeId : Bytes32) (chainId nonce : U64)
  | splTransfer (source target authority : Pubkey) (amount : U64)
  | scheduled (actionId : Bytes32)
  deriving DecidableEq, Repr

/-- What an instruction returns: the accounts and the log. -/
abbrev Result := Except ProgramError (Accounts × List Log)

/-! ### Arguments and accounts -/

/-- `SendArgs`. -/
structure SendArgs where
  debridgeId : Bytes32
  amount : U64
  chainIdTo : U64
  receiver : Bytes
  auto : Option AutoParamsWire
  deriving DecidableEq, Repr

/-- `ClaimArgs`, which are the `CancelArgs` too. -/
structure ClaimArgs where
  debridgeId : Bytes32
  amount : U64
  bridgeDecimals : UInt8
  chainIdFrom : U64
  nonce : U64
  receiver : Bytes
  auto : Option AutoParamsWire
  nativeSender : Bytes
  signatures : List Bytes
  deriving DecidableEq, Repr

/-- `RefundArgs`. -/
structure RefundArgs where
  debridgeId : Bytes32
  amount : U64
  bridgeDecimals : UInt8
  chainIdTo : U64
  nonce : U64
  receiver : Bytes
  auto : Option AutoParamsWire
  nativeSender : Bytes
  signatures : List Bytes
  deriving DecidableEq, Repr

/-- The accounts of `send`. -/
structure SendAccounts where
  config : AccountInfo
  asset : AccountInfo
  payer : AccountInfo
  userToken : AccountInfo
  vault : AccountInfo
  tokenProgram : AccountInfo
  sent : AccountInfo

/-- The accounts of `claim`. -/
structure ClaimAccounts where
  config : AccountInfo
  asset : AccountInfo
  executed : AccountInfo
  payer : AccountInfo
  vault : AccountInfo
  receiverToken : AccountInfo
  vaultAuthority : AccountInfo
  tokenProgram : AccountInfo

/-- The accounts of `cancel`. -/
structure CancelAccounts where
  config : AccountInfo
  executed : AccountInfo
  payer : AccountInfo

/-- The accounts of `refund`. -/
structure RefundAccounts where
  config : AccountInfo
  asset : AccountInfo
  sent : AccountInfo
  refunded : AccountInfo
  payer : AccountInfo
  vault : AccountInfo
  sourceToken : AccountInfo
  vaultAuthority : AccountInfo
  tokenProgram : AccountInfo

/-- The accounts of `send`, in the order of its list, the system program last. -/
def SendAccounts.next : List AccountInfo → Except ProgramError SendAccounts
  | config :: asset :: payer :: userToken :: vault :: tokenProgram :: sent :: _ :: _ =>
    .ok ⟨config, asset, payer, userToken, vault, tokenProgram, sent⟩
  | _ => .error .notEnoughAccountKeys

/-- The accounts of `claim`. -/
def ClaimAccounts.next : List AccountInfo → Except ProgramError ClaimAccounts
  | config :: asset :: executed :: payer :: vault :: receiverToken :: vaultAuthority ::
      tokenProgram :: _ :: _ =>
    .ok ⟨config, asset, executed, payer, vault, receiverToken, vaultAuthority, tokenProgram⟩
  | _ => .error .notEnoughAccountKeys

/-- The accounts of `cancel`. -/
def CancelAccounts.next : List AccountInfo → Except ProgramError CancelAccounts
  | config :: executed :: payer :: _ :: _ => .ok ⟨config, executed, payer⟩
  | _ => .error .notEnoughAccountKeys

/-- The accounts of `refund`. -/
def RefundAccounts.next : List AccountInfo → Except ProgramError RefundAccounts
  | config :: asset :: sent :: refunded :: payer :: vault :: sourceToken :: vaultAuthority ::
      tokenProgram :: _ :: _ =>
    .ok ⟨config, asset, sent, refunded, payer, vault, sourceToken, vaultAuthority, tokenProgram⟩
  | _ => .error .notEnoughAccountKeys

/-! ### The parameters of an id -/

/-- The parameters of a send of `wire`. -/
def sendParams (cfg : Config) (asset : AssetConfig) (payer : Pubkey) (a : SendArgs) (wire : U64) :
    IdParams where
  debridgeId := a.debridgeId
  bridgeDecimals := asset.bridgeDecimals
  amount := wire
  chainIdFrom := cfg.chainId
  chainIdTo := a.chainIdTo
  nonce := cfg.nonce a.chainIdTo
  receiver := a.receiver
  auto := a.auto
  nativeSender := wordBytes payer

/-- The parameters of a claim or a cancellation: this chain is the target. -/
def claimParams (cfg : Config) (a : ClaimArgs) : IdParams where
  debridgeId := a.debridgeId
  bridgeDecimals := a.bridgeDecimals
  amount := a.amount
  chainIdFrom := a.chainIdFrom
  chainIdTo := cfg.chainId
  nonce := a.nonce
  receiver := a.receiver
  auto := a.auto
  nativeSender := a.nativeSender

/-- The parameters of a refund: this chain is the source. -/
def refundParams (cfg : Config) (a : RefundArgs) : IdParams where
  debridgeId := a.debridgeId
  bridgeDecimals := a.bridgeDecimals
  amount := a.amount
  chainIdFrom := cfg.chainId
  chainIdTo := a.chainIdTo
  nonce := a.nonce
  receiver := a.receiver
  auto := a.auto
  nativeSender := a.nativeSender

/-! ### The instructions -/

section Instructions

variable (R : Runtime) (clock : Clock) (s : Accounts) (accounts : List AccountInfo)

/-- `process_send`. -/
def processSend (a : SendArgs) : Result := do
  check (a.amount ≠ 0) .zeroAmount
  check (a.receiver.length = 20 ∨ a.receiver.length = 32) .badReceiver
  let x ← SendAccounts.next accounts
  let cfg ← loadConfig R s x.config
  check (cfg.paused = false) .paused
  check (cfg.isSealed = true) .notSealed
  check (cfg.corridorRegistered a.chainIdTo = true) .corridorNotRegistered
  let asset ← loadAsset R s a.debridgeId x.asset
  let vault ← splMintAndOwner R s x.vault x.tokenProgram
  let user ← splMintAndOwner R s x.userToken x.tokenProgram
  verifyAssetBinding R asset x.tokenProgram.key x.vault.key vault.mint user.mint
  let wireAmount ← asset.toWire a.amount
  let p := sendParams cfg asset x.payer.key a wireAmount
  let id := submissionId R.keccak256 cfg.bridgeDomain p
  let bumped ← cfg.bumpNonce a.chainIdTo
  let s ← bumped.store R s x.config
  revertIf (x.sent.key ≠ R.findProgramAddress (sentSeeds id)) .invalidSeeds
  let lockedAt ← orRevert .unsupportedSysvar clock
  let s ← createSentRecord R s x.payer x.sent
    ⟨a.debridgeId, x.payer.key, x.userToken.key, asset.mint, a.amount, lockedAt⟩
  let s ← invoke
    (R.splTransfer x.userToken.key x.vault.key x.payer.key x.payer.isSigner a.amount s)
  return (s, [.sent ⟨SENT_EVENT_VERSION, id, a.debridgeId, asset.mint, wireAmount,
      asset.bridgeDecimals, cfg.chainId, a.chainIdTo, p.nonce, a.receiver, p.nativeSender, a.auto⟩,
    .splTransfer x.userToken.key x.vault.key x.payer.key a.amount])

/-- `process_claim`. -/
def processClaim (a : ClaimArgs) : Result := do
  let x ← ClaimAccounts.next accounts
  let cfg ← loadConfig R s x.config
  check (cfg.paused = false) .paused
  check (cfg.isSealed = true) .notSealed
  let asset ← loadAsset R s a.debridgeId x.asset
  let receiver ← orRevert (.custom .badReceiver) (BigEndian.toWord 32 a.receiver)
  check (x.receiverToken.key = receiver) .badReceiver
  let vault ← splMintAndOwner R s x.vault x.tokenProgram
  let recv ← receiverTokenAccount R s x.receiverToken x.tokenProgram
  verifyAssetBinding R asset x.tokenProgram.key x.vault.key vault.mint recv.mint
  check (a.bridgeDecimals = asset.bridgeDecimals) .bridgeScaleMismatch
  let id := submissionId R.keccak256 cfg.bridgeDomain (claimParams cfg a)
  revertIf (x.executed.key ≠ R.findProgramAddress (executedSeeds id)) .invalidSeeds
  check (isAlreadyExecuted R (s x.executed.key) = false) .alreadyExecuted
  verifyThreshold R cfg id a.signatures
  let localAmount ← asset.toLocal a.amount
  let s ← createMarker R s x.payer x.executed MARKER_CLAIMED
  revertIf (x.vaultAuthority.key ≠ R.findProgramAddress vaultAuthoritySeeds) .invalidSeeds
  let s ← invoke
    (R.splTransfer x.vault.key x.receiverToken.key x.vaultAuthority.key true localAmount s)
  return (s, [.splTransfer x.vault.key x.receiverToken.key x.vaultAuthority.key localAmount,
    .claimed id])

/-- `process_cancel`. -/
def processCancel (a : ClaimArgs) : Result := do
  let x ← CancelAccounts.next accounts
  let cfg ← loadConfig R s x.config
  check (cfg.paused = false) .paused
  let id := submissionId R.keccak256 cfg.bridgeDomain (claimParams cfg a)
  revertIf (x.executed.key ≠ R.findProgramAddress (executedSeeds id)) .invalidSeeds
  check (isAlreadyExecuted R (s x.executed.key) = false) .alreadyExecuted
  verifyThreshold R cfg (cancelId R.keccak256 id) a.signatures
  let s ← createMarker R s x.payer x.executed MARKER_CANCELLED
  return (s, [.cancelled id a.debridgeId a.chainIdFrom a.nonce])

/-- `process_refund`, which a pause does not stop. -/
def processRefund (a : RefundArgs) : Result := do
  let x ← RefundAccounts.next accounts
  let cfg ← loadConfig R s x.config
  let id := submissionId R.keccak256 cfg.bridgeDomain (refundParams cfg a)
  revertIf (x.refunded.key ≠ R.findProgramAddress (refundedSeeds id)) .invalidSeeds
  check (isAlreadyExecuted R (s x.refunded.key) = false) .alreadyExecuted
  let sent ← loadSentRecord R s id x.sent
  revertIf (sent.debridgeId ≠ a.debridgeId) .invalidAccountData
  verifyThreshold R cfg (refundId R.keccak256 id) a.signatures
  let asset ← loadAsset R s a.debridgeId x.asset
  revertIf (x.sourceToken.key ≠ sent.sourceToken) .invalidAccountData
  let vault ← splMintAndOwner R s x.vault x.tokenProgram
  let dest ← receiverTokenAccount R s x.sourceToken x.tokenProgram
  verifyAssetBinding R asset x.tokenProgram.key x.vault.key vault.mint dest.mint
  let s ← createMarker R s x.payer x.refunded MARKER_CLAIMED
  let s ← writeData R s x.sent (List.replicate (s x.sent.key).data.length 0)
  revertIf (x.vaultAuthority.key ≠ R.findProgramAddress vaultAuthoritySeeds) .invalidSeeds
  let s ← invoke
    (R.splTransfer x.vault.key x.sourceToken.key x.vaultAuthority.key true sent.amount s)
  return (s, [.splTransfer x.vault.key x.sourceToken.key x.vaultAuthority.key sent.amount,
    .refunded id a.debridgeId cfg.chainId a.nonce])

end Instructions

/-! ### What an instruction that went through says -/

variable {R : Runtime} {clock : Clock} {s : Accounts} {accounts : List AccountInfo}

/-- The config that an instruction was handed is the program's. -/
structure Configured (R : Runtime) (s : Accounts) (ai : AccountInfo) (cfg : Config) : Prop where
  key : ai.key = R.findProgramAddress configSeeds
  owner : (s ai.key).owner = R.programId
  decoded : ∃ rest, configCodec.get (s ai.key).data = some (cfg, rest)

theorem configured_of_loadConfig {ai : AccountInfo} {cfg : Config}
    (h : loadConfig R s ai = .ok cfg) : Configured R s ai cfg := by
  simp only [loadConfig, bind_eq_ok, exists_unit, verifyPda_eq_ok, orRevert_eq_ok,
    Option.map_eq_some_iff] at h
  obtain ⟨⟨hkey, howner⟩, ⟨cfg', rest⟩, hget, rfl⟩ := h
  exact ⟨hkey, howner, rest, hget⟩

/-- The asset that an instruction was handed is registered under its id. -/
structure Registered (R : Runtime) (s : Accounts) (debridgeId : Bytes32) (ai : AccountInfo)
    (asset : AssetConfig) : Prop where
  key : ai.key = R.findProgramAddress (assetSeeds debridgeId)
  owner : (s ai.key).owner = R.programId
  decoded : decodeAssetConfig (s ai.key).data = .ok asset
  debridgeId_eq : asset.debridgeId = debridgeId

theorem registered_of_loadAsset {debridgeId : Bytes32} {ai : AccountInfo} {asset : AssetConfig}
    (h : loadAsset R s debridgeId ai = .ok asset) : Registered R s debridgeId ai asset := by
  simp only [loadAsset, bind_eq_ok, exists_unit, verifyPda_eq_ok, revertIf_eq_ok, pure_eq_ok,
    not_not] at h
  obtain ⟨⟨hkey, howner⟩, asset', hdec, hid, rfl⟩ := h
  exact ⟨hkey, howner, hdec, hid⟩

/-- The tokens that an instruction moves are the asset's, on the asset's vault. -/
structure Bound (R : Runtime) (s : Accounts) (asset : AssetConfig)
    (tokenProgram vault counterpart : AccountInfo) : Prop where
  program_eq : tokenProgram.key = R.splTokenId
  vault_eq : vault.key = asset.vault
  vault_owner : (s vault.key).owner = R.splTokenId
  counterpart_owner : (s counterpart.key).owner = R.splTokenId
  mints : ∃ t t', R.unpackTokenAccount (s vault.key).data = some t ∧
    R.unpackTokenAccount (s counterpart.key).data = some t' ∧
    t.mint = asset.mint ∧ t'.mint = asset.mint

theorem verifyAssetBinding_eq_ok {asset : AssetConfig} {tp vault vaultMint mint : Pubkey}
    {u : Unit} : verifyAssetBinding R asset tp vault vaultMint mint = .ok u ↔
      tp = R.splTokenId ∧ vault = asset.vault ∧ vaultMint = asset.mint ∧ mint = asset.mint := by
  simp only [verifyAssetBinding, bind_eq_ok, exists_unit, revertIf_eq_ok, not_not, not_or]

theorem splMintAndOwner_eq_ok {token tp : AccountInfo} {t : TokenAccount} :
    splMintAndOwner R s token tp = .ok t ↔
      (s token.key).owner = tp.key ∧ R.unpackTokenAccount (s token.key).data = some t := by
  rw [splMintAndOwner, revertIf_bind_eq_ok, orRevert_eq_ok, not_not]

theorem receiverTokenAccount_eq_ok {token tp : AccountInfo} {t : TokenAccount} :
    receiverTokenAccount R s token tp = .ok t ↔
      (s token.key).owner = tp.key ∧ R.unpackTokenAccount (s token.key).data = some t := by
  rw [receiverTokenAccount, check, revertIf_bind_eq_ok, orRevert_eq_ok, not_not]

theorem bound_of_verify {asset : AssetConfig} {tp vault token : AccountInfo} {t t' : TokenAccount}
    {u : Unit} (hv : splMintAndOwner R s vault tp = .ok t)
    (ht : (s token.key).owner = tp.key ∧ R.unpackTokenAccount (s token.key).data = some t')
    (h : verifyAssetBinding R asset tp.key vault.key t.mint t'.mint = .ok u) :
    Bound R s asset tp vault token := by
  obtain ⟨htp, hvault, hm, hm'⟩ := verifyAssetBinding_eq_ok.mp h
  obtain ⟨hvo, hvt⟩ := splMintAndOwner_eq_ok.mp hv
  exact ⟨htp, hvault, hvo.trans htp, ht.1.trans htp, t, t', hvt, ht.2, hm, hm'⟩

/-- **A send that went through.** -/
structure Sends (R : Runtime) (clock : Clock) (s : Accounts) (a : SendArgs) (x : SendAccounts)
    (cfg : Config) (asset : AssetConfig) (wire : U64) (id : Bytes32) (s' : Accounts)
    (log : List Log) : Prop where
  amount_ne : a.amount ≠ 0
  receiver : a.receiver.length = 20 ∨ a.receiver.length = 32
  config : Configured R s x.config cfg
  paused : cfg.paused = false
  isSealed : cfg.isSealed = true
  registered : Registered R s a.debridgeId x.asset asset
  bound : Bound R s asset x.tokenProgram x.vault x.userToken
  wire_eq : asset.toWire a.amount = .ok wire
  id_eq : id = submissionId R.keccak256 cfg.bridgeDomain (sendParams cfg asset x.payer.key a wire)
  sent_key : x.sent.key = R.findProgramAddress (sentSeeds id)
  /-- The nonce is written, then the record, then the tokens move. -/
  steps : ∃ bumped s₁ s₂ lockedAt, cfg.bumpNonce a.chainIdTo = .ok bumped ∧
    bumped.store R s x.config = .ok s₁ ∧
    createSentRecord R s₁ x.payer x.sent
      ⟨a.debridgeId, x.payer.key, x.userToken.key, asset.mint, a.amount, lockedAt⟩ = .ok s₂ ∧
    R.splTransfer x.userToken.key x.vault.key x.payer.key x.payer.isSigner a.amount s₂ = some s'
  log : log = [.sent ⟨SENT_EVENT_VERSION, id, a.debridgeId, asset.mint, wire, asset.bridgeDecimals,
      cfg.chainId, a.chainIdTo, cfg.nonce a.chainIdTo, a.receiver, wordBytes x.payer.key, a.auto⟩,
    .splTransfer x.userToken.key x.vault.key x.payer.key a.amount]

theorem sends_of_processSend {a : SendArgs} {s' : Accounts} {log : List Log}
    (h : processSend R clock s accounts a = .ok (s', log)) :
    ∃ x cfg asset wire id, SendAccounts.next accounts = .ok x ∧
      Sends R clock s a x cfg asset wire id s' log := by
  simp only [processSend, bind_eq_ok, exists_unit, check_eq_ok, revertIf_eq_ok, orRevert_eq_ok,
    invoke_eq_ok, pure_eq_ok, not_not, Prod.mk.injEq] at h
  obtain ⟨hamount, hrecv, x, hx, cfg, hcfg, hpaused, hsealed, -, asset, hasset, vault, hvault, user,
    huser, hbind, wire, hwire, bumped, hbump, s₁, hs₁, hkey, lockedAt, -, s₂, hs₂, s₃, hs₃, rfl,
    rfl⟩ := h
  exact ⟨x, cfg, asset, wire, _, hx, hamount, hrecv, configured_of_loadConfig hcfg, hpaused,
    hsealed, registered_of_loadAsset hasset,
    bound_of_verify hvault (splMintAndOwner_eq_ok.mp huser) hbind, hwire, rfl, hkey,
    ⟨bumped, s₁, s₂, lockedAt, hbump, hs₁, hs₂, hs₃⟩, rfl⟩

/-- **A claim that went through.** -/
structure Claims (R : Runtime) (s : Accounts) (a : ClaimArgs) (x : ClaimAccounts) (cfg : Config)
    (asset : AssetConfig) (localAmount : U64) (id : Bytes32) (s' : Accounts) (log : List Log) :
    Prop where
  config : Configured R s x.config cfg
  paused : cfg.paused = false
  isSealed : cfg.isSealed = true
  registered : Registered R s a.debridgeId x.asset asset
  receiver : BigEndian.toWord 32 a.receiver = some x.receiverToken.key
  bound : Bound R s asset x.tokenProgram x.vault x.receiverToken
  scale : a.bridgeDecimals = asset.bridgeDecimals
  id_eq : id = submissionId R.keccak256 cfg.bridgeDomain (claimParams cfg a)
  executed_key : x.executed.key = R.findProgramAddress (executedSeeds id)
  executed : isAlreadyExecuted R (s x.executed.key) = false
  quorum : verifyThreshold R cfg id a.signatures = .ok ()
  localAmount_eq : asset.toLocal a.amount = .ok localAmount
  /-- The marker is written, then the tokens move. -/
  steps : ∃ s₁, createMarker R s x.payer x.executed MARKER_CLAIMED = .ok s₁ ∧
    R.splTransfer x.vault.key x.receiverToken.key x.vaultAuthority.key true localAmount s₁ = some s'
  log : log = [.splTransfer x.vault.key x.receiverToken.key x.vaultAuthority.key localAmount,
    .claimed id]

theorem claims_of_processClaim {a : ClaimArgs} {s' : Accounts} {log : List Log}
    (h : processClaim R s accounts a = .ok (s', log)) :
    ∃ x cfg asset localAmount id, ClaimAccounts.next accounts = .ok x ∧
      Claims R s a x cfg asset localAmount id s' log := by
  simp only [processClaim, bind_eq_ok, exists_unit, check_eq_ok, revertIf_eq_ok, orRevert_eq_ok,
    invoke_eq_ok, pure_eq_ok, not_not, Prod.mk.injEq] at h
  obtain ⟨x, hx, cfg, hcfg, hpaused, hsealed, asset, hasset, receiver, hrecv, hrkey, vault, hvault,
    recv, hr, hbind, hscale, hkey, hex, hq, localAmount, hlocal, s₁, hs₁, -, s₂, hs₂, rfl, rfl⟩ := h
  exact ⟨x, cfg, asset, localAmount, _, hx, configured_of_loadConfig hcfg, hpaused, hsealed,
    registered_of_loadAsset hasset, hrkey ▸ hrecv,
    bound_of_verify hvault (receiverTokenAccount_eq_ok.mp hr) hbind, hscale, rfl, hkey, hex, hq,
    hlocal, ⟨s₁, hs₁, hs₂⟩, rfl⟩

/-- **A cancellation that went through.** -/
structure Cancels (R : Runtime) (s : Accounts) (a : ClaimArgs) (x : CancelAccounts) (cfg : Config)
    (id : Bytes32) (s' : Accounts) (log : List Log) : Prop where
  config : Configured R s x.config cfg
  paused : cfg.paused = false
  id_eq : id = submissionId R.keccak256 cfg.bridgeDomain (claimParams cfg a)
  executed_key : x.executed.key = R.findProgramAddress (executedSeeds id)
  executed : isAlreadyExecuted R (s x.executed.key) = false
  quorum : verifyThreshold R cfg (cancelId R.keccak256 id) a.signatures = .ok ()
  step : createMarker R s x.payer x.executed MARKER_CANCELLED = .ok s'
  log : log = [.cancelled id a.debridgeId a.chainIdFrom a.nonce]

theorem processCancel_eq_ok {a : ClaimArgs} {s' : Accounts} {log : List Log} :
    processCancel R s accounts a = .ok (s', log) ↔
      ∃ x cfg id, CancelAccounts.next accounts = .ok x ∧ loadConfig R s x.config = .ok cfg ∧
        cfg.paused = false ∧
        id = submissionId R.keccak256 cfg.bridgeDomain (claimParams cfg a) ∧
        x.executed.key = R.findProgramAddress (executedSeeds id) ∧
        isAlreadyExecuted R (s x.executed.key) = false ∧
        verifyThreshold R cfg (cancelId R.keccak256 id) a.signatures = .ok () ∧
        createMarker R s x.payer x.executed MARKER_CANCELLED = .ok s' ∧
        log = [.cancelled id a.debridgeId a.chainIdFrom a.nonce] := by
  simp only [processCancel, bind_eq_ok, exists_unit, check_eq_ok, revertIf_eq_ok, pure_eq_ok,
    not_not, Prod.mk.injEq]
  constructor
  · rintro ⟨x, hx, cfg, hcfg, hpaused, hkey, hex, hq, s₁, hs₁, rfl, rfl⟩
    exact ⟨x, cfg, _, hx, hcfg, hpaused, rfl, hkey, hex, hq, hs₁, rfl⟩
  · rintro ⟨x, cfg, id, hx, hcfg, hpaused, rfl, hkey, hex, hq, hs₁, rfl⟩
    exact ⟨x, hx, cfg, hcfg, hpaused, hkey, hex, hq, s', hs₁, rfl, rfl⟩

theorem cancels_of_processCancel {a : ClaimArgs} {s' : Accounts} {log : List Log}
    (h : processCancel R s accounts a = .ok (s', log)) :
    ∃ x cfg id, CancelAccounts.next accounts = .ok x ∧ Cancels R s a x cfg id s' log := by
  obtain ⟨x, cfg, id, hx, hcfg, hpaused, hid, hkey, hex, hq, hs', hlog⟩ := processCancel_eq_ok.mp h
  exact ⟨x, cfg, id, hx, configured_of_loadConfig hcfg, hpaused, hid, hkey, hex, hq, hs', hlog⟩

/-- **A refund that went through.** -/
structure Refunds (R : Runtime) (s : Accounts) (a : RefundArgs) (x : RefundAccounts) (cfg : Config)
    (asset : AssetConfig) (sent : SentRecord) (id : Bytes32) (s' : Accounts) (log : List Log) :
    Prop where
  config : Configured R s x.config cfg
  id_eq : id = submissionId R.keccak256 cfg.bridgeDomain (refundParams cfg a)
  refunded_key : x.refunded.key = R.findProgramAddress (refundedSeeds id)
  refunded : isAlreadyExecuted R (s x.refunded.key) = false
  sent_key : x.sent.key = R.findProgramAddress (sentSeeds id)
  sent_owner : (s x.sent.key).owner = R.programId
  sent_ne : (s x.sent.key).data ≠ []
  sent_eq : decodeSentRecord (s x.sent.key).data = .ok sent
  debridgeId_eq : sent.debridgeId = a.debridgeId
  quorum : verifyThreshold R cfg (refundId R.keccak256 id) a.signatures = .ok ()
  registered : Registered R s a.debridgeId x.asset asset
  source_eq : x.sourceToken.key = sent.sourceToken
  bound : Bound R s asset x.tokenProgram x.vault x.sourceToken
  /-- The marker is written, the record zeroed, then the tokens move. -/
  steps : ∃ s₁ s₂, createMarker R s x.payer x.refunded MARKER_CLAIMED = .ok s₁ ∧
    writeData R s₁ x.sent (List.replicate (s₁ x.sent.key).data.length 0) = .ok s₂ ∧
    R.splTransfer x.vault.key x.sourceToken.key x.vaultAuthority.key true sent.amount s₂ = some s'
  log : log = [.splTransfer x.vault.key x.sourceToken.key x.vaultAuthority.key sent.amount,
    .refunded id a.debridgeId cfg.chainId a.nonce]

theorem refunds_of_processRefund {a : RefundArgs} {s' : Accounts} {log : List Log}
    (h : processRefund R s accounts a = .ok (s', log)) :
    ∃ x cfg asset sent id, RefundAccounts.next accounts = .ok x ∧
      Refunds R s a x cfg asset sent id s' log := by
  simp only [processRefund, loadSentRecord, bind_eq_ok, exists_unit, check_eq_ok, revertIf_eq_ok,
    verifyPda_eq_ok, invoke_eq_ok, pure_eq_ok, not_not, Prod.mk.injEq] at h
  obtain ⟨x, hx, cfg, hcfg, hkey, href, sent, ⟨⟨hskey, hsowner⟩, hsne, hsent⟩, hdeb, hq, asset,
    hasset, hsource, vault, hvault, dest, hdest, hbind, s₁, hs₁, s₂, hs₂, -, s₃, hs₃, rfl, rfl⟩ := h
  exact ⟨x, cfg, asset, sent, _, hx, configured_of_loadConfig hcfg, rfl, hkey, href, hskey, hsowner,
    hsne, hsent, hdeb, hq, registered_of_loadAsset hasset, hsource,
    bound_of_verify hvault (receiverTokenAccount_eq_ok.mp hdest) hbind, ⟨s₁, s₂, hs₁, hs₂, hs₃⟩,
    rfl⟩

end Solana

end SelendraBridge
