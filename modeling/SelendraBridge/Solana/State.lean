import SelendraBridge.Lib.Borsh
import SelendraBridge.Solana.Runtime

/-!
# What the Solana gate stores

| account | seeds | holds |
|---|---|---|
| config | `config` | the validators and their threshold, the corridors with their nonces |
| asset | `asset`, id | the mint and the vault of an asset, and its scale |
| sent | `sent`, id | what a transfer locked, and whose it was |
| marker | `executed`, id | one byte, claimed or cancelled |
| marker | `refunded`, id | one byte |
| schedule | `gov`, action | when an action of the owner is ready |
| binding | `vault`, vault | the mint and the scale that a vault is committed to |

The records are Borsh. Two of them have an older layout that still reads: an asset from
before there were scales is one of scale zero on both sides, and a sent record without a
time was locked at time zero.
-/

namespace SelendraBridge

namespace Solana

open Borsh Revert

/-! ### Records -/

/-- `Config`. -/
structure Config where
  owner : Pubkey
  bridgeDomain : Bytes32
  guardian : Pubkey
  validators : List Address
  threshold : BitVec 32
  chainId : U64
  paused : Bool
  maxValidators : BitVec 32
  maxCorridors : BitVec 32
  /-- By target chain: the next nonce. -/
  nonceTo : List (U64 × U64)
  isSealed : Bool
  setupDeadline : BitVec 64
  deriving DecidableEq

/-- `AssetConfig`. -/
structure AssetConfig where
  debridgeId : Bytes32
  mint : Pubkey
  vault : Pubkey
  bridgeDecimals : UInt8
  localDecimals : UInt8
  deriving DecidableEq, Repr

/-- `SentRecord`. -/
structure SentRecord where
  debridgeId : Bytes32
  sender : Pubkey
  sourceToken : Pubkey
  mint : Pubkey
  amount : U64
  lockedAt : BitVec 64
  deriving DecidableEq, Repr

/-- `GovernanceSchedule`; not scheduled at zero. -/
structure GovernanceSchedule where
  readyAt : BitVec 64
  deriving DecidableEq, Repr

/-- `VaultBinding`. -/
structure VaultBinding where
  mint : Pubkey
  bridgeDecimals : UInt8
  deriving DecidableEq, Repr

/-- The codec of a 32-byte array. -/
def word : Codec Bytes32 := .array 32

theorem length_put_word (w : Bytes32) : (word.put w).length = 32 := by
  rw [word, Codec.length_put_array]

/-- The codec of a 20-byte array. -/
def address : Codec Address := .array 20

/-- The codec of a `u64` or an `i64`. -/
def u64 : Codec U64 := .uint 8

/-- The codec of a `u32`. -/
def u32 : Codec (BitVec 32) := .uint 4

/-- The codec of a config. -/
def configCodec : Codec Config :=
  (word.pair <| word.pair <| word.pair <| address.vec.pair <| u32.pair <| u64.pair <|
    Codec.bool.pair <| u32.pair <| u32.pair <| (u64.pair u64).vec.pair <|
      Codec.bool.pair u64).iso
    (fun (owner, bridgeDomain, guardian, validators, threshold, chainId, paused, maxValidators,
        maxCorridors, nonceTo, isSealed, setupDeadline) =>
      ⟨owner, bridgeDomain, guardian, validators, threshold, chainId, paused, maxValidators,
        maxCorridors, nonceTo, isSealed, setupDeadline⟩)
    (fun c => (c.owner, c.bridgeDomain, c.guardian, c.validators, c.threshold, c.chainId, c.paused,
      c.maxValidators, c.maxCorridors, c.nonceTo, c.isSealed, c.setupDeadline))
    fun _ => rfl

/-- The codec of an asset. -/
def assetCodec : Codec AssetConfig :=
  (word.pair <| word.pair <| word.pair <| Codec.u8.pair Codec.u8).iso
    (fun (debridgeId, mint, vault, bridgeDecimals, localDecimals) =>
      ⟨debridgeId, mint, vault, bridgeDecimals, localDecimals⟩)
    (fun a => (a.debridgeId, a.mint, a.vault, a.bridgeDecimals, a.localDecimals))
    fun _ => rfl

/-- The codec of the body of an asset from before there were scales. -/
def legacyAssetCodec : Codec (Bytes32 × Pubkey × Pubkey) := word.pair <| word.pair word

/-- The codec of a sent record. -/
def sentCodec : Codec SentRecord :=
  (word.pair <| word.pair <| word.pair <| word.pair <| u64.pair u64).iso
    (fun (debridgeId, sender, sourceToken, mint, amount, lockedAt) =>
      ⟨debridgeId, sender, sourceToken, mint, amount, lockedAt⟩)
    (fun r => (r.debridgeId, r.sender, r.sourceToken, r.mint, r.amount, r.lockedAt))
    fun _ => rfl

/-- The codec of a schedule. -/
def scheduleCodec : Codec GovernanceSchedule :=
  u64.iso GovernanceSchedule.mk GovernanceSchedule.readyAt fun _ => rfl

/-- The codec of a vault's binding. -/
def bindingCodec : Codec VaultBinding :=
  (word.pair Codec.u8).iso (fun (mint, bridgeDecimals) => ⟨mint, bridgeDecimals⟩)
    (fun b => (b.mint, b.bridgeDecimals)) fun _ => rfl

/-! ### Seeds -/

/-- `["config"]`. -/
def configSeeds : List Bytes := [ascii "config"]

/-- `["asset", debridge_id]`. -/
def assetSeeds (debridgeId : Bytes32) : List Bytes := [ascii "asset", wordBytes debridgeId]

/-- `["sent", id]`. -/
def sentSeeds (id : Bytes32) : List Bytes := [ascii "sent", wordBytes id]

/-- `["executed", id]`. -/
def executedSeeds (id : Bytes32) : List Bytes := [ascii "executed", wordBytes id]

/-- `["refunded", id]`. -/
def refundedSeeds (id : Bytes32) : List Bytes := [ascii "refunded", wordBytes id]

/-- `["vault_authority"]`. -/
def vaultAuthoritySeeds : List Bytes := [ascii "vault_authority"]

/-! ### The config -/

/-- `config_space`. -/
def configSpace (validators corridors : ℕ) : ℕ :=
  32 + 32 + 32 + 4 + 20 * validators + 4 + 8 + 1 + 4 + 4 + 4 + 16 * corridors + 1 + 8

namespace Config

/-- `is_validator`. -/
def isValidator (cfg : Config) (a : Address) : Bool := cfg.validators.any (· == a)

/-- `corridor_registered`. -/
def corridorRegistered (cfg : Config) (chainIdTo : U64) : Bool :=
  cfg.nonceTo.any fun e => e.1 == chainIdTo

/-- `nonce`. -/
def nonce (cfg : Config) (chainIdTo : U64) : U64 :=
  ((cfg.nonceTo.find? fun e => e.1 == chainIdTo).map Prod.snd).getD 0

/-- The list of corridors with the first entry of a chain advanced. -/
def bumpIn (chainIdTo : U64) : List (U64 × U64) → Except ProgramError (List (U64 × U64))
  | [] => .error (.custom .corridorNotRegistered)
  | e :: rest =>
    if e.1 = chainIdTo then do
      let n ← checked .arithmeticOverflow (e.2.toNat + 1)
      return (e.1, n) :: rest
    else do
      let rest ← bumpIn chainIdTo rest
      return e :: rest

/-- `bump_nonce`. -/
def bumpNonce (cfg : Config) (chainIdTo : U64) : Except ProgramError Config := do
  let nonceTo ← bumpIn chainIdTo cfg.nonceTo
  return { cfg with nonceTo }

end Config

section Accounts

variable (R : Runtime) (s : Accounts)

/-- `load_config`. -/
def loadConfig (configAi : AccountInfo) : Except ProgramError Config := do
  verifyPda R s configAi configSeeds
  orRevert .invalidAccountData ((configCodec.get (s configAi.key).data).map Prod.fst)

/-- `Config::store`. -/
def Config.store (cfg : Config) (configAi : AccountInfo) : Except ProgramError Accounts := do
  revertIf (configSpace cfg.validators.length cfg.nonceTo.length >
    (s configAi.key).data.length) .accountDataTooSmall
  writeZeroPadded R s configAi (configCodec.put cfg)

/-! ### Assets -/

/-- `LEGACY_ASSET_CONFIG_LEN`. -/
def LEGACY_ASSET_CONFIG_LEN : ℕ := 32 * 3

/-- `decode_asset_config`. -/
def decodeAssetConfig (data : Bytes) : Except ProgramError AssetConfig :=
  if data.length = LEGACY_ASSET_CONFIG_LEN ∨ data.length = LEGACY_ASSET_CONFIG_LEN + 1 then do
    let r ← orRevert .invalidAccountData (legacyAssetCodec.get (data.take LEGACY_ASSET_CONFIG_LEN))
    return ⟨r.1.1, r.1.2.1, r.1.2.2, 0, 0⟩
  else orRevert .invalidAccountData ((assetCodec.get data).map Prod.fst)

/-- `load_asset`. -/
def loadAsset (debridgeId : Bytes32) (assetAi : AccountInfo) : Except ProgramError AssetConfig := do
  verifyPda R s assetAi (assetSeeds debridgeId)
  let asset ← decodeAssetConfig (s assetAi.key).data
  revertIf (asset.debridgeId ≠ debridgeId) .invalidSeeds
  return asset

/-- `verify_asset_binding`. -/
def verifyAssetBinding (asset : AssetConfig)
    (tokenProgram vault vaultMint counterpartMint : Pubkey) :
    Except ProgramError Unit := do
  revertIf (tokenProgram ≠ R.splTokenId) .incorrectProgramId
  revertIf (vault ≠ asset.vault) .invalidAccountData
  revertIf (vaultMint ≠ asset.mint ∨ counterpartMint ≠ asset.mint) .invalidAccountData

/-! ### Sent records -/

/-- `SENT_RECORD_LEN`. -/
def SENT_RECORD_LEN : ℕ := 32 + 32 + 32 + 32 + 8 + 8

/-- `decode_sent_record`. -/
def decodeSentRecord (data : Bytes) : Except ProgramError SentRecord :=
  orRevert .invalidAccountData <| (if data.length = SENT_RECORD_LEN - 8 then
    sentCodec.get (data ++ List.replicate 8 0) else sentCodec.get data).map Prod.fst

/-- `load_sent_record`. -/
def loadSentRecord (submissionId : Bytes32) (sentAi : AccountInfo) :
    Except ProgramError SentRecord := do
  verifyPda R s sentAi (sentSeeds submissionId)
  check ((s sentAi.key).data ≠ []) .notSent
  decodeSentRecord (s sentAi.key).data

/-- `create_sent_record`. -/
def createSentRecord (payer sent : AccountInfo) (record : SentRecord) :
    Except ProgramError Accounts := do
  check (isAlreadyExecuted R (s sent.key) = false) .alreadyExecuted
  let s ← createPdaAccount R s payer sent SENT_RECORD_LEN
  writeFront R s sent (sentCodec.put record)

end Accounts

/-! ### Amounts -/

/-- `bridge_unit`: `none` on a scale above the mint's, or one past a `u64`. -/
def bridgeUnit (localDecimals bridgeDecimals : UInt8) : Option U64 :=
  if localDecimals < bridgeDecimals then none
  else
    let unit := 10 ^ (localDecimals.toNat - bridgeDecimals.toNat)
    if unit < 2 ^ 64 then some (BitVec.ofNat 64 unit) else none

namespace AssetConfig

/-- `unit`. -/
def unit (a : AssetConfig) : Except ProgramError U64 :=
  orRevert (.custom .invalidBridgeDecimals) (bridgeUnit a.localDecimals a.bridgeDecimals)

/-- `to_wire`. -/
def toWire (a : AssetConfig) (localAmount : U64) : Except ProgramError U64 := do
  let unit ← a.unit
  check (localAmount.toNat % unit.toNat = 0) .inexactAmount
  return BitVec.ofNat 64 (localAmount.toNat / unit.toNat)

/-- `to_local`. -/
def toLocal (a : AssetConfig) (wire : U64) : Except ProgramError U64 := do
  let unit ← a.unit
  checked (.custom .amountOverflow) (wire.toNat * unit.toNat)

/-- How many decimals the wire drops. -/
def scale (a : AssetConfig) : ℕ := a.localDecimals.toNat - a.bridgeDecimals.toNat

theorem unit_eq_ok {a : AssetConfig} {unit : U64} :
    a.unit = .ok unit ↔
      a.bridgeDecimals.toNat ≤ a.localDecimals.toNat ∧ unit.toNat = 10 ^ a.scale := by
  rw [AssetConfig.unit, orRevert_eq_ok, bridgeUnit]
  rcases Nat.lt_or_ge a.localDecimals.toNat a.bridgeDecimals.toNat with hlt | hge
  · rw [if_pos (UInt8.lt_iff_toNat_lt.mpr hlt)]
    exact ⟨fun h => absurd h (by simp), fun h => absurd h.1 (by omega)⟩
  · have hnot : ¬a.localDecimals < a.bridgeDecimals := fun h =>
      absurd (UInt8.lt_iff_toNat_lt.mp h) (by omega)
    rw [if_neg hnot]
    dsimp only
    rw [← AssetConfig.scale]
    constructor
    · intro h
      split at h
      · next hfit =>
        rw [← Option.some.inj h, BitVec.toNat_ofNat, Nat.mod_eq_of_lt hfit]
        exact ⟨hge, rfl⟩
      · exact absurd h (by simp)
    · rintro ⟨-, hunit⟩
      have hfit : 10 ^ a.scale < 2 ^ 64 := hunit ▸ unit.isLt
      rw [if_pos hfit]
      exact congrArg some (BitVec.eq_of_toNat_eq (by
        rw [BitVec.toNat_ofNat, Nat.mod_eq_of_lt hfit, hunit]))

/-- **Locking is an exact division** by the asset's unit. -/
theorem toWire_eq_ok {a : AssetConfig} {localAmount wire : U64}
    (h : a.toWire localAmount = .ok wire) :
    a.bridgeDecimals.toNat ≤ a.localDecimals.toNat ∧
      localAmount.toNat = wire.toNat * 10 ^ a.scale := by
  simp only [toWire, bind_eq_ok, exists_unit, unit_eq_ok, check, revertIf_eq_ok, not_not,
    pure_eq_ok] at h
  obtain ⟨unit, ⟨hle, hunit⟩, hmod, rfl⟩ := h
  have hlt : localAmount.toNat / unit.toNat < 2 ^ 64 :=
    lt_of_le_of_lt (Nat.div_le_self _ _) localAmount.isLt
  refine ⟨hle, ?_⟩
  rw [BitVec.toNat_ofNat, Nat.mod_eq_of_lt hlt, ← hunit,
    Nat.div_mul_cancel (Nat.dvd_of_mod_eq_zero hmod)]

/-- **Releasing is an exact multiplication** by the asset's unit, within a `u64`. -/
theorem toLocal_eq_ok {a : AssetConfig} {wire localAmount : U64}
    (h : a.toLocal wire = .ok localAmount) :
    a.bridgeDecimals.toNat ≤ a.localDecimals.toNat ∧
      localAmount.toNat = wire.toNat * 10 ^ a.scale := by
  simp only [toLocal, bind_eq_ok, unit_eq_ok, checked_eq_ok] at h
  obtain ⟨unit, ⟨hle, hunit⟩, hlocal⟩ := h
  exact ⟨hle, hunit ▸ hlocal⟩

end AssetConfig

end Solana

end SelendraBridge
