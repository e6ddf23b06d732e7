import SelendraBridge.Frontend.Base58
import SelendraBridge.Solana.State

/-!
# Who else reads the registry

An asset of the gate is an account of 98 bytes and slack, and of 96 or 97 where it was written
before there were scales. Nothing can link the program, so that each client has the layout again.

| reader | of an old body | of a scale that the program refuses |
|---|---|---|
| the program, `decode_asset_config` | one to one | fails when it converts |
| the relayer, `asset_vault` | its vault | does not look at it |
| the relayer, `asset_bridge_unit` | one to one | none |
| the API, `send_context` | refuses it | does not look at it |

So all of them agree on the current layout with a scale, and only there
(`SelendraBridge.Clients.readersAgree_iff`).
-/

namespace SelendraBridge

open Borsh Revert

/-! ### The layouts of the host library -/

namespace BridgeSolana

open Solana (word address u64 u32)

/-- `ConfigAccount`. -/
structure ConfigAccount where
  owner : Bytes32
  bridgeDomain : Bytes32
  guardian : Bytes32
  validators : List Address
  threshold : BitVec 32
  chainId : U64
  paused : Bool
  maxValidators : BitVec 32
  maxCorridors : BitVec 32
  nonceTo : List (U64 × U64)
  isSealed : Bool
  setupDeadline : BitVec 64
  deriving DecidableEq, Repr

/-- `AssetAccount`. -/
structure AssetAccount where
  debridgeId : Bytes32
  mint : Bytes32
  vault : Bytes32
  bridgeDecimals : UInt8
  localDecimals : UInt8
  deriving DecidableEq, Repr

/-- The layout of a config. -/
def configAccount : Codec ConfigAccount :=
  (word.pair <| word.pair <| word.pair <| address.vec.pair <| u32.pair <| u64.pair <|
    Codec.bool.pair <| u32.pair <| u32.pair <| (u64.pair u64).vec.pair <|
      Codec.bool.pair u64).iso
    (fun (owner, bridgeDomain, guardian, validators, threshold, chainId, paused, maxValidators,
        maxCorridors, nonceTo, isSealed, setupDeadline) =>
      ⟨owner, bridgeDomain, guardian, validators, threshold, chainId, paused, maxValidators,
        maxCorridors, nonceTo, isSealed, setupDeadline⟩)
    (fun c => (c.owner, c.bridgeDomain, c.guardian, c.validators, c.threshold, c.chainId, c.paused,
      c.maxValidators, c.maxCorridors, c.nonceTo, c.isSealed, c.setupDeadline))
    fun _ => rfl

/-- The layout of an asset. -/
def assetAccount : Codec AssetAccount :=
  (word.pair <| word.pair <| word.pair <| Codec.u8.pair Codec.u8).iso
    (fun (debridgeId, mint, vault, bridgeDecimals, localDecimals) =>
      ⟨debridgeId, mint, vault, bridgeDecimals, localDecimals⟩)
    (fun a => (a.debridgeId, a.mint, a.vault, a.bridgeDecimals, a.localDecimals))
    fun _ => rfl

/-- `decode`: what follows is padding. -/
def decode {α : Type} (A : Codec α) (data : Bytes) : Option α := (A.get data).map Prod.fst

/-- `ConfigAccount::nonce`. -/
def ConfigAccount.nonce (c : ConfigAccount) (chainIdTo : U64) : Option U64 :=
  (c.nonceTo.find? fun p => p.1 == chainIdTo).map Prod.snd

/-- `AssetAccount::bridge_unit`. -/
def AssetAccount.bridgeUnit (a : AssetAccount) : Option U64 :=
  if a.localDecimals < a.bridgeDecimals then none
  else
    let unit := 10 ^ (a.localDecimals.toNat - a.bridgeDecimals.toNat)
    if unit < 2 ^ 64 then some (BitVec.ofNat 64 unit) else none

end BridgeSolana

/-! ### The relayer -/

namespace SolanaRelayer

open BridgeSolana (assetAccount decode)

/-- `LEGACY_ASSET_LEN`. -/
def LEGACY_ASSET_LEN : ℕ := 32 * 3

/-- `Legacy`. -/
structure Legacy where
  debridgeId : Bytes32
  mint : Bytes32
  vault : Bytes32

/-- The layout of a `Legacy`. -/
def legacy : Codec Legacy :=
  (Solana.word.pair <| Solana.word.pair Solana.word).iso
    (fun (debridgeId, mint, vault) => ⟨debridgeId, mint, vault⟩)
    (fun l => (l.debridgeId, l.mint, l.vault)) fun _ => rfl

/-- What `asset_vault` fails with. -/
inductive AssetVaultError
  | notOwned
  | legacyUndecodable
  | undecodable (length : ℕ)
  | otherId (recorded requested : Bytes32)
  deriving DecidableEq, Repr

/-- Whether a body has the length of the old layout. -/
def isLegacy (data : Bytes) : Bool :=
  data.length == LEGACY_ASSET_LEN || data.length == LEGACY_ASSET_LEN + 1

/-- The id and the vault that a body records. -/
def recordedVault (data : Bytes) : Except AssetVaultError (Bytes32 × Bytes32) :=
  if isLegacy data then
    (orRevert .legacyUndecodable (decode legacy (data.take LEGACY_ASSET_LEN))).map
      fun l => (l.debridgeId, l.vault)
  else
    (orRevert (.undecodable data.length) (decode assetAccount data)).map
      fun a => (a.debridgeId, a.vault)

/-- `asset_vault`. -/
def assetVault (ownerIsProgram : Bool) (data : Bytes) (debridgeId : Bytes32) :
    Except AssetVaultError Bytes32 := do
  revertIf (ownerIsProgram = false) .notOwned
  let recorded ← recordedVault data
  revertIf (recorded.1 ≠ debridgeId) (.otherId recorded.1 debridgeId)
  return recorded.2

/-- `asset_bridge_unit`. -/
def assetBridgeUnit (data : Bytes) : Option U64 :=
  if isLegacy data then some 1 else (decode assetAccount data).bind fun a => a.bridgeUnit

end SolanaRelayer

/-! ### The API -/

namespace Api

open BridgeSolana (assetAccount configAccount decode)

/-- `GateSendContext`. -/
structure GateSendContext where
  programId : Text
  bridgeDomain : Text
  chainId : U64
  nonce : U64
  debridgeId : Text
  vault : Text
  decimals : UInt8
  bridgeDecimals : UInt8
  paused : Bool
  deriving DecidableEq, Repr

/-- What `send_context` fails with. -/
inductive SendContextError
  | programNotBase58
  | badDebridgeId
  | noConfigPda
  | noAssetPda
  | rpc
  | notInitialized (program : Text)
  | notRegistered (debridgeId : Text)
  | noCorridor (chainIdTo : U64)
  deriving DecidableEq, Repr

/-- What the API asks for: base 58 both ways, derived addresses, and the data of some accounts, as
the cluster has them – whoever owns them. -/
structure Cluster where
  fromB58 : Text → Option Bytes32
  b58 : Bytes32 → Text
  findProgramAddress : List Bytes → Bytes32 → Option Bytes32
  getMultipleAccounts : List Text → Option (List (Option Bytes))

/-- `u8::from_str_radix` of two characters: a plus in front is a sign. -/
def fromStrRadix16 (h l : Char) : Option UInt8 :=
  if h = '+' then (Hex.value l).map UInt8.ofNat
  else (Hex.value h).bind fun a => (Hex.value l).map fun b => UInt8.ofNat (16 * a + b)

/-- The bytes of a text, two characters each. -/
def radixPairs : Text → Option Bytes
  | [] => some []
  | [_] => none
  | h :: l :: s => do
    let b ← fromStrRadix16 h l
    let bs ← radixPairs s
    return b :: bs

/-- `hex_32`, on a text in ASCII. -/
def hex32 (s : Text) : Option Bytes32 :=
  let h := stripHexPrefix s
  if h.length ≠ 64 then none else (radixPairs h).bind (BigEndian.toWord 32)

/-- `send_context`. -/
def sendContext (C : Cluster) (program debridgeIdHex : Text) (chainIdTo : U64) :
    Except SendContextError GateSendContext := do
  let key ← orRevert .programNotBase58 (C.fromB58 program)
  let debridgeId ← orRevert .badDebridgeId (hex32 debridgeIdHex)
  let configPda ← orRevert .noConfigPda (C.findProgramAddress [ascii "config"] key)
  let assetPda ← orRevert .noAssetPda
    (C.findProgramAddress [ascii "asset", wordBytes debridgeId] key)
  let accounts ← orRevert .rpc (C.getMultipleAccounts [C.b58 configPda, C.b58 assetPda])
  let cfg ← orRevert (.notInitialized program) ((accounts[0]?.join).bind (decode configAccount))
  let asset ← orRevert (.notRegistered debridgeIdHex)
    ((accounts[1]?.join).bind (decode assetAccount))
  let nonce ← orRevert (.noCorridor chainIdTo) (cfg.nonce chainIdTo)
  return {
    programId := program
    bridgeDomain := hexText (wordBytes cfg.bridgeDomain)
    chainId := cfg.chainId
    nonce
    debridgeId := debridgeIdHex
    vault := C.b58 asset.vault
    decimals := asset.localDecimals
    bridgeDecimals := asset.bridgeDecimals
    paused := cfg.paused }

end Api

/-! ### Agreement -/

namespace Clients

open Solana (AssetConfig decodeAssetConfig)
open SolanaRelayer (assetVault assetBridgeUnit isLegacy recordedVault)
open Api (Cluster sendContext GateSendContext)

/-- **What the API needs besides the asset's account**: a program, an id, addresses, a config and a
corridor in it. -/
structure Serves (C : Cluster) (program debridgeIdHex : Text) (chainIdTo : U64) (id : Bytes32)
    (data : Bytes) : Prop where
  served : ∃ key configPda assetPda cfgData cfg nonce,
    C.fromB58 program = some key ∧ Api.hex32 debridgeIdHex = some id ∧
      C.findProgramAddress [ascii "config"] key = some configPda ∧
      C.findProgramAddress [ascii "asset", wordBytes id] key = some assetPda ∧
      C.getMultipleAccounts [C.b58 configPda, C.b58 assetPda] = some [some cfgData, some data] ∧
      BridgeSolana.decode BridgeSolana.configAccount cfgData = some cfg ∧
      cfg.nonce chainIdTo = some nonce

/-- **The readers see what the program sees** in the body of an asset that it owns: where the
program takes it and its scale they give its vault, its unit and its decimals; and where the
program refuses the body, or the scale, so do they. -/
structure ReadersAgree (C : Cluster) (program debridgeIdHex : Text) (chainIdTo : U64) (id : Bytes32)
    (data : Bytes) : Prop where
  accepted : ∀ asset unit, decodeAssetConfig data = .ok asset → asset.debridgeId = id →
    asset.unit = .ok unit →
      assetVault true data id = .ok asset.vault ∧ assetBridgeUnit data = some unit ∧
        ∃ ctx, sendContext C program debridgeIdHex chainIdTo = .ok ctx ∧
          ctx.vault = C.b58 asset.vault ∧ ctx.decimals = asset.localDecimals ∧
          ctx.bridgeDecimals = asset.bridgeDecimals
  refusedBody : ∀ e, decodeAssetConfig data = .error e →
    (assetVault true data id).toOption = none ∧ assetBridgeUnit data = none ∧
      (sendContext C program debridgeIdHex chainIdTo).toOption = none
  refusedScale : ∀ asset e, decodeAssetConfig data = .ok asset → asset.unit = .error e →
    assetBridgeUnit data = none ∧ (sendContext C program debridgeIdHex chainIdTo).toOption = none

/-- **The current layout, with a scale that the program takes.** -/
structure Current (data : Bytes) : Prop where
  length_ne : data.length ≠ 96 ∧ data.length ≠ 97
  scale : ∀ asset, decodeAssetConfig data = .ok asset →
    (Solana.bridgeUnit asset.localDecimals asset.bridgeDecimals).isSome = true

/-! ### The layouts are the program's -/

theorem wide_word : Solana.word.Wide 32 := Codec.wide_array 32

theorem wide_assetCodec : Solana.assetCodec.Wide 98 :=
  (wide_word.pair (wide_word.pair (wide_word.pair (Codec.wide_u8.pair Codec.wide_u8)))).iso

theorem wide_legacyAssetCodec : Solana.legacyAssetCodec.Wide 96 :=
  wide_word.pair (wide_word.pair wide_word)

/-- An asset of the program, as the host library has it. -/
def ofProgram (a : AssetConfig) : BridgeSolana.AssetAccount :=
  ⟨a.debridgeId, a.mint, a.vault, a.bridgeDecimals, a.localDecimals⟩

theorem decode_assetAccount (data : Bytes) : BridgeSolana.decode BridgeSolana.assetAccount data =
    (BridgeSolana.decode Solana.assetCodec data).map ofProgram := by
  rw [BridgeSolana.decode, BridgeSolana.decode, BridgeSolana.assetAccount, Solana.assetCodec,
    Codec.get_iso, Codec.get_iso, Option.map_map, Option.map_map, Option.map_map]
  rfl

theorem decode_legacy (data : Bytes) : BridgeSolana.decode SolanaRelayer.legacy data =
    (BridgeSolana.decode Solana.legacyAssetCodec data).map fun r => ⟨r.1, r.2.1, r.2.2⟩ := by
  rw [BridgeSolana.decode, BridgeSolana.decode, SolanaRelayer.legacy, Solana.legacyAssetCodec,
    Codec.get_iso, Option.map_map, Option.map_map]
  rfl

theorem bridgeUnit_ofProgram (a : AssetConfig) :
    (ofProgram a).bridgeUnit = Solana.bridgeUnit a.localDecimals a.bridgeDecimals := rfl

variable {data : Bytes} {id : Bytes32} {C : Cluster} {program debridgeIdHex : Text}
  {chainIdTo : U64}

/-- A body of 98 bytes or more is one of the current layout. -/
theorem exists_asset (h : 98 ≤ data.length) : ∃ asset, decodeAssetConfig data = .ok asset ∧
    BridgeSolana.decode BridgeSolana.assetAccount data = some (ofProgram asset) := by
  obtain ⟨asset, hget⟩ := (wide_assetCodec data).1 h
  have hdecode : BridgeSolana.decode Solana.assetCodec data = some asset := by
    rw [BridgeSolana.decode, hget, Option.map_some]
  have hlong : ¬(data.length = Solana.LEGACY_ASSET_CONFIG_LEN ∨
      data.length = Solana.LEGACY_ASSET_CONFIG_LEN + 1) := by
    rw [Solana.LEGACY_ASSET_CONFIG_LEN]
    omega
  refine ⟨asset, ?_, ?_⟩
  · rw [decodeAssetConfig, if_neg hlong, hget]
    rfl
  · rw [decode_assetAccount, hdecode, Option.map_some]

/-- Nothing shorter is. -/
theorem decode_assetAccount_eq_none (h : data.length < 98) :
    BridgeSolana.decode BridgeSolana.assetAccount data = none := by
  rw [decode_assetAccount, BridgeSolana.decode, (wide_assetCodec data).2 h]
  rfl

/-- An old body bridges one to one. -/
theorem exists_legacy (h : data.length = 96 ∨ data.length = 97) : ∃ asset : AssetConfig,
    decodeAssetConfig data = .ok asset ∧ asset.unit = .ok 1 ∧
      recordedVault data = .ok (asset.debridgeId, asset.vault) := by
  have hlen : (data.take 96).length = 96 := by
    rw [List.length_take]
    omega
  obtain ⟨r, hget⟩ := (wide_legacyAssetCodec (data.take 96)).1 hlen.ge
  have hdecode : BridgeSolana.decode Solana.legacyAssetCodec (data.take 96) = some r := by
    rw [BridgeSolana.decode, hget, Option.map_some]
  have hlegacy : isLegacy data = true := by
    rw [isLegacy, Bool.or_eq_true, beq_iff_eq, beq_iff_eq]
    exact h
  have hold : data.length = Solana.LEGACY_ASSET_CONFIG_LEN ∨
      data.length = Solana.LEGACY_ASSET_CONFIG_LEN + 1 := h
  refine ⟨⟨r.1, r.2.1, r.2.2, 0, 0⟩, ?_, ?_, ?_⟩
  · rw [decodeAssetConfig, if_pos hold, Solana.LEGACY_ASSET_CONFIG_LEN, hget]
    rfl
  · rfl
  · rw [recordedVault, if_pos hlegacy, SolanaRelayer.LEGACY_ASSET_LEN, decode_legacy, hdecode]
    rfl

theorem decodeAssetConfig_short (h : data.length < 96) :
    ∃ e, decodeAssetConfig data = .error e := by
  have hshort : ¬(data.length = Solana.LEGACY_ASSET_CONFIG_LEN ∨
      data.length = Solana.LEGACY_ASSET_CONFIG_LEN + 1) := by
    rw [Solana.LEGACY_ASSET_CONFIG_LEN]
    omega
  rw [decodeAssetConfig, if_neg hshort, (wide_assetCodec data).2 (by omega)]
  exact ⟨_, rfl⟩

theorem isLegacy_iff : isLegacy data = true ↔ data.length = 96 ∨ data.length = 97 := by
  rw [isLegacy, Bool.or_eq_true, beq_iff_eq, beq_iff_eq]
  rfl

/-- The relayer takes the vault of a body that records the id. -/
theorem assetVault_of_recorded {recorded vault : Bytes32}
    (h : recordedVault data = .ok (recorded, vault)) (hid : recorded = id) :
    assetVault true data id = .ok vault := by
  simp only [assetVault, bind_eq_ok, exists_unit, revertIf_eq_ok, pure_eq_ok, h]
  exact ⟨by decide, _, rfl, not_not.mpr hid, rfl⟩

theorem assetVault_of_error {e : SolanaRelayer.AssetVaultError}
    (h : recordedVault data = .error e) : (assetVault true data id).toOption = none := by
  rw [assetVault, h]
  rfl

/-- **What the API sends is what the current layout says**, and nothing else is sent. -/
theorem sendContext_eq (h : Serves C program debridgeIdHex chainIdTo id data) :
    (BridgeSolana.decode BridgeSolana.assetAccount data = none →
      (sendContext C program debridgeIdHex chainIdTo).toOption = none) ∧
    ∀ asset, BridgeSolana.decode BridgeSolana.assetAccount data = some asset →
      ∃ ctx, sendContext C program debridgeIdHex chainIdTo = .ok ctx ∧
        ctx.vault = C.b58 asset.vault ∧ ctx.decimals = asset.localDecimals ∧
        ctx.bridgeDecimals = asset.bridgeDecimals := by
  obtain ⟨key, configPda, assetPda, cfgData, cfg, nonce, hkey, hhex, hconfig, hasset, hreply, hcfg,
    hnonce⟩ := h.served
  constructor
  · intro hnone
    rw [Option.eq_none_iff_forall_ne_some]
    intro ctx hctx
    rw [toOption_eq_some] at hctx
    simp only [sendContext, bind_eq_ok, orRevert_eq_ok, hkey, hhex, Option.some.injEq,
      exists_eq_left', hconfig, hasset, hreply, List.getElem?_cons_succ, List.getElem?_cons_zero,
      Option.join_some, Option.bind_some, hnone, reduceCtorEq, false_and, exists_false,
      and_false] at hctx
  · intro asset hdecode
    refine ⟨⟨program, hexText (wordBytes cfg.bridgeDomain), cfg.chainId, nonce, debridgeIdHex,
      C.b58 asset.vault, asset.localDecimals, asset.bridgeDecimals, cfg.paused⟩, ?_, rfl, rfl, rfl⟩
    simp only [sendContext, bind_eq_ok, orRevert_eq_ok, hkey, hhex, Option.some.injEq,
      exists_eq_left', hconfig, hasset, hreply, List.getElem?_cons_succ, List.getElem?_cons_zero,
      Option.join_some, Option.bind_some, hdecode, hcfg, hnonce, pure_eq_ok]

/-- **The readers see what the program sees exactly on the current layout**, and a scale that the
program takes: of an account that the program owns and that records the requested id if it records
any, with a config, a corridor and addresses to be had. -/
theorem readersAgree_iff (serves : Serves C program debridgeIdHex chainIdTo id data)
    (hid : ∀ asset, decodeAssetConfig data = .ok asset → asset.debridgeId = id) :
    ReadersAgree C program debridgeIdHex chainIdTo id data ↔ Current data := by
  obtain ⟨hrefuses, hsends⟩ := sendContext_eq serves
  constructor
  · intro agree
    have hlength : ¬(data.length = 96 ∨ data.length = 97) := by
      intro hold
      obtain ⟨asset, hdecode, hunit, -⟩ := exists_legacy hold
      obtain ⟨-, -, ctx, hctx, -⟩ := agree.accepted asset 1 hdecode (hid asset hdecode) hunit
      have hnone := hrefuses (decode_assetAccount_eq_none (by omega))
      rw [hctx] at hnone
      cases hnone
    rw [not_or] at hlength
    refine ⟨hlength, ?_⟩
    intro asset hdecode
    by_contra hscale
    have hunit : asset.unit = .error (.custom .invalidBridgeDecimals) := by
      rw [AssetConfig.unit, Option.not_isSome_iff_eq_none.mp hscale]
      rfl
    obtain ⟨-, hnone⟩ := agree.refusedScale asset _ hdecode hunit
    have hlong : 98 ≤ data.length := by
      by_contra hlong
      have hshort : data.length < 96 := by omega
      obtain ⟨e, he⟩ := decodeAssetConfig_short hshort
      rw [hdecode] at he
      cases he
    obtain ⟨asset', -, hread⟩ := exists_asset hlong
    obtain ⟨ctx, hctx, -⟩ := hsends _ hread
    rw [hctx] at hnone
    cases hnone
  · intro current
    rcases Nat.lt_or_ge data.length 96 with hshort | hlong
    · -- nobody decodes fewer than 96 bytes
      obtain ⟨e, he⟩ := decodeAssetConfig_short hshort
      have hnone := @decode_assetAccount_eq_none data (by omega)
      have hnot : ¬isLegacy data = true := by
        rw [isLegacy_iff]
        omega
      have hrecorded : recordedVault data = .error (.undecodable data.length) := by
        rw [recordedVault, if_neg hnot, hnone]
        rfl
      constructor
      · intro asset unit hdecode
        rw [he] at hdecode
        cases hdecode
      · intro e' _
        refine ⟨assetVault_of_error hrecorded, ?_, hrefuses hnone⟩
        rw [assetBridgeUnit, if_neg hnot, hnone, Option.bind_none]
      · intro asset e' hdecode
        rw [he] at hdecode
        cases hdecode
    · obtain ⟨hne, hne'⟩ := current.length_ne
      obtain ⟨asset, hdecode, hread⟩ := @exists_asset data (by omega)
      have hnot : ¬isLegacy data = true := by
        rw [isLegacy_iff]
        omega
      have hrecorded : recordedVault data = .ok (asset.debridgeId, asset.vault) := by
        rw [recordedVault, if_neg hnot, hread]
        rfl
      constructor
      · intro asset' unit hdecode' hid' hunit
        obtain rfl := Except.ok.inj (hdecode.symm.trans hdecode')
        refine ⟨assetVault_of_recorded hrecorded hid', ?_, hsends _ hread⟩
        rw [assetBridgeUnit, if_neg hnot, hread, Option.bind_some, bridgeUnit_ofProgram]
        exact orRevert_eq_ok.mp hunit
      · intro e he
        rw [hdecode] at he
        cases he
      · intro asset' e hdecode' hunit
        have hscale := current.scale asset' hdecode'
        obtain ⟨unit, hunit'⟩ := Option.isSome_iff_exists.mp hscale
        rw [AssetConfig.unit, hunit'] at hunit
        cases hunit

/-! ### A gate -/

/-- The key of a gate. -/
def gateKey : Bytes32 := 0xfb603109413b7cd86be3bbeded217bf4fe5c15b3f46e18459fcb66de40d6ff26

/-- Its config account. -/
def gateConfigPda : Bytes32 := 0x71895253074858dc6bac7daaf2972b06981ca9423a6aef926f9dde63efca0af5

/-- An asset that it maps. -/
def gateAsset : Bytes32 := 0x4b7347216b2c2ce2879cf0086a2bd0ad84a4df90c1d0d1e665041ba0bc157454

/-- The account of that asset. -/
def gateAssetPda : Bytes32 := 0x518ca39a6fa063058d8788818ea2c9da750936b8aab4234d5e8cd18de2ec9397

/-- What its config holds. -/
def gateConfig : BridgeSolana.ConfigAccount where
  owner := 1
  bridgeDomain := 0x619244a655e7383c05da63e9d66080952fcfe4fc48b40c61f566996006848055
  guardian := 2
  validators := [3, 4, 5]
  threshold := 2
  chainId := 7565164
  paused := false
  maxValidators := 16
  maxCorridors := 8
  nonceTo := [(11155111, 3)]
  isSealed := true
  setupDeadline := 0

/-- The addresses that are derived from it. -/
def gateAddress (seeds : List Bytes) : Option Bytes32 :=
  if seeds = [ascii "config"] then some gateConfigPda
  else if seeds = [ascii "asset", wordBytes gateAsset] then some gateAssetPda
  else none

/-- Its accounts, with some body in that of the asset. -/
def gateAccount (data : Bytes) (addr : Text) : Option Bytes :=
  if addr = Frontend.base58 (wordBytes gateConfigPda) then
    some (BridgeSolana.configAccount.put gateConfig)
  else if addr = Frontend.base58 (wordBytes gateAssetPda) then some data
  else none

/-- The cluster that has them. -/
def gateCluster (data : Bytes) : Cluster where
  fromB58 s := (Frontend.b58decode s).toOption.bind (BigEndian.toWord 32)
  b58 k := Frontend.base58 (wordBytes k)
  findProgramAddress seeds _ := gateAddress seeds
  getMultipleAccounts addrs := some (addrs.map (gateAccount data))

/-- The gate's key in base 58. -/
def gateProgram : Text := Frontend.base58 (wordBytes gateKey)

/-- The asset's id in hexadecimal. -/
def gateAssetText : Text := hexText (wordBytes gateAsset)

theorem serves_gate (data : Bytes) :
    Serves (gateCluster data) gateProgram gateAssetText 11155111 gateAsset data := by
  refine ⟨gateKey, gateConfigPda, gateAssetPda, BridgeSolana.configAccount.put gateConfig,
    gateConfig, 3, ?_, ?_, ?_, ?_, ?_, ?_, ?_⟩
  · show (Frontend.b58decode gateProgram).toOption.bind (BigEndian.toWord 32) = some gateKey
    decide +kernel
  · decide +kernel
  · show gateAddress [ascii "config"] = some gateConfigPda
    decide +kernel
  · show gateAddress [ascii "asset", wordBytes gateAsset] = some gateAssetPda
    decide +kernel
  · have hne : Frontend.base58 (wordBytes gateAssetPda) ≠
        Frontend.base58 (wordBytes gateConfigPda) := by
      decide +kernel
    have hconfig : gateAccount data (Frontend.base58 (wordBytes gateConfigPda)) =
        some (BridgeSolana.configAccount.put gateConfig) := by
      rw [gateAccount, if_pos rfl]
    have hasset : gateAccount data (Frontend.base58 (wordBytes gateAssetPda)) = some data := by
      rw [gateAccount, if_neg hne, if_pos rfl]
    show some [gateAccount data _, gateAccount data _] = _
    rw [← hconfig, ← hasset]
    rfl
  · decide +kernel
  · decide +kernel

/-- A body of the current layout, with slack behind it. -/
def currentBody : Bytes :=
  Solana.assetCodec.put ⟨gateAsset, 0x31, 0x7a, 6, 9⟩ ++ List.replicate 32 0

theorem readersAgree_currentBody :
    ReadersAgree (gateCluster currentBody) gateProgram gateAssetText 11155111 gateAsset
      currentBody := by
  have hdecode : decodeAssetConfig currentBody = .ok ⟨gateAsset, 0x31, 0x7a, 6, 9⟩ := by
    have h : (decodeAssetConfig currentBody).toOption = some ⟨gateAsset, 0x31, 0x7a, 6, 9⟩ := by
      decide +kernel
    exact toOption_eq_some.mp h
  refine (readersAgree_iff (serves_gate currentBody) ?_).mpr ⟨by decide +kernel, ?_⟩
  · intro asset h
    obtain rfl := Except.ok.inj (hdecode.symm.trans h)
    rfl
  · intro asset h
    obtain rfl := Except.ok.inj (hdecode.symm.trans h)
    decide +kernel

/-- A body from before there were scales. -/
def oldBody : Bytes := currentBody.take 96

/-- The program and the relayer take it, one to one; the API says that nothing is registered. -/
theorem not_readersAgree_oldBody :
    (decodeAssetConfig oldBody).toOption = some ⟨gateAsset, 0x31, 0x7a, 0, 0⟩ ∧
      (assetVault true oldBody gateAsset).toOption = some 0x7a ∧ assetBridgeUnit oldBody = some 1 ∧
      ¬ReadersAgree (gateCluster oldBody) gateProgram gateAssetText 11155111 gateAsset oldBody := by
  have hdecode : (decodeAssetConfig oldBody).toOption = some ⟨gateAsset, 0x31, 0x7a, 0, 0⟩ := by
    decide +kernel
  refine ⟨hdecode, by decide +kernel, by decide +kernel, ?_⟩
  intro agree
  obtain ⟨-, -, ctx, hctx, -⟩ := agree.accepted _ 1 (toOption_eq_some.mp hdecode) rfl rfl
  have hshort : oldBody.length < 98 := by decide +kernel
  have hnone := (sendContext_eq (serves_gate oldBody)).1 (decode_assetAccount_eq_none hshort)
  rw [hctx] at hnone
  cases hnone

end Clients

end SelendraBridge
