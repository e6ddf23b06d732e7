import Mathlib.Data.Rat.Defs
import SelendraBridge.Clients.Agreement
import SelendraBridge.Frontend.Keccak
import SelendraBridge.Frontend.Message
import SelendraBridge.Solana.Cluster

/-!
# A transfer out of Solana, as the page builds it

The program wants the account that it will keep the record of a transfer in, and that account is
derived from the id of the transfer. So the page has to know the id before the program computes
it: it packs what it believes the program will pack, hashes that, and derives the account.

| in the id | the page has it from | the program has it from |
|:----------|:---------------------|:------------------------|
| domain, chain id, nonce | whoever it asked | its config |
| bridge decimals | whoever it asked | the asset |
| amount on the wire | the amount, by a unit it was told | the amount, by the asset's unit |
| asset, destination, receiver | the user | the instruction, from the page |

If the page was told the truth, its id is the program's, and what it sends is what the user chose.
If it was told anything else, its account is not the program's, and the program refuses
(`SelendraBridge.Frontend.names_transfer`).
-/

namespace SelendraBridge

namespace Frontend

open Revert

/-- What the page throws. -/
inductive SendThrown
  | encoding (t : Thrown)
  | badBase58 (ch : Char)
  | unitNotPositive
  | notWholeMultiple (unit : ℤ)
  | decimalsNotByte (bridgeDecimals : ℚ)
  | negativeWord
  | wordTooLong
  | noProgramAddress
  deriving DecidableEq

/-! ### The id -/

/-- `word32`. -/
def word32 (v : ℤ) : Except SendThrown Bytes := do
  revertIf (v < 0) .negativeWord
  revertIf (v.toNat / 256 ^ 32 > 0) .wordTooLong
  return (lowBytes 32 v.toNat).reverse

/-- `hexToBytes`, among the other errors. -/
def hexBytes (hex : Text) : Except SendThrown Bytes := withReason .encoding (hexToBytes hex)

/-- `b58decode`, among the other errors. -/
def keyBytes (s : Text) : Except SendThrown Bytes := withReason .badBase58 (b58decode s)

/-- The arguments of `submissionId`. -/
structure SubmissionArgs where
  bridgeDomain : Text
  debridgeId : Text
  bridgeDecimals : ℚ
  amount : ℤ
  chainIdFrom : ℤ
  chainIdTo : ℤ
  nonce : ℤ
  receiver : Bytes

/-- `SUBMISSION_PREFIX`. -/
def SUBMISSION_PREFIX : ℤ := 1

/-- `packed`: the parts of the id, one after the other. -/
def packed (args : SubmissionArgs) : Except SendThrown Bytes := do
  revertIf (¬args.bridgeDecimals.isInt = true ∨ args.bridgeDecimals < 0 ∨
    args.bridgeDecimals > 255) (.decimalsNotByte args.bridgeDecimals)
  let kind ← word32 SUBMISSION_PREFIX
  let bridgeDomain ← hexBytes args.bridgeDomain
  let debridgeId ← hexBytes args.debridgeId
  let chainIdFrom ← word32 args.chainIdFrom
  let chainIdTo ← word32 args.chainIdTo
  let amount ← word32 args.amount
  let nonce ← word32 args.nonce
  return kind ++ (bridgeDomain ++ (debridgeId ++ (chainIdFrom ++ (chainIdTo ++
    ([toByte args.bridgeDecimals.num] ++ (amount ++ (args.receiver ++ nonce)))))))

/-- `submissionId`. -/
def submissionId (args : SubmissionArgs) : Except SendThrown Bytes := do
  let packed ← packed args
  return keccak256 packed

/-! ### Addresses -/

/-- `P`. -/
def P : ℕ := 2 ^ 255 - 19

/-- `D`. -/
def D : ℕ := 37095705934669439343138083508754565189542113879843219016388785533085940283555

/-- The loop of `modPow`, for exponents of at most `fuel` bits. -/
def modPowLoop (m : ℕ) : ℕ → ℕ → ℕ → ℕ → ℕ
  | 0, _, _, r => r
  | fuel + 1, e, b, r =>
    if e = 0 then r
    else modPowLoop m fuel (e / 2) (b * b % m) (if e % 2 = 1 then r * b % m else r)

/-- `modPow`. -/
def modPow (base exp m : ℕ) : ℕ := modPowLoop m 256 exp (base % m) 1

/-- `isOnCurve`, of 32 bytes. -/
def isOnCurve (key : Bytes32) : Bool :=
  let y := BigEndian.ofBytes (wordBytes key).reverse
  let sign := y / 2 ^ 255
  let y := y % 2 ^ 255
  if P ≤ y then false
  else
    let y2 := y * y % P
    let u := (y2 + P - 1) % P
    let v := (D * y2 + 1) % P
    let v3 := v * v % P * v % P
    let v7 := v3 * v3 % P * v % P
    let x := u * v3 % P * modPow (u * v7 % P) ((P - 5) / 8) P % P
    let vxx := v * x % P * x % P
    if vxx = u % P then !(x == 0 && sign == 1)
    else if vxx = (P - u % P) % P then
      let x := x * modPow 2 ((P - 1) / 4) P % P
      if v * x % P * x % P = u % P then !(x == 0 && sign == 1) else false
    else false

/-- `PDA_MARKER`. -/
def PDA_MARKER : Bytes := ascii "ProgramDerivedAddress"

section Addresses

variable (sha256 : Bytes → Bytes32)

/-- The address of some seeds, under one bump. -/
def candidate (seeds : List Bytes) (programId : Bytes) (bump : ℕ) : Bytes32 :=
  sha256 (seeds.flatten ++ ([UInt8.ofNat bump] ++ (programId ++ PDA_MARKER)))

/-- `findProgramAddress`: of the bumps from 255 down, the first that leads off the curve. -/
def findProgramAddress (seeds : List Bytes) (programId : Bytes) : Except SendThrown Bytes32 :=
  orRevert .noProgramAddress
    ((((List.range 256).reverse.map (candidate sha256 seeds programId))).find? fun k =>
      !isOnCurve k)

/-- The derived address as text, of a program that is text. -/
def derivedAddress (seeds : List Bytes) (programId : Text) : Except SendThrown Text := do
  let program ← keyBytes programId
  let address ← findProgramAddress sha256 seeds program
  return b58encode (wordBytes address)

/-- `gateConfigAddress`. -/
def gateConfigAddress (programId : Text) : Except SendThrown Text :=
  derivedAddress sha256 [ascii "config"] programId

/-- `gateAssetAddress`. -/
def gateAssetAddress (programId debridgeId : Text) : Except SendThrown Text := do
  let id ← hexBytes debridgeId
  derivedAddress sha256 [ascii "asset", id] programId

/-- `gateSentAddress`. -/
def gateSentAddress (programId : Text) (submissionIdBytes : Bytes) : Except SendThrown Text :=
  derivedAddress sha256 [ascii "sent", submissionIdBytes] programId

/-! ### The instruction -/

/-- `TOKEN_PROGRAM_ID`. -/
def TOKEN_PROGRAM_ID : Text :=
  ['T', 'o', 'k', 'e', 'n', 'k', 'e', 'g', 'Q', 'f', 'e', 'Z', 'y', 'i', 'N', 'w', 'A', 'J', 'b',
   'N', 'b', 'G', 'K', 'P', 'F', 'X', 'C', 'W', 'u', 'B', 'v', 'f', '9', 'S', 's', '6', '2', '3',
   'V', 'Q', '5', 'D', 'A']

/-- `SYSTEM_PROGRAM_ID`. -/
def SYSTEM_PROGRAM_ID : Text := List.replicate 32 '1'

/-- The arguments of `buildGateSendInstruction`. -/
structure GateSendArgs where
  programId : Text
  user : Text
  userTokenAccount : Text
  vault : Text
  debridgeId : Text
  bridgeDomain : Text
  solanaChainId : ℤ
  chainIdTo : ℤ
  nonce : ℤ
  amount : ℤ
  bridgeUnit : ℤ
  bridgeDecimals : ℚ
  receiver : Bytes

/-- What the id is computed from. -/
def GateSendArgs.submission (args : GateSendArgs) : SubmissionArgs where
  bridgeDomain := args.bridgeDomain
  debridgeId := args.debridgeId
  bridgeDecimals := args.bridgeDecimals
  amount := args.amount.tdiv args.bridgeUnit
  chainIdFrom := args.solanaChainId
  chainIdTo := args.chainIdTo
  nonce := args.nonce
  receiver := args.receiver

/-- **`buildGateSendInstruction`**: the instruction, and the id of the transfer. -/
def buildGateSendInstruction (args : GateSendArgs) : Except SendThrown (Instruction × Text) := do
  revertIf (args.bridgeUnit ≤ 0) .unitNotPositive
  revertIf (args.amount.tmod args.bridgeUnit ≠ 0) (.notWholeMultiple args.bridgeUnit)
  let id ← submissionId args.submission
  let config ← gateConfigAddress sha256 args.programId
  let asset ← gateAssetAddress sha256 args.programId args.debridgeId
  let sent ← gateSentAddress sha256 args.programId id
  let data ← withReason .encoding
    (encodeGateSendData ⟨args.debridgeId, args.amount, args.chainIdTo, args.receiver⟩)
  return (⟨args.programId,
    [⟨config, false, true⟩, ⟨asset, false, false⟩, ⟨args.user, true, true⟩,
      ⟨args.userTokenAccount, false, true⟩, ⟨args.vault, false, true⟩,
      ⟨TOKEN_PROGRAM_ID, false, false⟩, ⟨sent, false, true⟩, ⟨SYSTEM_PROGRAM_ID, false, false⟩],
    data⟩, hexText id)

end Addresses

/-! ### Words and strings -/

theorem word32_eq_ok {v : ℤ} {bs : Bytes} : word32 v = .ok bs ↔
    0 ≤ v ∧ v.toNat < 256 ^ 32 ∧ bs = BigEndian.toBytes 32 v.toNat := by
  have hfits : ¬v.toNat / 256 ^ 32 > 0 ↔ v.toNat < 256 ^ 32 := by
    rw [gt_iff_lt, Nat.div_pos_iff, not_and_or, not_le]
    exact or_iff_right (not_not.mpr (Nat.pow_pos (by omega)))
  simp only [word32, bind_eq_ok, exists_unit, revertIf_eq_ok, pure_eq_ok, lowBytes_eq,
    List.reverse_reverse, hfits, Int.not_lt, eq_comm (a := bs)]

theorem be32_eq_toBytes (v : U64) : Solana.be32 v = BigEndian.toBytes 32 v.toNat := by
  have hv : v.toNat < 256 ^ 8 := v.isLt
  rw [Solana.be32, BigEndian.ofWord, BigEndian.toBytes_add 24 hv]

theorem hexBytes_eq {text : Text} {bs : Bytes}
    (h : lower (stripPrefixes text) = Hex.encode bs) : hexBytes text = .ok bs := by
  rw [hexBytes, withReason_eq_ok]
  exact hexToBytes_eq h

/-- **The string of an id**, by its values. -/
structure IdValues where
  bridgeDomain : Bytes32
  bridgeDecimals : UInt8
  amount : ℕ
  chainIdFrom : ℕ
  nonce : ℕ
  deriving DecidableEq

/-- The string, where the asset, the destination and the receiver are given. -/
def IdValues.string (v : IdValues) (debridgeId : Bytes32) (chainIdTo : ℕ) (receiver : Bytes) :
    Bytes :=
  BigEndian.toBytes 32 1 ++ (wordBytes v.bridgeDomain ++ (wordBytes debridgeId ++
    (BigEndian.toBytes 32 v.chainIdFrom ++ (BigEndian.toBytes 32 chainIdTo ++
      ([v.bridgeDecimals] ++ (BigEndian.toBytes 32 v.amount ++
        (receiver ++ BigEndian.toBytes 32 v.nonce)))))))

/-- Its numbers fit their words. -/
def IdValues.Fits (v : IdValues) : Prop :=
  v.amount < 256 ^ 32 ∧ v.chainIdFrom < 256 ^ 32 ∧ v.nonce < 256 ^ 32

/-- **The string says everything that went into it.** -/
theorem IdValues.string_inj {v w : IdValues} {debridgeId : Bytes32} {chainIdTo : ℕ}
    {receiver : Bytes} (hv : v.Fits) (hw : w.Fits)
    (h : v.string debridgeId chainIdTo receiver = w.string debridgeId chainIdTo receiver) :
    v = w := by
  obtain ⟨hva, hvc, hvn⟩ := hv
  obtain ⟨hwa, hwc, hwn⟩ := hw
  obtain ⟨domain, decimals, amount, chain, nonce⟩ := v
  obtain ⟨domain', decimals', amount', chain', nonce'⟩ := w
  dsimp only at *
  simp only [string] at h
  obtain ⟨-, h⟩ := List.append_inj h rfl
  obtain ⟨hdomain, h⟩ := List.append_inj h (by simp)
  obtain ⟨-, h⟩ := List.append_inj h rfl
  obtain ⟨hchain, h⟩ := List.append_inj h (by simp)
  obtain ⟨-, h⟩ := List.append_inj h rfl
  obtain ⟨hdecimals, h⟩ := List.append_inj h rfl
  obtain ⟨hamount, h⟩ := List.append_inj h (by simp)
  obtain ⟨-, hnonce⟩ := List.append_inj h rfl
  obtain rfl := wordBytes_inj.mp hdomain
  obtain rfl := BigEndian.toBytes_inj hvc hwc hchain
  obtain rfl := BigEndian.toBytes_inj hva hwa hamount
  obtain rfl := BigEndian.toBytes_inj hvn hwn hnonce
  obtain rfl := List.singleton_inj.mp hdecimals
  rfl

/-- The values that the program puts into an id. -/
def gateValues (cfg : Solana.Config) (asset : Solana.AssetConfig) (chainIdTo wire : U64) :
    IdValues where
  bridgeDomain := cfg.bridgeDomain
  bridgeDecimals := asset.bridgeDecimals
  amount := wire.toNat
  chainIdFrom := cfg.chainId.toNat
  nonce := (cfg.nonce chainIdTo).toNat

theorem fits_gateValues (cfg : Solana.Config) (asset : Solana.AssetConfig) (chainIdTo wire : U64) :
    (gateValues cfg asset chainIdTo wire).Fits := by
  have hword : ∀ v : U64, v.toNat < 256 ^ 32 := fun v => v.isLt.trans_le (by norm_num)
  exact ⟨hword _, hword _, hword _⟩

/-- **The program's string**, of a transfer without parameters. -/
theorem submissionPreimage_eq {keccak256 : Bytes → Bytes32} {cfg : Solana.Config}
    {asset : Solana.AssetConfig} {payer : Pubkey} {a : Solana.SendArgs} {wire : U64}
    (hauto : a.auto = none) :
    Solana.submissionPreimage keccak256 cfg.bridgeDomain
        (Solana.sendParams cfg asset payer a wire) =
      (gateValues cfg asset a.chainIdTo wire).string a.debridgeId a.chainIdTo.toNat
        a.receiver := by
  have hamount : Solana.amountWord wire = BigEndian.toBytes 32 wire.toNat := be32_eq_toBytes wire
  simp only [Solana.submissionPreimage, Solana.sendParams, hauto, be32_eq_toBytes, hamount,
    IdValues.string, gateValues]
  rfl

/-- The values that the page puts into an id. -/
def GateSendArgs.values (args : GateSendArgs) (bridgeDomain : Bytes32) : IdValues where
  bridgeDomain
  bridgeDecimals := toByte args.bridgeDecimals.num
  amount := (args.amount.tdiv args.bridgeUnit).toNat
  chainIdFrom := args.solanaChainId.toNat
  nonce := args.nonce.toNat

/-! ### What the page is asked and told -/

/-- **What the page is asked for**: a send `a` through the program, under a domain. The asset and
the domain are spelled in hexadecimal, of either case and with or without `0x`. -/
structure Asks (args : GateSendArgs) (programId : Pubkey) (bridgeDomain : Bytes32)
    (a : Solana.SendArgs) : Prop where
  program : b58decode args.programId = .ok (wordBytes programId)
  domain : lower (stripPrefixes args.bridgeDomain) = Hex.encode (wordBytes bridgeDomain)
  debridgeId : lower (stripPrefixes args.debridgeId) = Hex.encode (wordBytes a.debridgeId)
  amount : args.amount = a.amount.toNat
  chainIdTo : args.chainIdTo = a.chainIdTo.toNat
  receiver : args.receiver = a.receiver
  length : a.receiver.length = 20 ∨ a.receiver.length = 32
  auto : a.auto = none

/-- The gate's config and the asset, in some state. -/
structure OnGate (R : Solana.Runtime) (s : Solana.Accounts) (debridgeId : Bytes32)
    (cfg : Solana.Config) (asset : Solana.AssetConfig) : Prop where
  config : ∃ rest, Solana.configCodec.get (s (R.findProgramAddress Solana.configSeeds)).data =
    some (cfg, rest)
  asset : Solana.decodeAssetConfig (s (R.findProgramAddress (Solana.assetSeeds debridgeId))).data =
    .ok asset

/-- **The page was told the truth**: the gate's own domain, chain id, next nonce of the corridor,
and the asset's decimals and unit. -/
structure Told (args : GateSendArgs) (bridgeDomain : Bytes32) (chainIdTo : U64)
    (cfg : Solana.Config) (asset : Solana.AssetConfig) : Prop where
  domain : bridgeDomain = cfg.bridgeDomain
  chainId : args.solanaChainId = cfg.chainId.toNat
  nonce : args.nonce = (cfg.nonce chainIdTo).toNat
  decimals : args.bridgeDecimals = asset.bridgeDecimals.toNat
  unit : ∃ unit, asset.unit = .ok unit ∧ args.bridgeUnit = unit.toNat

/-- The accounts that the program is called with are those that the page listed. -/
def Loaded (ix : Instruction) (accounts : List Solana.AccountInfo) : Prop :=
  List.Forall₂ (fun m ai => b58decode m.pubkey = .ok (wordBytes ai.key)) ix.keys accounts

/-- **The ids that are involved do not collide**: the string of the page and that of the program
have different digests, if they differ, and the digests have different accounts. -/
structure Apart (R : Solana.Runtime) (args : GateSendArgs) (a : Solana.SendArgs)
    (cfg : Solana.Config) (asset : Solana.AssetConfig) : Prop where
  strings : ∀ mine wire payer, packed args.submission = .ok mine →
    asset.toWire a.amount = .ok wire →
    CollisionFree R.keccak256 [mine, Solana.submissionPreimage R.keccak256 cfg.bridgeDomain
      (Solana.sendParams cfg asset payer a wire)]
  accounts : ∀ mine wire payer, packed args.submission = .ok mine →
    asset.toWire a.amount = .ok wire →
    R.findProgramAddress (Solana.sentSeeds (R.keccak256 mine)) =
      R.findProgramAddress (Solana.sentSeeds (Solana.submissionId R.keccak256 cfg.bridgeDomain
        (Solana.sendParams cfg asset payer a wire))) →
    R.keccak256 mine = Solana.submissionId R.keccak256 cfg.bridgeDomain
      (Solana.sendParams cfg asset payer a wire)

/-! ### What the page packs -/

section Packing

variable {args : GateSendArgs} {programId : Pubkey} {bridgeDomain : Bytes32} {a : Solana.SendArgs}
  {mine : Bytes}

/-- What goes into the string of the page, once it has packed it. -/
structure Packed (args : GateSendArgs) (bridgeDomain : Bytes32) (a : Solana.SendArgs)
    (mine : Bytes) : Prop where
  decimals_isInt : args.bridgeDecimals.isInt = true
  decimals_nonneg : 0 ≤ args.bridgeDecimals
  decimals_le : args.bridgeDecimals ≤ 255
  chainId : 0 ≤ args.solanaChainId
  amount : 0 ≤ args.amount.tdiv args.bridgeUnit
  nonce : 0 ≤ args.nonce
  fits : (args.values bridgeDomain).Fits
  string : mine = (args.values bridgeDomain).string a.debridgeId a.chainIdTo.toNat a.receiver

theorem Asks.packed_of_ok (hasks : Asks args programId bridgeDomain a)
    (h : packed args.submission = .ok mine) : Packed args bridgeDomain a mine := by
  rw [packed, revertIf_bind_eq_ok] at h
  obtain ⟨hbyte, h⟩ := h
  obtain ⟨kind, hkind, h⟩ := bind_eq_ok.mp h
  obtain ⟨domain, hdomain, h⟩ := bind_eq_ok.mp h
  obtain ⟨id, hid, h⟩ := bind_eq_ok.mp h
  obtain ⟨chainIdFrom, hfrom, h⟩ := bind_eq_ok.mp h
  obtain ⟨chainIdTo, hto, h⟩ := bind_eq_ok.mp h
  obtain ⟨amount, hamount, h⟩ := bind_eq_ok.mp h
  obtain ⟨nonce, hnonce, h⟩ := bind_eq_ok.mp h
  rw [pure_eq_ok] at h
  have hdomain' : domain = wordBytes bridgeDomain :=
    Except.ok.inj (hdomain.symm.trans (hexBytes_eq hasks.domain))
  have hid' : id = wordBytes a.debridgeId :=
    Except.ok.inj (hid.symm.trans (hexBytes_eq hasks.debridgeId))
  obtain ⟨-, -, hkind⟩ := word32_eq_ok.mp hkind
  obtain ⟨hfrom0, hfromlt, hfrom⟩ := word32_eq_ok.mp hfrom
  obtain ⟨-, -, hto⟩ := word32_eq_ok.mp hto
  obtain ⟨hamount0, hamountlt, hamount⟩ := word32_eq_ok.mp hamount
  obtain ⟨hnonce0, hnoncelt, hnonce⟩ := word32_eq_ok.mp hnonce
  have hchainIdTo : args.submission.chainIdTo.toNat = a.chainIdTo.toNat := by
    rw [GateSendArgs.submission]
    dsimp only
    rw [hasks.chainIdTo, Int.toNat_natCast]
  have hreceiver : args.submission.receiver = a.receiver := hasks.receiver
  rw [not_or, not_or, not_not, not_lt, not_lt] at hbyte
  refine ⟨hbyte.1, hbyte.2.1, hbyte.2.2, hfrom0, hamount0, hnonce0,
    ⟨hamountlt, hfromlt, hnoncelt⟩, ?_⟩
  rw [← h, hkind, hdomain', hid', hfrom, hto, hamount, hnonce, hchainIdTo, hreceiver]
  rfl

end Packing

/-! ### What the page builds -/

section Building

variable {R : Solana.Runtime} {sha256 : Bytes → Bytes32} {args : GateSendArgs} {ix : Instruction}
  {text : Text} {bridgeDomain : Bytes32} {a : Solana.SendArgs} {mine : Bytes}

/-- What an instruction was built from. -/
structure Built (sha256 : Bytes → Bytes32) (args : GateSendArgs) (ix : Instruction) (text : Text)
    (mine : Bytes) : Prop where
  unit : 0 < args.bridgeUnit
  whole : args.amount.tmod args.bridgeUnit = 0
  packed : packed args.submission = .ok mine
  text_eq : text = hexText (keccak256 mine)
  data : encodeGateSendData ⟨args.debridgeId, args.amount, args.chainIdTo, args.receiver⟩ =
    .ok ix.data
  keys : ∃ config asset sent, gateConfigAddress sha256 args.programId = .ok config ∧
    gateAssetAddress sha256 args.programId args.debridgeId = .ok asset ∧
    gateSentAddress sha256 args.programId (keccak256 mine) = .ok sent ∧
    ix.keys = [⟨config, false, true⟩, ⟨asset, false, false⟩, ⟨args.user, true, true⟩,
      ⟨args.userTokenAccount, false, true⟩, ⟨args.vault, false, true⟩,
      ⟨TOKEN_PROGRAM_ID, false, false⟩, ⟨sent, false, true⟩, ⟨SYSTEM_PROGRAM_ID, false, false⟩]

theorem built_of_ok (h : buildGateSendInstruction sha256 args = .ok (ix, text)) :
    ∃ mine, Built sha256 args ix text mine := by
  rw [buildGateSendInstruction, revertIf_bind_eq_ok, revertIf_bind_eq_ok] at h
  obtain ⟨hunit, hwhole, h⟩ := h
  obtain ⟨id, hid, h⟩ := bind_eq_ok.mp h
  obtain ⟨config, hconfig, h⟩ := bind_eq_ok.mp h
  obtain ⟨asset, hasset, h⟩ := bind_eq_ok.mp h
  obtain ⟨sent, hsent, h⟩ := bind_eq_ok.mp h
  obtain ⟨data, hdata, h⟩ := bind_eq_ok.mp h
  obtain ⟨mine, hmine, hhash⟩ := bind_eq_ok.mp hid
  rw [pure_eq_ok, Prod.mk.injEq] at h
  rw [pure_eq_ok] at hhash
  rw [withReason_eq_ok] at hdata
  rw [← hhash] at h hsent
  obtain ⟨hix, htext⟩ := h
  exact ⟨mine, not_le.mp hunit, not_not.mp hwhole, hmine, htext.symm, hix ▸ hdata,
    ⟨config, asset, sent, hconfig, hasset, hsent, hix ▸ rfl⟩⟩

/-- The address that the page derives is the runtime's, as text. -/
theorem decode_derivedAddress {seeds : List Bytes} {programId t : Text}
    (hderive : ∀ k, findProgramAddress sha256 seeds (wordBytes R.programId) = .ok k →
      R.findProgramAddress seeds = k)
    (hprogram : b58decode programId = .ok (wordBytes R.programId))
    (h : derivedAddress sha256 seeds programId = .ok t) :
    b58decode t = .ok (wordBytes (R.findProgramAddress seeds)) := by
  obtain ⟨program, hkey, h⟩ := bind_eq_ok.mp h
  obtain ⟨k, hk, h⟩ := bind_eq_ok.mp h
  rw [keyBytes, withReason_eq_ok, hprogram] at hkey
  rw [← Except.ok.inj hkey] at hk
  rw [pure_eq_ok] at h
  have hne : wordBytes k ≠ [] := by
    intro hnil
    have hlen := length_wordBytes k
    rw [hnil] at hlen
    cases hlen
  rw [hderive k hk, b58decode_eq_ok, ← h, b58encode_eq hne]

/-- **The accounts the page listed**, as the program takes them. -/
structure Listed (R : Solana.Runtime) (debridgeId : Bytes32) (mine : Bytes)
    (x : Solana.SendAccounts) : Prop where
  config : x.config.key = R.findProgramAddress Solana.configSeeds
  asset : x.asset.key = R.findProgramAddress (Solana.assetSeeds debridgeId)
  sent : x.sent.key = R.findProgramAddress (Solana.sentSeeds (R.keccak256 mine))

theorem eq_of_decode {t : Text} {k : Pubkey} {ai : Solana.AccountInfo}
    (ht : b58decode t = .ok (wordBytes k)) (h : b58decode t = .ok (wordBytes ai.key)) :
    ai.key = k :=
  wordBytes_inj.mp (Except.ok.inj (h.symm.trans ht))

theorem Built.listed (hbuilt : Built sha256 args ix text mine)
    (hasks : Asks args R.programId bridgeDomain a)
    (hkeccak : ∀ m, wordBytes (R.keccak256 m) = Keccak.keccak256 m)
    (hderive : ∀ seeds k, findProgramAddress sha256 seeds (wordBytes R.programId) = .ok k →
      R.findProgramAddress seeds = k)
    {accounts : List Solana.AccountInfo} (hloaded : Loaded ix accounts) :
    ∃ x, Solana.SendAccounts.next accounts = .ok x ∧ Listed R a.debridgeId mine x := by
  obtain ⟨config, asset, sent, hconfig, hasset, hsent, hkeys⟩ := hbuilt.keys
  rw [Loaded, hkeys] at hloaded
  simp only [List.forall₂_cons_left_iff, List.forall₂_nil_left_iff] at hloaded
  obtain ⟨configAi, _, hc, ⟨assetAi, _, ha, ⟨payer, _, -, ⟨userToken, _, -, ⟨vault, _, -,
    ⟨tokenProgram, _, -, ⟨sentAi, _, hs, ⟨system, _, -, rfl, rfl⟩, rfl⟩, rfl⟩, rfl⟩, rfl⟩, rfl⟩,
    rfl⟩, rfl⟩ := hloaded
  obtain ⟨id, hid, hasset⟩ := bind_eq_ok.mp hasset
  rw [hexBytes_eq hasks.debridgeId] at hid
  rw [← Except.ok.inj hid] at hasset
  rw [gateSentAddress, keccak256_eq, ← hkeccak] at hsent
  exact ⟨_, rfl, eq_of_decode (decode_derivedAddress (hderive _) hasks.program hconfig) hc,
    eq_of_decode (decode_derivedAddress (hderive _) hasks.program hasset) ha,
    eq_of_decode (decode_derivedAddress (hderive _) hasks.program hsent) hs⟩

/-- The program reads the instruction that was asked for. -/
theorem Built.reads (hbuilt : Built sha256 args ix text mine)
    (hasks : Asks args R.programId bridgeDomain a) :
    Solana.tryFromSlice ix.data = some (.send a) := by
  have hlength : a.receiver.length < 2 ^ 32 := by
    have := hasks.length
    omega
  obtain ⟨bs, hbs, hread⟩ := @tryFromSlice_encodeGateSendData args.debridgeId a.receiver
    a.debridgeId a.amount a.chainIdTo hasks.debridgeId hlength
  rw [← hasks.amount, ← hasks.chainIdTo, ← hasks.receiver, hbuilt.data] at hbs
  rw [Except.ok.inj hbs, hread, ← hasks.auto]

/-- The page's division is the program's. -/
theorem Built.amount_eq (hbuilt : Built sha256 args ix text mine)
    (hasks : Asks args R.programId bridgeDomain a) {amount : ℕ}
    (h : (args.amount.tdiv args.bridgeUnit).toNat = amount) :
    (a.amount.toNat : ℤ) = amount * args.bridgeUnit := by
  have hwhole := hbuilt.whole
  have hunit := hbuilt.unit
  rw [hasks.amount] at h hwhole
  rw [Int.tmod_eq_emod_of_nonneg (Int.natCast_nonneg _)] at hwhole
  rw [Int.tdiv_eq_ediv_of_nonneg (Int.natCast_nonneg _)] at h
  have hquot : 0 ≤ (a.amount.toNat : ℤ) / args.bridgeUnit :=
    Int.ediv_nonneg (Int.natCast_nonneg _) hunit.le
  have hdiv := Int.mul_ediv_add_emod (a.amount.toNat : ℤ) args.bridgeUnit
  rw [hwhole, add_zero] at hdiv
  rw [← h, Int.toNat_of_nonneg hquot, mul_comm]
  exact hdiv.symm

/-- **If the page was told the truth, it packs what the program packs.** -/
theorem Built.values_of_told (hbuilt : Built sha256 args ix text mine)
    (hasks : Asks args R.programId bridgeDomain a) {cfg : Solana.Config}
    {asset : Solana.AssetConfig} (htold : Told args bridgeDomain a.chainIdTo cfg asset) :
    ∃ wire, asset.toWire a.amount = .ok wire ∧
      args.values bridgeDomain = gateValues cfg asset a.chainIdTo wire := by
  obtain ⟨unit, hunit, hargs⟩ := htold.unit
  have hpos := hbuilt.unit
  have hamount := hbuilt.amount_eq hasks rfl
  rw [hargs] at hamount hpos
  have hquot : a.amount.toNat =
      (args.amount.tdiv args.bridgeUnit).toNat * unit.toNat := by
    rw [hargs]
    exact_mod_cast hamount
  have hpos' : 0 < unit.toNat := by exact_mod_cast hpos
  have hdiv : a.amount.toNat / unit.toNat = (args.amount.tdiv args.bridgeUnit).toNat := by
    rw [hquot, Nat.mul_div_cancel _ hpos']
  have hlt : a.amount.toNat / unit.toNat < 2 ^ 64 :=
    (Nat.div_le_self _ _).trans_lt a.amount.isLt
  refine ⟨BitVec.ofNat 64 (a.amount.toNat / unit.toNat), ?_, ?_⟩
  · rw [Solana.AssetConfig.toWire, hunit, ok_bind, Solana.check, revertIf_bind, if_neg]
    · rfl
    · rw [not_not, hquot, Nat.mul_mod_left]
  · have hbyte : toByte args.bridgeDecimals.num = asset.bridgeDecimals := by
      rw [htold.decimals, Rat.num_natCast, toByte_natCast, UInt8.ofNat_toNat]
    rw [GateSendArgs.values, gateValues, hbyte, htold.chainId, htold.nonce, htold.domain,
      Int.toNat_natCast, Int.toNat_natCast, BitVec.toNat_ofNat, Nat.mod_eq_of_lt hlt, hdiv]

/-- **If it packs what the program packs, it was told the truth.** -/
theorem Built.told_of_values (hbuilt : Built sha256 args ix text mine)
    (hasks : Asks args R.programId bridgeDomain a) (hpacked : Packed args bridgeDomain a mine)
    {cfg : Solana.Config} {asset : Solana.AssetConfig} {wire : U64} (hne : a.amount ≠ 0)
    (hwire : asset.toWire a.amount = .ok wire)
    (h : args.values bridgeDomain = gateValues cfg asset a.chainIdTo wire) :
    Told args bridgeDomain a.chainIdTo cfg asset := by
  have hvalues := IdValues.mk.inj h
  obtain ⟨hdomain, hdecimals, hamount, hchain, hnonce⟩ := hvalues
  refine ⟨hdomain, ?_, ?_, ?_, ?_⟩
  · rw [← hchain, Int.toNat_of_nonneg hpacked.chainId]
  · rw [← hnonce, Int.toNat_of_nonneg hpacked.nonce]
  · have hnum : args.bridgeDecimals = args.bridgeDecimals.num :=
      Rat.eq_num_of_isInt hpacked.decimals_isInt
    have hnonneg : 0 ≤ args.bridgeDecimals.num := Rat.num_nonneg.mpr hpacked.decimals_nonneg
    have hle : args.bridgeDecimals.num ≤ 255 := by
      have hle := hpacked.decimals_le
      rw [hnum] at hle
      exact_mod_cast hle
    have hbyte : (asset.bridgeDecimals.toNat : ℤ) = args.bridgeDecimals.num := by
      have hsize : (args.bridgeDecimals.num % 256).toNat < 256 := by omega
      rw [← hdecimals, toByte, UInt8.toNat_ofNat_of_lt' hsize]
      omega
    rw [hnum, ← hbyte, Int.cast_natCast]
  · rw [Solana.AssetConfig.toWire] at hwire
    obtain ⟨unit, hunit, hwire⟩ := bind_eq_ok.mp hwire
    rw [Solana.check, revertIf_bind_eq_ok, not_not, pure_eq_ok] at hwire
    obtain ⟨hmod, hwire⟩ := hwire
    refine ⟨unit, hunit, ?_⟩
    have hlt : a.amount.toNat / unit.toNat < 2 ^ 64 :=
      (Nat.div_le_self _ _).trans_lt a.amount.isLt
    have hquot : wire.toNat = a.amount.toNat / unit.toNat := by
      rw [← hwire, BitVec.toNat_ofNat, Nat.mod_eq_of_lt hlt]
    have hmine := hbuilt.amount_eq hasks hamount
    have htheirs : (a.amount.toNat : ℤ) = wire.toNat * (unit.toNat : ℤ) := by
      rw [hquot]
      exact_mod_cast (Nat.div_mul_cancel (Nat.dvd_of_mod_eq_zero hmod)).symm
    have hpos : (wire.toNat : ℤ) ≠ 0 := by
      intro hzero
      rw [hzero, zero_mul, Int.natCast_eq_zero] at htheirs
      exact hne (BitVec.eq_of_toNat_eq htheirs)
    exact mul_left_cancel₀ hpos (hmine.symm.trans htheirs)

/-- **What the program finds**, when a send goes through on the accounts the page listed: the gate's
own config and asset, and its id is the one whose account was listed. -/
theorem Listed.sends {s s' : Solana.Accounts} {clock : Solana.Clock}
    {accounts : List Solana.AccountInfo} {cfg : Solana.Config} {asset : Solana.AssetConfig}
    {x : Solana.SendAccounts} {log : List Solana.Log} (hlisted : Listed R a.debridgeId mine x)
    (hnext : Solana.SendAccounts.next accounts = .ok x) (hon : OnGate R s a.debridgeId cfg asset)
    (h : Solana.processSend R clock s accounts a = .ok (s', log)) : ∃ wire id,
      Solana.Sends R clock s a x cfg asset wire id s' log ∧
        R.findProgramAddress (Solana.sentSeeds (R.keccak256 mine)) =
          R.findProgramAddress (Solana.sentSeeds id) := by
  obtain ⟨x', cfg', asset', wire, id, hnext', hsends⟩ := Solana.sends_of_processSend h
  obtain rfl : x' = x := Except.ok.inj (hnext'.symm.trans hnext)
  obtain ⟨rest', hcfg'⟩ := hsends.config.decoded
  obtain ⟨rest, hcfg⟩ := hon.config
  rw [hlisted.config, hcfg] at hcfg'
  obtain rfl : cfg = cfg' := (Prod.mk.inj (Option.some.inj hcfg')).1
  have hasset' := hsends.registered.decoded
  rw [hlisted.asset, hon.asset] at hasset'
  obtain rfl : asset = asset' := Except.ok.inj hasset'
  exact ⟨wire, id, hsends, hlisted.sent.symm.trans hsends.sent_key⟩

/-- What the page packed is the program's string, if their values are the same. -/
theorem Packed.eq_preimage (hpacked : Packed args bridgeDomain a mine)
    (hasks : Asks args R.programId bridgeDomain a) {cfg : Solana.Config}
    {asset : Solana.AssetConfig} {wire : U64}
    (h : args.values bridgeDomain = gateValues cfg asset a.chainIdTo wire) (payer : Pubkey) :
    mine = Solana.submissionPreimage R.keccak256 cfg.bridgeDomain
      (Solana.sendParams cfg asset payer a wire) := by
  rw [submissionPreimage_eq hasks.auto, hpacked.string, h]

end Building

/-! ### The transfer that is named -/

/-- **The page names the transfer that the program records.** It hashes with Keccak-256. If it was
told the truth about the gate, its id is the program's, the account it listed is the one the program
wants, and a send that goes through is the one the user chose. If it was told anything else, the
program refuses. -/
structure NamesTransfer (R : Solana.Runtime) (sha256 : Bytes → Bytes32) : Prop where
  hash : ∀ input, keccak256 input = Keccak.keccak256 input
  told : ∀ args bridgeDomain a s cfg asset ix text, Asks args R.programId bridgeDomain a →
    OnGate R s a.debridgeId cfg asset → Told args bridgeDomain a.chainIdTo cfg asset →
    buildGateSendInstruction sha256 args = .ok (ix, text) →
    ∃ id wire, text = hexText (wordBytes id) ∧ asset.toWire a.amount = .ok wire ∧
      (∀ payer, Solana.submissionId R.keccak256 cfg.bridgeDomain
        (Solana.sendParams cfg asset payer a wire) = id) ∧
      Solana.tryFromSlice ix.data = some (.send a) ∧
      ∀ accounts, Loaded ix accounts → ∃ x, Solana.SendAccounts.next accounts = .ok x ∧
        x.sent.key = R.findProgramAddress (Solana.sentSeeds id) ∧
        ∀ clock s' log, Solana.processInstruction R clock s accounts (.send a) = .ok (s', log) →
          Solana.Sends R clock s a x cfg asset wire id s' log
  otherwise : ∀ args bridgeDomain a s cfg asset ix text, Asks args R.programId bridgeDomain a →
    OnGate R s a.debridgeId cfg asset → ¬Told args bridgeDomain a.chainIdTo cfg asset →
    buildGateSendInstruction sha256 args = .ok (ix, text) → Apart R args a cfg asset →
    ∀ accounts, Loaded ix accounts → ∀ clock,
      ∃ e, Solana.processInstruction R clock s accounts (.send a) = .error e

/-! ### A page and a cluster -/

open Solana.Cluster (programId debridgeId transferId payer userToken vault signer writable pda
  splTokenId noSeeds)

/-- The SHA-256 digests of the addresses that the page tries, by seeds and bump. -/
def candidates : List (List Bytes × ℕ × Bytes32) :=
  [(Solana.configSeeds, 255, 0x4fc31a8f825727bbd12731529e723bd725b2d38d1a0965bbff963b2c94de64d9),
   (Solana.configSeeds, 254, 0x4e81a34ba91dadb7f18f0c24cf883c5371664b29e2b9a8da2038f28a6b247945),
   (Solana.configSeeds, 253, 0xc34192696bf272063b6b65e0b8226a8fa3841f29e92a282ab1b56cece8bc05b9),
   (Solana.configSeeds, 252, 0x1240fc3653e7d362383b87ff2af9fbb41f70a1ff55352cfce578e66b35771fc7),
   (Solana.assetSeeds debridgeId, 255,
    0x40a90229eb55e53997bdf192cbbe346104d932ba8abf11fcfb4cb20b4b805569),
   (Solana.assetSeeds debridgeId, 254,
    0x57988811e322c74afaab1ebdff105fbb1be71669794cb69c64dc2f26f028adc2),
   (Solana.sentSeeds transferId, 255,
    0x3422e93b7316eb14bb1416e9582672f363d9afca7460eaa30ad9be6ed1487dca)]

/-- SHA-256, on those. -/
def sha256Of (m : Bytes) : Bytes32 :=
  ((candidates.find? fun r => r.1.flatten ++ ([UInt8.ofNat r.2.1] ++
    (wordBytes programId ++ PDA_MARKER)) == m).map fun r => r.2.2).getD noSeeds

/-- Keccak-256, as a word. -/
def hashWord (m : Bytes) : Bytes32 := BitVec.ofNat 256 (BigEndian.ofBytes (keccak256 m))

theorem wordBytes_hashWord (m : Bytes) : wordBytes (hashWord m) = Keccak.keccak256 m := by
  have hlen : (Keccak.keccak256 m).length = 32 := Keccak.length_sponge 1088 32 m
  have hlt := BigEndian.ofBytes_lt (Keccak.keccak256 m)
  have hback := BigEndian.toBytes_ofBytes (Keccak.keccak256 m)
  rw [hlen] at hlt hback
  rw [hashWord, keccak256_eq, wordBytes, BigEndian.ofWord, BitVec.toNat_ofNat,
    Nat.mod_eq_of_lt (by exact hlt), hback]

/-- The addresses that the page derives. -/
def pageAddress (seeds : List Bytes) : Pubkey :=
  ((findProgramAddress sha256Of seeds (wordBytes programId)).toOption).getD noSeeds

/-- A cluster that hashes with Keccak-256 and derives addresses as the page does. -/
def pageRuntime : Solana.Runtime :=
  { Solana.Cluster.runtime with
    keccak256 := hashWord
    findProgramAddress := pageAddress }

theorem findProgramAddress_pageRuntime (seeds : List Bytes) (k : Bytes32)
    (h : findProgramAddress sha256Of seeds (wordBytes pageRuntime.programId) = .ok k) :
    pageRuntime.findProgramAddress seeds = k := by
  simp only [pageRuntime, Solana.Cluster.runtime] at h ⊢
  rw [pageAddress, h]
  rfl

/-- The gate of the cluster, wired. -/
def wired : Solana.Accounts :=
  (Transition.traceOf (Solana.exec Solana.Cluster.runtime) Solana.Cluster.deployed
    Solana.Cluster.wiring).2

/-- A million units of the mint, a thousand on the wire. -/
def millionArgs : GateSendArgs where
  programId := base58 (wordBytes programId)
  user := base58 (wordBytes payer)
  userTokenAccount := base58 (wordBytes userToken)
  vault := base58 (wordBytes vault)
  debridgeId := hexText (wordBytes debridgeId)
  bridgeDomain := hexText (wordBytes 0xd0)
  solanaChainId := 7565164
  chainIdTo := 1
  nonce := 0
  amount := 1000000
  bridgeUnit := 1000
  bridgeDecimals := 6
  receiver := addressBytes 0xbb

/-- The same, as the program is asked. -/
def millionSend : Solana.SendArgs := ⟨debridgeId, 1000000, 1, addressBytes 0xbb, none⟩

/-- The accounts that the page lists for it. -/
def millionAccounts : List Solana.AccountInfo :=
  [pda Solana.configSeeds, pda (Solana.assetSeeds debridgeId), signer payer, writable userToken,
    writable vault, writable splTokenId, pda (Solana.sentSeeds transferId), writable 0]

/-! ### The hash of that transfer -/

/-- The string of that transfer. -/
def millionString : Bytes := (packed millionArgs.submission).toOption.getD []

/-- The lanes half-way through the first of its two blocks. -/
def firstHalfLanes : Lanes :=
  #v[#v[14894818690778832172, 2729301144861383888, 15255964809381115889, 9779666221613451704,
      6084306197373468280],
    #v[15713320941009836392, 13161889923106139882, 14602858829984972211, 9778564966525509776,
      9115877565240272791],
    #v[11220640438894542502, 4040132275649265413, 18219814968675360101, 9559527637180271654,
      315469712751553163],
    #v[12990195415122691066, 8579664954372555278, 13838626591602910973, 17953313732030705127,
      17625204120377764985],
    #v[2063757379830977271, 15359255135319128240, 14447774907013403970, 12603354920493081415,
      10132133901056202549]]

/-- After the first block. -/
def firstLanes : Lanes :=
  #v[#v[12745122471393239518, 1416448118331670333, 12514790270500222362, 4927924101541074355,
      5624158867834962307],
    #v[8181895845014831200, 12148644957929290722, 3634621524261026259, 17217623630468704322,
      14206563176947627251],
    #v[12301029564570064131, 8030989265089243991, 11012019193185371657, 1046774079566702177,
      14606452741906023329],
    #v[12151435841314227634, 107723656053837875, 17719579916434039697, 16932219303270438876,
      3679300668601615161],
    #v[8989189284979904992, 9165485686756293670, 10071432754940865700, 285924377431595344,
      17485127108098959272]]

/-- Half-way through the second. -/
def secondHalfLanes : Lanes :=
  #v[#v[4588308926063998604, 18120780349437463508, 15861575437998835658, 1582195068424321647,
      6791391281402426423],
    #v[3246401970578254694, 5803522953803488603, 16594838899910660967, 16173772293185193355,
      8657057797320170862],
    #v[5310313349273924856, 14514319229351844955, 5807964048574200493, 7374197045269706745,
      15603949169040793696],
    #v[16351274496162631141, 3982471460218757655, 7830037194205111830, 12772568332986721001,
      12750965901465958626],
    #v[10785468431365493178, 3138232406418253755, 8523371257249302697, 10704093988785250663,
      5541358843567080563]]

/-- And after it. -/
def secondLanes : Lanes :=
  #v[#v[13966218428265079879, 11119915054467668294, 3897755671085654376, 12735457232399727232,
      11146392359726633250],
    #v[14020767633947445823, 7142206490761960749, 14752524914872738496, 3259519301279123674,
      10056055430761265672],
    #v[255883950548788224, 17823629400851074627, 607697748124902828, 17947222162238632623,
      12954766147392668829],
    #v[9985765244403676940, 12822029402535354637, 448405281053203673, 4823400982340117610,
      7997994565310530115],
    #v[13732878883139472679, 5172319132854737771, 10152352983346538663, 7470630229972861052,
      17008479898522200481]]

theorem keccakF_of_halves {a b c : Lanes} (hfirst : (List.range 12).foldl roundStep a = b)
    (hsecond : (List.range' 12 12).foldl roundStep b = c) : keccakF a = c := by
  have hrange : List.range 24 = List.range 12 ++ List.range' 12 12 := rfl
  rw [keccakF, hrange, List.foldl_append, hfirst, hsecond]

/-- **Its hash, block by block**, and each block in two halves: all at once is much to compute. -/
theorem keccak256_millionString : keccak256 millionString = wordBytes transferId := by
  have hlen : (padded millionString).length / RATE = 2 := by decide +kernel
  have hfirst : keccakF (addBlock (padded millionString) (0 * RATE) (lanes fun _ _ => 0)) =
      firstLanes :=
    @keccakF_of_halves _ firstHalfLanes _ (by decide +kernel) (by decide +kernel)
  have hsecond : keccakF (addBlock (padded millionString) (1 * RATE) firstLanes) = secondLanes :=
    @keccakF_of_halves _ secondHalfLanes _ (by decide +kernel) (by decide +kernel)
  have hsqueezed : ((List.range 4).flatMap fun i =>
      (List.range 8).map fun j => UInt8.ofNat
        ((secondLanes[Fin.ofNat 5 i][Fin.ofNat 5 (i / 5)] >>> (8 * j)) &&& 0xff)) =
      wordBytes transferId := by decide +kernel
  have hrange : List.range 2 = [0, 1] := rfl
  rw [keccak256]
  simp only [hlen, hrange, List.foldl_cons, List.foldl_nil, hfirst, hsecond]
  exact hsqueezed

theorem submissionId_millionArgs :
    submissionId millionArgs.submission = .ok (wordBytes transferId) := by
  have hpacked : packed millionArgs.submission = .ok millionString := by decide +kernel
  rw [submissionId, hpacked, ← keccak256_millionString]
  rfl

/-- The hash of the cluster, with this one at hand. -/
theorem hashWord_eq :
    hashWord = fun m => if m = millionString then transferId else hashWord m := by
  funext m
  split
  · next h =>
    rw [h, hashWord, keccak256_millionString]
    decide +kernel
  · rfl

/-! ### The theorem -/

/-- **The browser's send names the transfer that the program will record**, if the program hashes
with Keccak-256 and both derive the same addresses. -/
theorem names_transfer {R : Solana.Runtime} {sha256 : Bytes → Bytes32}
    (hkeccak : ∀ m, wordBytes (R.keccak256 m) = Keccak.keccak256 m)
    (hderive : ∀ seeds k, findProgramAddress sha256 seeds (wordBytes R.programId) = .ok k →
      R.findProgramAddress seeds = k) :
    NamesTransfer R sha256 where
  hash := keccak256_eq
  told := by
    intro args bridgeDomain a s cfg asset ix text hasks hon htold h
    obtain ⟨mine, hbuilt⟩ := built_of_ok h
    have hpacked := hasks.packed_of_ok hbuilt.packed
    obtain ⟨wire, hwire, hvalues⟩ := hbuilt.values_of_told hasks htold
    have hid : ∀ payer, Solana.submissionId R.keccak256 cfg.bridgeDomain
        (Solana.sendParams cfg asset payer a wire) = R.keccak256 mine := by
      intro payer
      rw [Solana.submissionId, ← hpacked.eq_preimage hasks hvalues payer]
    refine ⟨R.keccak256 mine, wire, ?_, hwire, hid, hbuilt.reads hasks, ?_⟩
    · rw [hbuilt.text_eq, keccak256_eq, hkeccak]
    · intro accounts hloaded
      obtain ⟨x, hnext, hlisted⟩ := hbuilt.listed hasks hkeccak hderive hloaded
      refine ⟨x, hnext, hlisted.sent, ?_⟩
      intro clock s' log hsend
      obtain ⟨wire', id, hsends, -⟩ := hlisted.sends hnext hon hsend
      obtain rfl : wire' = wire := Except.ok.inj (hsends.wire_eq.symm.trans hwire)
      obtain rfl : id = R.keccak256 mine := hsends.id_eq.trans (hid _)
      exact hsends
  otherwise := by
    intro args bridgeDomain a s cfg asset ix text hasks hon htold h hapart accounts hloaded clock
    obtain ⟨mine, hbuilt⟩ := built_of_ok h
    have hpacked := hasks.packed_of_ok hbuilt.packed
    obtain ⟨x, hnext, hlisted⟩ := hbuilt.listed hasks hkeccak hderive hloaded
    rcases hsend : Solana.processInstruction R clock s accounts (.send a) with e | ⟨s', log⟩
    · exact ⟨e, rfl⟩
    -- a send that went through would have found the page's id, so the page's values
    obtain ⟨wire, id, hsends, haccount⟩ := hlisted.sends hnext hon hsend
    rw [hsends.id_eq] at haccount
    have hids := hapart.accounts mine wire x.payer.key hbuilt.packed hsends.wire_eq haccount
    have hstrings := collisionFree_pair.mp
      (hapart.strings mine wire x.payer.key hbuilt.packed hsends.wire_eq) hids
    rw [hpacked.string, submissionPreimage_eq hasks.auto] at hstrings
    have hvalues := IdValues.string_inj hpacked.fits (fits_gateValues _ _ _ _) hstrings
    exact absurd (hbuilt.told_of_values hasks hpacked hsends.amount_ne hsends.wire_eq hvalues) htold

/-- The page names the transfer of a million units, and the program records it. -/
theorem names_transfer_million : NamesTransfer pageRuntime sha256Of ∧
    (buildGateSendInstruction sha256Of millionArgs).map Prod.snd =
      .ok (hexText (wordBytes transferId)) ∧
    (Solana.processInstruction pageRuntime Solana.Cluster.clock wired millionAccounts
      (.send millionSend)).isOk = true := by
  refine ⟨names_transfer wordBytes_hashWord findProgramAddress_pageRuntime, ?_, ?_⟩
  · rw [buildGateSendInstruction, submissionId_millionArgs]
    decide +kernel
  · rw [pageRuntime, hashWord_eq]
    decide +kernel

end Frontend

end SelendraBridge
