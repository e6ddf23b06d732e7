import SelendraBridge.Digest
import SelendraBridge.Solana.Machine

/-!
# A cluster to run the program on

The plain kind of a cluster: token accounts in their real layout with a token program that
moves what it is asked to move, a system program that gives away what nobody took, and the
addresses of a few seeds. It is what the results about arbitrary runtimes are instantiated
with, and it keeps the rules (`SelendraBridge.Solana.Cluster.lawful`).

The runs on concrete inputs all start from one deployment: a mint of nine decimals, a
vault, a user with two million units, and somebody who deployed the program.
-/

namespace SelendraBridge

namespace Solana

namespace Cluster

open Borsh Transition

/-! ### Token accounts -/

/-- A token account as it is stored. -/
structure Stored where
  mint : Pubkey
  owner : Pubkey
  amount : U64
  delegateTag : BitVec 32
  delegate : Pubkey
  state : UInt8
  nativeTag : BitVec 32
  native : U64
  delegated : U64
  closeTag : BitVec 32
  closeAuthority : Pubkey

/-- The layout of a token account. -/
def storedCodec : Codec Stored :=
  (word.pair <| word.pair <| u64.pair <| u32.pair <| word.pair <| Codec.u8.pair <| u32.pair <|
    u64.pair <| u64.pair <| u32.pair word).iso
    (fun (mint, owner, amount, delegateTag, delegate, state, nativeTag, native, delegated, closeTag,
        closeAuthority) =>
      ⟨mint, owner, amount, delegateTag, delegate, state, nativeTag, native, delegated, closeTag,
        closeAuthority⟩)
    (fun t => (t.mint, t.owner, t.amount, t.delegateTag, t.delegate, t.state, t.nativeTag, t.native,
      t.delegated, t.closeTag, t.closeAuthority))
    fun _ => rfl

/-- A stored account that is one: initialized, if maybe frozen, and with its options spelled out. -/
def Stored.Valid (t : Stored) : Prop :=
  (t.state = 1 ∨ t.state = 2) ∧ t.delegateTag ≤ 1 ∧ t.nativeTag ≤ 1 ∧ t.closeTag ≤ 1

instance : DecidablePred Stored.Valid := fun t => by
  unfold Stored.Valid
  infer_instance

/-- A stored account, if it is one. -/
def stored (data : Bytes) : Option Stored :=
  match storedCodec.get data with
  | some (t, []) => if t.Valid then some t else none
  | _ => none

/-- What a stored account says. -/
def Stored.account (t : Stored) : TokenAccount where
  mint := t.mint
  owner := t.owner
  amount := t.amount
  delegate := if t.delegateTag = 0 then none else some t.delegate
  closeAuthority := if t.closeTag = 0 then none else some t.closeAuthority

theorem stored_put {t : Stored} (h : t.Valid) : stored (storedCodec.put t) = some t := by
  have hget := storedCodec.get_put (a := t) []
    ⟨trivial, trivial, trivial, trivial, trivial, trivial, trivial, trivial, trivial, trivial,
      trivial⟩
  rw [List.append_nil] at hget
  simp only [stored, hget, h, if_true]

theorem valid_of_stored {data : Bytes} {t : Stored} (h : stored data = some t) : t.Valid := by
  unfold stored at h
  split at h
  · obtain ⟨hvalid, h⟩ := Option.ite_none_right_eq_some.mp h
    obtain rfl := Option.some.inj h
    exact hvalid
  · cases h

/-- An account holding some tokens, with nobody else in control. -/
def tokenData (mint owner : Pubkey) (amount : U64) : Bytes :=
  storedCodec.put ⟨mint, owner, amount, 0, 0, 1, 0, 0, 0, 0, 0⟩

/-- `Mint::unpack`. -/
def unpackMint (data : Bytes) : Option UInt8 :=
  if data.length = 82 ∧ data.getD 45 0 = 1 then some (data.getD 44 0) else none

/-! ### Programs -/

/-- The program. -/
def programId : Pubkey := 0x51

/-- The token program. -/
def splTokenId : Pubkey := 0x06ddf6e1d765a193d9cbe146ceeb79ac1cb485ed5f5b37913a8cf5857eff00a9

/-- The loader. -/
def loaderId : Pubkey := 0x02a8f6914e88a1b0e210153ef763ae2b00c2b93d16c124d2c0537a1004800000

/-- The asset of the runs: the token `0xaa` of chain 1. -/
def debridgeId : Bytes32 := 0xafdef99c1704a7d5f4cacc1c621cef270dae98e2ea1f2add9fa0fd4e7201018a

/-- The transfer of the runs. -/
def transferId : Bytes32 := 0x47244110aaf9d1c13f4abbbbe0c593c200242fe818158d030c771f3b9590948a

/-- A transfer of the runs that comes from chain 1. -/
def arrivalId : Bytes32 := 0x034841dd0aab539b7b90f1c5275dfb9dd898442d016e06a116402b21993e248b

/-- The vault of the runs. -/
def vault : Pubkey := 0x7a

/-- The mint of the runs. -/
def mint : Pubkey := 0x317

/-- The user's token account. -/
def userToken : Pubkey := 0x75

/-- Who deployed the program, and pays for everything. -/
def payer : Pubkey := 0x0a

/-- The seeds of the runs, with their addresses. -/
def addresses : List (List Bytes × Pubkey) :=
  [(configSeeds, 0x1240fc3653e7d362383b87ff2af9fbb41f70a1ff55352cfce578e66b35771fc7),
   (assetSeeds debridgeId, 0x57988811e322c74afaab1ebdff105fbb1be71669794cb69c64dc2f26f028adc2),
   (sentSeeds transferId, 0x3422e93b7316eb14bb1416e9582672f363d9afca7460eaa30ad9be6ed1487dca),
   (executedSeeds transferId, 0x82b3f00c46e180da83d7be9d5dde57267b9f5304facb5d1ae9c9f42d39b20584),
   (refundedSeeds transferId, 0xa76194d2f0f527f60ffd9f486b2c504d9d34560e50efc4497ef66d2be5acef23),
   (executedSeeds arrivalId, 0xe08da04a65110482e1925a6124fe80696a19f36467e6d737b7a96409a7f402e3),
   (vaultSeeds vault, 0x98aaa6c47584080e085be5bdd447bd22c522a8b543cc7c95cd5a9d1503eea08d),
   (vaultAuthoritySeeds, 0xa65e7a439fb8e5dd8575f2a7ee05649b02e2de665f8fcdc00004fa96bf4febbc),
   (govSeeds (registerAssetActionId digestOf debridgeId mint vault 6),
    0x81bedcf1bff4fc3919bcfbfd0835fb6b7afd16df417a190d23ff05f8029d367d)]

/-- The address of no seeds at all. -/
def noSeeds : Pubkey := 0x8c36e7341310877c96d9b1406986454e2842023c9c58eb37493a4dee97407e27

/-- The address of some seeds in a table. -/
def addressIn (table : List (List Bytes × Pubkey)) (seeds : List Bytes) : Pubkey :=
  ((table.find? fun r => r.1 == seeds).map Prod.snd).getD noSeeds

/-- All addresses of a table. -/
def addressesOf (table : List (List Bytes × Pubkey)) : List Pubkey :=
  noSeeds :: table.map Prod.snd

theorem addressIn_mem (table : List (List Bytes × Pubkey)) (seeds : List Bytes) :
    addressIn table seeds ∈ addressesOf table := by
  rw [addressIn]
  rcases hf : table.find? fun r => r.1 == seeds with _ | r
  · rw [hf]
    exact List.mem_cons_self
  · rw [hf]
    exact List.mem_cons_of_mem _ (List.mem_map.mpr ⟨r, List.mem_of_find?_eq_some hf, rfl⟩)

/-- `find_program_address` on the seeds of the runs. -/
def findProgramAddress (seeds : List Bytes) : Pubkey := addressIn addresses seeds

/-- The addresses that the program derives. -/
def isDerived (k : Pubkey) : Bool := (addressesOf addresses).contains k

/-- A transfer of lamports. -/
def systemTransfer (payer : AccountInfo) (target : Pubkey) (amount : U64) (s : Accounts) :
    Option Accounts :=
  if payer.isSigner = true ∧ (s payer.key).owner = 0 ∧ amount ≤ (s payer.key).lamports then
    let s₁ := Function.update s payer.key
      { s payer.key with lamports := (s payer.key).lamports - amount }
    some (Function.update s₁ target { s₁ target with lamports := (s₁ target).lamports + amount })
  else none

/-- An account for whoever signs for its address. -/
def systemAllocate (target : Pubkey) (space : ℕ) (s : Accounts) : Option Accounts :=
  if (s target).owner = 0 ∧ (s target).data = [] then
    some (Function.update s target { s target with data := List.replicate space 0 })
  else none

/-- An account given to the program. -/
def systemAssign (target : Pubkey) (s : Accounts) : Option Accounts :=
  some (Function.update s target { s target with owner := programId })

/-- A stored account, written. -/
def write (s : Accounts) (k : Pubkey) (t : Stored) : Accounts :=
  Function.update s k { s k with data := storedCodec.put t }

/-- **Spending from an account**: its delegate does as far as the allowance goes, and is one no
longer when it is used up; otherwise whoever holds the account does. -/
def Stored.spend (t : Stored) (authority : Pubkey) (amount : U64) : Option Stored :=
  if t.delegateTag = 1 ∧ t.delegate = authority then
    if amount ≤ t.delegated then
      some { t with
        amount := t.amount - amount
        delegated := t.delegated - amount
        delegateTag := if t.delegated = amount then 0 else t.delegateTag }
    else none
  else if t.owner = authority then some { t with amount := t.amount - amount }
  else none

/-- A transfer of tokens, signed by whoever may spend from the source. -/
def splTransfer (source target authority : Pubkey) (signed : Bool) (amount : U64) (s : Accounts) :
    Option Accounts :=
  match stored (s source).data, stored (s target).data with
  | some t, some u =>
    if (s source).owner = splTokenId ∧ (s target).owner = splTokenId ∧
        (t.state = 1 ∧ u.state = 1) ∧ amount ≤ t.amount ∧ t.mint = u.mint ∧ signed = true then
      (t.spend authority amount).bind fun t' =>
        if source = target then some s
        else if u.amount.toNat + amount.toNat < 2 ^ 64 then
          some (write (write s source t') target { u with amount := u.amount + amount })
        else none
    else none
  | _, _ => none

/-- **The runtime of the cluster.** -/
def runtime : Runtime where
  programId
  systemId := 0
  splTokenId
  loaderId
  keccak256 := digestOf
  findProgramAddress
  isDerived
  programDataAddress := 0xe24507d712f2b144f3eb7937fa0f95a3b528a021667dd18c4a58ee9fcb9da817
  loaderState data := if data.take 4 = [3, 0, 0, 0] ∧ data.getD 12 0 = 1 then
      (BigEndian.toWord 32 (sliceAt data 13 32)).map fun authority => .programData (some authority)
    else none
  secp256k1Recover digest recoveryId sig :=
    if recoverOf digest (sig ++ [recoveryId + 27]) =
        some 0x7e5f4552091a69125d5dfcb7b8c2659029395bdf then
      some (BigEndian.toBytes 32 0x79be667ef9dcbbac55a06295ce870b07029bfcdb2dce28d959f2815b16f81798 ++
        BigEndian.toBytes 32 0x483ada7726a3c4655da4fbfc0e1108a8fd17b448a68554199c47d08ffb10d4b8)
    else none
  unpackTokenAccount data := (stored data).map Stored.account
  unpackMint
  minimumBalance space := BitVec.ofNat 64 ((128 + space) * 6960)
  systemTransfer
  systemAllocate
  systemAssign
  splTransfer

theorem write_self (s : Accounts) (k : Pubkey) {t : Stored} (h : t.Valid) :
    stored (write s k t k).data = some t := by
  rw [write, Function.update_self]
  exact stored_put h

theorem write_of_ne (s : Accounts) {k k' : Pubkey} (t : Stored) (h : k' ≠ k) :
    write s k t k' = s k' := Function.update_of_ne h _ _

@[simp] theorem owner_write (s : Accounts) (k k' : Pubkey) (t : Stored) :
    (write s k t k').owner = (s k').owner := by
  rcases eq_or_ne k' k with rfl | hne
  · rw [write, Function.update_self]
  · rw [write_of_ne s t hne]

/-- **What is spent** leaves the account, and with it at most the delegate. -/
theorem stays_of_spend {t t' : Stored} {authority : Pubkey} {amount : U64}
    (h : t.spend authority amount = some t') (hvalid : t.Valid) (hle : amount ≤ t.amount) :
    t'.Valid ∧ t.account.Stays t'.account ∧
      t'.amount.toNat + amount.toNat = t.amount.toNat := by
  have hsub : (t.amount - amount).toNat + amount.toNat = t.amount.toNat := by
    rw [BitVec.toNat_sub_of_le hle]
    exact Nat.sub_add_cancel hle
  obtain ⟨hstate, hdelegate, hoptions⟩ := hvalid
  unfold Stored.spend at h
  split at h
  · obtain ⟨-, h⟩ := Option.ite_none_right_eq_some.mp h
    obtain rfl := Option.some.inj h
    by_cases hall : t.delegated = amount
    · refine ⟨⟨hstate, ?_, hoptions⟩, ⟨rfl, rfl, rfl, .inr ?_⟩, hsub⟩
      · simp [hall]
      · simp [Stored.account, hall]
    · refine ⟨⟨hstate, ?_, hoptions⟩, ⟨rfl, rfl, rfl, .inl ?_⟩, hsub⟩
      · simpa [hall] using hdelegate
      · simp [Stored.account, hall]
  · obtain ⟨-, h⟩ := Option.ite_none_right_eq_some.mp h
    obtain rfl := Option.some.inj h
    exact ⟨⟨hstate, hdelegate, hoptions⟩, .of_amount rfl, hsub⟩

/-- Who spends is the delegate or the holder. -/
theorem authorized_of_spend {t t' : Stored} {authority : Pubkey} {amount : U64}
    (h : t.spend authority amount = some t') :
    t.account.owner = authority ∨ t.account.delegate = some authority := by
  unfold Stored.spend at h
  split at h
  · next hdelegate =>
    refine .inr ?_
    rw [Stored.account, hdelegate.1, hdelegate.2]
    rfl
  · exact .inl (Option.ite_none_right_eq_some.mp h).1

theorem moved_of_splTransfer {source target authority : Pubkey} {signed : Bool} {amount : U64}
    {s s' : Accounts} (h : splTransfer source target authority signed amount s = some s') :
    (s source).owner = splTokenId ∧ (s target).owner = splTokenId ∧
      (∀ k, (s' k).owner = (s k).owner) ∧ TokensMoved runtime source target amount s s' := by
  unfold splTransfer at h
  split at h
  · next t u ht hu =>
    obtain ⟨⟨hso, hto, -, hle, -⟩, h⟩ := Option.ite_none_right_eq_some.mp h
    obtain ⟨t', hspend, h⟩ := Option.bind_eq_some_iff.mp h
    refine ⟨hso, hto, ?_⟩
    split at h
    · next heq =>
      obtain rfl := Option.some.inj h
      exact ⟨fun _ => rfl, fun hne => absurd heq hne, fun hne => absurd heq hne, fun _ => rfl,
        fun _ _ _ => rfl⟩
    · next hne =>
      obtain ⟨hlt, h⟩ := Option.ite_none_right_eq_some.mp h
      obtain rfl := Option.some.inj h
      obtain ⟨hvalid, hstays, hamount⟩ := stays_of_spend hspend (valid_of_stored ht) hle
      obtain ⟨hstate, hoptions⟩ := valid_of_stored hu
      have hpaid : ({ u with amount := u.amount + amount } : Stored).Valid := ⟨hstate, hoptions⟩
      refine ⟨fun k => by rw [owner_write, owner_write], ?_, ?_, fun heq => absurd heq hne, ?_⟩
      · intro _
        refine ⟨t.account, t'.account, ?_, ?_, hstays, hamount⟩
        · exact congrArg (Option.map Stored.account) ht
        · rw [write_of_ne _ _ hne]
          exact congrArg (Option.map Stored.account) (write_self s source hvalid)
      · intro _
        refine ⟨u.account, { u.account with amount := u.amount + amount }, ?_, ?_, rfl, ?_⟩
        · exact congrArg (Option.map Stored.account) hu
        · exact congrArg (Option.map Stored.account) (write_self _ target hpaid)
        · show (u.amount + amount).toNat = u.amount.toNat + _
          rw [BitVec.toNat_add, Nat.mod_eq_of_lt hlt]
      · intro k hk hk'
        rw [write_of_ne _ _ hk', write_of_ne _ _ hk]
  · cases h

/-- **The cluster keeps the rules of the runtime.** -/
theorem lawful : runtime.Lawful where
  isDerived := fun seeds => List.contains_iff_mem.mpr (addressIn_mem addresses seeds)
  programId_ne_systemId := by decide
  programId_ne_splTokenId := by decide
  systemId_ne_splTokenId := by decide
  systemTransfer := by
    intro payer target amount s s' h k
    simp only [runtime, systemTransfer] at h
    split at h
    · obtain rfl := Option.some.inj h
      rcases eq_or_ne k target with rfl | hk
      · rw [Function.update_self]
        rcases eq_or_ne k payer.key with rfl | hk'
        · exact ⟨by simp, by simp⟩
        · exact ⟨by simp [hk'], by simp [hk']⟩
      · rw [Function.update_of_ne hk]
        rcases eq_or_ne k payer.key with rfl | hk'
        · exact ⟨by simp, by simp⟩
        · rw [Function.update_of_ne hk']
    · exact absurd h (by simp)
  systemAllocate := by
    intro target space s s' h
    simp only [runtime, systemAllocate] at h
    split at h
    · next hc => exact ⟨⟨hc.1, hc.2⟩, (Option.some.inj h).symm⟩
    · exact absurd h (by simp)
  systemAssign := fun h => (Option.some.inj h).symm
  splTransfer := moved_of_splTransfer

/-! ### The deployment -/

/-- The cluster after the deployment of the program. -/
def deployed : Accounts := fun k =>
  if k = payer then ⟨0, 1000000000000, []⟩
  else if k = programId then ⟨loaderId, 1000000000, []⟩
  else if k = 0xe24507d712f2b144f3eb7937fa0f95a3b528a021667dd18c4a58ee9fcb9da817 then
    ⟨loaderId, 1000000000, [3, 0, 0, 0] ++ List.replicate 8 0 ++ [1] ++ wordBytes payer⟩
  else if k = mint then
    ⟨splTokenId, 1000000000, List.replicate 44 0 ++ [9, 1] ++ List.replicate 36 0⟩
  else if k = vault then
    ⟨splTokenId, 1000000000, tokenData mint (findProgramAddress vaultAuthoritySeeds) 0⟩
  else if k = userToken then ⟨splTokenId, 1000000000, tokenData mint payer 2000000⟩
  else ⟨0, 0, []⟩

theorem deployed_deployed : Deployed runtime deployed where
  derived := by
    intro k hk
    have hall : (addressesOf addresses).all
        (fun k => (deployed k).owner == 0 && (deployed k).data == []) = true := by decide +kernel
    have hmem : k ∈ addressesOf addresses := List.contains_iff_mem.mp hk
    obtain ⟨howner, hdata⟩ := Bool.and_eq_true_iff.mp (List.all_eq_true.mp hall k hmem)
    exact ⟨beq_iff_eq.mp howner, beq_iff_eq.mp hdata⟩
  none := by
    intro k
    unfold deployed
    repeat' split
    all_goals simp [runtime, programId, loaderId, splTokenId]

/-- An account that signs. -/
def signer (k : Pubkey) : AccountInfo := ⟨k, true, true⟩

/-- An account that is written. -/
def writable (k : Pubkey) : AccountInfo := ⟨k, false, true⟩

/-- The account of some seeds. -/
def pda (seeds : List Bytes) : AccountInfo := writable (findProgramAddress seeds)

/-- The clock of the runs. -/
def clock : Clock := some 1000

/-- The gate is initialized, with one validator, and wired: a corridor to chain 1 and the
asset, at six decimals. -/
def wiring : List Label :=
  [.instruction clock
      [pda configSeeds, signer payer, writable 0, writable programId,
        writable 0xe24507d712f2b144f3eb7937fa0f95a3b528a021667dd18c4a58ee9fcb9da817]
      (.init ⟨0xd0, [0x7e5f4552091a69125d5dfcb7b8c2659029395bdf], 1, 7565164, 4, 4, 0, by decide⟩),
    .instruction clock [pda configSeeds, signer payer] (.registerCorridor 1),
    .instruction clock
      [pda configSeeds, signer payer, pda (assetSeeds debridgeId), writable mint, writable vault,
        writable splTokenId, writable 0, pda (vaultSeeds vault)]
      (.registerAsset debridgeId 6),
    .instruction clock [pda configSeeds, signer payer] .sealGate]

/-- A transfer of a million local units, a thousand on the wire. -/
def sending : Label :=
  .instruction clock
    [pda configSeeds, pda (assetSeeds debridgeId), signer payer, writable userToken, writable vault,
      writable splTokenId, pda (sentSeeds transferId), writable 0]
    (.send ⟨debridgeId, 1000000, 1, addressBytes 0xbb, none⟩)

/-- Its refund. -/
def refunding : Label :=
  .instruction clock
    [pda configSeeds, pda (assetSeeds debridgeId), pda (sentSeeds transferId),
      pda (refundedSeeds transferId), signer payer, writable vault, writable userToken,
      pda vaultAuthoritySeeds, writable splTokenId, writable 0]
    (.refund ⟨debridgeId, 1000, 6, 1, 0, addressBytes 0xbb, none, wordBytes payer,
      [signatureBytes 0xbc3361f376cd00b159850c1909d28908f7a093aa511721313418a25e88fc28da
        0x3561c60ed15eb57cbb7b222dcb6d273f2383218ed33a20cfac8296d74bdb40f4 28]⟩)

/-- The claim of the transfer that comes from chain 1, for the user. -/
def arrival : ClaimArgs where
  debridgeId
  amount := 1000
  bridgeDecimals := 6
  chainIdFrom := 1
  nonce := 0
  receiver := wordBytes userToken
  auto := none
  nativeSender := addressBytes 0xcc
  signatures := [signatureBytes 0xa7109be0d6e007cde314af4cb9fe83a54fbf70478b6bae68031afad22d72fdbc
    0x750efd85fa431460b9e6a286f5ad53b7a0b32d48de056622701e375fe11fab2f 28]

/-- The accounts of that claim. -/
def arrivalAccounts : List AccountInfo :=
  [pda configSeeds, pda (assetSeeds debridgeId), pda (executedSeeds arrivalId), signer payer,
    writable vault, writable userToken, pda vaultAuthoritySeeds, writable splTokenId, writable 0]

/-- The cluster once the gate is wired and its vault has a million units. -/
def filled : Accounts := (traceOf (exec runtime) deployed (wiring ++ [sending])).2

end Cluster

end Solana

end SelendraBridge
