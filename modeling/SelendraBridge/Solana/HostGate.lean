import Mathlib.Algebra.BigOperators.Group.List.Basic
import Mathlib.Data.Finset.Insert
import SelendraBridge.Lib.Transition
import SelendraBridge.SameIds
import SelendraBridge.Solana.Cluster

/-!
# The gate that runs on the host

The library of the relayers carries a gate of its own: the state machine of the program,
over maps in memory, which the tests drive with signatures of real validators. It has three
calls, and they write into the gate they are called on as they go.

| call | refuses | writes |
|:-----|:--------|:-------|
| `register_asset` | never | the mint, the vault |
| `send` | before it writes | the nonce, the vault |
| `claim` | twice before it writes, three times after | the id, then the vault and the account |

On a chain a refusal undoes what was written, and here nothing does. What comes of it is
settled over runs: the books of a gate always balance, its nonces have no gap and no id is
released twice (`SelendraBridge.BridgeSolana.SolanaGate.Books`), while a refusal leaves the
gate as it was exactly if it is not one of the last three of `claim`
(`SelendraBridge.BridgeSolana.SolanaGate.conserves_iff`).
-/

namespace SelendraBridge

namespace BridgeSolana

open Transition

/-! ### Signatures -/

/-- `VerifyError`. -/
inductive VerifyError
  | badLength
  | badRecoveryId (v : UInt8)
  | unrecoverable
  | invalidSignerOrder
  | notEnoughSignatures (got want : ℕ)
  deriving DecidableEq

section Verify

-- The hash, and the key that a recovery id and 64 bytes find behind a digest.
variable (keccak256 : Bytes → Bytes32) (recover : Bytes32 → UInt8 → Bytes → Option Bytes)

/-- `eth_signed_digest`. -/
def ethSignedDigest (submissionId : Bytes32) : Bytes32 :=
  toEthSignedMessageHash keccak256 submissionId

/-- `recover_evm_address`. -/
def recoverEvmAddress (digest : Bytes32) (sig65 : Bytes) : Except VerifyError Address :=
  if sig65.length ≠ 65 then .error .badLength
  else
    let v := sig65.getD 64 0
    if v ≠ 27 ∧ v ≠ 28 then .error (.badRecoveryId v)
    else
      match recover digest (v - 27) (sig65.take 64) with
      | none => .error .unrecoverable
      | some pubkey => .ok ((keccak256 pubkey).setWidth 160)

/-- The loop of `verify_threshold`. -/
def countSigners (isValidator : Address → Bool) (digest : Bytes32) :
    List Bytes → Address → ℕ → Except VerifyError ℕ
  | [], _, count => .ok count
  | sig :: signatures, last, count =>
    match recoverEvmAddress keccak256 recover digest sig with
    | .error e => .error e
    | .ok signer =>
      if signer ≤ last then .error .invalidSignerOrder
      else countSigners isValidator digest signatures signer
        (if isValidator signer then count + 1 else count)

/-- `verify_threshold`. -/
def verifyThreshold (submissionId : Bytes32) (signatures : List Bytes)
    (isValidator : Address → Bool) (threshold : BitVec 32) : Except VerifyError ℕ :=
  let digest := ethSignedDigest keccak256 submissionId
  match countSigners keccak256 recover isValidator digest signatures 0 0 with
  | .error e => .error e
  | .ok count =>
    if count < threshold.toNat then .error (.notEnoughSignatures count threshold.toNat)
    else .ok count

end Verify

/-! ### The gate -/

/-- `GateError`. -/
inductive GateError
  | zeroAmount
  | badReceiver (length : ℕ)
  | alreadyExecuted
  | unknownAsset
  | insufficientLiquidity (available need : U64)
  | verify (e : VerifyError)
  deriving DecidableEq

/-- `Sent`. -/
structure Sent where
  submissionId : Bytes32
  debridgeId : Bytes32
  amount : U64
  bridgeDecimals : UInt8
  chainIdFrom : U64
  chainIdTo : U64
  receiver : Bytes
  nonce : U64
  nativeSender : Bytes
  auto : Option AutoParams
  deriving DecidableEq

/-- `Claimed`. -/
structure Claimed where
  submissionId : Bytes32
  debridgeId : Bytes32
  receiver : Bytes32
  amount : U64
  deriving DecidableEq

/-- **`SolanaGate`**: the state of a gate, in memory. -/
structure SolanaGate where
  chainId : U64
  bridgeDomain : Bytes32
  validators : Finset Address
  threshold : BitVec 32
  nonceTo : U64 → Option U64
  executed : Finset Bytes32
  tokenOf : Bytes32 → Option Bytes32
  vault : Bytes32 → Option U64
  tokenAccounts : Bytes32 → Option U64

/-- `to_pubkey`. -/
def toPubkey (receiver : Bytes) : Except GateError Bytes32 :=
  if receiver.length ≠ 32 then .error (.badReceiver receiver.length)
  else .ok (BitVec.ofNat 256 (BigEndian.ofBytes receiver))

/-- `*m.entry(k).or_insert(0) += v`, in 64 bits. -/
def addTo (m : Bytes32 → Option U64) (k : Bytes32) (v : U64) : Bytes32 → Option U64 :=
  Function.update m k (some ((m k).getD 0 + v))

/-- `*m.get_mut(k).unwrap() -= v`: nothing where there is no entry. -/
def subFrom (m : Bytes32 → Option U64) (k : Bytes32) (v : U64) : Option (Bytes32 → Option U64) :=
  (m k).map fun balance => Function.update m k (some (balance - v))

namespace SolanaGate

/-- What `send` is called with. -/
structure SendArgs where
  debridgeId : Bytes32
  amount : U64
  bridgeDecimals : UInt8
  chainIdTo : U64
  receiver : Bytes
  nativeSender : Bytes
  auto : Option AutoParams

/-- What `claim` is called with. -/
structure ClaimArgs where
  debridgeId : Bytes32
  amount : U64
  bridgeDecimals : UInt8
  chainIdFrom : U64
  nonce : U64
  receiver : Bytes
  auto : Option AutoParams
  signatures : List Bytes

/-- `SolanaGate::new`: nothing where an assertion fails. -/
def new (chainId : U64) (bridgeDomain : Bytes32) (validators : List Address)
    (threshold : BitVec 32) : Option SolanaGate :=
  if ¬0 < threshold then none
  else if ¬threshold.toNat ≤ validators.length then none
  else some {
    chainId
    bridgeDomain
    validators := validators.toFinset
    threshold
    nonceTo := fun _ => none
    executed := ∅
    tokenOf := fun _ => none
    vault := fun _ => none
    tokenAccounts := fun _ => none }

/-- `register_asset`. -/
def registerAsset (g : SolanaGate) (debridgeId localMint : Bytes32) (prefund : U64) : SolanaGate :=
  { g with
    tokenOf := Function.update g.tokenOf debridgeId (some localMint)
    vault := addTo g.vault debridgeId prefund }

/-- `is_validator`. -/
def isValidator (g : SolanaGate) (a : Address) : Bool := decide (a ∈ g.validators)

/-- `nonce_to`. -/
def nextNonce (g : SolanaGate) (chainIdTo : U64) : U64 := (g.nonceTo chainIdTo).getD 0

/-- `vault_balance`. -/
def vaultBalance (g : SolanaGate) (debridgeId : Bytes32) : U64 := (g.vault debridgeId).getD 0

section Calls

variable (keccak256 : Bytes → Bytes32) (recover : Bytes32 → UInt8 → Bytes → Option Bytes)

/-- `id_for`. -/
def idFor (g : SolanaGate) (debridgeId : Bytes32) (amount : U64) (bridgeDecimals : UInt8)
    (chainIdFrom chainIdTo nonce : U64) (receiver : Bytes) (auto : Option AutoParams) : Bytes32 :=
  let amt := amountWord (amount.setWidth 128)
  match auto with
  | none => submissionId keccak256 g.bridgeDomain debridgeId bridgeDecimals amt chainIdFrom
      chainIdTo nonce receiver
  | some a => submissionIdWithAuto keccak256 g.bridgeDomain debridgeId bridgeDecimals amt
      chainIdFrom chainIdTo nonce receiver a

/-- `send`. -/
def send (g : SolanaGate) (a : SendArgs) : SolanaGate × Except GateError Sent :=
  if a.amount = 0 then (g, .error .zeroAmount)
  else if a.receiver.length ≠ 20 ∧ a.receiver.length ≠ 32 then
    (g, .error (.badReceiver a.receiver.length))
  else
    let nonce := g.nextNonce a.chainIdTo
    let submissionId := g.idFor keccak256 a.debridgeId a.amount a.bridgeDecimals g.chainId
      a.chainIdTo nonce a.receiver a.auto
    -- The nonce is reserved, and then the amount is locked.
    ({ g with
        nonceTo := Function.update g.nonceTo a.chainIdTo (some (nonce + 1))
        vault := addTo g.vault a.debridgeId a.amount },
      .ok {
        submissionId
        debridgeId := a.debridgeId
        amount := a.amount
        bridgeDecimals := a.bridgeDecimals
        chainIdFrom := g.chainId
        chainIdTo := a.chainIdTo
        receiver := a.receiver
        nonce
        nativeSender := a.nativeSender
        auto := a.auto })

/-- The id of a claim. -/
def idOf (g : SolanaGate) (a : ClaimArgs) : Bytes32 :=
  g.idFor keccak256 a.debridgeId a.amount a.bridgeDecimals a.chainIdFrom g.chainId a.nonce
    a.receiver a.auto

/-- The signatures of a claim, checked. -/
def verify (g : SolanaGate) (a : ClaimArgs) : Except VerifyError ℕ :=
  verifyThreshold keccak256 recover (g.idOf keccak256 a) a.signatures g.isValidator g.threshold

/-- `claim`: nothing where the vault has no entry to take from. -/
def claim (g : SolanaGate) (a : ClaimArgs) : Option (SolanaGate × Except GateError Claimed) :=
  let submissionId := g.idOf keccak256 a
  if submissionId ∈ g.executed then some (g, .error .alreadyExecuted)
  else
    match g.verify keccak256 recover a with
    | .error e => some (g, .error (.verify e))
    | .ok _ =>
      -- From here on the id is taken, whatever becomes of the call.
      let g := { g with executed := insert submissionId g.executed }
      if (g.tokenOf a.debridgeId).isNone then some (g, .error .unknownAsset)
      else
        let available := g.vaultBalance a.debridgeId
        if available < a.amount then
          some (g, .error (.insufficientLiquidity available a.amount))
        else
          match toPubkey a.receiver with
          | .error e => some (g, .error e)
          | .ok target =>
            (subFrom g.vault a.debridgeId a.amount).map fun vault =>
              ({ g with vault, tokenAccounts := addTo g.tokenAccounts target a.amount },
                .ok {
                  submissionId
                  debridgeId := a.debridgeId
                  receiver := target
                  amount := a.amount })

end Calls

/-! ### Its runs -/

/-- A call. -/
inductive Call
  | registerAsset (debridgeId localMint : Bytes32) (prefund : U64)
  | send (a : SendArgs)
  | claim (a : ClaimArgs)

/-- What a call returns, when it does not refuse. -/
inductive Reply
  | registered
  | sent (s : Sent)
  | claimed (c : Claimed)
  deriving DecidableEq

/-- **One call**, with the gate it leaves behind: a refusal is an answer like any other. -/
def exec (keccak256 : Bytes → Bytes32) (recover : Bytes32 → UInt8 → Bytes → Option Bytes)
    (g : SolanaGate) : Call → Option (SolanaGate × Except GateError Reply)
  | .registerAsset debridgeId localMint prefund =>
    some (g.registerAsset debridgeId localMint prefund, .ok .registered)
  | .send a => some ((g.send keccak256 a).1, (g.send keccak256 a).2.map .sent)
  | .claim a => (g.claim keccak256 recover a).map fun r => (r.1, r.2.map .claimed)

/-- A step of a run. -/
abbrev Step := Entry SolanaGate Call (Except GateError Reply)

/-- What a call puts into the vault of an asset when it registers it. -/
def prefundOf (debridgeId : Bytes32) (a : Call) : ℕ :=
  match a with
  | .registerAsset d _ prefund => if d = debridgeId then prefund.toNat else 0
  | _ => 0

/-- What was locked, by what the call returned. -/
def lockOf (debridgeId : Bytes32) (o : Except GateError Reply) : ℕ :=
  match o with
  | .ok (.sent s) => if s.debridgeId = debridgeId then s.amount.toNat else 0
  | _ => 0

/-- What was released. -/
def releaseOf (debridgeId : Bytes32) (o : Except GateError Reply) : ℕ :=
  match o with
  | .ok (.claimed c) => if c.debridgeId = debridgeId then c.amount.toNat else 0
  | _ => 0

/-- The id that was released. -/
def releasedId (o : Except GateError Reply) : List Bytes32 :=
  match o with
  | .ok (.claimed c) => [c.submissionId]
  | _ => []

/-- The nonce that was given out for a destination. -/
def nonceOf (chainIdTo : U64) (o : Except GateError Reply) : Option ℕ :=
  match o with
  | .ok (.sent s) => if s.chainIdTo = chainIdTo then some s.nonce.toNat else none
  | _ => none

/-- All that was prefunded and locked for an asset. -/
def funded (tr : List Step) (debridgeId : Bytes32) : ℕ :=
  (tr.map fun e => prefundOf debridgeId e.label).sum + (tr.map fun e => lockOf debridgeId e.out).sum

/-- All that was released for an asset. -/
def released (tr : List Step) (debridgeId : Bytes32) : ℕ :=
  (tr.map fun e => releaseOf debridgeId e.out).sum

/-- All the ids that were released, in order. -/
def releasedIds (tr : List Step) : List Bytes32 := tr.flatMap fun e => releasedId e.out

/-- The nonces that were given out for a destination, in order. -/
def noncesTo (tr : List Step) (chainIdTo : U64) : List ℕ :=
  tr.filterMap fun e => nonceOf chainIdTo e.out

/-- **The totals of a run fit 64 bits**: what went into each vault, and how many transfers went
to each destination. -/
structure WithinU64 (tr : List Step) : Prop where
  funded : ∀ d, funded tr d < 2 ^ 64
  nonces : ∀ c, (noncesTo tr c).length < 2 ^ 64

/-- **The books of a gate after a run**: no id was released twice, the nonces of each
destination are consecutive, and what each vault has with all that left it is all that came
in. -/
structure Books (tr : List Step) (g : SolanaGate) : Prop where
  once : (releasedIds tr).Nodup
  consecutive : ∀ c, noncesTo tr c = List.range (noncesTo tr c).length
  balanced : ∀ d, (g.vaultBalance d).toNat + released tr d = funded tr d

/-! ### What a call does -/

section

variable (keccak256 : Bytes → Bytes32) (recover : Bytes32 → UInt8 → Bytes → Option Bytes)

/-- A claim gets past the two checks that come before it takes its id. -/
def Accepted (g : SolanaGate) (a : ClaimArgs) : Prop :=
  g.idOf keccak256 a ∉ g.executed ∧ ∃ count, g.verify keccak256 recover a = .ok count

/-- There is an asset to pay a claim in, enough of it, and an account to pay it to. -/
def Payable (g : SolanaGate) (a : ClaimArgs) : Prop :=
  (g.tokenOf a.debridgeId).isSome = true ∧ a.amount ≤ g.vaultBalance a.debridgeId ∧
    a.receiver.length = 32

/-- **A call that is safe to refuse**: no claim gets past the first two checks to fail one of
the other three. -/
def Safe (g : SolanaGate) : Call → Prop
  | .claim a => g.Accepted keccak256 recover a → g.Payable a
  | _ => True

/-- The gate once a transfer is locked. -/
def locked (g : SolanaGate) (a : SendArgs) : SolanaGate :=
  { g with
    nonceTo := Function.update g.nonceTo a.chainIdTo (some (g.nextNonce a.chainIdTo + 1))
    vault := addTo g.vault a.debridgeId a.amount }

/-- The gate once the id of a claim is taken. -/
def taken (g : SolanaGate) (a : ClaimArgs) : SolanaGate :=
  { g with executed := insert (g.idOf keccak256 a) g.executed }

/-- The gate once a claim is paid. -/
def paid (g : SolanaGate) (a : ClaimArgs) (target : Bytes32) : SolanaGate :=
  { g.taken keccak256 a with
    vault := Function.update g.vault a.debridgeId (some (g.vaultBalance a.debridgeId - a.amount))
    tokenAccounts := addTo g.tokenAccounts target a.amount }

/-- The refusals that come after a claim has taken its id. -/
def Late : GateError → Prop
  | .unknownAsset => True
  | .insufficientLiquidity _ _ => True
  | .badReceiver _ => True
  | _ => False

/-- **What a call can do**, by what it answers. -/
inductive Effect (g : SolanaGate) : Call → Except GateError Reply → SolanaGate → Prop
  /-- An asset is registered. -/
  | register (debridgeId localMint : Bytes32) (prefund : U64) :
      Effect g (.registerAsset debridgeId localMint prefund) (.ok .registered)
        (g.registerAsset debridgeId localMint prefund)
  /-- A transfer is locked, under the next nonce. -/
  | lock (a : SendArgs) (s : Sent) : s.debridgeId = a.debridgeId → s.amount = a.amount →
      s.chainIdTo = a.chainIdTo → s.nonce = g.nextNonce a.chainIdTo →
      Effect g (.send a) (.ok (.sent s)) (g.locked a)
  /-- A transfer is refused. -/
  | refuseSend (a : SendArgs) (err : GateError) : Effect g (.send a) (.error err) g
  /-- A claim is refused before it writes. -/
  | refuse (a : ClaimArgs) (err : GateError) : ¬g.Accepted keccak256 recover a → ¬Late err →
      Effect g (.claim a) (.error err) g
  /-- A claim is refused after it has taken its id. -/
  | burn (a : ClaimArgs) (err : GateError) : g.Accepted keccak256 recover a → ¬g.Payable a →
      Late err → Effect g (.claim a) (.error err) (g.taken keccak256 a)
  /-- A claim is paid. -/
  | release (a : ClaimArgs) (target : Bytes32) : g.Accepted keccak256 recover a → g.Payable a →
      Effect g (.claim a)
        (.ok (.claimed ⟨g.idOf keccak256 a, a.debridgeId, target, a.amount⟩))
        (g.paid keccak256 a target)

end

variable {keccak256 : Bytes → Bytes32} {recover : Bytes32 → UInt8 → Bytes → Option Bytes}
  {g g' g₀ : SolanaGate} {tr : List Step} {a : Call} {o : Except GateError Reply}

theorem toPubkey_of_length {receiver : Bytes} (h : receiver.length = 32) :
    toPubkey receiver = .ok (BitVec.ofNat 256 (BigEndian.ofBytes receiver)) := by
  rw [toPubkey, if_neg (not_not.mpr h)]

/-- **A call does one of these things.** -/
theorem effect_of_exec (h : exec keccak256 recover g a = some (g', o)) :
    Effect keccak256 recover g a o g' := by
  cases a with
  | registerAsset d mint prefund =>
    obtain ⟨rfl, rfl⟩ := Prod.mk.inj (Option.some.inj h)
    exact .register d mint prefund
  | send x =>
    obtain ⟨hg, ho⟩ := Prod.mk.inj (Option.some.inj h)
    unfold send at hg ho
    split_ifs at hg ho with hzero hwide
    · subst hg ho
      exact .refuseSend x _
    · subst hg ho
      exact .refuseSend x _
    · subst hg ho
      exact .lock x _ rfl rfl rfl rfl
  | claim x =>
    obtain ⟨⟨g₁, r⟩, hclaim, heq⟩ := Option.map_eq_some_iff.mp h
    obtain ⟨rfl, rfl⟩ := Prod.mk.inj heq
    by_cases hfresh : g.idOf keccak256 x ∈ g.executed
    · rw [claim, if_pos hfresh] at hclaim
      obtain ⟨rfl, rfl⟩ := Prod.mk.inj (Option.some.inj hclaim)
      exact .refuse x _ (fun hacc => hacc.1 hfresh) id
    · rcases hverify : g.verify keccak256 recover x with err | count
      · simp only [claim, if_neg hfresh, hverify] at hclaim
        obtain ⟨rfl, rfl⟩ := Prod.mk.inj (Option.some.inj hclaim)
        refine .refuse x _ ?_ id
        rintro ⟨-, count, hok⟩
        rw [hverify] at hok
        cases hok
      · have hacc : g.Accepted keccak256 recover x := ⟨hfresh, count, hverify⟩
        simp only [claim, if_neg hfresh, hverify] at hclaim
        split_ifs at hclaim with hnone hshort
        · obtain ⟨rfl, rfl⟩ := Prod.mk.inj (Option.some.inj hclaim)
          refine .burn x _ hacc ?_ trivial
          rintro ⟨hknown, -, -⟩
          rw [Option.isNone_iff_eq_none] at hnone
          exact Option.isSome_iff_ne_none.mp hknown hnone
        · obtain ⟨rfl, rfl⟩ := Prod.mk.inj (Option.some.inj hclaim)
          refine .burn x _ hacc ?_ trivial
          rintro ⟨-, hliquid, -⟩
          exact BitVec.not_lt.mpr hliquid hshort
        · by_cases hlen : x.receiver.length = 32
          · have hpay : g.Payable x := by
              refine ⟨?_, BitVec.not_lt.mp hshort, hlen⟩
              rw [Option.isNone_iff_eq_none] at hnone
              exact Option.isSome_iff_ne_none.mpr hnone
            rw [toPubkey_of_length hlen] at hclaim
            obtain ⟨vault, hvault, heq⟩ := Option.map_eq_some_iff.mp hclaim
            obtain ⟨balance, hbalance, rfl⟩ := Option.map_eq_some_iff.mp hvault
            obtain ⟨rfl, rfl⟩ := Prod.mk.inj heq
            have hget : g.vaultBalance x.debridgeId = balance := by
              rw [vaultBalance, show g.vault x.debridgeId = some balance from hbalance]
              rfl
            rw [← hget]
            exact .release x _ hacc hpay
          · rw [toPubkey, if_pos hlen] at hclaim
            obtain ⟨rfl, rfl⟩ := Prod.mk.inj (Option.some.inj hclaim)
            exact .burn x _ hacc (fun hpay => hlen hpay.2.2) trivial

/-! ### Nothing panics -/

/-- A vault has an entry for every asset that is registered. -/
def Stocked (g : SolanaGate) : Prop :=
  ∀ d, (g.tokenOf d).isSome = true → (g.vault d).isSome = true

theorem isSome_addTo {m : Bytes32 → Option U64} {k d : Bytes32} {v : U64}
    (h : d ≠ k → (m d).isSome = true) : (addTo m k v d).isSome = true := by
  by_cases hd : d = k
  · rw [addTo, hd, Function.update_self, Option.isSome_some]
  · rw [addTo, Function.update_of_ne hd]
    exact h hd

theorem Effect.stocked (h : Effect keccak256 recover g a o g') (hs : g.Stocked) : g'.Stocked := by
  intro d hd
  cases h with
  | register x mint prefund =>
    refine isSome_addTo fun hne => hs d ?_
    change (Function.update g.tokenOf x _ d).isSome = true at hd
    rwa [Function.update_of_ne hne] at hd
  | lock => exact isSome_addTo fun _ => hs d hd
  | refuseSend => exact hs d hd
  | refuse => exact hs d hd
  | burn => exact hs d hd
  | release x target =>
    change (Function.update g.vault x.debridgeId _ d).isSome = true
    by_cases hne : d = x.debridgeId
    · rw [hne, Function.update_self, Option.isSome_some]
    · rw [Function.update_of_ne hne]
      exact hs d hd

/-- **No call panics**: after every run, every call returns. -/
theorem exec_isSome (hempty : ∀ d, g₀.tokenOf d = none)
    (h : Run (exec keccak256 recover) g₀ tr g) (a : Call) :
    (exec keccak256 recover g a).isSome = true := by
  have hstocked : g.Stocked := by
    refine h.invariant ?_ fun _ _ _ _ hs hexec => (effect_of_exec hexec).stocked hs
    intro d hd
    rw [hempty] at hd
    cases hd
  cases a with
  | registerAsset => rfl
  | send => rfl
  | claim x =>
    rw [exec, Option.isSome_map]
    unfold claim
    dsimp only
    split_ifs with hfresh hnone hshort
    · rfl
    · split
      · rfl
      · rfl
    · split
      · rfl
      · rfl
    · split
      · rfl
      · split
        · rfl
        · rw [Option.isSome_map, subFrom, Option.isSome_map]
          refine hstocked _ ?_
          rw [Option.isNone_iff_eq_none] at hnone
          exact Option.isSome_iff_ne_none.mpr hnone

/-! ### The books -/

theorem vaultBalance_addTo {d d' : Bytes32} {v : U64} :
    (addTo g.vault d v d').getD 0 = if d' = d then g.vaultBalance d + v else g.vaultBalance d' := by
  by_cases hd : d' = d
  · subst hd
    rw [addTo, Function.update_self, if_pos rfl]
    rfl
  · rw [addTo, Function.update_of_ne hd, if_neg hd]
    rfl

theorem vaultBalance_paid {x : ClaimArgs} {target d : Bytes32} :
    (g.paid keccak256 x target).vaultBalance d =
      if d = x.debridgeId then g.vaultBalance d - x.amount else g.vaultBalance d := by
  change (Function.update g.vault _ _ d).getD 0 = _
  by_cases hd : d = x.debridgeId
  · subst hd
    rw [Function.update_self, if_pos rfl, Option.getD_some]
  · rw [Function.update_of_ne hd, if_neg hd]
    rfl

theorem nextNonce_locked {x : SendArgs} {c : U64} :
    (g.locked x).nextNonce c =
      if c = x.chainIdTo then g.nextNonce c + 1 else g.nextNonce c := by
  change (Function.update g.nonceTo _ _ c).getD 0 = _
  by_cases hc : c = x.chainIdTo
  · subst hc
    rw [Function.update_self, if_pos rfl, Option.getD_some]
  · rw [Function.update_of_ne hc, if_neg hc]
    rfl

theorem funded_snoc {d : Bytes32} :
    funded (tr ++ [⟨g, a, o, g'⟩]) d = funded tr d + (prefundOf d a + lockOf d o) := by
  simp only [funded, List.map_append, List.map_cons, List.map_nil, List.sum_append, List.sum_cons,
    List.sum_nil]
  omega

theorem released_snoc {d : Bytes32} :
    released (tr ++ [⟨g, a, o, g'⟩]) d = released tr d + releaseOf d o := by
  simp only [released, List.map_append, List.map_cons, List.map_nil, List.sum_append,
    List.sum_cons, List.sum_nil]
  omega

/-- **What a call moves in a vault**, as long as the sum fits: in what was prefunded and locked,
out what was released. -/
theorem Effect.balance (h : Effect keccak256 recover g a o g') {d : Bytes32}
    (hfit : (g.vaultBalance d).toNat + (prefundOf d a + lockOf d o) < 2 ^ 64) :
    (g'.vaultBalance d).toNat + releaseOf d o =
      (g.vaultBalance d).toNat + (prefundOf d a + lockOf d o) := by
  have hadd : ∀ (x : Bytes32) (v : U64), (g.vaultBalance d).toNat +
      (if x = d then v.toNat else 0) < 2 ^ 64 → ((addTo g.vault x v d).getD 0).toNat =
        (g.vaultBalance d).toNat + if x = d then v.toNat else 0 := by
    intro x v hlt
    rw [vaultBalance_addTo]
    by_cases hx : x = d
    · subst hx
      rw [if_pos rfl] at hlt ⊢
      rw [if_pos rfl, BitVec.toNat_add, Nat.mod_eq_of_lt hlt]
    · rw [if_neg hx, if_neg (Ne.symm hx), Nat.add_zero]
  cases h with
  | register x mint prefund => exact hadd x prefund hfit
  | lock x s hd hamount _ _ =>
    simp only [lockOf, prefundOf, hd, hamount, Nat.zero_add] at hfit ⊢
    exact hadd x.debridgeId x.amount hfit
  | refuseSend => rfl
  | refuse => rfl
  | burn => rfl
  | release x target hacc hpay =>
    simp only [releaseOf, prefundOf, lockOf, Nat.add_zero]
    rw [vaultBalance_paid]
    by_cases hd : x.debridgeId = d
    · subst hd
      have hliquid : x.amount ≤ g.vaultBalance x.debridgeId := hpay.2.1
      have hle : x.amount.toNat ≤ (g.vaultBalance x.debridgeId).toNat := hliquid
      rw [if_pos rfl, if_pos rfl, BitVec.toNat_sub_of_le hliquid]
      omega
    · rw [if_neg hd, if_neg (Ne.symm hd), Nat.add_zero]

/-- **Each vault balances**, while what came into it fits 64 bits. -/
theorem balanced (hempty : ∀ d, g₀.vault d = none) (h : Run (exec keccak256 recover) g₀ tr g)
    {d : Bytes32} : funded tr d < 2 ^ 64 →
      (g.vaultBalance d).toNat + released tr d = funded tr d := by
  refine h.rec_trace (P := fun tr g => funded tr d < 2 ^ 64 →
    (g.vaultBalance d).toNat + released tr d = funded tr d) ?_ ?_
  · intro _
    rw [vaultBalance, hempty]
    rfl
  · intro tr g a g' o _ ih hexec hfit
    rw [funded_snoc] at hfit
    have hbefore := ih (by omega)
    have hstep := (effect_of_exec hexec).balance (d := d) (by omega)
    rw [funded_snoc, released_snoc]
    omega

/-! ### The nonces -/

theorem noncesTo_snoc {c : U64} :
    noncesTo (tr ++ [⟨g, a, o, g'⟩]) c = noncesTo tr c ++ (nonceOf c o).toList := by
  simp only [noncesTo, List.filterMap_append, List.filterMap_cons, List.filterMap_nil]
  cases nonceOf c o <;> rfl

/-- **What a call does to the counter of a destination**: it gives out the next nonce, or
leaves the counter alone. -/
theorem Effect.nonce (h : Effect keccak256 recover g a o g') (c : U64) :
    nonceOf c o = none ∧ g'.nextNonce c = g.nextNonce c ∨
      nonceOf c o = some (g.nextNonce c).toNat ∧
        g'.nextNonce c = g.nextNonce c + 1 := by
  cases h with
  | register => exact .inl ⟨rfl, rfl⟩
  | lock x s _ _ hchain hnonce =>
    by_cases hc : x.chainIdTo = c
    · subst hc
      refine .inr ⟨?_, ?_⟩
      · simp only [nonceOf, hchain, hnonce, if_true]
      · rw [nextNonce_locked, if_pos rfl]
    · refine .inl ⟨?_, ?_⟩
      · simp only [nonceOf, hchain, if_neg hc]
      · rw [nextNonce_locked, if_neg (Ne.symm hc)]
  | refuseSend => exact .inl ⟨rfl, rfl⟩
  | refuse => exact .inl ⟨rfl, rfl⟩
  | burn => exact .inl ⟨rfl, rfl⟩
  | release => exact .inl ⟨rfl, rfl⟩

/-- **The nonces of a destination have no gap**, and the counter is at the next one. -/
theorem consecutive (hempty : ∀ c, g₀.nonceTo c = none)
    (h : Run (exec keccak256 recover) g₀ tr g) {c : U64} : (noncesTo tr c).length < 2 ^ 64 →
      noncesTo tr c = List.range (noncesTo tr c).length ∧
        (g.nextNonce c).toNat = (noncesTo tr c).length := by
  refine h.rec_trace (P := fun tr g => (noncesTo tr c).length < 2 ^ 64 →
    noncesTo tr c = List.range (noncesTo tr c).length ∧
      (g.nextNonce c).toNat = (noncesTo tr c).length) ?_ ?_
  · intro _
    refine ⟨rfl, ?_⟩
    rw [nextNonce, hempty]
    rfl
  · intro tr g a g' o _ ih hexec hfit
    rcases (effect_of_exec hexec).nonce c with ⟨hnone, hnext⟩ | ⟨hsome, hnext⟩
    · rw [noncesTo_snoc, hnone, Option.toList_none, List.append_nil] at hfit ⊢
      rw [hnext]
      exact ih hfit
    · rw [noncesTo_snoc, hsome, Option.toList_some, List.length_append,
        List.length_singleton] at hfit ⊢
      obtain ⟨hrange, hcount⟩ := ih (by omega)
      constructor
      · rw [List.range_succ, ← hrange, hcount]
      · rw [hnext, BitVec.toNat_add, hcount]
        exact Nat.mod_eq_of_lt hfit

/-! ### The ids -/

/-- **What a call does to the ids that are taken**: a claim that is accepted takes its id, and
nothing else does. -/
theorem Effect.executed (h : Effect keccak256 recover g a o g') :
    g'.executed = g.executed ∧ releasedId o = [] ∨
      ∃ id, id ∉ g.executed ∧ g'.executed = insert id g.executed ∧
        (releasedId o = [id] ∨ releasedId o = []) := by
  cases h with
  | register => exact .inl ⟨rfl, rfl⟩
  | lock => exact .inl ⟨rfl, rfl⟩
  | refuseSend => exact .inl ⟨rfl, rfl⟩
  | refuse => exact .inl ⟨rfl, rfl⟩
  | burn x err hacc _ _ => exact .inr ⟨_, hacc.1, rfl, .inr rfl⟩
  | release x target hacc _ => exact .inr ⟨_, hacc.1, rfl, .inl rfl⟩

/-- **No id is released twice.** -/
theorem once (h : Run (exec keccak256 recover) g₀ tr g) : (releasedIds tr).Nodup := by
  refine (@Run.nodup_of_marks _ _ _ _ _ _ _ _ releasedId (fun g id => id ∈ g.executed) ?_ ?_ h).1
  · intro g a g' o id hexec hid
    rcases (effect_of_exec hexec).executed with ⟨heq, -⟩ | ⟨id', -, heq, -⟩
    · exact heq ▸ hid
    · exact heq ▸ Finset.mem_insert_of_mem hid
  · intro g a g' o hexec
    rcases (effect_of_exec hexec).executed with ⟨-, hnone⟩ | ⟨id, hfresh, heq, hone | hnone⟩
    · exact .inl hnone
    · exact .inr ⟨id, hone, hfresh, heq ▸ Finset.mem_insert_self id _⟩
    · exact .inl hnone

/-- **The books balance after every run**, whatever was refused in it. -/
theorem books {chainId : U64} {bridgeDomain : Bytes32} {validators : List Address}
    {threshold : BitVec 32} (hnew : new chainId bridgeDomain validators threshold = some g₀)
    (h : Run (exec keccak256 recover) g₀ tr g) (hfit : WithinU64 tr) : Books tr g := by
  unfold new at hnew
  split_ifs at hnew with hzero hmany
  obtain rfl := Option.some.inj hnew
  exact {
    once := once h
    consecutive := fun c => (consecutive (fun _ => rfl) h (hfit.nonces c)).1
    balanced := fun d => balanced (fun _ => rfl) h (hfit.funded d) }

/-! ### Refusals -/

/-- A call that went through was safe. -/
theorem safe_of_ok {r : Reply} (h : exec keccak256 recover g a = some (g', .ok r)) :
    g.Safe keccak256 recover a := by
  generalize ho : (Except.ok r : Except GateError Reply) = o at h
  cases effect_of_exec h with
  | register => trivial
  | lock => trivial
  | refuseSend => trivial
  | refuse => cases ho
  | burn => cases ho
  | release _ _ _ hpay => exact fun _ => hpay

/-- **A refusal leaves the gate as it was exactly if the call was safe.** -/
theorem post_eq_iff {err : GateError} (h : exec keccak256 recover g a = some (g', .error err)) :
    g' = g ↔ g.Safe keccak256 recover a := by
  generalize ho : (Except.error err : Except GateError Reply) = o at h
  cases effect_of_exec h with
  | register => cases ho
  | lock => cases ho
  | refuseSend => exact ⟨fun _ => trivial, fun _ => rfl⟩
  | refuse _ _ hacc _ => exact ⟨fun _ h => absurd h hacc, fun _ => rfl⟩
  | burn x _ hacc hpay _ =>
    constructor
    · intro heq
      have hmem : g.idOf keccak256 x ∈ (g.taken keccak256 x).executed :=
        Finset.mem_insert_self _ _
      rw [heq] at hmem
      exact absurd hmem hacc.1
    · exact fun hsafe => absurd (hsafe hacc) hpay
  | release => cases ho

/-- A claim that is refused late was not safe. -/
theorem not_safe_of_late {x : ClaimArgs} {err : GateError}
    (h : exec keccak256 recover g (.claim x) = some (g', .error err)) (hlate : Late err) :
    ¬g.Safe keccak256 recover (.claim x) := by
  generalize ho : (Except.error err : Except GateError Reply) = o at h
  cases effect_of_exec h with
  | refuse _ _ _ hearly =>
    obtain rfl := Except.error.inj ho
    exact absurd hlate hearly
  | burn _ _ hacc hpay _ => exact fun hsafe => hpay (hsafe hacc)
  | release => cases ho

/-- **A gate conserves funds and fails atomically** in a run: what a call refuses leaves no
trace, a claim that was refused for its asset, its liquidity or its receiver is paid with the
same signatures once it can be, and the books balance. -/
structure Conserves (keccak256 : Bytes → Bytes32)
    (recover : Bytes32 → UInt8 → Bytes → Option Bytes) (tr : List Step) (g : SolanaGate) :
    Prop where
  atomic : ∀ e ∈ tr, ∀ err, e.out = .error err → e.post = e.pre
  retry : ∀ e ∈ tr, ∀ x err, e.label = .claim x → e.out = .error err → Late err →
    g.idOf keccak256 x ∉ releasedIds tr → g.Payable x →
      ∃ g' c, g.claim keccak256 recover x = some (g', .ok c)
  books : Books tr g

/-! ### Two runs -/

open Solana.Cluster (arrival debridgeId mint)

theorem funded_eq (d : Bytes32) : funded tr d =
    ((tr.map Entry.label).map (prefundOf d)).sum + ((tr.map Entry.out).map (lockOf d)).sum := by
  simp only [funded, List.map_map, Function.comp_def]

theorem noncesTo_eq (c : U64) : noncesTo tr c = (tr.map Entry.out).filterMap (nonceOf c) := by
  simp only [noncesTo, List.filterMap_map, Function.comp_def]

/-- A gate of one validator, with nothing registered. -/
def fresh : SolanaGate :=
  (new 7565164 0xd0 [0x7e5f4552091a69125d5dfcb7b8c2659029395bdf] 1).getD
    ⟨0, 0, ∅, 0, fun _ => none, ∅, fun _ => none, fun _ => none, fun _ => none⟩

theorem new_fresh :
    new 7565164 0xd0 [0x7e5f4552091a69125d5dfcb7b8c2659029395bdf] 1 = some fresh := rfl

/-- The transfer that comes from chain 1, with its signature. -/
def arriving : ClaimArgs where
  debridgeId := debridgeId
  amount := 1000
  bridgeDecimals := 6
  chainIdFrom := 1
  nonce := 0
  receiver := arrival.receiver
  auto := none
  signatures := arrival.signatures

/-- A transfer to chain 1. -/
def leaving : SendArgs where
  debridgeId := debridgeId
  amount := 1000
  bridgeDecimals := 6
  chainIdTo := 1
  receiver := addressBytes 0xbb
  nativeSender := wordBytes 0x0a
  auto := none

/-- The calls of `SelendraBridge.BridgeSolana.SolanaGate.fresh`, with the hash and the keys of
the cluster. -/
abbrev step : SolanaGate → Call → Option (SolanaGate × Except GateError Reply) :=
  exec digestOf Solana.Cluster.runtime.secp256k1Recover

/-- The asset is there before the transfer is claimed. -/
def inOrder : List Call :=
  [.registerAsset debridgeId mint 1000000, .send leaving, .claim arriving]

/-- The transfer is claimed, the asset is registered, and the transfer is claimed again. -/
def tooEarly : List Call :=
  [.claim arriving, .registerAsset debridgeId mint 1000000, .claim arriving]

theorem inOrder_run : Run step fresh (traceOf step fresh inOrder).1 (traceOf step fresh inOrder).2 ∧
    (traceOf step fresh inOrder).1.map Entry.label = inOrder ∧
    (traceOf step fresh inOrder).1.map Entry.out = [.ok .registered,
      .ok (.sent ⟨Solana.Cluster.transferId, debridgeId, 1000, 6, 7565164, 1, addressBytes 0xbb, 0,
        wordBytes 0x0a, none⟩),
      .ok (.claimed ⟨Solana.Cluster.arrivalId, debridgeId, Solana.Cluster.userToken, 1000⟩)] := by
  have hsome : (runFrom step fresh inOrder).isSome = true := by decide +kernel
  exact ⟨run_traceOf hsome, label_traceOf hsome, by decide +kernel⟩

theorem tooEarly_run :
    Run step fresh (traceOf step fresh tooEarly).1 (traceOf step fresh tooEarly).2 ∧
    (traceOf step fresh tooEarly).1.map Entry.label = tooEarly ∧
    (traceOf step fresh tooEarly).1.map Entry.out =
      [.error .unknownAsset, .ok .registered, .error .alreadyExecuted] := by
  have hsome : (runFrom step fresh tooEarly).isSome = true := by decide +kernel
  exact ⟨run_traceOf hsome, label_traceOf hsome, by decide +kernel⟩

theorem withinU64_inOrder : WithinU64 (traceOf step fresh inOrder).1 := by
  obtain ⟨-, hlabels, houts⟩ := inOrder_run
  constructor
  · intro d
    rw [funded_eq, hlabels, houts]
    simp only [inOrder, List.map_cons, List.map_nil, prefundOf, lockOf, List.sum_cons,
      List.sum_nil]
    split_ifs <;> decide
  · intro c
    rw [noncesTo_eq, houts]
    exact lt_of_le_of_lt (List.length_filterMap_le _ _) (by decide)

theorem withinU64_tooEarly : WithinU64 (traceOf step fresh tooEarly).1 := by
  obtain ⟨-, hlabels, houts⟩ := tooEarly_run
  constructor
  · intro d
    rw [funded_eq, hlabels, houts]
    simp only [tooEarly, List.map_cons, List.map_nil, prefundOf, lockOf, List.sum_cons,
      List.sum_nil]
    split_ifs <;> decide
  · intro c
    rw [noncesTo_eq, houts]
    exact lt_of_le_of_lt (List.length_filterMap_le _ _) (by decide)

/-! ### When a gate conserves -/

/-- **Conservation and atomicity, exactly**: in a run whose totals fit 64 bits, the gate
conserves funds and fails atomically if and only if no claim that is fresh and carries its
quorum comes while its asset is unknown, its vault short or its receiver not 32 bytes. -/
theorem conserves_iff {chainId : U64} {bridgeDomain : Bytes32} {validators : List Address}
    {threshold : BitVec 32} (hnew : new chainId bridgeDomain validators threshold = some g₀)
    (hrun : Run (exec keccak256 recover) g₀ tr g) (hfit : WithinU64 tr) :
    Conserves keccak256 recover tr g ↔ ∀ e ∈ tr, e.pre.Safe keccak256 recover e.label := by
  constructor
  · rintro hcons ⟨g₁, a, o, g₂⟩ he
    have hexec : exec keccak256 recover g₁ a = some (g₂, o) := hrun.exec_of_mem he
    rcases o with err | r
    · exact (post_eq_iff hexec).mp (hcons.atomic _ he err rfl)
    · exact safe_of_ok hexec
  · intro hsafe
    refine ⟨?_, ?_, books hnew hrun hfit⟩
    · rintro ⟨g₁, a, o, g₂⟩ he err rfl
      exact (post_eq_iff (hrun.exec_of_mem he)).mpr (hsafe _ he)
    · rintro ⟨g₁, a, o, g₂⟩ he x err rfl rfl hlate - -
      exact absurd (hsafe _ he) (not_safe_of_late (hrun.exec_of_mem he) hlate)

/-- A run in order, of which that holds. -/
theorem conserves_inOrder :
    Conserves digestOf Solana.Cluster.runtime.secp256k1Recover (traceOf step fresh inOrder).1
      (traceOf step fresh inOrder).2 ∧ inOrder.length = 3 := by
  obtain ⟨hrun, -, houts⟩ := inOrder_run
  refine ⟨(conserves_iff new_fresh hrun withinU64_inOrder).mpr ?_, rfl⟩
  intro e he
  have hexec := hrun.exec_of_mem he
  have hout : e.out ∈ (traceOf step fresh inOrder).1.map Entry.out := List.mem_map_of_mem he
  rw [houts] at hout
  rcases List.mem_cons.mp hout with h | hout
  · exact safe_of_ok (h ▸ hexec)
  rcases List.mem_cons.mp hout with h | hout
  · exact safe_of_ok (h ▸ hexec)
  · exact safe_of_ok (List.mem_singleton.mp hout ▸ hexec)

/-- A claim that comes before its asset is refused, and is refused for good. -/
theorem not_conserves_tooEarly :
    new 7565164 0xd0 [0x7e5f4552091a69125d5dfcb7b8c2659029395bdf] 1 = some fresh ∧
      Run step fresh (traceOf step fresh tooEarly).1 (traceOf step fresh tooEarly).2 ∧
      WithinU64 (traceOf step fresh tooEarly).1 ∧
      ¬Conserves digestOf Solana.Cluster.runtime.secp256k1Recover
        (traceOf step fresh tooEarly).1 (traceOf step fresh tooEarly).2 := by
  obtain ⟨hrun, hlabels, houts⟩ := tooEarly_run
  refine ⟨new_fresh, hrun, withinU64_tooEarly, ?_⟩
  intro hcons
  obtain ⟨e, rest, htr, hlabel, -⟩ := List.map_eq_cons_iff.mp hlabels
  have he : e ∈ (traceOf step fresh tooEarly).1 := htr ▸ List.mem_cons_self
  have hout : e.out = .error .unknownAsset := by
    rw [htr] at houts
    exact (List.cons.inj houts).1
  have hnew : (traceOf step fresh tooEarly).2.idOf digestOf arriving ∉
      releasedIds (traceOf step fresh tooEarly).1 := by decide +kernel
  have hpay : (traceOf step fresh tooEarly).2.Payable arriving := by
    refine ⟨?_, ?_, ?_⟩ <;> decide +kernel
  obtain ⟨g', c, hclaim⟩ := hcons.retry e he arriving _ hlabel hout trivial hnew hpay
  have hagain : ((traceOf step fresh tooEarly).2.claim digestOf
      Solana.Cluster.runtime.secp256k1Recover arriving).map Prod.snd =
        some (.error .alreadyExecuted) := by decide +kernel
  rw [hclaim] at hagain
  cases hagain

end SolanaGate

end BridgeSolana

end SelendraBridge
