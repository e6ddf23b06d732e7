import SelendraBridge.Gate.Sends
import SelendraBridge.Solana.Cluster

/-!
# Value is preserved, or nothing settles

A gate is a contract on a chain, with amounts of 256 bits, or the program on a cluster,
with amounts of 64. Each registers an asset with two numbers, the decimals of the wire and
the decimals of its own token, and converts by the power of ten between them: exactly, or
not at all. The id of a transfer binds the wire amount and the decimals of the wire.

So a claim over the id that a source emitted pays what was locked, in the units of the
other side: `paid / 10 ^ local'` is `locked / 10 ^ local`, with denominators cleared
(`SelendraBridge.Deployment.value_preserved`). Where the two sides disagree about the
decimals of the wire, or the amount is too large for the destination, the claim fails.
-/

namespace SelendraBridge

open Revert

/-- **A gate**: the contract on a chain, or the program on a cluster. -/
inductive Deployment : Type 1
  | evm {σ : Type} (E : Chain σ)
  | solana (R : Solana.Runtime)

/-- The decimals that an asset is registered with. -/
structure Registration where
  bridgeDecimals : UInt8
  localDecimals : UInt8
  deriving DecidableEq, Repr

/-- How many decimals the wire drops. -/
def Registration.scale (r : Registration) : ℕ := r.localDecimals.toNat - r.bridgeDecimals.toNat

/-- **What a source emitted**, and behind it the string of the id, the registration of the
asset, and what was locked. -/
structure Emission where
  id : Bytes32
  debridgeId : Bytes32
  wire : ℕ
  string : Bytes
  registration : Registration
  locked : ℕ
  deriving DecidableEq, Repr

/-- **A submission at a registration**: the wire amount is what the id binds, and the local
amount is the wire amount in the units of the token. -/
structure Converts (s : Submission) (r : Registration) (amount : ℕ) : Prop where
  bridgeDecimals : s.bridgeDecimals = r.bridgeDecimals
  le : r.bridgeDecimals.toNat ≤ r.localDecimals.toNat
  amount_eq : amount = s.amount.toNat * 10 ^ r.scale

/-- Two local amounts of one submission, in each other's units. -/
theorem Converts.mul_eq {s : Submission} {r r' : Registration} {amount amount' : ℕ}
    (h : Converts s r amount) (h' : Converts s r' amount') :
    amount' * 10 ^ r.localDecimals.toNat = amount * 10 ^ r'.localDecimals.toNat := by
  have hdec : r.bridgeDecimals = r'.bridgeDecimals := h.bridgeDecimals.symm.trans h'.bridgeDecimals
  have hle := h.le
  have hle' := h'.le
  rw [← hdec] at hle'
  rw [h.amount_eq, h'.amount_eq, Registration.scale, Registration.scale, ← hdec, mul_assoc,
    mul_assoc, ← pow_add, ← pow_add]
  congr 2
  omega

/-! ### The contract -/

namespace Gate

variable {σ : Type} (E : Chain σ) (g : Gate)

/-- The registration of a token. -/
def registration (token : Address) : Registration :=
  ⟨(g.bridgeDecimalsOf token).bridgeDecimals, (g.bridgeDecimalsOf token).localDecimals⟩

/-- What a send emitted. -/
def emission (c : Call) (a : SendArgs) : List Event → Option Emission
  | [.sent id debridgeId amount _ _ _ _ _ _ _ token] => some
    { id
      debridgeId
      wire := amount.toNat
      string := (idPreimage E.keccak256 g.bridgeDomain (sendParams E c g a amount)).getD []
      registration := g.registration token
      locked := a.amount.toNat }
  | _ => none

/-- The amount that a claim paid. -/
def payout : List Event → Option ℕ
  | [.claimed _ _ _ amount] => some amount.toNat
  | _ => none

/-- The registration of an asset, if it has a token here. -/
def registrationOf (debridgeId : Bytes32) : Option Registration :=
  if g.tokenOf debridgeId = 0 ∨ (g.bridgeDecimalsOf (g.tokenOf debridgeId)).set = false then none
  else some (g.registration (g.tokenOf debridgeId))

variable {E g} {c : Call} {tokens : σ}

/-- What a send emitted and locked. -/
theorem Sends.converts {a : SendArgs} {wire : U256} {r : Done σ} (S : Sends E c g tokens a wire r)
    {e : Emission} (he : emission E g c a r.log = some e) :
    ∃ sub : Submission, e.string = sub.preimage ∧ e.id = E.keccak256 e.string ∧
      sub.debridgeId = e.debridgeId ∧ sub.amount.toNat = e.wire ∧
      Converts sub e.registration e.locked := by
  obtain ⟨sub, hsub, hid⟩ := idFor_eq_ok.mp S.id
  obtain ⟨-, hdeb, hdec, hamount, -⟩ := submission_eq_some hsub
  obtain ⟨-, hle, -, hwire⟩ := toBridgeAmount_eq_ok.mp S.wire_eq
  have hstring := idPreimage_eq_some.mpr ⟨sub, hsub, rfl⟩
  rw [S.log, emission, hstring, Option.getD_some, Option.some.injEq] at he
  subst he
  refine ⟨sub, rfl, hid.symm, hdeb, congrArg BitVec.toNat hamount, hdec, hle, ?_⟩
  rw [hamount]
  exact hwire.symm

/-- What a claim needs and pays. -/
theorem Claims.converts {a : ClaimArgs} {localAmount : U256} {recipient : Address} {r : Done σ}
    (C : Claims E g tokens a localAmount recipient r) : ∃ (sub : Submission) (reg : Registration),
      idPreimage E.keccak256 g.bridgeDomain (claimParams E a) = some sub.preimage ∧
      g.registrationOf sub.debridgeId = some reg ∧ Converts sub reg localAmount.toNat := by
  obtain ⟨sub, hsub, hid⟩ := idFor_eq_ok.mp C.id
  obtain ⟨-, hdeb, hdec, hamount, -⟩ := submission_eq_some hsub
  obtain ⟨hset, hle, -, hlocal⟩ := toLocalAmount_eq_ok.mp C.localAmount_eq
  refine ⟨sub, g.registration (g.tokenOf a.debridgeId), ?_, ?_, ?_, hle, ?_⟩
  · exact idPreimage_eq_some.mpr ⟨sub, hsub, rfl⟩
  · rw [hdeb]
    refine if_neg ?_
    rintro (hzero | hunset)
    · exact C.token_ne hzero
    · exact absurd (hset.symm.trans hunset) (by simp)
  · exact hdec.trans C.scale.symm
  · rw [hamount]
    exact hlocal

end Gate

/-! ### The program -/

namespace Solana

variable (R : Runtime) (s : Accounts)

/-- The account of some seeds, as an instruction is handed it. -/
def infoAt (seeds : List Bytes) : AccountInfo := ⟨R.findProgramAddress seeds, false, false⟩

/-- The config of the program. -/
def configOf : Option Config := (loadConfig R s (infoAt R configSeeds)).toOption

/-- The record of an asset. -/
def assetOf (debridgeId : Bytes32) : Option AssetConfig :=
  (loadAsset R s debridgeId (infoAt R (assetSeeds debridgeId))).toOption

/-- The registration of an asset. -/
def AssetConfig.registration (a : AssetConfig) : Registration := ⟨a.bridgeDecimals, a.localDecimals⟩

/-- The parameters that an event spells. -/
def SentEvent.params (e : SentEvent) : IdParams where
  debridgeId := e.debridgeId
  bridgeDecimals := e.bridgeDecimals
  amount := e.amount
  chainIdFrom := e.chainIdFrom
  chainIdTo := e.chainIdTo
  nonce := e.nonce
  receiver := e.receiver
  auto := e.auto
  nativeSender := e.nativeSender

/-- What a send emitted. -/
def emission : List Log → Option Emission
  | [.sent e, .splTransfer _ _ _ amount] => do
    let cfg ← configOf R s
    let asset ← assetOf R s e.debridgeId
    return {
      id := e.submissionId
      debridgeId := e.debridgeId
      wire := e.amount.toNat
      string := submissionPreimage R.keccak256 cfg.bridgeDomain e.params
      registration := asset.registration
      locked := amount.toNat }
  | _ => none

/-- The amount that a claim paid. -/
def payout : List Log → Option ℕ
  | [.splTransfer _ _ _ amount, .claimed _] => some amount.toNat
  | _ => none

variable {R s}

theorem configOf_eq_some {ai : AccountInfo} {cfg : Config} (h : Configured R s ai cfg) :
    configOf R s = some cfg := by
  obtain ⟨rest, hget⟩ := h.decoded
  have howner := h.owner
  rw [h.key] at howner hget
  rw [configOf, toOption_eq_some]
  simp only [loadConfig, bind_eq_ok, exists_unit, verifyPda_eq_ok, orRevert_eq_ok]
  exact ⟨⟨rfl, howner⟩, by rw [infoAt, hget, Option.map_some]⟩

theorem assetOf_eq_some {ai : AccountInfo} {asset : AssetConfig} {debridgeId : Bytes32}
    (h : Registered R s debridgeId ai asset) : assetOf R s debridgeId = some asset := by
  have howner := h.owner
  have hdec := h.decoded
  rw [h.key] at howner hdec
  rw [assetOf, toOption_eq_some]
  simp only [loadAsset, bind_eq_ok, exists_unit, verifyPda_eq_ok, revertIf_eq_ok, pure_eq_ok,
    not_not]
  exact ⟨⟨rfl, howner⟩, asset, hdec, h.debridgeId_eq, rfl⟩

/-- The word of an amount of 64 bits is the amount. -/
theorem toNat_word (v : U64) : (v.setWidth 256).toNat = v.toNat :=
  BitVec.toNat_setWidth_of_le (by omega)

/-- What a send emitted and locked. -/
theorem Sends.converts {clock : Clock} {a : SendArgs} {x : SendAccounts} {cfg : Config}
    {asset : AssetConfig} {wire : U64} {id : Bytes32} {s' : Accounts} {log : List Log}
    (S : Sends R clock s a x cfg asset wire id s' log) {e : Emission}
    (he : emission R s log = some e) :
    ∃ sub : Submission, e.string = sub.preimage ∧ e.id = R.keccak256 e.string ∧
      sub.debridgeId = e.debridgeId ∧ sub.amount.toNat = e.wire ∧
      Converts sub e.registration e.locked := by
  have hlen : (sendParams cfg asset x.payer.key a wire).receiver.length ≤ 32 := by
    have hreceiver := S.receiver
    show a.receiver.length ≤ 32
    omega
  obtain ⟨hle, hlocked⟩ := AssetConfig.toWire_eq_ok S.wire_eq
  simp only [S.log, emission, configOf_eq_some S.config, assetOf_eq_some S.registered,
    Option.bind_eq_bind, Option.bind_some, Option.pure_def, Option.some.injEq] at he
  subst he
  refine ⟨_, submissionPreimage_eq hlen, S.id_eq, rfl, toNat_word wire, rfl, hle, ?_⟩
  show a.amount.toNat = (wire.setWidth 256).toNat * 10 ^ asset.scale
  rw [toNat_word, hlocked]

/-- What a claim needs and pays. -/
theorem Claims.converts {a : ClaimArgs} {x : ClaimAccounts} {cfg : Config} {asset : AssetConfig}
    {localAmount : U64} {id : Bytes32} {s' : Accounts} {log : List Log}
    (C : Claims R s a x cfg asset localAmount id s' log) : ∃ sub : Submission,
      submissionPreimage R.keccak256 cfg.bridgeDomain (claimParams cfg a) = sub.preimage ∧
      sub.debridgeId = a.debridgeId ∧ Converts sub asset.registration localAmount.toNat := by
  have hlen : (claimParams cfg a).receiver.length ≤ 32 := by
    have hreceiver := BigEndian.toWord_eq_some_iff.mp C.receiver
    show a.receiver.length ≤ 32
    rw [hreceiver, BigEndian.length_ofWord]
  obtain ⟨hle, hlocal⟩ := AssetConfig.toLocal_eq_ok C.localAmount_eq
  refine ⟨_, submissionPreimage_eq hlen, rfl, C.scale, hle, ?_⟩
  show localAmount.toNat = (a.amount.setWidth 256).toNat * 10 ^ asset.scale
  rw [toNat_word, hlocal]

end Solana

/-! ### Both -/

namespace Deployment

/-- The hash function of a gate. -/
def keccak256 : Deployment → Bytes → Bytes32
  | .evm E => E.keccak256
  | .solana R => R.keccak256

/-- The width of an amount. -/
def width : Deployment → ℕ
  | .evm _ => 256
  | .solana _ => 64

/-- What a call starts from: the storage and the tokens, or the accounts. -/
def State : Deployment → Type
  | @evm σ _ => Gate × σ
  | .solana _ => Solana.Accounts

/-- A call of `send`. -/
def SendCall : Deployment → Type
  | .evm _ => Call × Gate.SendArgs
  | .solana _ => Solana.Clock × List Solana.AccountInfo × Solana.SendArgs

/-- A call of `claim`. -/
def ClaimCall : Deployment → Type
  | .evm _ => Gate.ClaimArgs
  | .solana _ => List Solana.AccountInfo × Solana.ClaimArgs

/-- The registration of an asset. -/
def registrationOf : (D : Deployment) → D.State → Bytes32 → Option Registration
  | .evm _, (g, _), debridgeId => g.registrationOf debridgeId
  | .solana R, s, debridgeId => (Solana.assetOf R s debridgeId).map Solana.AssetConfig.registration

/-- **A send**, with what it emitted. -/
def send : (D : Deployment) → D.State → D.SendCall → Option (D.State × Emission)
  | .evm E, (g, tokens), (c, a) => do
    let r ← (Gate.send E c g tokens a).toOption
    let e ← Gate.emission E g c a r.log
    return ((r.gate, r.tokens), e)
  | .solana R, s, (clock, accounts, a) => do
    let r ← (Solana.processSend R clock s accounts a).toOption
    let e ← Solana.emission R s r.2
    return (r.1, e)

/-- **A claim**, with what it paid. -/
def claim : (D : Deployment) → D.State → D.ClaimCall → Option (D.State × ℕ)
  | .evm E, (g, tokens), a => do
    let r ← (Gate.claim E g tokens a).toOption
    let paid ← Gate.payout r.log
    return ((r.gate, r.tokens), paid)
  | .solana R, s, (accounts, a) => do
    let r ← (Solana.processClaim R s accounts a).toOption
    let paid ← Solana.payout r.2
    return (r.1, paid)

/-- What a claim leaves of the state: everything, when it fails. -/
def execute (D : Deployment) (s : D.State) (c : D.ClaimCall) : D.State :=
  ((D.claim s c).map Prod.fst).getD s

/-- The string of the id that a claim needs a quorum over. -/
def claimString : (D : Deployment) → D.State → D.ClaimCall → Option Bytes
  | .evm E, (g, _), a => Gate.idPreimage E.keccak256 g.bridgeDomain (Gate.claimParams E a)
  | .solana R, s, (_, a) => (Solana.configOf R s).map fun cfg =>
    Solana.submissionPreimage R.keccak256 cfg.bridgeDomain (Solana.claimParams cfg a)

/-- **The id that a claim needs a quorum over.** -/
def claimId (D : Deployment) (s : D.State) (c : D.ClaimCall) : Option Bytes32 :=
  (D.claimString s c).map D.keccak256

/-! ### What a send and a claim say -/

/-- **What was emitted was locked**: the string is that of a submission, and what was
locked is its amount at the source's registration. -/
theorem converts_of_send {D : Deployment} {s s' : D.State} {c : D.SendCall} {e : Emission}
    (h : D.send s c = some (s', e)) : ∃ sub : Submission, e.string = sub.preimage ∧
      e.id = D.keccak256 e.string ∧ sub.debridgeId = e.debridgeId ∧ sub.amount.toNat = e.wire ∧
      Converts sub e.registration e.locked := by
  cases D with
  | evm E =>
    obtain ⟨r, hr, h⟩ := Option.bind_eq_some_iff.mp h
    obtain ⟨e', he, h⟩ := Option.bind_eq_some_iff.mp h
    obtain ⟨-, rfl⟩ := Prod.mk.inj (Option.some.inj h)
    have hr := toOption_eq_some.mp hr
    obtain ⟨wire, S⟩ := Gate.sends_of_send hr
    exact S.converts he
  | solana R =>
    obtain ⟨r, hr, h⟩ := Option.bind_eq_some_iff.mp h
    obtain ⟨e', he, h⟩ := Option.bind_eq_some_iff.mp h
    obtain ⟨-, rfl⟩ := Prod.mk.inj (Option.some.inj h)
    have hr := toOption_eq_some.mp hr
    obtain ⟨x, cfg, asset, wire, id, -, S⟩ := Solana.sends_of_processSend hr
    exact S.converts he

/-- **What is claimed is paid**: the string is that of a submission whose asset is
registered here, and what is paid is its amount at that registration, within the width. -/
theorem converts_of_claim {D : Deployment} {s s' : D.State} {c : D.ClaimCall} {paid : ℕ}
    (h : D.claim s c = some (s', paid)) : ∃ (sub : Submission) (r : Registration),
      D.claimString s c = some sub.preimage ∧ D.registrationOf s sub.debridgeId = some r ∧
      Converts sub r paid ∧ paid < 2 ^ D.width := by
  cases D with
  | evm E =>
    obtain ⟨r, hr, h⟩ := Option.bind_eq_some_iff.mp h
    obtain ⟨paid', hp, h⟩ := Option.bind_eq_some_iff.mp h
    obtain ⟨-, rfl⟩ := Prod.mk.inj (Option.some.inj h)
    have hr := toOption_eq_some.mp hr
    obtain ⟨localAmount, recipient, C⟩ := Gate.claims_of_claim hr
    rw [C.log, Gate.payout, Option.some.injEq] at hp
    subst hp
    obtain ⟨sub, reg, hstring, hreg, hconv⟩ := C.converts
    exact ⟨sub, reg, hstring, hreg, hconv, localAmount.isLt⟩
  | solana R =>
    obtain ⟨r, hr, h⟩ := Option.bind_eq_some_iff.mp h
    obtain ⟨paid', hp, h⟩ := Option.bind_eq_some_iff.mp h
    obtain ⟨-, rfl⟩ := Prod.mk.inj (Option.some.inj h)
    have hr := toOption_eq_some.mp hr
    obtain ⟨x, cfg, asset, localAmount, id, -, C⟩ := Solana.claims_of_processClaim hr
    rw [C.log, Solana.payout, Option.some.injEq] at hp
    subst hp
    obtain ⟨sub, hstring, hdeb, hconv⟩ := C.converts
    refine ⟨sub, asset.registration, ?_, ?_, hconv, localAmount.isLt⟩
    · show (Solana.configOf R s).map _ = some sub.preimage
      rw [Solana.configOf_eq_some C.config, Option.map_some, hstring]
    · show (Solana.assetOf R s sub.debridgeId).map _ = some asset.registration
      rw [hdeb, Solana.assetOf_eq_some C.registered, Option.map_some]

/-- **Value is preserved, or nothing settles.** A source emitted `e`, and a claim on
another gate needs its quorum over the id of `e`. If the claim goes through, the asset is
registered there, at the decimals of the wire of the source's own registration, and what is
paid is what was locked, exactly, in the units of the other side. If the decimals of the
wire differ, or the amount does not fit the destination, the claim fails and changes
nothing. -/
theorem value_preserved {src dst : Deployment} (hk : src.keccak256 = dst.keccak256)
    {s s' : src.State} {call : src.SendCall} {e : Emission}
    (hsend : src.send s call = some (s', e)) {t : dst.State} {c : dst.ClaimCall}
    (hid : dst.claimId t c = some e.id)
    (hcoll : ∀ string, dst.claimString t c = some string →
      CollisionFree dst.keccak256 [e.string, string]) :
    (∀ t' paid, dst.claim t c = some (t', paid) →
      ∃ r, dst.registrationOf t e.debridgeId = some r ∧
        r.bridgeDecimals = e.registration.bridgeDecimals ∧
        paid * 10 ^ e.registration.localDecimals.toNat = e.locked * 10 ^ r.localDecimals.toNat) ∧
    ((∀ r, dst.registrationOf t e.debridgeId = some r →
        r.bridgeDecimals ≠ e.registration.bridgeDecimals ∨
          2 ^ dst.width ≤ e.wire * 10 ^ r.scale) →
      dst.claim t c = none ∧ dst.execute t c = t) := by
  obtain ⟨sub, hstring, heid, hdeb, hwire, hconv⟩ := converts_of_send hsend
  -- The claim is of the submission that was emitted.
  have hclaim : ∀ t' paid, dst.claim t c = some (t', paid) → ∃ r,
      dst.registrationOf t e.debridgeId = some r ∧ Converts sub r paid ∧ paid < 2 ^ dst.width := by
    intro t' paid h
    obtain ⟨sub', r, hstring', hreg, hconv', hlt⟩ := converts_of_claim h
    have hhash : dst.keccak256 sub'.preimage = dst.keccak256 e.string := by
      rw [claimId, hstring', Option.map_some, Option.some.injEq] at hid
      rw [hid, heid, hk]
    have hpre := hcoll _ hstring' _ (by simp) _ (by simp) hhash
    obtain rfl := Submission.preimage_inj (hpre.trans hstring)
    exact ⟨r, hdeb ▸ hreg, hconv', hlt⟩
  refine ⟨?_, ?_⟩
  · intro t' paid h
    obtain ⟨r, hreg, hconv', -⟩ := hclaim t' paid h
    exact ⟨r, hreg, hconv'.bridgeDecimals.symm.trans hconv.bridgeDecimals, hconv.mul_eq hconv'⟩
  · intro hbad
    have hnone : dst.claim t c = none := by
      rw [Option.eq_none_iff_forall_not_mem]
      rintro ⟨t', paid⟩ h
      obtain ⟨r, hreg, hconv', hlt⟩ := hclaim t' paid h
      rcases hbad r hreg with hne | hwide
      · exact hne (hconv'.bridgeDecimals.symm.trans hconv.bridgeDecimals)
      · rw [← hwire, ← hconv'.amount_eq] at hwide
        omega
    exact ⟨hnone, by rw [execute, hnone]; rfl⟩

/-- A token of eight decimals is registered at six, and the chain of the program. -/
def wiring : List (Gate.Label Ledger) :=
  [.govern (Gate.callAt 0x0a 1001) (.setBridgeDecimals 0xaa 6),
    .govern (Gate.callAt 0x0a 1002) (.setSupportedChain 7565164 true)]

/-- The contract of chain 1, wired. -/
def sourceGate : Gate.World Ledger :=
  (Transition.traceOf (Gate.exec (tableChain 1 0xf1)) (Gate.started Gate.funded) wiring).2

/-- A transfer of 100000 units of it to the program. -/
def sending : SendCall (.evm (tableChain 1 0xf1)) :=
  (Gate.callAt 0xcc 1003, { Gate.lockedSend with
    chainIdTo := 7565164
    receiver := wordBytes Solana.Cluster.userToken })

/-- The transfer is claimed on the program, where the mint has nine decimals: a million
units for a hundred thousand. -/
theorem value_preserved_arrival : ∃ s' e t' paid,
    send (.evm (tableChain 1 0xf1)) (sourceGate.gate, sourceGate.tokens) sending = some (s', e) ∧
      claim (.solana Solana.Cluster.runtime) Solana.Cluster.filled
        (Solana.Cluster.arrivalAccounts, Solana.Cluster.arrival) = some (t', paid) ∧
      (e.locked = 100000 ∧ paid = 1000000) ∧
      ∃ r, registrationOf (.solana Solana.Cluster.runtime) Solana.Cluster.filled e.debridgeId =
          some r ∧ r.bridgeDecimals = e.registration.bridgeDecimals ∧
        paid * 10 ^ e.registration.localDecimals.toNat =
          e.locked * 10 ^ r.localDecimals.toNat := by
  have hsends : (send (.evm (tableChain 1 0xf1)) (sourceGate.gate, sourceGate.tokens)
      sending).map (fun r => r.2.locked) = some 100000 := by decide +kernel
  have hclaims : (claim (.solana Solana.Cluster.runtime) Solana.Cluster.filled
      (Solana.Cluster.arrivalAccounts, Solana.Cluster.arrival)).map Prod.snd = some 1000000 := by
    decide +kernel
  obtain ⟨⟨s', e⟩, hsend, hlocked⟩ := Option.map_eq_some_iff.mp hsends
  obtain ⟨⟨t', paid⟩, hclaim, hpaid⟩ := Option.map_eq_some_iff.mp hclaims
  -- The claim hashes the string that was emitted.
  have hstring : claimString (.solana Solana.Cluster.runtime) Solana.Cluster.filled
      (Solana.Cluster.arrivalAccounts, Solana.Cluster.arrival) = some e.string := by
    have h : claimString (.solana Solana.Cluster.runtime) Solana.Cluster.filled
        (Solana.Cluster.arrivalAccounts, Solana.Cluster.arrival) =
        (send (.evm (tableChain 1 0xf1)) (sourceGate.gate, sourceGate.tokens) sending).map
          fun r => r.2.string := by decide +kernel
    rw [h, hsend, Option.map_some]
  have hid : claimId (.solana Solana.Cluster.runtime) Solana.Cluster.filled
      (Solana.Cluster.arrivalAccounts, Solana.Cluster.arrival) = some e.id := by
    obtain ⟨-, -, heid, -⟩ := converts_of_send hsend
    show Option.map _ (claimString _ _ _) = _
    rw [hstring, Option.map_some, heid]
    rfl
  refine ⟨s', e, t', paid, hsend, hclaim, ⟨hlocked, hpaid⟩, (@value_preserved
    (.evm (tableChain 1 0xf1)) (.solana Solana.Cluster.runtime) rfl _ _ _ _ hsend _ _ hid ?_).1 t'
    paid hclaim⟩
  intro string h
  obtain rfl := Option.some.inj (hstring.symm.trans h)
  intro x hx y hy _
  simp only [List.mem_cons, List.not_mem_nil, or_false, or_self] at hx hy
  rw [hx, hy]

end Deployment

end SelendraBridge
