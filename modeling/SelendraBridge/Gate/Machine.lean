import SelendraBridge.Gate.Governance
import SelendraBridge.Gate.Transfer
import SelendraBridge.Ledger
import SelendraBridge.Lib.Timelock

/-!
# The gate as a machine

A world has a gate, the tokens of its chain, and the time of the last block. A step is
one call by anybody, at a time that does not run backwards, or a move of tokens by
somebody else altogether. A call that reverts is no step. After an upgrade the code is no
longer this one, so nothing follows it.

The calls fall into two families – what the owner governs and what moves a transfer –
and the frame between them is stated once: governing leaves the books alone
(`SelendraBridge.Gate.Governed`), and a transfer call leaves everything else alone
(`SelendraBridge.Gate.transfer_frame`).
-/

namespace SelendraBridge

namespace Gate

open Revert Transition

/-! ### Calls -/

/-- The calls of the owner and the guardian, with their arguments. -/
inductive GovCall
  | migrate (legacyTokens : List Address) (legacyChains : List U256)
  | scheduleUpgrade (implementation : Address) (data : Bytes)
  | cancelScheduledUpgrade (implementation : Address)
  | upgradeToAndCall (newImplementation : Address) (data : Bytes) (accepted : Bool)
  | transferOwnership (newOwner : Address)
  | acceptOwnership
  | scheduleAddValidator (v : Address)
  | scheduleLowerThreshold (t : U256)
  | scheduleSetLocalToken (debridgeId : Bytes32) (localToken : Address)
  | scheduleSetBridgeDecimals (token : Address) (bridgeDecimals : UInt8)
  | scheduleSetGuardian (newGuardian : Address)
  | cancelScheduledGovernance (id : Bytes32)
  | setValidator (v : Address) (active : Bool)
  | setThreshold (t : U256)
  | setLocalToken (debridgeId : Bytes32) (localToken : Address)
  | setBridgeDecimals (token : Address) (bridgeDecimals : UInt8)
  | sealGate
  | setSupportedChain (chainId : U256) (ok : Bool)
  | setGuardian (newGuardian : Address)
  | setMinSendAmount (token : Address) (minAmount : U256)
  | pause
  | unpause
  deriving DecidableEq, Repr

/-- The calls that move a transfer. -/
inductive TransferCall
  | send (a : SendArgs)
  | claim (a : ClaimArgs)
  | cancel (a : ClaimArgs)
  | refund (a : RefundArgs)
  deriving DecidableEq, Repr

section Calls

variable {σ : Type} (E : Chain σ) (c : Call) (g : Gate) (tokens : σ)

/-- A call of the owner or the guardian. -/
def govern : GovCall → Result
  | .migrate legacyTokens legacyChains => initializeV2 E c g tokens legacyTokens legacyChains
  | .scheduleUpgrade implementation data => scheduleUpgrade E c g implementation data
  | .cancelScheduledUpgrade implementation => cancelScheduledUpgrade c g implementation
  | .upgradeToAndCall newImplementation data accepted =>
    upgradeToAndCall E c g newImplementation data accepted
  | .transferOwnership newOwner => transferOwnership c g newOwner
  | .acceptOwnership => acceptOwnership c g
  | .scheduleAddValidator v => scheduleAddValidator E c g v
  | .scheduleLowerThreshold t => scheduleLowerThreshold E c g t
  | .scheduleSetLocalToken debridgeId localToken =>
    scheduleSetLocalToken E c g debridgeId localToken
  | .scheduleSetBridgeDecimals token bridgeDecimals =>
    scheduleSetBridgeDecimals E c g tokens token bridgeDecimals
  | .scheduleSetGuardian newGuardian => scheduleSetGuardian E c g newGuardian
  | .cancelScheduledGovernance id => cancelScheduledGovernance c g id
  | .setValidator v active => setValidator E c g v active
  | .setThreshold t => setThreshold E c g t
  | .setLocalToken debridgeId localToken => setLocalToken E c g debridgeId localToken
  | .setBridgeDecimals token bridgeDecimals => setBridgeDecimals E c g tokens token bridgeDecimals
  | .sealGate => sealGate c g
  | .setSupportedChain chainId ok => setSupportedChain c g chainId ok
  | .setGuardian newGuardian => setGuardian E c g newGuardian
  | .setMinSendAmount token minAmount => setMinSendAmount c g token minAmount
  | .pause => pause c g
  | .unpause => unpause c g

/-- A call that moves a transfer. -/
def transfer : TransferCall → Except Error (Done σ)
  | .send a => send E c g tokens a
  | .claim a => claim E g tokens a
  | .cancel a => cancel E g tokens a
  | .refund a => refund E g tokens a

end Calls

/-! ### The machine -/

/-- A gate on its chain, at a time. -/
structure World (σ : Type) where
  gate : Gate
  tokens : σ
  now : ℕ
  /-- Whether the gate's code has been replaced. -/
  upgraded : Bool

/-- What can happen next. -/
inductive Label (σ : Type)
  /-- A call of the owner or the guardian. -/
  | govern (c : Call) (x : GovCall)
  /-- A call that moves a transfer. -/
  | transfer (c : Call) (x : TransferCall)
  /-- Somebody else moves tokens. -/
  | tokens (s : σ)

/-- What comes out of a step: the events, and the submission id of a transfer call. -/
structure Out where
  log : List Event
  id : Option Bytes32
  deriving DecidableEq

/-- Is the call an upgrade? -/
def GovCall.isUpgrade : GovCall → Bool
  | .upgradeToAndCall _ _ _ => true
  | _ => false

variable {σ : Type} (E : Chain σ)

/-- **One step.** -/
def exec (w : World σ) : Label σ → Option (World σ × Out)
  | .govern c x =>
    if w.upgraded = true ∨ c.timestamp < w.now then none
    else match govern E c w.gate w.tokens x with
      | .ok (g, log) => some (⟨g, w.tokens, c.timestamp, x.isUpgrade⟩, ⟨log, none⟩)
      | .error _ => none
  | .transfer c x =>
    if w.upgraded = true ∨ c.timestamp < w.now then none
    else match transfer E c w.gate w.tokens x with
      | .ok r => some (⟨r.gate, r.tokens, c.timestamp, false⟩, ⟨r.log, some r.id⟩)
      | .error _ => none
  | .tokens s => some ({ w with tokens := s }, ⟨[], none⟩)

/-- A step of a run. -/
abbrev Step (σ : Type) := Entry (World σ) (Label σ) Out

/-- **Where a run starts**: a gate just initialized on blank storage. -/
def Initial (w : World σ) : Prop :=
  ∃ c validators threshold bridgeDomain log,
    initializeGate c blank validators threshold bridgeDomain = .ok (w.gate, log) ∧
      w.now = c.timestamp ∧ w.upgraded = false

/-! ### A gate to run

The runs on concrete inputs start from one gate, with the domain `0xd0`, the owner
`0x0a` and one validator, and are made of calls on a chain where every account has code. -/

/-- A sender and a block time. -/
def callAt (sender : Address) (timestamp : ℕ) : Call where
  sender
  timestamp
  hasCode := fun _ => true
  codehash := fun _ => 0

/-- The validator. -/
def validator₁ : Address := 0x7e5f4552091a69125d5dfcb7b8c2659029395bdf

/-- Another one. -/
def validator₂ : Address := 0x2b5ad5c4795c026514f8317c7a215e218dccd6cf

/-- The gate, initialized at time 1000 on a chain with some tokens. -/
def started (tokens : Ledger) : World Ledger :=
  match initializeGate (callAt 0x0a 1000) blank [validator₁] 1 0xd0 with
  | .ok (g, _) => ⟨g, tokens, 1000, false⟩
  | .error _ => ⟨blank, tokens, 1000, false⟩

theorem initial_started (tokens : Ledger) : Initial (started tokens) :=
  ⟨callAt 0x0a 1000, [validator₁], 1, 0xd0, _, rfl, rfl, rfl⟩

/-- Tokens of 8 decimals before anybody has any. -/
def noTokens : Ledger := ⟨fun _ _ => 0, fun _ _ _ => 0, fun _ => some 8⟩

variable {E}

theorem exec_govern {w w' : World σ} {c : Call} {x : GovCall} {o : Out}
    (h : exec E w (.govern c x) = some (w', o)) :
    w.upgraded = false ∧ w.now ≤ c.timestamp ∧
      govern E c w.gate w.tokens x = .ok (w'.gate, o.log) ∧ w'.tokens = w.tokens ∧
      w'.now = c.timestamp ∧ w'.upgraded = x.isUpgrade ∧ o.id = none := by
  rw [exec] at h
  split at h
  · exact absurd h (by simp)
  · next hguard =>
    rw [not_or, not_lt, Bool.not_eq_true] at hguard
    split at h
    · next hgov =>
      simp only [Option.some.injEq, Prod.mk.injEq] at h
      obtain ⟨rfl, rfl⟩ := h
      exact ⟨hguard.1, hguard.2, hgov, rfl, rfl, rfl, rfl⟩
    · exact absurd h (by simp)

theorem exec_transfer {w w' : World σ} {c : Call} {x : TransferCall} {o : Out}
    (h : exec E w (.transfer c x) = some (w', o)) :
    w.upgraded = false ∧ w.now ≤ c.timestamp ∧ ∃ r, transfer E c w.gate w.tokens x = .ok r ∧
      w' = ⟨r.gate, r.tokens, c.timestamp, false⟩ ∧ o = ⟨r.log, some r.id⟩ := by
  rw [exec] at h
  split at h
  · exact absurd h (by simp)
  · next hguard =>
    rw [not_or, not_lt, Bool.not_eq_true] at hguard
    split at h
    · next r hr =>
      simp only [Option.some.injEq, Prod.mk.injEq] at h
      exact ⟨hguard.1, hguard.2, r, hr, h.1.symm, h.2.symm⟩
    · exact absurd h (by simp)

theorem exec_tokens {w w' : World σ} {s : σ} {o : Out}
    (h : exec E w (.tokens s) = some (w', o)) :
    w' = { w with tokens := s } ∧ o = ⟨[], none⟩ := by
  simp only [exec, Option.some.injEq, Prod.mk.injEq] at h
  exact ⟨h.1.symm, h.2.symm⟩

/-! ### What a transfer call leaves alone -/

/-- **Transfers write only the books.** -/
theorem transfer_frame {c : Call} {g : Gate} {tokens : σ} {x : TransferCall} {r : Done σ}
    (h : transfer E c g tokens x = .ok r) :
    ∃ b : Books, r.gate = g.withBooks b ∧ b.bridgeDomain = g.bridgeDomain := by
  cases x with
  | send a =>
    obtain ⟨wire, hs⟩ := sends_of_send h
    exact ⟨r.gate.books, by rw [hs.gate]; rfl, by rw [hs.gate]; rfl⟩
  | claim a =>
    obtain ⟨_, _, hs⟩ := claims_of_claim h
    exact ⟨r.gate.books, by rw [hs.gate]; rfl, by rw [hs.gate]; rfl⟩
  | cancel a =>
    have hs := cancels_of_cancel h
    exact ⟨r.gate.books, by rw [hs.gate]; rfl, by rw [hs.gate]; rfl⟩
  | refund a =>
    obtain ⟨_, hs⟩ := refunds_of_refund h
    exact ⟨r.gate.books, by rw [hs.gate]; rfl, by rw [hs.gate]; rfl⟩

end Gate

end SelendraBridge
