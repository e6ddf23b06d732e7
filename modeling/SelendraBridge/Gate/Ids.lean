import SelendraBridge.Gate.State

/-!
# The id of a transfer, as the gate computes it

`_idFor` refuses a receiver that is neither 20 nor 32 bytes, decodes the execution
payload when there is one, and hashes the packed string. Behind every id it returns
there is a `SelendraBridge.Submission` (`SelendraBridge.Gate.idFor_eq_ok`), and two
calls that end up with one id, under a hash that did not collide on their two strings,
have the same submission (`SelendraBridge.Gate.submission_eq_of_idFor_eq`).
-/

namespace SelendraBridge

namespace Gate

open Revert

/-- The parameters an id is computed from, apart from the domain. -/
structure IdParams where
  debridgeId : Bytes32
  bridgeDecimals : UInt8
  amount : U256
  chainIdFrom : U256
  chainIdTo : U256
  nonce : U256
  receiver : Bytes
  autoParams : Bytes
  nativeSender : Bytes
  deriving DecidableEq, Repr

section Ids

variable (keccak256 : Bytes → Bytes32) (bridgeDomain : Bytes32)

/-- A decoded payload with its native sender. -/
def withSender (ap : AutoParamsTo) (nativeSender : Bytes) : AutoParams where
  executionFee := ap.executionFee
  flags := ap.flags
  fallbackAddress := ap.fallbackAddress
  data := ap.data
  nativeSender := nativeSender

/-- `_idFor`. -/
def idFor (p : IdParams) : Except Error Bytes32 := do
  revertIf (p.receiver.length ≠ 20 ∧ p.receiver.length ≠ 32) .badReceiver
  if p.autoParams.length = 0 then
    return BridgeHash.getSubmissionId keccak256 bridgeDomain p.debridgeId p.bridgeDecimals p.amount
      p.chainIdFrom p.chainIdTo p.nonce p.receiver
  else
    let ap ← orRevert .abiDecoding (Abi.decodeAutoParamsTo p.autoParams)
    return BridgeHash.getSubmissionIdWithAuto keccak256 bridgeDomain p.debridgeId p.bridgeDecimals
      p.amount p.chainIdFrom p.chainIdTo p.nonce p.receiver (withSender ap p.nativeSender)

/-- The payload of the parameters: `none` is one that does not decode, `some none` is
no payload. -/
def IdParams.payload (p : IdParams) : Option (Option Payload) :=
  if p.autoParams.length = 0 then some none
  else (Abi.decodeAutoParamsTo p.autoParams).map fun ap =>
    some ((withSender ap p.nativeSender).payload keccak256)

/-- **The submission behind the parameters**, when the gate accepts them. -/
def IdParams.submission (p : IdParams) : Option Submission :=
  if h : p.receiver.length = 20 ∨ p.receiver.length = 32 then
    (p.payload keccak256).map fun payload =>
      { bridgeDomain
        debridgeId := p.debridgeId
        bridgeDecimals := p.bridgeDecimals
        amount := p.amount
        chainIdFrom := p.chainIdFrom
        chainIdTo := p.chainIdTo
        nonce := p.nonce
        receiver := p.receiver
        payload
        receiver_le := by omega }
  else none

/-- The string that is hashed into the id, when the gate accepts the parameters. -/
def idPreimage (p : IdParams) : Option Bytes :=
  (p.submission keccak256 bridgeDomain).map Submission.preimage

end Ids

variable {keccak256 : Bytes → Bytes32} {bridgeDomain : Bytes32}

/-- What the submission has from the parameters. -/
theorem submission_eq_some {p : IdParams} {s : Submission}
    (h : p.submission keccak256 bridgeDomain = some s) :
    s.bridgeDomain = bridgeDomain ∧ s.debridgeId = p.debridgeId ∧
      s.bridgeDecimals = p.bridgeDecimals ∧ s.amount = p.amount ∧
      s.chainIdFrom = p.chainIdFrom ∧ s.chainIdTo = p.chainIdTo ∧ s.nonce = p.nonce ∧
      s.receiver = p.receiver ∧ p.payload keccak256 = some s.payload ∧
      (p.receiver.length = 20 ∨ p.receiver.length = 32) := by
  unfold IdParams.submission at h
  split at h
  · next hlen =>
    obtain ⟨payload, hp, rfl⟩ := Option.map_eq_some_iff.mp h
    exact ⟨rfl, rfl, rfl, rfl, rfl, rfl, rfl, rfl, hp, hlen⟩
  · exact absurd h (by simp)

/-- **An id is the hash of a submission.** -/
theorem idFor_eq_ok {p : IdParams} {id : Bytes32} :
    idFor keccak256 bridgeDomain p = .ok id ↔
      ∃ s, p.submission keccak256 bridgeDomain = some s ∧ keccak256 s.preimage = id := by
  unfold idFor IdParams.submission IdParams.payload
  rw [revertIf_bind_eq_ok]
  by_cases hlen : p.receiver.length = 20 ∨ p.receiver.length = 32
  · rw [dif_pos hlen]
    have hlen' : ¬(p.receiver.length ≠ 20 ∧ p.receiver.length ≠ 32) := by omega
    by_cases hap : p.autoParams.length = 0
    · simp [hlen', hap, pure_eq_ok, BridgeHash.getSubmissionId, Submission.preimage]
    · rw [if_neg hap, if_neg hap, orRevert_bind_eq_ok]
      rcases hd : Abi.decodeAutoParamsTo p.autoParams with _ | ap
      · simp
      · simp [hlen', pure_eq_ok, BridgeHash.getSubmissionIdWithAuto, Submission.preimage,
          Submission.packedAuto_eq]
  · rw [dif_neg hlen]
    have hlen' : p.receiver.length ≠ 20 ∧ p.receiver.length ≠ 32 := by omega
    simp [hlen'.1, hlen'.2]

theorem idPreimage_eq_some {p : IdParams} {bs : Bytes} :
    idPreimage keccak256 bridgeDomain p = some bs ↔
      ∃ s, p.submission keccak256 bridgeDomain = some s ∧ s.preimage = bs := by
  rw [idPreimage, Option.map_eq_some_iff]

/-- **One id, one submission**: whatever else two calls were given, an id they share
binds them to the same submission, unless the hash collides on their two strings. -/
theorem submission_eq_of_idFor_eq {p q : IdParams} {dom : Bytes32} {id : Bytes32}
    (hp : idFor keccak256 bridgeDomain p = .ok id) (hq : idFor keccak256 dom q = .ok id)
    (hcoll : ∀ x y, idPreimage keccak256 bridgeDomain p = some x →
      idPreimage keccak256 dom q = some y → keccak256 x = keccak256 y → x = y) :
    ∃ s, p.submission keccak256 bridgeDomain = some s ∧ q.submission keccak256 dom = some s := by
  obtain ⟨s, hs, hsid⟩ := idFor_eq_ok.mp hp
  obtain ⟨t, ht, htid⟩ := idFor_eq_ok.mp hq
  have hst : s.preimage = t.preimage :=
    hcoll _ _ (idPreimage_eq_some.mpr ⟨s, hs, rfl⟩) (idPreimage_eq_some.mpr ⟨t, ht, rfl⟩)
      (hsid.trans htid.symm)
  obtain rfl := Submission.preimage_inj hst
  exact ⟨s, hs, ht⟩

end Gate

end SelendraBridge
