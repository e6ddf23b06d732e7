import SelendraBridge.Gate.Books
import SelendraBridge.Gate.Parts

/-!
# The registry is written once, and always convertible

An asset gets its token once and a token its scale once, and neither is ever taken back.
The order of the two is what matters: a token can be registered for an asset only when it
has a scale, and a scale is bounded on the way in – not above the token's own decimals, and
no more than 77 below them, so that the unit fits a word. So from an asset with a token an
amount can always be converted (`SelendraBridge.Gate.registry_write_once`).

Scales come in by two doors, `setBridgeDecimals` and the migration of an older gate, and
tokens by one. A call that reverts midway, after it has consumed its schedule, reverts that
too.
-/

namespace SelendraBridge

namespace Gate

open Revert Transition

variable {σ : Type} {E : Chain σ} {g g' : Gate}

/-- The largest number of decimals that a unit may drop. -/
def MAX_SCALE : ℕ := 77

/-- **A scale that converts.** -/
def Bounded (d : BridgeDecimals) : Prop :=
  d.bridgeDecimals.toNat ≤ d.localDecimals.toNat ∧
    d.localDecimals.toNat ≤ d.bridgeDecimals.toNat + MAX_SCALE

/-- **Every corridor is convertible**: scales are bounded, and the token of an asset has
one. -/
structure Convertible (g : Gate) : Prop where
  bounded : ∀ token, (g.bridgeDecimalsOf token).set = true →
    Bounded (g.bridgeDecimalsOf token)
  scaled : ∀ d, g.tokenOf d ≠ 0 → (g.bridgeDecimalsOf (g.tokenOf d)).set = true

variable (E) in
/-- What a governing call leaves of the storage: everything, when it reverts. -/
def executeGovern (c : Call) (g : Gate) (tokens : σ) (x : GovCall) : Gate :=
  match govern E c g tokens x with
  | .ok (g', _) => g'
  | .error _ => g

/-! ### Units -/

/-- The unit of a bounded scale fits a word. -/
theorem unitOf_of_bounded {d : BridgeDecimals} (h : Bounded d) :
    ∃ unit, unitOf d = .ok unit ∧ unit.toNat = 10 ^ scaleOf d := by
  obtain ⟨hle, hmax⟩ := h
  have hscale : scaleOf d ≤ MAX_SCALE := by
    rw [scaleOf]
    omega
  have hlt : 10 ^ scaleOf d < 2 ^ 256 :=
    lt_of_le_of_lt (Nat.pow_le_pow_right (by omega) hscale) (by decide)
  have hunit : (BitVec.ofNat 256 (10 ^ scaleOf d)).toNat = 10 ^ scaleOf d := by
    rw [BitVec.toNat_ofNat, Nat.mod_eq_of_lt hlt]
  exact ⟨_, unitOf_eq_ok.mpr ⟨hle, hunit⟩, hunit⟩

/-- What `setBridgeDecimals` lets in is bounded. -/
theorem bounded_of_checkScale {token : Address} {n l : UInt8} {u : Unit}
    (h : checkScale token n l = .ok u) : Bounded ⟨true, n, l⟩ := by
  rw [checkScale, revertIf_eq_ok, not_or, gt_iff_lt, UInt8.lt_iff_toNat_lt, not_lt, not_lt] at h
  refine ⟨h.1, ?_⟩
  show l.toNat ≤ n.toNat + MAX_SCALE
  rw [MAX_SCALE]
  omega

/-! ### Steps -/

/-- The same registry converts as well. -/
theorem Convertible.of_registry (h : Convertible g) (hreg : g'.registry = g.registry) :
    Convertible g' := by
  simp only [registry, Prod.mk.injEq] at hreg
  obtain ⟨htok, hdec⟩ := hreg
  exact ⟨hdec ▸ h.bounded, by rw [htok, hdec]; exact h.scaled⟩

/-- A new scale, within the bounds. -/
theorem Convertible.addScale (h : Convertible g) {token : Address} {d : BridgeDecimals}
    (hset : d.set = true) (hd : Bounded d) (htok : g'.tokenOf = g.tokenOf)
    (hdec : g'.bridgeDecimalsOf = Function.update g.bridgeDecimalsOf token d) :
    Convertible g' := by
  have hat : ∀ t, g'.bridgeDecimalsOf t = d ∨ g'.bridgeDecimalsOf t = g.bridgeDecimalsOf t := by
    intro t
    rw [hdec]
    rcases eq_or_ne t token with rfl | hne
    · exact .inl (Function.update_self ..)
    · exact .inr (Function.update_of_ne hne ..)
  refine ⟨?_, ?_⟩
  · intro t ht
    rcases hat t with heq | heq
    · rw [heq]
      exact hd
    · rw [heq] at ht ⊢
      exact h.bounded t ht
  · intro a ha
    rw [htok] at ha ⊢
    rcases hat (g.tokenOf a) with heq | heq
    · rw [heq]
      exact hset
    · rw [heq]
      exact h.scaled a ha

/-- A new asset, for a token that has a scale. -/
theorem Convertible.addToken (h : Convertible g) {d : Bytes32} {token : Address}
    (hset : (g.bridgeDecimalsOf token).set = true)
    (htok : g'.tokenOf = Function.update g.tokenOf d token)
    (hdec : g'.bridgeDecimalsOf = g.bridgeDecimalsOf) : Convertible g' := by
  refine ⟨hdec ▸ h.bounded, ?_⟩
  intro a ha
  rw [htok] at ha ⊢
  rw [hdec]
  rcases eq_or_ne a d with rfl | hne
  · rw [Function.update_self]
    exact hset
  · rw [Function.update_of_ne hne] at ha ⊢
    exact h.scaled a ha

/-- The migration registers tokens at their own decimals. -/
theorem convertible_of_migrateTokens {tokens : σ} {legacyTokens : List Address} {log : List Event}
    (hc : Convertible g) (h : migrateTokens E tokens legacyTokens g = .ok (g', log)) :
    Convertible g' := by
  induction legacyTokens generalizing g log with
  | nil =>
    obtain ⟨rfl, -⟩ := Prod.mk.inj (Except.ok.inj h)
    exact hc
  | cons token rest ih =>
    rw [migrateTokens, revertIf_bind_eq_ok] at h
    obtain ⟨-, h⟩ := h
    split at h
    · exact ih hc h
    · simp only [bind_eq_ok, pure_eq_ok, Prod.mk.injEq, Prod.exists] at h
      obtain ⟨l, -, _, _, hrest, rfl, -⟩ := h
      refine ih ?_ hrest
      exact @Convertible.addScale _ _ hc token ⟨true, l, l⟩ rfl ⟨le_rfl, Nat.le_add_right _ _⟩ rfl
        rfl

/-- **A governing call keeps every corridor convertible**, whichever it is. -/
theorem convertible_of_govern {c : Call} {tokens : σ} {x : GovCall} {log : List Event}
    (hc : Convertible g) (h : govern E c g tokens x = .ok (g', log)) : Convertible g' := by
  cases x with
  | migrate legacyTokens legacyChains =>
    simp only [govern, initializeV2, bind_eq_ok, exists_unit, pure_eq_ok, Prod.mk.injEq,
      Prod.exists] at h
    obtain ⟨-, -, -, -, g₁, log₁, htokens, rfl, -⟩ := h
    have hc₁ := convertible_of_migrateTokens (hc.of_registry (by rfl)) htokens
    exact hc₁.of_registry (parts_migrateChains _ _).2
  | setLocalToken d token =>
    simp only [govern, setLocalToken, bind_eq_ok, exists_unit, revertIf_eq_ok, pure_eq_ok,
      Prod.mk.injEq, Bool.not_eq_false] at h
    obtain ⟨-, -, -, g₁, hconsume, hset, rfl, -⟩ := h
    have hc₁ := hc.of_registry (parts_of_consumeGovernanceIf hconsume).2
    exact hc₁.addToken hset rfl rfl
  | setBridgeDecimals token n =>
    simp only [govern, setBridgeDecimals, bind_eq_ok, exists_unit, pure_eq_ok, Prod.mk.injEq] at h
    obtain ⟨-, -, -, l, -, hscale, g₁, hconsume, rfl, -⟩ := h
    have hc₁ := hc.of_registry (parts_of_consumeGovernanceIf hconsume).2
    exact hc₁.addScale rfl (bounded_of_checkScale hscale) rfl rfl
  | _ => exact hc.of_registry ((parts_of_govern h).2 rfl)

/-- **So does every step.** -/
theorem convertible_step {w w' : World σ} {l : Label σ} {o : Out} (hc : Convertible w.gate)
    (h : exec E w l = some (w', o)) : Convertible w'.gate := by
  cases l with
  | govern c x =>
    obtain ⟨-, -, hgov, -⟩ := exec_govern h
    exact convertible_of_govern hc hgov
  | transfer c x =>
    obtain ⟨-, -, r, hr, rfl, -⟩ := exec_transfer h
    exact hc.of_registry (parts_of_transfer hr).2
  | tokens s =>
    obtain ⟨rfl, -⟩ := exec_tokens h
    exact hc

/-- A gate just initialized has an empty registry. -/
theorem convertible_of_initial {w : World σ} (h : Initial w) : Convertible w.gate := by
  obtain ⟨-, -, -, hg⟩ := h.gate_eq
  rw [hg]
  exact ⟨fun token ht => absurd ht (by simp [blank]), fun d hd => absurd rfl hd⟩

/-- **The registry is written once, and always convertible**, in every run from
`initialize`. The token of an asset and the scale of a token never change again; the token
of an asset has a scale, not above its own decimals and at most 77 below, so its unit is
there and is the power of ten between them; and a governing call that reverts leaves the
registry and the schedules as they were, with everything else. -/
theorem registry_write_once {w₀ : World σ} (h₀ : Initial w₀) :
    (∀ tr w tr' w', Run (exec E) w₀ tr w → Run (exec E) w tr' w' →
      (∀ d, w.gate.tokenOf d ≠ 0 → w'.gate.tokenOf d = w.gate.tokenOf d) ∧
      ∀ token, (w.gate.bridgeDecimalsOf token).set = true →
        w'.gate.bridgeDecimalsOf token = w.gate.bridgeDecimalsOf token) ∧
    (∀ tr w, Run (exec E) w₀ tr w → ∀ d token, w.gate.tokenOf d = token → token ≠ 0 →
      (w.gate.bridgeDecimalsOf token).set = true ∧
        (w.gate.bridgeDecimalsOf token).bridgeDecimals.toNat ≤
          (w.gate.bridgeDecimalsOf token).localDecimals.toNat ∧
        (w.gate.bridgeDecimalsOf token).localDecimals.toNat ≤
          (w.gate.bridgeDecimalsOf token).bridgeDecimals.toNat + 77 ∧
        ∃ unit, bridgeUnit w.gate token = .ok unit ∧
          unit.toNat = 10 ^ scaleOf (w.gate.bridgeDecimalsOf token)) ∧
    ∀ c g (tokens : σ) x err, govern E c g tokens x = .error err →
      (executeGovern E c g tokens x).registry = g.registry ∧
        (executeGovern E c g tokens x).governance = g.governance ∧
        executeGovern E c g tokens x = g := by
  refine ⟨?_, ?_, ?_⟩
  · intro tr w tr' w' hrun hrun'
    have hd : w.gate.setupDeadline ≠ 0 :=
      hrun.invariant (P := fun w => w.gate.setupDeadline ≠ 0) h₀.gate_eq.1
        fun _ _ _ _ hd he => setupDeadline_step hd he
    have hk := kept_run hd hrun'
    exact ⟨hk.token, hk.scale⟩
  · rintro tr w hrun d token rfl htoken
    have hc : Convertible w.gate :=
      hrun.invariant (P := fun w => Convertible w.gate) (convertible_of_initial h₀)
        fun _ _ _ _ hc he => convertible_step hc he
    have hset := hc.scaled d htoken
    have hb := hc.bounded _ hset
    obtain ⟨unit, hunit, hpow⟩ := unitOf_of_bounded hb
    exact ⟨hset, hb.1, hb.2, unit, bridgeUnit_eq_ok.mpr ⟨hset, hunit⟩, hpow⟩
  · intro c g tokens x err h
    have heq : executeGovern E c g tokens x = g := by
      unfold executeGovern
      rw [h]
    rw [heq]
    exact ⟨rfl, rfl, rfl⟩

/-- A token gets a scale and an asset the token; a second asset is refused a token without
a scale. -/
def registered : List (Step Ledger) × World Ledger :=
  traceOf (exec (tableChain 1 0xf1)) (started noTokens)
    [.govern (callAt 0x0a 1001) (.setBridgeDecimals 0xaa 6),
      .govern (callAt 0x0a 1002) (.setLocalToken 0x77 0xaa)]

theorem registry_write_once_registered :
    registered.2.gate.tokenOf 0x77 = 0xaa ∧
      (∃ unit, bridgeUnit registered.2.gate 0xaa = .ok unit ∧ unit.toNat = 10 ^ 2) ∧
      (executeGovern (tableChain 1 0xf1) (callAt 0x0a 1003) registered.2.gate noTokens
        (.setLocalToken 0x78 0xcc)).registry = registered.2.gate.registry := by
  have hrun : Run (exec (tableChain 1 0xf1)) (started noTokens) registered.1 registered.2 :=
    run_traceOf (by decide +kernel)
  have htoken : registered.2.gate.tokenOf 0x77 = 0xaa := by decide +kernel
  have hscale : scaleOf (registered.2.gate.bridgeDecimalsOf 0xaa) = 2 := by decide +kernel
  have hrefused : govern (tableChain 1 0xf1) (callAt 0x0a 1003) registered.2.gate noTokens
      (.setLocalToken 0x78 0xcc) = .error (.bridgeDecimalsUnset 0xcc) := rfl
  obtain ⟨-, hconv, hrevert⟩ := registry_write_once (E := tableChain 1 0xf1)
    (initial_started noTokens)
  obtain ⟨-, -, -, unit, hunit, hpow⟩ := hconv _ _ hrun 0x77 0xaa htoken (by decide)
  rw [hscale] at hpow
  exact ⟨htoken, ⟨unit, hunit, hpow⟩, (hrevert _ _ _ _ _ hrefused).1⟩

end Gate

end SelendraBridge
