import SelendraBridge.Lib.Ecdsa
import SelendraBridge.Solana.HostGate
import SelendraBridge.Store.Signatures
import SelendraBridge.Store.Standard
import SelendraBridge.Submit.LowS

/-!
# The signer of a signature that was written anew

A signature is written anew twice, by code that has nothing in common: the store has a library
parse it, lower its `s` and print it, the relayer does it byte by byte. Both write the low form
(`SelendraBridge.BridgeSolana.canonical_eq`), and the signer of the low form is the one of the
signature (`SelendraBridge.BridgeSolana.signerOf_lowForm`).

| of a signature | the store | the relayer |
|:---------------|:----------|:------------|
| is read | `Signature::try_from`, of hexadecimal | 65 bytes |
| its `s` is lowered | `normalized_s` | `is_high_s`, and a subtraction with a borrow |
| is written | `as_bytes` | in place |

The libraries are parameters. The one of the store does what it documents
(`SelendraBridge.BridgeSolana.SignatureLib.Documented`). The signer is the one that ECDSA has
(`SelendraBridge.BridgeSolana.signerOf`), and the library that recovers keys is asked for it
(`SelendraBridge.BridgeSolana.RecoversKeys`): of a low `s` it says the signer, of a high one it may
say nothing. So the rewritten signature recovers where the one it was written from may not.
-/

namespace SelendraBridge

namespace BridgeSolana

open Revert

/-- **A signature that can be made**: in one of the four encodings, of numbers below the order. -/
structure Ranged (sig : Bytes) : Prop extends Encoded sig where
  r : 0 < wordAt sig 0 ∧ wordAt sig 0 < order
  s : 0 < wordAt sig 32 ∧ wordAt sig 32 < order

/-! ### The libraries -/

/-- **`Signature`**, in the library of the store. -/
structure SignatureLib (σ : Type) where
  /-- `Signature::try_from`. -/
  tryFrom : Bytes → Option σ
  r : σ → U256
  s : σ → U256
  /-- Is the parity odd? -/
  v : σ → Bool
  normalizedS : σ → σ
  asBytes : σ → Bytes

/-- **What it documents.** -/
structure SignatureLib.Documented {σ : Type} (L : SignatureLib σ) : Prop where
  tryFrom : ∀ {raw}, Ranged raw → ∃ x, L.tryFrom raw = some x ∧ (L.r x).toNat = wordAt raw 0 ∧
    (L.s x).toNat = wordAt raw 32 ∧ L.v x = isOdd raw
  normalizedS_low : ∀ {x}, (L.s x).toNat ≤ order / 2 → L.normalizedS x = x
  normalizedS_high : ∀ {x}, order / 2 < (L.s x).toNat → (L.s x).toNat < order →
    L.r (L.normalizedS x) = L.r x ∧ (L.s (L.normalizedS x)).toNat = order - (L.s x).toNat ∧
      L.v (L.normalizedS x) = !L.v x
  asBytes : ∀ x, L.asBytes x =
    wordBytes (L.r x) ++ (wordBytes (L.s x) ++ [if L.v x then 28 else 27])

/-- What the store has it do. -/
def SignatureLib.canonical {σ : Type} (L : SignatureLib σ) (raw : Bytes) : Option Bytes :=
  (L.tryFrom raw).map fun x => L.asBytes (L.normalizedS x)

/-- **Who signed**: the address of the key behind a signature. -/
def signerOf {G : Type} [AddCommGroup G] [Module (ZMod order) G] (E : Ecdsa.Curve order G)
    (encode : G → Option Bytes) (keccak256 : Bytes → Bytes32) (digest : Bytes32) (sig : Bytes) :
    Option Address :=
  ((E.recover digest.toNat (wordAt sig 0) (wordAt sig 32) (isOdd sig)).bind encode).map
    fun pubkey => (keccak256 pubkey).setWidth 160

/-- **The library that recovers keys** recovers them on a curve, from a digest, a parity, and the
two numbers of a signature. It also verifies what it recovered, and there it may refuse a high
`s`. -/
structure RecoversKeys {G : Type} [AddCommGroup G] [Module (ZMod order) G]
    (E : Ecdsa.Curve order G) (encode : G → Option Bytes)
    (recover : Bytes32 → UInt8 → Bytes → Option Bytes) : Prop where
  low : ∀ {digest rs} (odd : Bool), rs.length = 64 → 0 < wordAt rs 0 ∧ wordAt rs 0 < order →
    0 < wordAt rs 32 ∧ wordAt rs 32 ≤ order / 2 → recover digest (if odd then 1 else 0) rs =
      (E.recover digest.toNat (wordAt rs 0) (wordAt rs 32) odd).bind encode
  high : ∀ {digest rs} (odd : Bool), rs.length = 64 → 0 < wordAt rs 0 ∧ wordAt rs 0 < order →
    order / 2 < wordAt rs 32 ∧ wordAt rs 32 < order →
      recover digest (if odd then 1 else 0) rs = none ∨
        recover digest (if odd then 1 else 0) rs =
          (E.recover digest.toNat (wordAt rs 0) (wordAt rs 32) odd).bind encode

/-! ### The two numbers -/

variable {sig : Bytes}

theorem length_take (h : sig.length = 65) : (sig.take 64).length = 64 := by
  rw [List.length_take, h]
  rfl

/-- The numbers are in the first 64 bytes. -/
theorem wordAt_take (sig : Bytes) :
    wordAt (sig.take 64) 0 = wordAt sig 0 ∧ wordAt (sig.take 64) 32 = wordAt sig 32 := by
  constructor <;>
    rw [wordAt, wordAt, sliceAt, sliceAt, List.drop_take, List.take_take] <;> rfl

theorem wordAt_zero (sig : Bytes) : wordAt sig 0 = BigEndian.ofBytes (sig.take 32) := by
  rw [wordAt, sliceAt, List.drop_zero]

theorem ofBytes_toBytes_lt {m : ℕ} (h : m < order) :
    BigEndian.ofBytes (BigEndian.toBytes 32 m) = m := by
  have horder : order < 256 ^ 32 := by decide
  rw [BigEndian.ofBytes_toBytes, Nat.mod_eq_of_lt (by omega)]

/-- The first bytes are the word that is read there. -/
theorem take_eq_wordBytes {w : U256} (h : sig.length = 65) (hw : w.toNat = wordAt sig 0) :
    wordBytes w = sig.take 32 := by
  obtain ⟨-, hr, -, -⟩ := eq_of_length h
  have hbytes := BigEndian.toBytes_ofBytes (sig.take 32)
  rw [hr] at hbytes
  rw [wordBytes, BigEndian.ofWord, hw, wordAt_zero, hbytes]

theorem slice_eq_wordBytes {w : U256} (h : sig.length = 65) (hw : w.toNat = wordAt sig 32) :
    wordBytes w = sliceAt sig 32 32 := by
  obtain ⟨-, -, hs, -⟩ := eq_of_length h
  have hbytes := BigEndian.toBytes_ofBytes (sliceAt sig 32 32)
  rw [hs] at hbytes
  rw [wordBytes, BigEndian.ofWord, hw, wordAt, hbytes]

/-! ### What is written -/

/-- **The store writes the low form.** -/
theorem canonical_eq {σ : Type} {L : SignatureLib σ} (hL : L.Documented) (h : Ranged sig) :
    L.canonical sig = some (lowForm sig) := by
  obtain ⟨x, hx, hr, hs, hv⟩ := hL.tryFrom h
  obtain ⟨-, -, -, htake⟩ := eq_of_length h.length
  have hrBytes := take_eq_wordBytes h.length hr
  rw [SignatureLib.canonical, hx, Option.map_some, Option.some.injEq, hL.asBytes, lowForm]
  rcases lt_or_ge (order / 2) (wordAt sig 32) with hhigh | hlow
  · obtain ⟨hr', hs', hv'⟩ := hL.normalizedS_high (hs ▸ hhigh) (hs ▸ h.s.2)
    have hminus : wordBytes (L.s (L.normalizedS x)) =
        BigEndian.toBytes 32 (order - wordAt sig 32) := by
      rw [wordBytes, BigEndian.ofWord, hs', hs]
    rw [if_pos hhigh, hr', hrBytes, hminus, hv', hv]
    rcases isOdd sig <;> rfl
  · have hsBytes := slice_eq_wordBytes h.length hs
    rw [if_neg (not_lt.mpr hlow), hL.normalizedS_low (hs ▸ hlow), hrBytes, hsBytes, hv, htake,
      List.append_assoc]

/-- The low form keeps the first number, and lowers the second one. -/
theorem words_lowForm (h : Ranged sig) : wordAt (lowForm sig) 0 = wordAt sig 0 ∧
    wordAt (lowForm sig) 32 = min (wordAt sig 32) (order - wordAt sig 32) := by
  obtain ⟨-, hr, hslice, htake⟩ := eq_of_length h.length
  have hs := h.s
  have hodd : order % 2 = 1 := by decide
  rcases lt_or_ge (order / 2) (wordAt sig 32) with hhigh | hlow
  · have hminus := BigEndian.length_toBytes 32 (order - wordAt sig 32)
    obtain ⟨-, htake', hslice', -⟩ := parts_append hr hminus (if isOdd sig then 27 else 28)
    rw [lowForm, if_pos hhigh]
    refine ⟨?_, ?_⟩
    · rw [wordAt_zero, htake', ← wordAt_zero]
    · rw [wordAt, hslice', ofBytes_toBytes_lt (by omega)]
      omega
  · obtain ⟨-, htake', hslice', -⟩ := parts_append hr hslice (if isOdd sig then 28 else 27)
    rw [lowForm, if_neg (not_lt.mpr hlow), htake, List.append_assoc]
    refine ⟨?_, ?_⟩
    · rw [wordAt_zero, htake', ← wordAt_zero]
    · rw [wordAt, hslice', ← wordAt]
      omega

/-- The parity of a signature put together. -/
theorem isOdd_append {r s : Bytes} (hr : r.length = 32) (hs : s.length = 32) (odd : Bool) :
    isOdd (r ++ (s ++ [if odd then 28 else 27])) = odd := by
  obtain ⟨-, -, -, hv⟩ := parts_append hr hs (if odd then 28 else 27)
  rw [isOdd, hv]
  cases odd <;> rfl

/-- The parity goes with the second number. -/
theorem isOdd_lowForm (h : Ranged sig) : isOdd (lowForm sig) =
    if order / 2 < wordAt sig 32 then !isOdd sig else isOdd sig := by
  obtain ⟨-, hr, hslice, htake⟩ := eq_of_length h.length
  rcases lt_or_ge (order / 2) (wordAt sig 32) with hhigh | hlow
  · have hflip : (if isOdd sig then (27 : UInt8) else 28) = if !isOdd sig then 28 else 27 := by
      cases isOdd sig <;> rfl
    rw [lowForm, if_pos hhigh, if_pos hhigh, hflip]
    exact isOdd_append hr (BigEndian.length_toBytes 32 _) _
  · rw [lowForm, if_neg (not_lt.mpr hlow), if_neg (not_lt.mpr hlow), htake, List.append_assoc]
    exact isOdd_append hr hslice _

theorem ranged_lowForm (h : Ranged sig) : Ranged (lowForm sig) := by
  have hc := canonical_lowForm h.length h.s.2
  obtain ⟨h0, h32⟩ := words_lowForm h
  have hs := h.s
  exact {
    length := hc.length
    v := hc.v.elim (fun hv => .inr (.inl hv)) fun hv => .inr (.inr (.inr hv))
    r := by rw [h0]; exact h.r
    s := by rw [h32]; omega }

/-! ### Who signed -/

/-- The signature with its parity written as `27` or `28`. -/
def withV (sig : Bytes) : Bytes := sig.take 64 ++ [if isOdd sig then 28 else 27]

theorem withV_of_v (h : sig.length = 65) (hv : sig.getD 64 0 = 27 ∨ sig.getD 64 0 = 28) :
    withV sig = sig := by
  obtain ⟨heq, -, -, htake⟩ := eq_of_length h
  have hlast : (if isOdd sig then (28 : UInt8) else 27) = sig.getD 64 0 := by
    unfold isOdd
    rcases hv with hv | hv <;> rw [hv] <;> decide
  rw [withV, hlast, htake, List.append_assoc, ← heq]

section Signers

variable {G : Type} [AddCommGroup G] [Module (ZMod order) G] {E : Ecdsa.Curve order G}
  {encode : G → Option Bytes} {recover : Bytes32 → UInt8 → Bytes → Option Bytes}
  {keccak256 : Bytes → Bytes32}

/-- **Whoever made a signature made its low form.** -/
theorem signerOf_lowForm (h : Ranged sig) (digest : Bytes32) :
    signerOf E encode keccak256 digest (lowForm sig) =
      signerOf E encode keccak256 digest sig := by
  obtain ⟨h0, h32⟩ := words_lowForm h
  have hlt := h.s
  rw [signerOf, signerOf, h0, h32, isOdd_lowForm h]
  -- The other `s` with the other parity is the same point: both signs cancel.
  rcases lt_or_ge (order / 2) (wordAt sig 32) with hhigh | hlow
  · rw [if_pos hhigh, min_eq_right (by omega), Ecdsa.Curve.recover_sub (le_of_lt hlt.2)]
  · have hodd : order % 2 = 1 := by decide
    rw [if_neg (not_lt.mpr hlow), min_eq_left (by omega)]

/-- What the relayer's library asks for. -/
theorem recoverEvmAddress_withV (h : sig.length = 65) (digest : Bytes32) :
    recoverEvmAddress keccak256 recover digest (withV sig) =
      (orRevert .unrecoverable (recover digest (if isOdd sig then 1 else 0) (sig.take 64))).map
        fun pubkey => (keccak256 pubkey).setWidth 160 := by
  have hlen := length_take h
  have hlast : (withV sig).getD 64 (0 : UInt8) = if isOdd sig then 28 else 27 := by
    rw [withV, List.getD_append_right _ _ _ _ (by omega), hlen]
    rfl
  have hv : ¬((if isOdd sig then (28 : UInt8) else 27) ≠ 27 ∧
      (if isOdd sig then (28 : UInt8) else 27) ≠ 28) := by
    cases isOdd sig <;> decide
  have hrecid : (if isOdd sig then (28 : UInt8) else 27) - 27 = if isOdd sig then 1 else 0 := by
    cases isOdd sig <;> decide
  have htake : (withV sig).take 64 = sig.take 64 := by
    rw [withV, List.take_left' hlen]
  rw [recoverEvmAddress, if_neg (by simp [withV, hlen])]
  dsimp only
  rw [hlast, if_neg hv, hrecid, htake]
  rcases recover digest (if isOdd sig then 1 else 0) (sig.take 64) with _ | pubkey <;> rfl

/-- The signer, as an answer of the library. -/
theorem orRevert_signerOf (digest : Bytes32) (sig : Bytes) :
    orRevert VerifyError.unrecoverable (signerOf E encode keccak256 digest sig) =
      (orRevert .unrecoverable ((E.recover digest.toNat (wordAt sig 0) (wordAt sig 32)
        (isOdd sig)).bind encode)).map fun pubkey => (keccak256 pubkey).setWidth 160 := by
  rw [signerOf]
  rcases (E.recover digest.toNat (wordAt sig 0) (wordAt sig 32) (isOdd sig)).bind encode
    with _ | pubkey <;> rfl

/-- **Of a low `s` the library says the signer.** -/
theorem recover_of_low (hE : RecoversKeys E encode recover) (h : Ranged sig)
    (hlow : wordAt sig 32 ≤ order / 2) (digest : Bytes32) :
    recoverEvmAddress keccak256 recover digest (withV sig) =
      orRevert .unrecoverable (signerOf E encode keccak256 digest sig) := by
  obtain ⟨h0, h32⟩ := wordAt_take sig
  have hlen := length_take h.length
  rw [recoverEvmAddress_withV h.length, orRevert_signerOf, hE.low _ hlen (h0.symm ▸ h.r)
    (by rw [h32]; exact ⟨h.s.1, hlow⟩), h0, h32]

/-- **Whoever the library says signed did.** -/
theorem signerOf_of_recover (hE : RecoversKeys E encode recover) (h : Ranged sig)
    {digest : Bytes32} {a : Address}
    (hrecover : recoverEvmAddress keccak256 recover digest (withV sig) = .ok a) :
    signerOf E encode keccak256 digest sig = some a := by
  rcases le_or_gt (wordAt sig 32) (order / 2) with hlow | hhigh
  · rw [recover_of_low hE h hlow] at hrecover
    exact orRevert_eq_ok.mp hrecover
  · obtain ⟨h0, h32⟩ := wordAt_take sig
    have hlen := length_take h.length
    rw [recoverEvmAddress_withV h.length] at hrecover
    -- The library may refuse; if it does not, it says the right one.
    rcases @RecoversKeys.high _ _ _ _ _ _ hE digest _ (isOdd sig) hlen (h0.symm ▸ h.r)
      (by rw [h32]; exact ⟨hhigh, h.s.2⟩) with hnone | hsome
    · rw [hnone] at hrecover
      cases hrecover
    · rw [hsome, h0, h32, ← orRevert_signerOf] at hrecover
      exact orRevert_eq_ok.mp hrecover

/-! ### Both at once -/

/-- **Writing a signature anew is right, and both do it alike.** The relayer writes a signature in
the encoding that the gates read, with the same `r`, the lower `s`, and the signer of the one that
it was given; written once more it stays as it is; and the store writes the same bytes. Of what is
written the relayer's library recovers that signer, and of what was given no other. The subtraction
is exact of every number up to the order, and the comparison of every number. -/
theorem signer_kept {σ : Type} {L : SignatureLib σ} (hL : L.Documented)
    (hE : RecoversKeys E encode recover) (h : Ranged sig) :
    (∃ c, canonicalSignature sig = some c ∧ Canonical c ∧ wordAt c 0 = wordAt sig 0 ∧
      wordAt c 32 = min (wordAt sig 32) (order - wordAt sig 32) ∧
      (∀ digest, signerOf E encode keccak256 digest c = signerOf E encode keccak256 digest sig) ∧
      (∀ digest, recoverEvmAddress keccak256 recover digest c =
        orRevert .unrecoverable (signerOf E encode keccak256 digest sig)) ∧
      (∀ digest a, recoverEvmAddress keccak256 recover digest (withV sig) = .ok a →
        recoverEvmAddress keccak256 recover digest c = .ok a) ∧
      (sig.getD 64 0 = 27 ∨ sig.getD 64 0 = 28 → withV sig = sig) ∧
      canonicalSignature c = some c ∧
      ∀ (P : Store.Parsers) (R : Store.Recovery) signer signature, R.canonical = L.canonical →
        Store.hexBytes P "signature" signature = .ok sig →
          Store.canonicalSignature P R ⟨signer, signature⟩ = .ok ⟨signer, hexText c⟩) ∧
    ∀ s : Bytes, s.length = 32 → (isHighS s = true ↔ order / 2 < BigEndian.ofBytes s) ∧
      (orderMinus s).length = 32 ∧
      (BigEndian.ofBytes s ≤ order →
        BigEndian.ofBytes (orderMinus s) = order - BigEndian.ofBytes s) := by
  constructor
  · have hc := canonical_lowForm h.length h.s.2
    have hranged := ranged_lowForm h
    obtain ⟨h0, h32⟩ := words_lowForm h
    have hrecover : ∀ digest, recoverEvmAddress keccak256 recover digest (lowForm sig) =
        orRevert .unrecoverable (signerOf E encode keccak256 digest sig) := by
      intro digest
      have hsame : recoverEvmAddress keccak256 recover digest (withV (lowForm sig)) =
          orRevert .unrecoverable (signerOf E encode keccak256 digest (lowForm sig)) :=
        recover_of_low hE hranged hc.low digest
      rwa [withV_of_v hc.length hc.v, signerOf_lowForm h] at hsame
    refine ⟨lowForm sig, canonicalSignature_eq h.toEncoded h.s.2, hc, h0, h32,
      signerOf_lowForm h, hrecover, ?_, withV_of_v h.length, ?_, ?_⟩
    · intro digest a hgiven
      rw [hrecover, signerOf_of_recover hE h hgiven]
      rfl
    · rw [canonicalSignature_eq hranged.toEncoded hranged.s.2, lowForm_of_canonical hc]
    · intro P R signer signature hR hraw
      simp only [Store.canonicalSignature, hraw, ok_bind, hR, canonical_eq hL h]
      rfl
  · intro s hs
    exact ⟨isHighS_iff hs, length_orderMinus hs, (ofBytes_orderMinus hs).1⟩

end Signers

/-! ### A signature to write anew -/

/-- The library of the store, on the two numbers and the parity. -/
def plainLib : SignatureLib (U256 × U256 × Bool) where
  tryFrom raw := if raw.length = 65 then
      some (BitVec.ofNat 256 (wordAt raw 0), BitVec.ofNat 256 (wordAt raw 32), isOdd raw)
    else none
  r x := x.1
  s x := x.2.1
  v x := x.2.2
  normalizedS x := if order / 2 < x.2.1.toNat then
      (x.1, BitVec.ofNat 256 (order - x.2.1.toNat), !x.2.2)
    else x
  asBytes x := wordBytes x.1 ++ (wordBytes x.2.1 ++ [if x.2.2 then 28 else 27])

theorem plainLib_documented : plainLib.Documented where
  tryFrom {raw} h := by
    have horder : order < 2 ^ 256 := by decide
    have hr := h.r
    have hs := h.s
    refine ⟨_, if_pos h.length, ?_, ?_, rfl⟩
    · exact (BitVec.toNat_ofNat ..).trans (Nat.mod_eq_of_lt (by omega))
    · exact (BitVec.toNat_ofNat ..).trans (Nat.mod_eq_of_lt (by omega))
  normalizedS_low h := if_neg (not_lt.mpr h)
  normalizedS_high {x} h hlt := by
    have horder : order < 2 ^ 256 := by decide
    have hsome : plainLib.normalizedS x =
        (x.1, BitVec.ofNat 256 (order - x.2.1.toNat), !x.2.2) := if_pos h
    rw [hsome]
    exact ⟨rfl, (BitVec.toNat_ofNat ..).trans (Nat.mod_eq_of_lt (by omega)), rfl⟩
  asBytes _ := rfl

/-- The abscissa of twice the base point. -/
def nonceAbscissa : ℕ := 0xc6047f9441ed7d6d3045406e95c07cd85c778e4b8cef3ca7abac09b95c709ee5

/-- The curve, by how often the base point is added up to a point; of the points that can be
lifted, the two that are used. -/
def nonceCurve : Ecdsa.Curve order (ZMod order) where
  base := 1
  lift r odd := if r = nonceAbscissa then some (if odd then -2 else 2) else none
  lift_not r odd := by
    split
    · cases odd
      · rfl
      · exact congrArg some (neg_neg (2 : ZMod order)).symm
    · rfl

/-- The key that is the base point. -/
def baseKey : Bytes :=
  BigEndian.toBytes 32 0x79be667ef9dcbbac55a06295ce870b07029bfcdb2dce28d959f2815b16f81798 ++
    BigEndian.toBytes 32 0x483ada7726a3c4655da4fbfc0e1108a8fd17b448a68554199c47d08ffb10d4b8

/-- The keys that are written. -/
def encodeBase (q : ZMod order) : Option Bytes := if q = 1 then some baseKey else none

/-- Recovery on this curve, of a low `s`. -/
def recoverNonce (digest : Bytes32) (recid : UInt8) (rs : Bytes) : Option Bytes :=
  if order / 2 < wordAt rs 32 then none
  else (nonceCurve.recover digest.toNat (wordAt rs 0) (wordAt rs 32) (recid == 1)).bind encodeBase

theorem recoversKeys_nonce : RecoversKeys nonceCurve encodeBase recoverNonce where
  low odd _ _ hs := by
    have hodd : ((if odd then 1 else 0 : UInt8) == 1) = odd := by
      cases odd <;> rfl
    rw [recoverNonce, if_neg (not_lt.mpr hs.2), hodd]
  high _ _ _ hs := .inl (if_pos hs.1)

/-- The second number that whoever has the key writes for the digest `2`: it is a high one. -/
def highS : ℕ := 0xe3023fca20f6beb69822a0374ae03e6b8b9335991e1bee71b5bf342316537014

/-- The signature. -/
def highSignature : Bytes := signatureBytes nonceAbscissa highS 0

theorem ranged_highSignature : Ranged highSignature where
  length := by decide +kernel
  v := .inl (by decide +kernel)
  r := by decide +kernel
  s := by decide +kernel

/-- Who has the key signed. -/
theorem recover_highSignature :
    nonceCurve.recover (2 : ℕ) nonceAbscissa highS false = some 1 := by
  have hcoprime : nonceAbscissa.Coprime order := by decide +kernel
  -- With nonce `2`, key `1` and digest `2`: `s * 2 = 2 + r * 1`.
  have hmod : highS * 2 % order = (2 + nonceAbscissa * 1) % order := by decide +kernel
  have hsigned : ((highS : ℕ) : ZMod order) * 2 = ((2 : ℕ) : ZMod order) + nonceAbscissa * 1 := by
    exact_mod_cast (ZMod.natCast_eq_natCast_iff' (highS * 2) (2 + nonceAbscissa * 1) order).mpr hmod
  have hlift : nonceCurve.lift nonceAbscissa false = some ((2 : ZMod order) • nonceCurve.base) := by
    rw [smul_eq_mul]
    exact congrArg some (mul_one (2 : ZMod order)).symm
  have hrecover := Ecdsa.Curve.recover_of_signed hcoprime hlift hsigned
  rw [hrecover, smul_eq_mul]
  exact congrArg some (mul_one (1 : ZMod order))

theorem signer_kept_high : ∃ c, canonicalSignature highSignature = some c ∧ Canonical c ∧
    wordAt c 32 = order - highS ∧
    recoverEvmAddress digestOf recoverNonce 2 c =
      .ok 0x7e5f4552091a69125d5dfcb7b8c2659029395bdf ∧
    recoverEvmAddress digestOf recoverNonce 2 (withV highSignature) = .error .unrecoverable := by
  obtain ⟨⟨c, hc, hcanonical, -, h32, -, hrecover, -⟩, -⟩ :=
    @signer_kept _ _ _ _ _ _ _ digestOf _ _ plainLib_documented recoversKeys_nonce
      ranged_highSignature
  have hwords : wordAt highSignature 0 = nonceAbscissa ∧ wordAt highSignature 32 = highS ∧
      wordAt (highSignature.take 64) 32 = highS := by decide +kernel
  have hodd : isOdd highSignature = false := by decide +kernel
  have hmin : min (wordAt highSignature 32) (order - wordAt highSignature 32) = order - highS := by
    decide +kernel
  have hhigh : order / 2 < highS := by decide +kernel
  have haddress : (digestOf baseKey).setWidth 160 =
      (0x7e5f4552091a69125d5dfcb7b8c2659029395bdf : Address) := by decide +kernel
  have htwo : (2 : Bytes32).toNat = 2 := rfl
  refine ⟨c, hc, hcanonical, h32.trans hmin, ?_, ?_⟩
  · rw [hrecover, signerOf, hwords.1, hwords.2.1, hodd, htwo, recover_highSignature,
      Option.bind_some, encodeBase, if_pos rfl, ← haddress]
    rfl
  · rw [recoverEvmAddress_withV ranged_highSignature.length, recoverNonce, hwords.2.2,
      if_pos hhigh]
    rfl

end BridgeSolana

end SelendraBridge
