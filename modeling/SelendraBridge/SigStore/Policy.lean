import Mathlib.Data.List.Nodup
import SelendraBridge.Store.Signatures

/-!
# Credentials, and whom they may sign for

What the signature store is told at its start: bearer tokens with scopes, labels for the tokens
that are one validator's own, and for each label the addresses its token may post for. All of it
is operator's text, cut at commas and white space, and refused as a whole when an entry is
malformed (`SelendraBridge.SigStore.StartupError`).

A policy that comes out of the parser is sound
(`SelendraBridge.SigStore.SignerPolicy.Sound`): what it binds are addresses in lowercase with
their `0x`, and whatever is bound to a label is in the validator set. That is what makes the
check of a request (`SelendraBridge.SigStore.SignerPolicy.permits`) one of text: a signer is
permitted under the text that its row will have.
-/

namespace SelendraBridge

namespace SigStore

open Revert Store

/-! ### Operator's text -/

/-- `char::is_whitespace`. -/
def isWhitespace (c : Char) : Bool :=
  let n := c.toNat
  (9 ≤ n && n ≤ 13) || n == 0x20 || n == 0x85 || n == 0xA0 || n == 0x1680 ||
    (0x2000 ≤ n && n ≤ 0x200A) || n == 0x2028 || n == 0x2029 || n == 0x202F || n == 0x205F ||
    n == 0x3000

/-- `str::trim`. -/
def trim (s : Text) : Text :=
  ((s.dropWhile isWhitespace).reverse.dropWhile isWhitespace).reverse

/-- `str::split`, at the characters of a kind. -/
def split (p : Char → Bool) : Text → List Text
  | [] => [[]]
  | c :: s =>
    if p c then [] :: split p s
    else
      match split p s with
      | [] => [[c]]
      | piece :: pieces => (c :: piece) :: pieces

/-- `str::split_once`. -/
def splitOnce (c : Char) : Text → Option (Text × Text)
  | [] => none
  | d :: s => if d = c then some ([], s) else (splitOnce c s).map fun r => (d :: r.1, r.2)

/-- The entries of a list: separated by commas or white space, the empty ones skipped. -/
def entriesOf (raw : Text) : List Text :=
  ((split (fun c => c == ',' || isWhitespace c) raw).map trim).filter fun e => !e.isEmpty

/-- Why the store does not start. -/
inductive StartupError
  | emptyLabel (entry : ℕ)
  | emptyToken (label : Text)
  | repeatedToken (label : Text)
  | repeatedLabel (label : Text)
  | notABinding (entry : Text)
  | notAnAddress (label addr : Text)
  | unknownLabel (label : Text)
  | unbound (labels : List Text)
  | tooManyMembers (n : ℕ)
  deriving DecidableEq, Repr

/-! ### Tokens -/

/-- A capability of a token. -/
inductive Scope
  | read
  | sign
  | relay
  | indexer
  | admin
  deriving DecidableEq, Repr

/-- `Scope::all`. -/
def Scope.all : List Scope := [.read, .sign, .relay, .indexer, .admin]

/-- **`Auth`**: the scopes of each token, and whose token it is. -/
structure Auth where
  tokens : Text → Option (List Scope)
  identities : Text → Option Text
  enforced : Bool

/-- No token. -/
def Auth.disabled : Auth := ⟨fun _ => none, fun _ => none, false⟩

/-- A token with its scopes, on top of the ones it has; an empty one is dropped. -/
def Auth.configure (auth : Auth) (entry : Text × List Scope) : Auth :=
  if entry.1 = [] then auth
  else
    { auth with
      tokens := Function.update auth.tokens entry.1
        (some ((auth.tokens entry.1).getD [] ++ entry.2))
      enforced := true }

/-- `Auth::new`. -/
def Auth.new (entries : List (Text × List Scope)) : Auth :=
  entries.foldl Auth.configure Auth.disabled

/-- The identity of a token that is configured. -/
def Auth.identify (auth : Auth) (id : Text × Text) : Auth :=
  if id.1 ≠ [] ∧ (auth.tokens id.1).isSome = true then
    { auth with identities := Function.update auth.identities id.1 (some id.2) }
  else auth

/-- `with_identities`. -/
def Auth.withIdentities (auth : Auth) (ids : List (Text × Text)) : Auth :=
  ids.foldl Auth.identify auth

/-- `identity`. -/
def Auth.identity (auth : Auth) (presented : Text) : Option Text := auth.identities presented

/-- `grants`. -/
def Auth.grants (auth : Auth) (presented : Text) (scope : Scope) : Bool :=
  if auth.enforced = false then true
  else (auth.tokens presented).any fun scopes => scopes.contains scope

/-- One entry of the token list, after the ones before it. -/
def addValidatorToken (out : List (Text × Text)) (entry : Text × ℕ) :
    Except StartupError (List (Text × Text)) := do
  let labelled := match splitOnce ':' entry.1 with
    | some (label, token) => (trim label, trim token)
    | none => (['v', 'a', 'l', 'i', 'd', 'a', 't', 'o', 'r', '#'] ++ decimalText entry.2, entry.1)
  revertIf (labelled.1 = []) (.emptyLabel entry.2)
  revertIf (labelled.2 = []) (.emptyToken labelled.1)
  revertIf ((out.any fun e => e.2 == labelled.2) = true) (.repeatedToken labelled.1)
  revertIf ((out.any fun e => e.1 == labelled.1) = true) (.repeatedLabel labelled.1)
  return out ++ [labelled]

/-- **`parse_validator_tokens`**: labels and tokens. -/
def parseValidatorTokens (raw : Text) : Except StartupError (List (Text × Text)) :=
  (entriesOf raw).zipIdx.foldlM addValidatorToken []

/-! ### Signers -/

/-- **`SignerPolicy`**: the addresses bound to each label, and all of them. -/
structure SignerPolicy where
  byLabel : List (Text × Text)
  members : List Text
  deriving DecidableEq, Repr

/-- A `0x`-prefixed 20-byte address. -/
def isBoundAddress (addr : Text) : Bool :=
  addr.length == 42 && hasHexPrefix addr && (addr.drop 2).all isHexDigit

/-- One binding, after the ones before it. -/
def SignerPolicy.bind (labels : List Text) (policy : SignerPolicy) (entry : Text) :
    Except StartupError SignerPolicy := do
  let parts ← orRevert (.notABinding entry) (splitOnce ':' entry)
  let label := trim parts.1
  let addr := lower (trim parts.2)
  revertIf (isBoundAddress addr = false) (.notAnAddress label addr)
  revertIf (labels.contains label = false) (.unknownLabel label)
  return {
    byLabel := policy.byLabel ++ [(label, addr)]
    members := if policy.members.contains addr then policy.members else policy.members ++ [addr] }

/-- `is_enforced`. -/
def SignerPolicy.isEnforced (policy : SignerPolicy) : Bool := !policy.members.isEmpty

/-- What a policy with members has to be besides. -/
def SignerPolicy.complete (labels : List Text) (policy : SignerPolicy) :
    Except StartupError SignerPolicy := do
  let unbound := labels.filter fun l => !policy.byLabel.any fun b => b.1 == l
  revertIf (policy.isEnforced = true ∧ unbound ≠ []) (.unbound unbound)
  revertIf (policy.isEnforced = true ∧ policy.members.length > MAX_SIGNATURES_PER_SUBMISSION)
    (.tooManyMembers policy.members.length)
  return policy

/-- **`SignerPolicy::parse`.** -/
def SignerPolicy.parse (raw : Text) (labels : List Text) : Except StartupError SignerPolicy := do
  let policy ← (entriesOf raw).foldlM (SignerPolicy.bind labels) ⟨[], []⟩
  policy.complete labels

/-- **`permits`**: whether a credential may post a signature of a signer, who is compared in
lowercase. -/
def SignerPolicy.permits (policy : SignerPolicy) (identity : Option Text) (signer : Text) : Bool :=
  if policy.isEnforced = false then true
  else
    match identity with
    | some label => policy.byLabel.contains (label, lower signer)
    | none => policy.members.contains (lower signer)

/-! ### What the store is started with -/

/-- The settings that make up the credentials. -/
structure Args where
  validatorTokens : Text
  validatorSigners : Text
  authToken : Option Text
  validatorToken : Option Text
  keeperToken : Option Text
  readerToken : Option Text
  adminToken : Option Text
  indexerToken : Option Text

/-- `Args::auth`. -/
def Args.auth (args : Args) : Except StartupError Auth := do
  let perValidator ← parseValidatorTokens args.validatorTokens
  let entries : List (Text × List Scope) :=
    perValidator.map (fun e => (e.2, [.read, .sign])) ++
      args.authToken.toList.map (fun t => (t, Scope.all)) ++
      args.validatorToken.toList.map (fun t => (t, [.read, .sign])) ++
      args.keeperToken.toList.map (fun t => (t, [.read, .relay])) ++
      args.readerToken.toList.map (fun t => (t, [.read])) ++
      args.adminToken.toList.map (fun t => (t, [.read, .admin])) ++
      args.indexerToken.toList.map (fun t => (t, [.read, .indexer]))
  return (Auth.new entries).withIdentities (perValidator.map fun e => (e.2, e.1))

/-- `Args::signer_policy`. -/
def Args.signerPolicy (args : Args) : Except StartupError SignerPolicy := do
  let perValidator ← parseValidatorTokens args.validatorTokens
  SignerPolicy.parse args.validatorSigners (perValidator.map Prod.fst)

/-! ### What comes out of the parsers -/

variable {labels : List Text} {policy : SignerPolicy} {raw : Text} {auth : Auth}
  {pairs : List (Text × Text)}

/-- **A policy the store can go by**: its bindings are of labels there are and of addresses in
lowercase, and the set is made of what is bound. -/
structure SignerPolicy.Sound (labels : List Text) (policy : SignerPolicy) : Prop where
  label : ∀ b ∈ policy.byLabel, b.1 ∈ labels
  address : ∀ b ∈ policy.byLabel, isBoundAddress b.2 = true ∧ lower b.2 = b.2
  mem_iff : ∀ a, a ∈ policy.members ↔ ∃ l, (l, a) ∈ policy.byLabel
  nodup : policy.members.Nodup

/-- The empty policy is sound. -/
theorem SignerPolicy.sound_empty : SignerPolicy.Sound labels ⟨[], []⟩ :=
  ⟨fun _ h => absurd h List.not_mem_nil, fun _ h => absurd h List.not_mem_nil, by simp,
    List.nodup_nil⟩

/-- **One more binding keeps it sound.** -/
theorem SignerPolicy.Sound.bind {policy' : SignerPolicy} {entry : Text}
    (h : SignerPolicy.Sound labels policy) (hbind : policy.bind labels entry = .ok policy') :
    SignerPolicy.Sound labels policy' := by
  simp only [SignerPolicy.bind, bind_eq_ok, exists_unit, orRevert_eq_ok, revertIf_eq_ok, pure_eq_ok,
    Bool.not_eq_false] at hbind
  obtain ⟨parts, -, haddr, hlabel, rfl⟩ := hbind
  set addr := lower (trim parts.2)
  have hnew : ∀ b ∈ policy.byLabel ++ [(trim parts.1, addr)],
      b ∈ policy.byLabel ∨ b = (trim parts.1, addr) := by
    intro b hb
    exact (List.mem_append.mp hb).imp_right List.mem_singleton.mp
  constructor
  · intro b hb
    rcases hnew b hb with hb | rfl
    · exact h.label b hb
    · exact List.contains_iff_mem.mp hlabel
  · intro b hb
    rcases hnew b hb with hb | rfl
    · exact h.address b hb
    · exact ⟨haddr, lower_lower _⟩
  · intro a
    have hmem : a ∈ (if policy.members.contains addr then policy.members
        else policy.members ++ [addr]) ↔ a ∈ policy.members ∨ a = addr := by
      split
      · next hin =>
        refine (or_iff_left_of_imp ?_).symm
        rintro rfl
        exact List.contains_iff_mem.mp hin
      · rw [List.mem_append, List.mem_singleton]
    rw [hmem, h.mem_iff]
    constructor
    · rintro (⟨l, hl⟩ | rfl)
      · exact ⟨l, List.mem_append_left _ hl⟩
      · exact ⟨trim parts.1, List.mem_append_right _ List.mem_cons_self⟩
    · rintro ⟨l, hl⟩
      rcases hnew _ hl with hl | heq
      · exact .inl ⟨l, hl⟩
      · exact .inr (Prod.mk.inj heq).2
  · dsimp only
    split
    · exact h.nodup
    · next hout =>
      refine List.nodup_append.mpr ⟨h.nodup, List.nodup_singleton _, ?_⟩
      rintro a ha b hb rfl
      rw [List.mem_singleton.mp hb] at ha
      exact hout (List.contains_iff_mem.mpr ha)

/-- **What the parser accepts is sound.** -/
theorem SignerPolicy.sound_of_parse (h : SignerPolicy.parse raw labels = .ok policy) :
    SignerPolicy.Sound labels policy := by
  simp only [SignerPolicy.parse, SignerPolicy.complete, bind_eq_ok, exists_unit, revertIf_eq_ok,
    pure_eq_ok] at h
  obtain ⟨policy, hfold, -, -, rfl⟩ := h
  exact foldlM_invariant (P := fun _ => SignerPolicy.Sound labels) SignerPolicy.sound_empty
    (fun _ _ _ _ hsound hstep => hsound.bind hstep) hfold

/-- **Every label of an enforced policy is bound, and the set fits a submission.** -/
theorem SignerPolicy.complete_of_parse (h : SignerPolicy.parse raw labels = .ok policy)
    (henforced : policy.isEnforced = true) :
    (∀ l ∈ labels, ∃ a, (l, a) ∈ policy.byLabel) ∧
      policy.members.length ≤ MAX_SIGNATURES_PER_SUBMISSION := by
  simp only [SignerPolicy.parse, SignerPolicy.complete, bind_eq_ok, exists_unit, revertIf_eq_ok,
    pure_eq_ok] at h
  obtain ⟨policy, -, hunbound, hmany, rfl⟩ := h
  constructor
  · intro l hl
    by_contra hnone
    refine hunbound ⟨henforced, fun hnil => ?_⟩
    have hmem : l ∈ labels.filter fun l => !policy.byLabel.any fun b => b.1 == l := by
      refine List.mem_filter.mpr ⟨hl, ?_⟩
      rw [Bool.not_eq_true', Bool.eq_false_iff]
      intro hany
      obtain ⟨b, hb, heq⟩ := List.any_eq_true.mp hany
      exact hnone ⟨b.2, by rw [← beq_iff_eq.mp heq]; exact hb⟩
    rw [hnil] at hmem
    cases hmem
  · by_contra hlt
    exact hmany ⟨henforced, not_le.mp hlt⟩

/-- **Whoever is permitted is in the set**, under the text in lowercase. -/
theorem SignerPolicy.Sound.mem_of_permits (h : SignerPolicy.Sound labels policy)
    (henforced : policy.isEnforced = true) {identity : Option Text} {signer : Text}
    (hpermits : policy.permits identity signer = true) : lower signer ∈ policy.members := by
  unfold SignerPolicy.permits at hpermits
  rw [if_neg (by simp [henforced])] at hpermits
  cases identity with
  | none => exact List.contains_iff_mem.mp hpermits
  | some label => exact (h.mem_iff _).mpr ⟨label, List.contains_iff_mem.mp hpermits⟩

/-! ### Tokens and identities -/

/-- Each token of the list is in it once, and none is empty. -/
theorem nodup_parseValidatorTokens (h : parseValidatorTokens raw = .ok pairs) :
    (pairs.map Prod.snd).Nodup ∧ ∀ e ∈ pairs, e.2 ≠ [] := by
  refine foldlM_invariant
    (P := fun _ pairs => (pairs.map Prod.snd).Nodup ∧ ∀ e ∈ pairs, e.2 ≠ []) (by simp) ?_ h
  rintro - entry out out' ⟨hnodup, hne⟩ hstep
  simp only [addValidatorToken, bind_eq_ok, exists_unit, revertIf_eq_ok, pure_eq_ok] at hstep
  obtain ⟨-, htoken, hrepeated, -, rfl⟩ := hstep
  constructor
  · rw [List.map_append, List.map_singleton]
    refine List.nodup_append.mpr ⟨hnodup, List.nodup_singleton _, ?_⟩
    rintro t ht u hu rfl
    rw [List.mem_singleton.mp hu] at ht
    obtain ⟨e, he, heq⟩ := List.mem_map.mp ht
    exact hrepeated (List.any_eq_true.mpr ⟨e, he, beq_iff_eq.mpr heq⟩)
  · intro e he
    rcases List.mem_append.mp he with he | he
    · exact hne e he
    · rw [List.mem_singleton.mp he]
      exact htoken

/-- A token that is configured stays so, with the scopes it has. -/
theorem Auth.tokens_configure {entry : Text × List Scope} {token : Text} {scopes : List Scope}
    (h : auth.tokens token = some scopes) : ∃ scopes',
      (auth.configure entry).tokens token = some scopes' ∧ ∀ s ∈ scopes, s ∈ scopes' := by
  rw [Auth.configure]
  split
  · exact ⟨scopes, h, fun _ hs => hs⟩
  · by_cases htoken : token = entry.1
    · subst htoken
      refine ⟨_, Function.update_self .., fun s hs => ?_⟩
      rw [h]
      exact List.mem_append_left _ hs
    · exact ⟨scopes, (Function.update_of_ne htoken ..).trans h, fun _ hs => hs⟩

/-- **A token that is listed is configured**, with its scopes. -/
theorem Auth.tokens_new (entries : List (Text × List Scope)) {entry : Text × List Scope}
    (hmem : entry ∈ entries) (hne : entry.1 ≠ []) :
    ∃ scopes, (Auth.new entries).tokens entry.1 = some scopes ∧ ∀ s ∈ entry.2, s ∈ scopes := by
  induction entries using List.reverseRecOn with
  | nil => cases hmem
  | append_singleton entries last ih =>
    rw [Auth.new, List.foldl_concat]
    rcases List.mem_append.mp hmem with hmem | hmem
    · obtain ⟨scopes, hscopes, hsub⟩ := ih hmem
      obtain ⟨scopes', hscopes', hsub'⟩ := @Auth.tokens_configure _ last _ _ hscopes
      exact ⟨scopes', hscopes', fun s hs => hsub' s (hsub s hs)⟩
    · obtain rfl := List.mem_singleton.mp hmem
      rw [Auth.configure, if_neg hne]
      exact ⟨_, Function.update_self .., fun s hs => List.mem_append_right _ hs⟩

/-- Identities are not tokens. -/
theorem Auth.tokens_withIdentities (ids : List (Text × Text)) :
    (auth.withIdentities ids).tokens = auth.tokens := by
  induction ids using List.reverseRecOn with
  | nil => rfl
  | append_singleton ids id ih =>
    rw [Auth.withIdentities, List.foldl_concat, ← Auth.withIdentities, Auth.identify]
    split
    · exact ih
    · exact ih

/-- **A configured token is identified as its own**, if none is listed twice. -/
theorem Auth.identity_withIdentities {ids : List (Text × Text)} (hnodup : (ids.map Prod.fst).Nodup)
    {id : Text × Text} (hmem : id ∈ ids) (hne : id.1 ≠ [])
    (hconfigured : (auth.tokens id.1).isSome = true) :
    (auth.withIdentities ids).identity id.1 = some id.2 := by
  induction ids using List.reverseRecOn with
  | nil => cases hmem
  | append_singleton ids last ih =>
    rw [List.map_append, List.map_singleton, List.nodup_append] at hnodup
    obtain ⟨hnodup, -, hlast⟩ := hnodup
    rw [Auth.withIdentities, List.foldl_concat, ← Auth.withIdentities, Auth.identify]
    rcases List.mem_append.mp hmem with hmem | hmem
    · have hother : id.1 ≠ last.1 := hlast _ (List.mem_map_of_mem hmem) _ List.mem_cons_self
      split
      · exact (Function.update_of_ne hother ..).trans (ih hnodup hmem)
      · exact ih hnodup hmem
    · obtain rfl := List.mem_singleton.mp hmem
      rw [if_pos ⟨hne, by rw [Auth.tokens_withIdentities, hconfigured]⟩]
      exact Function.update_self ..

/-- **A validator's own token** signs, and is known by its label. -/
theorem Args.auth_of_mem {args : Args} (hauth : args.auth = .ok auth)
    (hparse : parseValidatorTokens args.validatorTokens = .ok pairs) {e : Text × Text}
    (he : e ∈ pairs) : auth.identity e.2 = some e.1 ∧ auth.grants e.2 .sign = true := by
  obtain ⟨hnodup, hne⟩ := nodup_parseValidatorTokens hparse
  rw [Args.auth, hparse, ok_bind, pure_eq_ok] at hauth
  subst hauth
  set entries : List (Text × List Scope) := _ ++ args.indexerToken.toList.map _
  have hentry : (e.2, [Scope.read, Scope.sign]) ∈ entries := by
    simp only [entries, List.mem_append]
    exact .inl (.inl (.inl (.inl (.inl (.inl (List.mem_map.mpr ⟨e, he, rfl⟩))))))
  obtain ⟨scopes, hscopes, hsub⟩ := Auth.tokens_new entries hentry (hne e he)
  constructor
  · have hmem : (e.2, e.1) ∈ pairs.map fun e => (e.2, e.1) := List.mem_map.mpr ⟨e, he, rfl⟩
    refine Auth.identity_withIdentities ?_ hmem (hne e he) (by rw [hscopes]; rfl)
    rw [List.map_map]
    exact hnodup
  · rw [Auth.grants, Auth.tokens_withIdentities, hscopes, Option.any_some]
    split
    · rfl
    · exact List.contains_iff_mem.mpr (hsub _ (by simp))

end SigStore

end SelendraBridge
