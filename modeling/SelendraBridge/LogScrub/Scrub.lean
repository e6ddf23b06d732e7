import SelendraBridge.Lib.Words
import SelendraBridge.SigStore.Policy

/-!
# A line of the log without its credentials

What is taken out of one line of text before it is logged (`SelendraBridge.LogScrub.scrub`): first,
in each URL, whatever looks like a credential there (`SelendraBridge.LogScrub.scrubUrls`); then,
anywhere, the secrets that were registered, in the order of their registration. Each leaves
`<redacted>` where it stood.

A secret without `<` and `>`, that does not stand in the marker, stands nowhere in the outcome
(`SelendraBridge.LogScrub.not_infix_scrub`), whatever the line and the other secrets are: what is
put in for one secret may make a part of another unreadable, but it never makes a new one.
-/

namespace SelendraBridge

namespace LogScrub

open SigStore (isWhitespace split splitOnce)
open Words (replace redact Marks)

/-! ### UTF-8 -/

/-- The bytes of a text. -/
def utf8 (s : Text) : Bytes := s.flatMap String.utf8EncodeChar

/-- `std::str::from_utf8`. -/
def fromUtf8 (bytes : Bytes) : Option Text := (String.fromUTF8? bytes.toByteArray).map String.toList

/-! ### The secrets -/

/-- `MIN_SECRET_LEN`. -/
def minSecretLen : ℕ := 8

/-- `MIN_OPAQUE_LEN`. -/
def minOpaqueLen : ℕ := 16

/-- `REDACTED`. -/
def redacted : Text := ['<', 'r', 'e', 'd', 'a', 'c', 't', 'e', 'd', '>']

/-- `register_secret`. -/
def registerSecret (list : List Text) (value : Text) : List Text :=
  if (utf8 value).length < minSecretLen then list
  else if list.contains value = true then list
  else list ++ [value]

/-- The secrets after so many were registered. -/
def registered (values : List Text) : List Text := values.foldl registerSecret []

/-! ### The URLs -/

/-- `str::find`, of a text. -/
def find (needle : Text) : Text → Option ℕ
  | [] => if needle = [] then some 0 else none
  | c :: s => if needle.isPrefixOf (c :: s) = true then some 0 else (find needle s).map (· + 1)

/-- `is_opaque`. -/
def isOpaque (component : Text) : Bool :=
  let digits := component.countP Char.isDigit
  !(decide ((utf8 component).length < minOpaqueLen) || ['0', 'x'].isPrefixOf component ||
      ['0', 'X'].isPrefixOf component) &&
    component.all (fun c => c.isAlphanum || c == '_' || c == '-') &&
    (component.any Char.isAlpha && decide (0 < digits) &&
      (component.any Char.isUpper || decide (4 ≤ digits)))

/-- The names of a credential in a query. -/
def secretKeys : List Text :=
  [['t', 'o', 'k', 'e', 'n'], ['k', 'e', 'y'], ['a', 'p', 'i', 'k', 'e', 'y'],
    ['a', 'p', 'i', '_', 'k', 'e', 'y'], ['a', 'u', 't', 'h'], ['s', 'e', 'c', 'r', 'e', 't'],
    ['p', 'a', 's', 's', 'w', 'o', 'r', 'd'], ['p', 'a', 's', 's', 'w', 'd'], ['p', 'a', 's', 's'],
    ['a', 'c', 'c', 'e', 's', 's', '_', 't', 'o', 'k', 'e', 'n']]

/-- `is_secret_key`. -/
def isSecretKey (key : Text) : Bool :=
  secretKeys.contains ((key.dropWhile fun c => c == '?').map Char.toLower)

/-- The two schemes. -/
def http : Text := ['h', 't', 't', 'p', ':', '/', '/']

@[inherit_doc http] def https : Text := ['h', 't', 't', 'p', 's', ':', '/', '/']

/-- A URL begins here: `find_scheme` finds the first such place. -/
def startsUrl (s : Text) : Bool := http.isPrefixOf s || https.isPrefixOf s

/-- A URL does not go on over this: white space, or `)`, `"`, `'`, `>`, `,` and the backtick. -/
def endsUrl (c : Char) : Bool :=
  isWhitespace c || [41, 34, 39, 62, 44, 96].contains c.toNat

/-- `split_path`: path, query and fragment. -/
def splitPath (s : Text) : Text × Option Text × Option Text :=
  let (beforeFragment, fragment) := match splitOnce '#' s with
    | some (a, b) => (a, some b)
    | none => (s, none)
  match splitOnce '?' beforeFragment with
  | some (p, q) => (p, some q, fragment)
  | none => (beforeFragment, none, fragment)

/-- What comes after the last `@` of an authority, if there is one. -/
def afterUserinfo (authority : Text) : Option Text :=
  if authority.contains '@' = true then
    some (authority.reverse.takeWhile fun c => c != '@').reverse
  else none

/-- A pair of a query, if it is one that is hidden: its key. -/
def hiddenKey (pair : Text) : Option Text :=
  match splitOnce '=' pair with
  | some (k, v) => if isOpaque v || isSecretKey k then some k else none
  | none => none

/-- `scrub_one_url`. -/
def scrubOneUrl (url : Text) : Option Text :=
  (find [':', '/', '/'] url).bind fun colon =>
    let scheme := url.take (colon + 3)
    let after := url.drop (colon + 3)
    let inAuthority := fun c => !(c == '/' || c == '?' || c == '#')
    let authority := after.takeWhile inAuthority
    let (path, query, fragment) := splitPath (after.dropWhile inAuthority)
    let segments := split (fun c => c == '/') path
    let pairs := (query.map (split fun c => c == '&')).getD []
    let changed := (afterUserinfo authority).isSome || segments.any isOpaque ||
      pairs.any fun pair => (hiddenKey pair).isSome
    if changed = false then none
    else
      let outAuthority := match afterUserinfo authority with
        | some host => redacted ++ '@' :: host
        | none => authority
      let outPath := List.intercalate ['/']
        (segments.map fun name => if isOpaque name = true then redacted else name)
      let outQuery := query.map fun _ => '?' :: List.intercalate ['&']
        (pairs.map fun pair => match hiddenKey pair with
          | some k => k ++ '=' :: redacted
          | none => pair)
      let outFragment := fragment.map fun f => '#' :: f
      some (scheme ++ outAuthority ++ outPath ++ outQuery.getD [] ++ outFragment.getD [])

/-- The rest of `scrub_urls`, with so many characters still to pass over of the last URL. -/
def scrubUrlsFrom : ℕ → Text → Text
  | _, [] => []
  | skip + 1, _ :: s => scrubUrlsFrom skip s
  | 0, c :: s =>
    if startsUrl (c :: s) = true then
      let url := (c :: s).takeWhile fun d => !endsUrl d
      (scrubOneUrl url).getD url ++ scrubUrlsFrom (url.length - 1) s
    else c :: scrubUrlsFrom 0 s

/-- `scrub_urls`. -/
def scrubUrls (line : Text) : Text := scrubUrlsFrom 0 line

/-! ### The line -/

/-- `scrub`. -/
def scrub (secrets : List Text) (line : Text) : Text :=
  secrets.foldl
    (fun current secret =>
      if (find secret current).isSome = true then replace secret redacted current else current)
    (scrubUrls line)

/-! ### UTF-8 is read back -/

theorem utf8_append (s t : Text) : utf8 (s ++ t) = utf8 s ++ utf8 t := List.flatMap_append ..

/-- **Each character begins with a byte that begins no other part of one.** -/
theorem selfSync_utf8 : Words.SelfSync String.utf8EncodeChar UInt8.IsUTF8FirstByte where
  shape c := by
    have hsome : String.utf8EncodeChar c ≠ [] := by
      intro hnil
      have hlength := String.length_utf8EncodeChar c
      rw [hnil] at hlength
      exact absurd hlength.symm c.utf8Size_pos.ne'
    obtain ⟨b, rest, henc⟩ := List.exists_cons_of_ne_nil hsome
    have hat (i : ℕ) (hi : i < (b :: rest).length) : (b :: rest)[i].IsUTF8FirstByte ↔ i = 0 := by
      have hlength : i < (String.utf8EncodeChar c).length := by
        rw [henc]
        exact hi
      have hcore := @UInt8.isUTF8FirstByte_getElem_utf8EncodeChar c i hlength
      simpa only [henc] using hcore
    refine ⟨b, rest, henc, (hat 0 (by simp)).mpr rfl, ?_⟩
    intro r hr hfirst
    obtain ⟨i, hi, rfl⟩ := List.mem_iff_getElem.mp hr
    have := (hat (i + 1) (by simpa using hi)).mp hfirst
    omega
  prefix_free := by
    rintro a b ⟨rest, hrest⟩
    have ha := ByteArray.utf8DecodeChar?_utf8EncodeChar_append (b := rest.toByteArray) (c := a)
    have hb := ByteArray.utf8DecodeChar?_utf8EncodeChar_append (b := ([] : Bytes).toByteArray)
      (c := b)
    rw [← List.toByteArray_append, hrest] at ha
    rw [← List.toByteArray_append, List.append_nil] at hb
    exact Option.some.inj (ha.symm.trans hb)

theorem utf8_injective {s t : Text} (h : utf8 s = utf8 t) : s = t := selfSync_utf8.code_injective h

/-- **What is read from bytes is the text that they are of.** -/
theorem fromUtf8_eq_some {bytes : Bytes} {s : Text} : fromUtf8 bytes = some s ↔ utf8 s = bytes := by
  unfold fromUtf8 String.fromUTF8?
  split_ifs with hvalid
  · rw [Option.map_some, Option.some.injEq]
    -- the string is the one of these bytes
    have hbytes : utf8 (String.fromUTF8 bytes.toByteArray hvalid).toList = bytes := by
      rw [← List.toByteArray_inj]
      change (String.fromUTF8 bytes.toByteArray hvalid).toList.utf8Encode = bytes.toByteArray
      rw [← String.toByteArray_ofList, String.ofList_toList]
      rfl
    constructor
    · rintro rfl
      exact hbytes
    · rintro rfl
      exact utf8_injective hbytes
  · rw [Option.map_none]
    constructor
    · intro h
      cases h
    · rintro rfl
      exact absurd ByteArray.isValidUTF8_utf8Encode hvalid

/-- **The bytes of a text stand among others only where the text does.** -/
theorem infix_of_utf8 {t s : Text} (ht : t ≠ []) (h : utf8 t <:+: utf8 s) : t <:+: s :=
  selfSync_utf8.infix_of_code ht h

/-! ### What is replaced is gone -/

/-- A secret that the marker can stand for: without a newline, `<` or `>`, and no part of it. -/
structure Plain (secret : Text) : Prop where
  newline : '\n' ∉ secret
  lo : '<' ∉ secret
  hi : '>' ∉ secret
  not_infix : ¬ secret <:+: redacted

theorem Plain.marks {secret : Text} (h : Plain secret) : Marks redacted secret '<' '>' where
  shape := ⟨['r', 'e', 'd', 'a', 'c', 't', 'e', 'd'], rfl⟩
  lo_not_mem := h.lo
  hi_not_mem := h.hi
  not_infix := h.not_infix

theorem Plain.ne_nil {secret : Text} (h : Plain secret) : secret ≠ [] := h.marks.ne_nil

theorem replaceFrom_of_find {needle marker : Text} :
    ∀ {s : Text}, find needle s = none → Words.replaceFrom needle marker 0 s = s := by
  intro s h
  induction s with
  | nil => rfl
  | cons c s ih =>
    rw [find] at h
    split_ifs at h with hmatch
    rw [Words.replaceFrom, if_neg hmatch, ih (Option.map_eq_none_iff.mp h)]

/-- The look whether a secret is there changes nothing. -/
theorem scrub_eq (secrets : List Text) (line : Text) :
    scrub secrets line = redact secrets redacted (scrubUrls line) := by
  have hstep (current secret : Text) :
      (if (find secret current).isSome = true then replace secret redacted current else current) =
        replace secret redacted current := by
    rcases hfind : find secret current with _ | i
    · exact (replaceFrom_of_find hfind).symm
    · rfl
  simp only [scrub, redact, hstep]

/-- **No secret stands in what is logged.** -/
theorem not_infix_scrub {secrets : List Text} {secret : Text} (hmem : secret ∈ secrets)
    (hplain : Plain secret) (line : Text) : ¬ secret <:+: scrub secrets line := by
  rw [scrub_eq]
  exact Words.not_infix_redact hplain.marks (.inl hmem)

/-! ### The end of a line stays -/

theorem takeWhile_concat {p : Char → Bool} {x : Char} (hx : ¬ p x = true) (s : Text) :
    (s ++ [x]).takeWhile p = s.takeWhile p := by
  induction s with
  | nil => exact List.takeWhile_cons_of_neg hx
  | cons c s ih =>
    rw [List.cons_append, List.takeWhile_cons, List.takeWhile_cons, ih]

theorem startsUrl_concat (s : Text) : startsUrl (s ++ ['\n']) = startsUrl s := by
  have hsame {t : Text} (ht : '\n' ∉ t) : t.isPrefixOf (s ++ ['\n']) = t.isPrefixOf s := by
    rw [Bool.eq_iff_iff, List.isPrefixOf_iff_prefix, List.isPrefixOf_iff_prefix,
      Words.prefix_concat_of_not_mem ht]
  rw [startsUrl, startsUrl, hsame (by decide), hsame (by decide)]

theorem scrubUrlsFrom_concat {skip : ℕ} {s : Text} (hskip : skip ≤ s.length) :
    scrubUrlsFrom skip (s ++ ['\n']) = scrubUrlsFrom skip s ++ ['\n'] := by
  induction s generalizing skip with
  | nil =>
    obtain rfl : skip = 0 := by simpa using hskip
    rfl
  | cons c s ih =>
    cases skip with
    | succ skip => exact ih (by simpa using hskip)
    | zero =>
      have hstart : startsUrl (c :: (s ++ ['\n'])) = startsUrl (c :: s) := startsUrl_concat (c :: s)
      rw [List.cons_append]
      unfold scrubUrlsFrom
      by_cases hurl : startsUrl (c :: s) = true
      · have hends : ¬ (!endsUrl '\n') = true := by decide
        have htake : (c :: (s ++ ['\n'])).takeWhile (fun d => !endsUrl d) =
            (c :: s).takeWhile fun d => !endsUrl d := takeWhile_concat hends (c :: s)
        have hlength := (List.takeWhile_prefix (fun d => !endsUrl d) (l := c :: s)).length_le
        rw [if_pos (hstart.trans hurl), if_pos hurl]
        dsimp only
        rw [htake, List.append_assoc, ih (by simp at hlength; omega)]
      · rw [if_neg (by rw [hstart]; exact hurl), if_neg hurl, List.cons_append, ih (Nat.zero_le _)]

/-- **A newline at the end of a line is there afterwards.** -/
theorem scrub_concat {secrets : List Text} (hplain : ∀ s ∈ secrets, Plain s) (line : Text) :
    scrub secrets (line ++ ['\n']) = scrub secrets line ++ ['\n'] := by
  have hneedles : ∀ s ∈ secrets, '\n' ∉ s ∧ s ≠ [] := fun s hs =>
    ⟨(hplain s hs).newline, (hplain s hs).ne_nil⟩
  rw [scrub_eq, scrub_eq, scrubUrls, scrubUrlsFrom_concat (Nat.zero_le _),
    Words.redact_concat hneedles, scrubUrls]

end LogScrub

end SelendraBridge
