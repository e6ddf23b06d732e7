import SelendraBridge.Api.Address

/-!
# Whose bucket a request goes to

The rate limit of the API is kept per client, under the text of an address
(`SelendraBridge.Api.clientKey`). From a peer that is no trusted proxy the address is the peer's.
From one that is, it is read off `X-Forwarded-For`, from the right, at the first hop that is not a
trusted proxy either.

A request comes to the API over a chain of proxies (`SelendraBridge.Api.Chain`). Each adds the
address it was reached from, in one of the two ways a header may be added to:

* on a line of its own, after those that were there;
* at the end of what was there, all lines joined to one by commas.

What the client wrote stays to the left of its own address, and the reading stops there. But a line
that is not text is left out of the reading, and a proxy of the second kind, which does not read
what it adds to, makes such a line of a client's and of its own address. So where the last proxy is
of that kind, and the client wrote something that is not text, no hop is seen at all, and the key is
what the client put into `X-Real-IP` (`SelendraBridge.Api.key_chosen_iff`).
-/

namespace SelendraBridge

namespace Api

open SigStore (isWhitespace trim split)

/-! ### The headers -/

/-- What the key reads of a request's headers: the lines of each of the two names. -/
structure HeaderMap where
  xForwardedFor : List Bytes
  xRealIp : List Bytes

/-- A byte that `HeaderValue::to_str` lets pass. -/
def isVisible (b : UInt8) : Bool := (32 ≤ b && b < 127) || b == 9

/-- `HeaderValue::to_str`. -/
def toStr (value : Bytes) : Option Text :=
  if value.all isVisible = true then some (value.map fun b => Char.ofNat b.toNat) else none

/-- `parse_hop`. -/
def parseHop (s : Text) : Option IpAddr :=
  let s := trim s
  match parseIp s with
  | some ip => some (canonical ip)
  | none => (parseSocket s).map canonical

/-- The hops on one line: none, where it is not text. -/
def elements (value : Bytes) : List Text :=
  match toStr value with
  | some s => ((split (fun c => c == ',') s).map trim).filter fun h => !h.isEmpty
  | none => []

/-- The hops of a request. -/
def HeaderMap.hops (h : HeaderMap) : List Text := h.xForwardedFor.flatMap elements

/-- The address `X-Real-IP` names, on its first line. -/
def HeaderMap.real (h : HeaderMap) : Option IpAddr :=
  h.xRealIp.head?.bind fun value => (toStr value).bind parseHop

/-- The loop over the hops, from the right. -/
def walk (trusted : TrustedProxies) (lastTrusted : IpAddr) : List Text → IpAddr
  | [] => lastTrusted
  | hop :: rest =>
    match parseHop hop with
    | some ip => if trusted.contains ip = true then walk trusted ip rest else ip
    | none => lastTrusted

/-- `client_key`. -/
def clientKey (peer : Option IpAddr) (headers : HeaderMap) (trusted : TrustedProxies) : Text :=
  match peer.map canonical with
  | none => []
  | some peer =>
    if trusted.contains peer = false then peer.toText
    else
      match headers.hops with
      | [] => (headers.real.getD peer).toText
      | hops => (walk trusted peer hops.reverse).toText

/-! ### The proxies -/

/-- A proxy: where it stands, how it adds to the header, and what it adds. -/
structure Proxy where
  addr : IpAddr
  /-- All lines become one. -/
  joins : Bool
  /-- The blanks it puts after a comma. -/
  blanks : ℕ
  text : Text

/-- The bytes of a text. -/
def bytesOf (s : Text) : Bytes := s.map fun c => UInt8.ofNat c.toNat

/-- What comes between two lines that are joined. -/
def comma (blanks : ℕ) : Text := ',' :: List.replicate blanks ' '

/-- What a proxy hands on. -/
def Proxy.forward (p : Proxy) (h : HeaderMap) : HeaderMap :=
  { h with
    xForwardedFor :=
      if p.joins = true then
        [(h.xForwardedFor.flatMap fun line => line ++ bytesOf (comma p.blanks)) ++ bytesOf p.text]
      else h.xForwardedFor ++ [bytesOf p.text] }

/-- A text by which a proxy names an address: one hop, which reads as the address. -/
structure Names (text : Text) (ip : IpAddr) : Prop where
  visible : toStr (bytesOf text) = some text
  one : ',' ∉ text
  trimmed : trim text = text
  reads : parseHop text = some (canonical ip)

/-- The addresses from which each proxy was reached: the first from the one before, and so on. -/
def Linked (prev : IpAddr) : List Proxy → Prop
  | [] => True
  | p :: rest => Names p.text prev ∧ Linked p.addr rest

/-- The address from which the API is reached. -/
def peerOf (prev : IpAddr) : List Proxy → IpAddr
  | [] => prev
  | p :: rest => peerOf p.addr rest

/-- A way to the API: a client that is none of the trusted proxies, and proxies that are, each of
which names the one before. -/
structure Chain (trusted : TrustedProxies) where
  client : IpAddr
  proxies : List Proxy
  outside : trusted.contains client = false
  declared : ∀ p ∈ proxies, trusted.contains p.addr = true
  linked : Linked client proxies

/-- What comes to the API, of what the client sent. -/
def arrive (h : HeaderMap) (proxies : List Proxy) : HeaderMap :=
  proxies.foldl (fun h p => p.forward h) h

/-- The key of a client's request. -/
def Chain.key {trusted : TrustedProxies} (c : Chain trusted) (h : HeaderMap) : Text :=
  clientKey (some (peerOf c.client c.proxies)) (arrive h c.proxies) trusted

/-- The text of an address, of either kind. -/
def keyOf (ip : IpAddr) : Text := (canonical ip).toText

/-! ### Cutting at commas -/

theorem split_ne_nil (p : Char → Bool) (s : Text) : split p s ≠ [] := by
  induction s with
  | nil => simp [split]
  | cons c s ih =>
    unfold split
    split_ifs with hc
    · simp
    · rcases hs : split p s with _ | ⟨piece, pieces⟩ <;> simp

/-- **What is on both sides of a separator is cut for itself.** -/
theorem split_append (p : Char → Bool) {c : Char} (hc : p c = true) (s t : Text) :
    split p (s ++ c :: t) = split p s ++ split p t := by
  induction s with
  | nil => simp [split, hc]
  | cons d s ih =>
    by_cases hd : p d = true
    · have hl : split p (d :: s) = [] :: split p s := by rw [split, if_pos hd]
      have hr : split p (d :: s ++ c :: t) = [] :: split p (s ++ c :: t) := by
        rw [List.cons_append, split, if_pos hd]
      rw [hl, hr, ih, List.cons_append]
    · obtain ⟨piece, pieces, hs⟩ := List.exists_cons_of_ne_nil (split_ne_nil p s)
      have hl : split p (d :: s) = (d :: piece) :: pieces := by rw [split, if_neg hd, hs]
      have hr : split p (d :: s ++ c :: t) = (d :: piece) :: (pieces ++ split p t) := by
        rw [List.cons_append, split, if_neg hd, ih, hs]
        rfl
      rw [hl, hr, List.cons_append]

/-- A text without separators is one piece. -/
theorem split_single (p : Char → Bool) {s : Text} (hs : ∀ c ∈ s, p c = false) :
    split p s = [s] := by
  induction s with
  | nil => rfl
  | cons c s ih =>
    have hc : ¬ p c = true := by simp [hs c (List.mem_cons_self ..)]
    rw [split, if_neg hc, ih fun d hd => hs d (List.mem_cons_of_mem _ hd)]

theorem trim_blank (s : Text) : trim (' ' :: s) = trim s := by
  have hblank : isWhitespace ' ' = true := by decide
  rw [trim, List.dropWhile_cons_of_pos hblank, trim]

/-! ### Lines that are text -/

/-- A line that the reading does not leave out. -/
def IsText (value : Bytes) : Prop := value.all isVisible = true

theorem isText_append {a b : Bytes} : IsText (a ++ b) ↔ IsText a ∧ IsText b := by
  simp [IsText, List.all_append]

theorem isText_of_toStr {value : Bytes} {s : Text} (h : toStr value = some s) : IsText value := by
  unfold toStr at h
  split_ifs at h with hall
  exact hall

theorem toStr_of_not_isText {value : Bytes} (h : ¬ IsText value) : toStr value = none := if_neg h

/-- A text as its characters. -/
def charsOf (value : Bytes) : Text := value.map fun b => Char.ofNat b.toNat

theorem toStr_of_isText {value : Bytes} (h : IsText value) : toStr value = some (charsOf value) :=
  if_pos h

theorem toStr_eq_some {value : Bytes} {s : Text} :
    toStr value = some s ↔ IsText value ∧ charsOf value = s := by
  constructor
  · intro h
    have htext := isText_of_toStr h
    rw [toStr_of_isText htext] at h
    exact ⟨htext, Option.some.inj h⟩
  · rintro ⟨htext, rfl⟩
    exact toStr_of_isText htext

theorem elements_of_not_isText {value : Bytes} (h : ¬ IsText value) : elements value = [] := by
  rw [elements, toStr_of_not_isText h]

theorem toStr_append {a b : Bytes} {s t : Text} (ha : toStr a = some s) (hb : toStr b = some t) :
    toStr (a ++ b) = some (s ++ t) := by
  obtain ⟨hatext, rfl⟩ := toStr_eq_some.mp ha
  obtain ⟨hbtext, rfl⟩ := toStr_eq_some.mp hb
  exact toStr_eq_some.mpr ⟨isText_append.mpr ⟨hatext, hbtext⟩, List.map_append ..⟩

theorem toStr_comma (n : ℕ) : toStr (bytesOf (comma n)) = some (comma n) := by
  have hcomma : isVisible 44 = true := by decide
  have hblank : isVisible 32 = true := by decide
  refine toStr_eq_some.mpr ⟨?_, ?_⟩
  · simp [IsText, bytesOf, comma, hcomma, hblank]
  · simp [charsOf, bytesOf, comma]

/-! ### The hops of a line -/

/-- The hops of a text. -/
def hopsOf (s : Text) : List Text :=
  ((split (fun c => c == ',') s).map trim).filter fun h => !h.isEmpty

theorem elements_of_toStr {value : Bytes} {s : Text} (h : toStr value = some s) :
    elements value = hopsOf s := by
  rw [elements, h, hopsOf]

theorem hopsOf_blanks (n : ℕ) (s : Text) : hopsOf (List.replicate n ' ' ++ s) = hopsOf s := by
  induction n with
  | zero => rfl
  | succ n ih =>
    obtain ⟨piece, pieces, hs⟩ :=
      List.exists_cons_of_ne_nil (split_ne_nil (fun c => c == ',') (List.replicate n ' ' ++ s))
    have hblank : ¬ ((' ' == ',') = true) := by decide
    -- the blank falls to the first piece, where it is trimmed off
    have hsplit : split (fun c => c == ',') (List.replicate (n + 1) ' ' ++ s) =
        (' ' :: piece) :: pieces := by
      rw [List.replicate_succ, List.cons_append, split, if_neg hblank, hs]
    rw [← ih, hopsOf, hsplit, hopsOf, hs, List.map_cons, List.map_cons, trim_blank]

theorem hopsOf_comma (s t : Text) (n : ℕ) : hopsOf (s ++ (comma n ++ t)) = hopsOf s ++ hopsOf t := by
  have hcut : split (fun c => c == ',') (s ++ (comma n ++ t)) =
      split (fun c => c == ',') s ++ split (fun c => c == ',') (List.replicate n ' ' ++ t) :=
    split_append (fun c => c == ',') (beq_self_eq_true ',') s _
  rw [hopsOf, hcut, List.map_append, List.filter_append]
  exact congrArg (hopsOf s ++ ·) (hopsOf_blanks n t)

/-- **A name is one hop.** -/
theorem Names.elements {text : Text} {ip : IpAddr} (h : Names text ip) :
    elements (bytesOf text) = [text] := by
  have hpieces : split (fun c => c == ',') text = [text] :=
    split_single _ fun c hc => beq_false_of_ne fun heq => h.one (heq ▸ hc)
  have hfull : (!text.isEmpty) = true := by
    cases htext : text with
    | nil =>
      have hreads := h.reads
      rw [htext] at hreads
      exact absurd hreads (by simp [show parseHop [] = none from rfl])
    | cons c s => rfl
  rw [elements_of_toStr h.visible, hopsOf, hpieces, List.map_singleton, h.trimmed,
    List.filter_singleton, hfull, cond_true]

/-! ### The hops of a request that was handed on -/

/-- Lines joined to one. -/
def joined (blanks : ℕ) (lines : List Bytes) (last : Bytes) : Bytes :=
  (lines.flatMap fun line => line ++ bytesOf (comma blanks)) ++ last

theorem joined_cons (blanks : ℕ) (line : Bytes) (lines : List Bytes) (last : Bytes) :
    joined blanks (line :: lines) last =
      line ++ (bytesOf (comma blanks) ++ joined blanks lines last) := by
  simp [joined, List.append_assoc]

/-- **Joined lines are text where all of them are.** -/
theorem isText_joined {blanks : ℕ} {lines : List Bytes} {last : Bytes} (hlast : IsText last) :
    IsText (joined blanks lines last) ↔ ∀ line ∈ lines, IsText line := by
  induction lines with
  | nil => simpa [joined] using hlast
  | cons line lines ih =>
    have hcomma := isText_of_toStr (toStr_comma blanks)
    rw [joined_cons, isText_append, isText_append, ih, List.forall_mem_cons]
    exact ⟨fun ⟨hl, _, hr⟩ => ⟨hl, hr⟩, fun ⟨hl, hr⟩ => ⟨hl, hcomma, hr⟩⟩

/-- **Joined lines have the hops of the lines**, where they are text. -/
theorem elements_joined {blanks : ℕ} {lines : List Bytes} {last : Bytes}
    (hlines : ∀ line ∈ lines, IsText line) (hlast : IsText last) :
    elements (joined blanks lines last) = lines.flatMap elements ++ elements last := by
  induction lines with
  | nil => rfl
  | cons line lines ih =>
    rw [List.forall_mem_cons] at hlines
    have hrest := toStr_of_isText ((@isText_joined blanks _ _ hlast).mpr hlines.2)
    have hline := toStr_of_isText hlines.1
    have hall := toStr_append hline (toStr_append (toStr_comma blanks) hrest)
    rw [joined_cons, elements_of_toStr hall, hopsOf_comma, ← elements_of_toStr hline,
      ← elements_of_toStr hrest, ih hlines.2, List.flatMap_cons, List.append_assoc]

/-- Every line is text. -/
def HeaderMap.AllText (h : HeaderMap) : Prop := ∀ line ∈ h.xForwardedFor, IsText line

theorem forward_of_joins {p : Proxy} (hjoins : p.joins = true) (h : HeaderMap) :
    (p.forward h).xForwardedFor = [joined p.blanks h.xForwardedFor (bytesOf p.text)] := if_pos hjoins

theorem forward_of_not_joins {p : Proxy} (hjoins : ¬ p.joins = true) (h : HeaderMap) :
    (p.forward h).xForwardedFor = h.xForwardedFor ++ [bytesOf p.text] := if_neg hjoins

/-- **A proxy changes nothing about whether all is text.** -/
theorem allText_forward {p : Proxy} {ip : IpAddr} (hname : Names p.text ip) (h : HeaderMap) :
    (p.forward h).AllText ↔ h.AllText := by
  have htext := isText_of_toStr hname.visible
  by_cases hjoins : p.joins = true
  · rw [HeaderMap.AllText, forward_of_joins hjoins, List.forall_mem_singleton, isText_joined htext]
    exact Iff.rfl
  · rw [HeaderMap.AllText, forward_of_not_joins hjoins, List.forall_mem_append,
      List.forall_mem_singleton]
    exact ⟨And.left, fun hall => ⟨hall, htext⟩⟩

/-- **A proxy adds one hop, to the right**, unless it joins what is not text. -/
theorem hops_forward {p : Proxy} {ip : IpAddr} (hname : Names p.text ip) {h : HeaderMap}
    (hok : p.joins = true → h.AllText) : (p.forward h).hops = h.hops ++ [p.text] := by
  by_cases hjoins : p.joins = true
  · rw [HeaderMap.hops, forward_of_joins hjoins, List.flatMap_singleton,
      elements_joined (hok hjoins) (isText_of_toStr hname.visible), hname.elements]
    rfl
  · rw [HeaderMap.hops, forward_of_not_joins hjoins, List.flatMap_append, List.flatMap_singleton,
      hname.elements]
    rfl

/-- **A proxy that joins what is not text leaves no hop.** -/
theorem hops_forward_lost {p : Proxy} {ip : IpAddr} (hname : Names p.text ip) {h : HeaderMap}
    (hjoins : p.joins = true) (hnot : ¬ h.AllText) : (p.forward h).hops = [] := by
  have htext := isText_of_toStr hname.visible
  rw [HeaderMap.hops, forward_of_joins hjoins, List.flatMap_singleton,
    elements_of_not_isText fun hall => hnot ((isText_joined htext).mp hall)]

@[simp] theorem real_forward (p : Proxy) (h : HeaderMap) : (p.forward h).real = h.real := rfl

/-! ### Over the chain -/

theorem arrive_append (h : HeaderMap) (qs rs : List Proxy) :
    arrive h (qs ++ rs) = arrive (arrive h qs) rs := List.foldl_append ..

theorem arrive_cons (h : HeaderMap) (p : Proxy) (rs : List Proxy) :
    arrive h (p :: rs) = arrive (p.forward h) rs := rfl

theorem peerOf_append (prev : IpAddr) (qs : List Proxy) (p : Proxy) (rs : List Proxy) :
    peerOf prev (qs ++ p :: rs) = peerOf p.addr rs := by
  induction qs generalizing prev with
  | nil => rfl
  | cons q qs ih => exact ih q.addr

theorem linked_append {prev : IpAddr} {qs : List Proxy} {p : Proxy} {rs : List Proxy}
    (h : Linked prev (qs ++ p :: rs)) :
    Linked prev qs ∧ (∃ ip, Names p.text ip) ∧ Linked p.addr rs := by
  induction qs generalizing prev with
  | nil => exact ⟨trivial, ⟨prev, h.1⟩, h.2⟩
  | cons q qs ih =>
    obtain ⟨hname, hrest⟩ := h
    obtain ⟨hqs, hp, hrs⟩ := ih hrest
    exact ⟨⟨hname, hqs⟩, hp, hrs⟩

@[simp] theorem real_arrive (h : HeaderMap) (proxies : List Proxy) :
    (arrive h proxies).real = h.real := by
  induction proxies generalizing h with
  | nil => rfl
  | cons p rest ih => rw [arrive_cons, ih, real_forward]

theorem allText_arrive {prev : IpAddr} {proxies : List Proxy} (hlinked : Linked prev proxies)
    (h : HeaderMap) : (arrive h proxies).AllText ↔ h.AllText := by
  induction proxies generalizing h prev with
  | nil => exact Iff.rfl
  | cons p rest ih => rw [arrive_cons, ih hlinked.2, allText_forward hlinked.1]

/-- **What the proxies add is to the right of what was there**, unless what is not text is joined. -/
theorem hops_arrive {prev : IpAddr} {proxies : List Proxy} (hlinked : Linked prev proxies)
    {h : HeaderMap} (hok : ∀ p ∈ proxies, p.joins = true → h.AllText) :
    (arrive h proxies).hops = h.hops ++ proxies.map (·.text) := by
  induction proxies generalizing h prev with
  | nil => exact (List.append_nil _).symm
  | cons p rest ih =>
    obtain ⟨hname, hrest⟩ := hlinked
    rw [List.forall_mem_cons] at hok
    have hok' : ∀ q ∈ rest, q.joins = true → (p.forward h).AllText := fun q hq hjoins =>
      (allText_forward hname h).mpr (hok.2 q hq hjoins)
    rw [arrive_cons, ih hrest hok', hops_forward hname hok.1, List.append_assoc]
    rfl

/-- **The reading goes over the names of trusted proxies** and comes to the address that the first
of them names. -/
theorem walk_names {trusted : TrustedProxies} {prev : IpAddr} {proxies : List Proxy}
    (hlinked : Linked prev proxies) (hdeclared : ∀ p ∈ proxies, trusted.contains p.addr = true)
    (hsome : proxies ≠ []) (hops : List Text) :
    walk trusted (canonical (peerOf prev proxies)) (hops ++ proxies.map (·.text)).reverse =
      if trusted.contains prev = true then walk trusted (canonical prev) hops.reverse
      else canonical prev := by
  induction proxies generalizing prev hops with
  | nil => exact absurd rfl hsome
  | cons p rest ih =>
    obtain ⟨hname, hrest⟩ := hlinked
    rw [List.forall_mem_cons] at hdeclared
    -- the name itself, once the ones to its right are read
    have hone (last : IpAddr) : walk trusted last (hops ++ [p.text]).reverse =
        if trusted.contains prev = true then walk trusted (canonical prev) hops.reverse
        else canonical prev := by
      simp only [List.reverse_append, List.reverse_singleton, List.singleton_append, walk,
        hname.reads, TrustedProxies.contains_canonical]
    by_cases hlast : rest = []
    · subst hlast
      exact hone _
    · have hstep := ih hrest hdeclared.2 hlast (hops ++ [p.text])
      rw [if_pos hdeclared.1, hone, List.append_assoc] at hstep
      exact hstep

/-! ### The key -/

section

variable {trusted : TrustedProxies} (c : Chain trusted) (h : HeaderMap)

/-- The chain can be read: every name that was added is there, at the right. -/
def Chain.Shown : Prop := c.proxies.map (·.text) <:+ (arrive h c.proxies).hops

/-- The key is none that the client chose: its own address, or, where that cannot be read, the
address of one of the proxies. -/
def Chain.Unchosen : Prop :=
  c.key h = keyOf c.client ∨ ¬ c.Shown h ∧ ∃ p ∈ c.proxies, c.key h = keyOf p.addr

/-- The client's `X-Real-IP` is the key: the last proxy joins what is not text, and what the client
put there names an address that is nobody's on the way. -/
def Chain.Exposed : Prop :=
  (∃ p, c.proxies.getLast? = some p ∧ p.joins = true) ∧
    (∃ line ∈ h.xForwardedFor, toStr line = none) ∧
    ∃ ip, h.real = some ip ∧ ip.toText ≠ keyOf c.client ∧ ∀ p ∈ c.proxies, ip.toText ≠ keyOf p.addr

variable {c h}

/-- From a peer that is a trusted proxy, the key is read off the headers. -/
theorem clientKey_of_trusted {peer : IpAddr} {headers : HeaderMap}
    (hpeer : trusted.contains peer = true) (hsome : headers.hops ≠ []) :
    clientKey (some peer) headers trusted =
      (walk trusted (canonical peer) headers.hops.reverse).toText := by
  have hnot : ¬ TrustedProxies.contains trusted (canonical peer) = false := by
    rw [TrustedProxies.contains_canonical, hpeer]
    exact Bool.noConfusion
  obtain ⟨hop, rest, hhops⟩ := List.exists_cons_of_ne_nil hsome
  simp only [clientKey, Option.map_some, if_neg hnot, hhops]

/-- From one that is, and without hops, it is `X-Real-IP`. -/
theorem clientKey_of_no_hops {peer : IpAddr} {headers : HeaderMap}
    (hpeer : trusted.contains peer = true) (hnone : headers.hops = []) :
    clientKey (some peer) headers trusted = (headers.real.getD (canonical peer)).toText := by
  have hnot : ¬ TrustedProxies.contains trusted (canonical peer) = false := by
    rw [TrustedProxies.contains_canonical, hpeer]
    exact Bool.noConfusion
  simp only [clientKey, Option.map_some, if_neg hnot, hnone]

/-- From a peer that is no trusted proxy, the key is the peer's. -/
theorem clientKey_of_untrusted {peer : IpAddr} {headers : HeaderMap}
    (hpeer : trusted.contains peer = false) :
    clientKey (some peer) headers trusted = keyOf peer := by
  have hcanonical : TrustedProxies.contains trusted (canonical peer) = false := by
    rw [TrustedProxies.contains_canonical, hpeer]
  simp only [clientKey, Option.map_some, if_pos hcanonical, keyOf]

theorem peerOf_declared (prev : IpAddr) {proxies : List Proxy}
    (hdeclared : ∀ p ∈ proxies, trusted.contains p.addr = true) (hsome : proxies ≠ []) :
    trusted.contains (peerOf prev proxies) = true := by
  obtain ⟨qs, p, rfl⟩ := List.eq_nil_or_concat' proxies |>.resolve_left hsome
  rw [peerOf_append]
  exact hdeclared p (by simp)

/-- **Where nothing is lost, the key is the client's own address.** -/
theorem Chain.key_of_kept (hok : ∀ p ∈ c.proxies, p.joins = true → h.AllText) :
    c.key h = keyOf c.client := by
  by_cases hsome : c.proxies = []
  · rw [Chain.key, hsome]
    exact clientKey_of_untrusted c.outside
  · have hhops := hops_arrive c.linked hok
    have hfull : (arrive h c.proxies).hops ≠ [] := by
      rw [hhops]
      simp [hsome]
    rw [Chain.key, clientKey_of_trusted (peerOf_declared _ c.declared hsome) hfull, hhops,
      walk_names c.linked c.declared hsome, if_neg (by simp [c.outside]), keyOf]

/-- Where something is lost, the last proxy that joins can be told. -/
theorem exists_last_joins {proxies : List Proxy} (h : ∃ p ∈ proxies, p.joins = true) :
    ∃ qs p rs, proxies = qs ++ p :: rs ∧ p.joins = true ∧ ∀ r ∈ rs, ¬ r.joins = true := by
  induction proxies with
  | nil => simp at h
  | cons q rest ih =>
    by_cases hrest : ∃ p ∈ rest, p.joins = true
    · obtain ⟨qs, p, rs, rfl, hjoins, hnot⟩ := ih hrest
      exact ⟨q :: qs, p, rs, rfl, hjoins, hnot⟩
    · push Not at hrest
      obtain ⟨p, hp, hjoins⟩ := h
      rcases List.mem_cons.mp hp with rfl | hmem
      · exact ⟨[], p, rest, rfl, hjoins, fun r hr => by simp [hrest r hr]⟩
      · exact absurd hjoins (by simp [hrest p hmem])

theorem not_allText_iff : (¬ h.AllText) ↔ ∃ line ∈ h.xForwardedFor, toStr line = none := by
  constructor
  · intro hnot
    simp only [HeaderMap.AllText, not_forall] at hnot
    obtain ⟨line, hmem, htext⟩ := hnot
    exact ⟨line, hmem, toStr_of_not_isText htext⟩
  · rintro ⟨line, hmem, hnone⟩ hall
    rw [toStr_of_isText (hall line hmem)] at hnone
    cases hnone

/-- **After the last that joins what is not text**, only the names the others added are hops. -/
theorem Chain.hops_of_lost {qs rs : List Proxy} {p : Proxy} (heq : c.proxies = qs ++ p :: rs)
    (hjoins : p.joins = true) (hnot : ∀ r ∈ rs, ¬ r.joins = true) (hlost : ¬ h.AllText) :
    (arrive h c.proxies).hops = rs.map (·.text) := by
  have hlinked := c.linked
  rw [heq] at hlinked
  obtain ⟨hqs, ⟨ip, hname⟩, hrs⟩ := linked_append hlinked
  have hbefore : ¬ (arrive h qs).AllText := fun hall => hlost ((allText_arrive hqs h).mp hall)
  have hok : ∀ r ∈ rs, r.joins = true → (p.forward (arrive h qs)).AllText := fun r hr hr' =>
    absurd hr' (hnot r hr)
  rw [heq, arrive_append, arrive_cons, hops_arrive hrs hok,
    hops_forward_lost hname hjoins hbefore, List.nil_append]

/-- The chain cannot be read then. -/
theorem Chain.not_shown_of_lost {qs rs : List Proxy} {p : Proxy} (heq : c.proxies = qs ++ p :: rs)
    (hjoins : p.joins = true) (hnot : ∀ r ∈ rs, ¬ r.joins = true) (hlost : ¬ h.AllText) :
    ¬ c.Shown h := by
  intro hshown
  have hlength := hshown.length_le
  rw [Chain.hops_of_lost heq hjoins hnot hlost, heq] at hlength
  simp at hlength
  omega

/-- **Where another added its name after it, the key is the address of the one that joined.** -/
theorem Chain.key_of_lost {qs rs : List Proxy} {p : Proxy} (heq : c.proxies = qs ++ p :: rs)
    (hjoins : p.joins = true) (hnot : ∀ r ∈ rs, ¬ r.joins = true) (hlost : ¬ h.AllText)
    (hsome : rs ≠ []) : c.key h = keyOf p.addr := by
  have hhops := Chain.hops_of_lost heq hjoins hnot hlost
  have hmem : p ∈ c.proxies := by simp [heq]
  have hdeclared : ∀ r ∈ rs, trusted.contains r.addr = true := fun r hr =>
    c.declared r (by simp [heq, hr])
  have hlinked := c.linked
  rw [heq] at hlinked
  have hpeer := peerOf_declared c.client c.declared (by simp [heq])
  have hwalk := walk_names (linked_append hlinked).2.2 hdeclared hsome []
  rw [if_pos (c.declared p hmem), List.nil_append] at hwalk
  rw [Chain.key, clientKey_of_trusted hpeer (by simp [hhops, hsome]), hhops, heq, peerOf_append,
    hwalk, keyOf]
  rfl

/-- **Where the last proxy joined, it is what `X-Real-IP` says.** -/
theorem Chain.key_of_last_lost {qs : List Proxy} {p : Proxy} (heq : c.proxies = qs ++ [p])
    (hjoins : p.joins = true) (hlost : ¬ h.AllText) :
    c.key h = (h.real.getD (canonical p.addr)).toText := by
  have hhops := Chain.hops_of_lost heq hjoins (fun r hr => absurd hr (by simp)) hlost
  have hpeer := peerOf_declared c.client c.declared (by simp [heq])
  rw [Chain.key, clientKey_of_no_hops hpeer hhops, real_arrive, heq, peerOf_append]
  rfl

end

/-- **The key is none that the client chose, exactly when it is not exposed**: for any trusted
proxies, any chain of them and whatever the client writes into the two headers. -/
theorem key_chosen_iff (trusted : TrustedProxies) (c : Chain trusted) (h : HeaderMap) :
    c.Unchosen h ↔ ¬ c.Exposed h := by
  by_cases hok : ∀ p ∈ c.proxies, p.joins = true → h.AllText
  · -- nothing is lost
    have hkey := Chain.key_of_kept hok
    constructor
    · rintro - ⟨⟨p, hlast, hjoins⟩, hline, -⟩
      exact not_allText_iff.mpr hline (hok p (List.mem_of_getLast? hlast) hjoins)
    · exact fun _ => .inl hkey
  · push Not at hok
    obtain ⟨p₀, hp₀, hjoins₀, hlost⟩ := hok
    obtain ⟨qs, p, rs, heq, hjoins, hnot⟩ := exists_last_joins ⟨p₀, hp₀, hjoins₀⟩
    have hmem : p ∈ c.proxies := by simp [heq]
    have hunseen := Chain.not_shown_of_lost heq hjoins hnot hlost
    by_cases hrs : rs = []
    · subst hrs
      have hkey := Chain.key_of_last_lost heq hjoins hlost
      have hlast : c.proxies.getLast? = some p := by simp [heq]
      constructor
      · rintro hunchosen ⟨-, -, ip, hreal, hclient, hproxies⟩
        rw [hreal, Option.getD_some] at hkey
        rcases hunchosen with hown | ⟨-, q, hq, hhop⟩
        · exact hclient (hkey.symm.trans hown)
        · exact hproxies q hq (hkey.symm.trans hhop)
      · intro hexposed
        rcases hreal : h.real with _ | ip
        · rw [hreal, Option.getD_none] at hkey
          exact .inr ⟨hunseen, p, hmem, hkey⟩
        · rw [hreal, Option.getD_some] at hkey
          by_cases hclient : ip.toText = keyOf c.client
          · exact .inl (hkey.trans hclient)
          · by_contra hchosen
            refine hexposed ⟨⟨p, hlast, hjoins⟩, not_allText_iff.mp hlost, ip, hreal, hclient, ?_⟩
            exact fun q hq heq' => hchosen (.inr ⟨hunseen, q, hq, hkey.trans heq'⟩)
    · -- another proxy named the one that joined
      have hkey := Chain.key_of_lost heq hjoins hnot hlost hrs
      constructor
      · rintro - ⟨⟨q, hlast, hq⟩, -, -⟩
        refine hnot q ?_ hq
        obtain ⟨r, rest, hcons⟩ := List.exists_cons_of_ne_nil hrs
        rw [heq, hcons, List.getLast?_append, List.getLast?_cons_cons] at hlast
        rw [hcons]
        exact List.mem_of_getLast? (by simpa using hlast)
      · exact fun _ => .inr ⟨hunseen, p, hmem, hkey⟩

/-- The network `172.30.88.0/24` is believed. -/
def believed : TrustedProxies := [⟨.v4 (BitVec.ofNat 32 2887669760), 24, by decide⟩]

example : TrustedProxies.parse
    [['1', '7', '2', '.', '3', '0', '.', '8', '8', '.', '0', '/', '2', '4']] = some believed := by
  rfl

/-- One proxy, at `172.30.88.2`, that joins the lines, and a client at `198.51.100.4`. -/
def behindOne : Chain believed where
  client := .v4 (BitVec.ofNat 32 3325256708)
  proxies :=
    [{ addr := .v4 (BitVec.ofNat 32 2887669762)
       joins := true
       blanks := 1
       text := ['1', '9', '8', '.', '5', '1', '.', '1', '0', '0', '.', '4'] }]
  outside := by decide +kernel
  declared := by decide +kernel
  linked := ⟨⟨by decide +kernel, by decide, by decide +kernel, by decide +kernel⟩, trivial⟩

/-- The client writes a byte that is not text, and an address that is not its own. -/
def spoofing : HeaderMap where
  xForwardedFor := [[255]]
  xRealIp := [[54, 46, 54, 46, 54, 46, 54]]

/-- **The client's choice is the key**: `6.6.6.6`. -/
theorem key_of_spoofing :
    behindOne.key spoofing = ['6', '.', '6', '.', '6', '.', '6'] ∧
      ¬ behindOne.Unchosen spoofing := by
  have hkey : behindOne.key spoofing = ['6', '.', '6', '.', '6', '.', '6'] := by decide +kernel
  refine ⟨hkey, ?_⟩
  rintro (hown | ⟨-, p, hp, hhop⟩)
  · rw [hkey] at hown
    revert hown
    decide +kernel
  · obtain rfl := List.mem_singleton.mp hp
    rw [hkey] at hhop
    revert hhop
    decide +kernel

end Api

end SelendraBridge
