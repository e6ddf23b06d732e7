import SelendraBridge.Lib.Attribution
import SelendraBridge.SigStore.Policy

/-!
# Whose lines the log's are

The log of a transaction is one list of lines, whoever printed them. The runtime brackets what a
program prints by a line where it is invoked and one where it succeeds or fails, and the relayer
keeps a stack of the programs under way to pick out the gate's own data
(`SelendraBridge.Solana.Logs.gateProgramDataLines`).

A program prints after `Program log: ` or `Program data: `, and that is a line that begins with
`Program ` and a word, as the brackets do. So a text that begins with `invoke [` or `failed`, or is
`success`, reads as a bracket, of a program called `log:` or `data:`
(`SelendraBridge.Solana.Logs.Imitates`).

| where it is printed | what comes of it |
|---|---|
| outside the gate's frames | nothing: no program is called `log:`, so no gate is on the stack |
| in one, by the gate or the token program | it is not: their messages are fixed |
| in one, by another program | the gate's lines are lost, or that program's taken for them |

The last does not happen as long as the gate invokes no program but the token program
(`SelendraBridge.Solana.Logs.attribution_exact`).
-/

namespace SelendraBridge

namespace Solana

namespace Logs

open Attribution
open SigStore (isWhitespace trim splitOnce)

/-! ### Reading the log -/

/-- `Program `, as a bracket begins, and everything a program prints. -/
def PROGRAM : Text := ['P', 'r', 'o', 'g', 'r', 'a', 'm', ' ']

/-- `invoke [`. -/
def INVOKE : Text := ['i', 'n', 'v', 'o', 'k', 'e', ' ', '[']

/-- `success`. -/
def SUCCESS : Text := ['s', 'u', 'c', 'c', 'e', 's', 's']

/-- `failed`. -/
def FAILED : Text := ['f', 'a', 'i', 'l', 'e', 'd']

/-- `consume`. -/
def CONSUME : Text := ['c', 'o', 'n', 's', 'u', 'm', 'e']

/-- `log`. -/
def LOG : Text := ['l', 'o', 'g']

/-- `data`. -/
def DATA : Text := ['d', 'a', 't', 'a']

/-- `PROGRAM_DATA_PREFIX`. -/
def PROGRAM_DATA_PREFIX : Text := PROGRAM ++ (DATA ++ [':'])

/-- `str::strip_prefix`. -/
def stripText (p s : Text) : Option Text :=
  if p.isPrefixOf s = true then some (s.drop p.length) else none

/-- `parse_invoke`. -/
def parseInvoke (line : Text) : Option Text := do
  let rest ← stripText PROGRAM line
  let (who, tail) ← splitOnce ' ' rest
  if INVOKE.isPrefixOf tail = true then some who else none

/-- `parse_terminator`. -/
def parseTerminator (line : Text) : Option Text := do
  let rest ← stripText PROGRAM line
  let (who, tail) ← splitOnce ' ' rest
  if tail = SUCCESS ∨ FAILED.isPrefixOf tail = true then some who else none

/-- One line: the stack, its top first, and the lines picked out. -/
def readLine (programId : Text) (st : List Text × List Text) (line : Text) :
    List Text × List Text :=
  let line := trim line
  match parseInvoke line with
  | some who => (who :: st.1, st.2)
  | none =>
    match parseTerminator line with
    | some _ => (st.1.tail, st.2)
    | none =>
      if PROGRAM_DATA_PREFIX.isPrefixOf line = true ∧ st.1.head? = some programId then
        (st.1, st.2 ++ [line])
      else st

/-- `gate_program_data_lines`. -/
def gateProgramDataLines (logs : List Text) (programId : Text) : List Text :=
  (logs.foldl (readLine programId) ([], [])).2

/-- What a line looks like to it. -/
def read (line : Text) : Event Text Text :=
  match parseInvoke (trim line) with
  | some who => .push who
  | none =>
    match parseTerminator (trim line) with
    | some _ => .pop
    | none => if PROGRAM_DATA_PREFIX.isPrefixOf (trim line) = true then .emit (trim line) else .skip

theorem readLine_eq (programId : Text) (st : List Text × List Text) (line : Text) :
    readLine programId st line = step programId st (read line) := by
  unfold readLine read
  dsimp only
  split
  · rw [step]
  · split
    · rw [step]
    · split_ifs with hboth hdata hdata
      · rw [step, if_pos hboth.2]
      · exact absurd hboth.1 hdata
      · rw [step, if_neg fun htop => hboth ⟨hdata, htop⟩]
      · rw [step]

theorem gateProgramDataLines_eq (logs : List Text) (programId : Text) :
    gateProgramDataLines logs programId = (run programId ([], []) (logs.map read)).2 := by
  have hstep : readLine programId = fun st line => step programId st (read line) := by
    funext st line
    exact readLine_eq programId st line
  rw [gateProgramDataLines, run, List.foldl_map, hstep]

/-! ### What the runtime prints -/

/-- A character of a public key in base 58. -/
def isBase58 (c : Char) : Bool := isAlphanumeric c && c != '0' && c != 'O' && c != 'I' && c != 'l'

/-- The name of a program: a public key. -/
abbrev ProgramId := { s : Text // s.all isBase58 = true }

/-- `Program <id> invoke [<depth>]`. -/
def invokeLine (who : ProgramId) (depth : ℕ) : Text :=
  PROGRAM ++ (who.1 ++ ' ' :: (INVOKE ++ (decimalText depth ++ [']'])))

/-- `Program <id> consumed <units>`. -/
def consumedLine (who : ProgramId) (units : Text) : Text :=
  PROGRAM ++ (who.1 ++ ' ' :: (CONSUME ++ 'd' :: ' ' :: units))

/-- `Program <id> success`, or `Program <id> failed: <why>`. -/
def endLine (who : ProgramId) : Option Text → Text
  | none => PROGRAM ++ (who.1 ++ ' ' :: SUCCESS)
  | some why => PROGRAM ++ (who.1 ++ ' ' :: (FAILED ++ ':' :: ' ' :: why))

/-- `Program log: <text>`. -/
def logLine (text : Text) : Text := PROGRAM ++ (LOG ++ ':' :: ' ' :: text)

/-- `Program data: <text>`. -/
def dataLine (text : Text) : Text := PROGRAM ++ (DATA ++ ':' :: ' ' :: text)

/-- **What happens in a transaction**: programs print, and invoke each other. -/
inductive Trace
  | done
  | log (text : Text) (next : Trace)
  | data (text : Text) (next : Trace)
  /-- An invocation, with the units it consumed if they are printed and the reason it failed if it
  did. -/
  | invoke (who : ProgramId) (body : Trace) (consumed failed : Option Text) (next : Trace)

namespace Trace

/-- The log. -/
def lines (depth : ℕ) : Trace → List Text
  | done => []
  | log text next => logLine text :: next.lines depth
  | data text next => dataLine text :: next.lines depth
  | invoke who body consumed failed next =>
    invokeLine who depth :: (body.lines (depth + 1) ++ ((consumed.map (consumedLine who)).toList ++
      endLine who failed :: next.lines depth))

/-- The data lines that the frames of a program print, if this is in one of its own or not. -/
def dataOf (gate : ProgramId) (mine : Bool) : Trace → List Text
  | done => []
  | log _ next => next.dataOf gate mine
  | data text next =>
    if mine = true then dataLine text :: next.dataOf gate mine else next.dataOf gate mine
  | invoke who body _ _ next => body.dataOf gate (decide (who = gate)) ++ next.dataOf gate mine

end Trace

/-! ### Texts, trimmed -/

/-- `str::trim_end`. -/
def trimEnd (s : Text) : Text := (s.reverse.dropWhile isWhitespace).reverse

theorem trimEnd_isPrefix (s : Text) : trimEnd s <+: s := by
  have hsuffix := List.dropWhile_suffix (l := s.reverse) isWhitespace
  rw [← List.reverse_prefix, List.reverse_reverse] at hsuffix
  exact hsuffix

/-- Between two characters that stay, nothing is trimmed. -/
theorem trim_append {c d : Char} (mid t : Text) (hc : isWhitespace c = false)
    (hd : isWhitespace d = false) :
    trim (c :: (mid ++ [d]) ++ t) = c :: (mid ++ [d]) ++ trimEnd t := by
  have hstart : (c :: (mid ++ [d]) ++ t).dropWhile isWhitespace = c :: (mid ++ [d]) ++ t := by
    rw [List.cons_append, List.dropWhile_cons_of_neg (by rw [hc]; exact Bool.false_ne_true)]
  have hrev : (c :: (mid ++ [d])).reverse = d :: (mid.reverse ++ [c]) := by
    simp only [List.reverse_cons, List.reverse_append, List.reverse_nil, List.nil_append,
      List.cons_append]
  rw [trim, hstart, List.reverse_append, List.dropWhile_append, hrev,
    List.dropWhile_cons_of_neg (by rw [hd]; exact Bool.false_ne_true), ← hrev]
  split
  · next hempty =>
    rw [trimEnd, List.isEmpty_iff.mp hempty, List.reverse_nil, List.append_nil,
      List.reverse_reverse]
  · rw [trimEnd, List.reverse_append, List.reverse_reverse]

theorem stripText_append (p s : Text) : stripText p (p ++ s) = some s := by
  have hfront : p.isPrefixOf (p ++ s) = true := List.isPrefixOf_iff_prefix.mpr ⟨s, rfl⟩
  rw [stripText, if_pos hfront, List.drop_left]

theorem splitOnce_append {c : Char} {s : Text} (hs : c ∉ s) (t : Text) :
    splitOnce c (s ++ c :: t) = some (s, t) := by
  induction s with
  | nil => rw [List.nil_append, splitOnce, if_pos rfl]
  | cons d s ih =>
    have hd : d ≠ c := fun heq => hs (heq ▸ List.mem_cons_self)
    rw [List.cons_append, splitOnce, if_neg hd, ih fun hmem => hs (List.mem_cons_of_mem _ hmem),
      Option.map_some]

theorem splitOnce_of_notMem {c : Char} {s : Text} (hs : c ∉ s) : splitOnce c s = none := by
  induction s with
  | nil => rfl
  | cons d s ih =>
    have hd : d ≠ c := fun heq => hs (heq ▸ List.mem_cons_self)
    rw [splitOnce, if_neg hd, ih fun hmem => hs (List.mem_cons_of_mem _ hmem), Option.map_none]

/-! ### How the lines read -/

theorem parseInvoke_eq {who : Text} (hwho : ' ' ∉ who) (tail : Text) :
    parseInvoke (PROGRAM ++ (who ++ ' ' :: tail)) =
      if INVOKE.isPrefixOf tail = true then some who else none := by
  simp only [parseInvoke, stripText_append, splitOnce_append hwho, Option.bind_eq_bind,
    Option.bind_some]

theorem parseTerminator_eq {who : Text} (hwho : ' ' ∉ who) (tail : Text) :
    parseTerminator (PROGRAM ++ (who ++ ' ' :: tail)) =
      if tail = SUCCESS ∨ FAILED.isPrefixOf tail = true then some who
      else none := by
  simp only [parseTerminator, stripText_append, splitOnce_append hwho, Option.bind_eq_bind,
    Option.bind_some]

/-- No public key has a blank in it, or a colon. -/
theorem ProgramId.notMem (who : ProgramId) {c : Char} (hc : isBase58 c = false) : c ∉ who.1 :=
  fun hmem => by
    have hall := List.all_eq_true.mp who.2 c hmem
    rw [hc] at hall
    exact absurd hall Bool.false_ne_true

/-- Up to its last character that stays, such a line is not trimmed. -/
theorem trim_line (who w : Text) {d : Char} (t : Text) (hd : isWhitespace d = false) :
    trim (PROGRAM ++ (who ++ ' ' :: (w ++ d :: t))) =
      PROGRAM ++ (who ++ ' ' :: (w ++ d :: trimEnd t)) := by
  have hprogram : PROGRAM = 'P' :: PROGRAM.tail := rfl
  have hline := trim_append (PROGRAM.tail ++ (who ++ ' ' :: w)) t
    (show isWhitespace 'P' = false by decide) hd
  rw [hprogram]
  simpa only [List.append_assoc, List.cons_append, List.nil_append] using hline

/-- How it reads is decided by what follows the second blank. -/
theorem read_line {who w : Text} {d : Char} (t : Text) (hwho : ' ' ∉ who)
    (hd : isWhitespace d = false) :
    read (PROGRAM ++ (who ++ ' ' :: (w ++ d :: t))) =
      if INVOKE.isPrefixOf (w ++ d :: trimEnd t) = true then .push who
      else if w ++ d :: trimEnd t = SUCCESS ∨
        FAILED.isPrefixOf (w ++ d :: trimEnd t) = true then .pop
      else if PROGRAM_DATA_PREFIX.isPrefixOf
        (PROGRAM ++ (who ++ ' ' :: (w ++ d :: trimEnd t))) = true then
        .emit (PROGRAM ++ (who ++ ' ' :: (w ++ d :: trimEnd t)))
      else .skip := by
  rw [read, trim_line who w t hd, parseInvoke_eq hwho, parseTerminator_eq hwho]
  split_ifs with hinvoke hend hdata <;> rfl

theorem read_invokeLine (who : ProgramId) (depth : ℕ) :
    read (invokeLine who depth) = .push who.1 := by
  have hline : invokeLine who depth = PROGRAM ++ (who.1 ++ ' ' ::
      (INVOKE ++ decimalText depth ++ ']' :: [])) := by
    simp only [invokeLine, List.append_assoc]
  rw [hline, read_line [] (who.notMem (by decide)) (by decide), List.append_assoc,
    if_pos (List.isPrefixOf_iff_prefix.mpr (List.prefix_append _ _))]

theorem read_endLine (who : ProgramId) (failed : Option Text) :
    read (endLine who failed) = .pop := by
  cases failed with
  | none =>
    have hline : endLine who none = PROGRAM ++ (who.1 ++ ' ' ::
        (['s', 'u', 'c', 'c', 'e', 's'] ++ 's' :: [])) := rfl
    have hinvoke :
        INVOKE.isPrefixOf (['s', 'u', 'c', 'c', 'e', 's'] ++ 's' :: trimEnd []) = false := rfl
    have hsuccess : ['s', 'u', 'c', 'c', 'e', 's'] ++ 's' :: trimEnd [] = SUCCESS := by decide
    rw [hline, read_line [] (who.notMem (by decide)) (by decide), hinvoke,
      if_neg Bool.false_ne_true, if_pos (.inl hsuccess)]
  | some why =>
    have hline : endLine who (some why) = PROGRAM ++ (who.1 ++ ' ' ::
        (FAILED ++ ':' :: (' ' :: why))) := rfl
    have hinvoke : INVOKE.isPrefixOf
        (FAILED ++ ':' :: trimEnd (' ' :: why)) = false := rfl
    rw [hline, read_line (' ' :: why) (who.notMem (by decide)) (by decide), hinvoke,
      if_neg Bool.false_ne_true,
      if_pos (.inr (List.isPrefixOf_iff_prefix.mpr (List.prefix_append _ _)))]

/-- Only the lines of a program called so begin as lines of data do. -/
theorem not_data {who : Text} (hwho : ':' ∉ who) (tail : Text) :
    ¬PROGRAM_DATA_PREFIX.isPrefixOf (PROGRAM ++ (who ++ ' ' :: tail)) = true := by
  intro h
  have hdata : PROGRAM_DATA_PREFIX = PROGRAM ++ (DATA ++ [':']) := rfl
  rw [List.isPrefixOf_iff_prefix, hdata, List.prefix_append_right_inj] at h
  have hfront : who ++ [' '] <+: who ++ ' ' :: tail := ⟨tail, by rw [List.append_assoc]; rfl⟩
  rcases List.prefix_or_prefix_of_prefix h hfront with hle | hle
  · have hmem : ':' ∈ who ++ [' '] := hle.subset (by decide)
    rcases List.mem_append.mp hmem with hmem | hmem
    · exact hwho hmem
    · exact absurd hmem (by decide)
  · have hmem : ' ' ∈ DATA ++ [':'] :=
      hle.subset (List.mem_append_right _ (List.mem_singleton_self _))
    exact absurd hmem (by decide)

theorem read_consumedLine (who : ProgramId) (units : Text) :
    read (consumedLine who units) = .skip := by
  have hline : consumedLine who units = PROGRAM ++ (who.1 ++ ' ' ::
      (CONSUME ++ 'd' :: (' ' :: units))) := rfl
  have hinvoke : INVOKE.isPrefixOf
      (CONSUME ++ 'd' :: trimEnd (' ' :: units)) = false := rfl
  have hfailed : FAILED.isPrefixOf
      (CONSUME ++ 'd' :: trimEnd (' ' :: units)) = false := rfl
  have hsuccess : CONSUME ++ 'd' :: trimEnd (' ' :: units) ≠ SUCCESS := fun heq =>
    absurd (List.cons.inj heq).1 (by decide)
  rw [hline, read_line (' ' :: units) (who.notMem (by decide)) (by decide), hinvoke, hfailed,
    if_neg Bool.false_ne_true, if_neg (not_or_intro hsuccess Bool.false_ne_true),
    if_neg (not_data (who.notMem (by decide)) _)]

/-! ### What programs print -/

/-- **A line that reads as a bracket.** -/
def Imitates (line : Text) : Prop :=
  (parseInvoke (trim line)).isSome = true ∨ (parseTerminator (trim line)).isSome = true

instance (line : Text) : Decidable (Imitates line) := inferInstanceAs (Decidable (_ ∨ _))

/-- A line that a program prints, after a word. -/
def printed (word text : Text) : Text := PROGRAM ++ (word ++ ':' :: ' ' :: text)

theorem logLine_eq (text : Text) : logLine text = printed LOG text := rfl

theorem dataLine_eq (text : Text) : dataLine text = printed DATA text := rfl

theorem trimEnd_blank (text : Text) : trimEnd (' ' :: text) = [] ∨
    trimEnd (' ' :: text) = ' ' :: trimEnd text := by
  rw [trimEnd, List.reverse_cons, List.dropWhile_append]
  split
  · exact .inl rfl
  · refine .inr ?_
    rw [List.reverse_append, List.reverse_singleton, trimEnd]
    rfl

theorem trim_printed (word text : Text) : trim (printed word text) =
    PROGRAM ++ (word ++ ':' :: trimEnd (' ' :: text)) := by
  have hprogram : PROGRAM = 'P' :: PROGRAM.tail := rfl
  have hline := trim_append (PROGRAM.tail ++ word) (' ' :: text)
    (show isWhitespace 'P' = false by decide) (show isWhitespace ':' = false by decide)
  rw [printed, hprogram]
  simpa only [List.append_assoc, List.cons_append, List.nil_append] using hline

variable {word text who : Text}

/-- The two words of such a line, if there are two. -/
theorem split_printed (hword : ' ' ∉ word) {tail : Text}
    (h : (stripText PROGRAM (trim (printed word text))).bind (splitOnce ' ') =
      some (who, tail)) : who = word ++ [':'] ∧ tail = trimEnd text := by
  have hcolon : ' ' ∉ word ++ [':'] := fun hmem => by
    rcases List.mem_append.mp hmem with hmem | hmem
    · exact hword hmem
    · exact absurd hmem (by decide)
  rw [trim_printed, stripText_append, Option.bind_some] at h
  rcases trimEnd_blank text with hblank | hblank
  · rw [hblank, splitOnce_of_notMem hcolon] at h
    exact absurd h (by simp)
  · have hsplit : word ++ ':' :: ' ' :: trimEnd text = (word ++ [':']) ++ ' ' :: trimEnd text := by
      rw [List.append_assoc]
      rfl
    rw [hblank, hsplit, splitOnce_append hcolon, Option.some.injEq, Prod.mk.injEq] at h
    exact ⟨h.1.symm, h.2.symm⟩

/-- It reads as a beginning only if its text does, and then of a program called by the word. -/
theorem parseInvoke_printed (hword : ' ' ∉ word)
    (h : parseInvoke (trim (printed word text)) = some who) :
    who = word ++ [':'] ∧ INVOKE <+: text := by
  simp only [parseInvoke, Option.bind_eq_bind, Option.bind_eq_some_iff] at h
  obtain ⟨rest, hrest, ⟨w, tail⟩, hsplit, h⟩ := h
  obtain ⟨hinvoke, h⟩ := Option.ite_none_right_eq_some.mp h
  obtain ⟨rfl, rfl⟩ := split_printed hword (Option.bind_eq_some_iff.mpr ⟨rest, hrest, hsplit⟩)
  exact ⟨(Option.some.inj h).symm,
    (List.isPrefixOf_iff_prefix.mp hinvoke).trans (trimEnd_isPrefix text)⟩

/-- And as an end only if its text does. -/
theorem parseTerminator_printed (hword : ' ' ∉ word)
    (h : parseTerminator (trim (printed word text)) = some who) :
    SUCCESS <+: text ∨ FAILED <+: text := by
  simp only [parseTerminator, Option.bind_eq_bind, Option.bind_eq_some_iff] at h
  obtain ⟨rest, hrest, ⟨w, tail⟩, hsplit, h⟩ := h
  obtain ⟨hend, -⟩ := Option.ite_none_right_eq_some.mp h
  obtain ⟨-, rfl⟩ := split_printed hword (Option.bind_eq_some_iff.mpr ⟨rest, hrest, hsplit⟩)
  rcases hend with hsuccess | hfailed
  · exact .inl (hsuccess ▸ trimEnd_isPrefix text)
  · exact .inr ((List.isPrefixOf_iff_prefix.mp hfailed).trans (trimEnd_isPrefix text))

/-- So a line reads as a bracket only if its text begins as one of three. -/
theorem prefix_of_imitates (hword : ' ' ∉ word) (h : Imitates (printed word text)) :
    ∃ p ∈ [INVOKE, SUCCESS, FAILED], p <+: text := by
  rcases h with h | h
  · obtain ⟨who, hwho⟩ := Option.isSome_iff_exists.mp h
    exact ⟨_, by simp, (parseInvoke_printed hword hwho).2⟩
  · obtain ⟨who, hwho⟩ := Option.isSome_iff_exists.mp h
    rcases parseTerminator_printed hword hwho with hp | hp
    · exact ⟨_, by simp, hp⟩
    · exact ⟨_, by simp, hp⟩

theorem read_printed (h : ¬Imitates (printed word text)) : read (printed word text) =
    if PROGRAM_DATA_PREFIX.isPrefixOf (trim (printed word text)) = true then
      .emit (trim (printed word text))
    else .skip := by
  obtain ⟨hinvoke, hend⟩ := not_or.mp h
  rw [Bool.not_eq_true, Option.isSome_eq_false_iff, Option.isNone_iff_eq_none] at hinvoke hend
  rw [read, hinvoke, hend]

/-- A logged text that is no bracket is of no interest. -/
theorem read_logLine (h : ¬Imitates (logLine text)) : read (logLine text) = .skip := by
  rw [logLine_eq] at h ⊢
  rw [read_printed h, trim_printed]
  refine if_neg fun hdata => ?_
  have hfront : PROGRAM_DATA_PREFIX = PROGRAM ++ (DATA ++ [':']) := rfl
  rw [List.isPrefixOf_iff_prefix, hfront, List.prefix_append_right_inj] at hdata
  obtain ⟨t, ht⟩ := hdata
  exact absurd (List.cons.inj ht).1 (by decide)

/-- And data that is none is data. -/
theorem read_dataLine (h : ¬Imitates (dataLine text)) :
    read (dataLine text) = .emit (trim (dataLine text)) := by
  rw [dataLine_eq] at h ⊢
  rw [read_printed h]
  refine if_pos (List.isPrefixOf_iff_prefix.mpr ⟨trimEnd (' ' :: text), ?_⟩)
  rw [trim_printed, PROGRAM_DATA_PREFIX, List.append_assoc, List.append_assoc]
  rfl

/-- No line that a program prints reads as the beginning of a frame of a public key. -/
theorem read_printed_ne_push (hword : ' ' ∉ word) (gate : ProgramId) :
    read (printed word text) ≠ .push gate.1 := by
  intro h
  unfold read at h
  split at h
  · next who hwho =>
    obtain ⟨hname, -⟩ := parseInvoke_printed hword hwho
    obtain rfl := Event.push.inj h
    have hmem : ':' ∈ gate.1 := by
      rw [hname]
      exact List.mem_append_right _ (List.mem_singleton_self _)
    exact gate.notMem (by decide) hmem
  · split at h
    · cases h
    · split at h <;> cases h

/-! ### The gate's own messages -/

/-- The words that the gate's messages begin with. -/
def gateOpenings : List Text :=
  [['g', 'o', 'v', 'e', 'r', 'n', 'a', 'n', 'c', 'e'], ['c', 'o', 'n', 'f', 'i', 'g'],
   ['s', 'e', 'n', 't'], ['a', 's', 's', 'e', 't'], ['v', 'a', 'u', 'l', 't'],
   ['t', 'o', 'k', 'e', 'n'], ['r', 'e', 'c', 'e', 'i', 'v', 'e', 'r'], ['i', 'n', 'i', 't', ':'],
   ['t', 'h', 'r', 'e', 's', 'h', 'o', 'l', 'd'], ['c', 'h', 'a', 'i', 'n', '_', 'i', 'd'],
   ['S', 'c', 'h', 'e', 'd', 'u', 'l', 'e', 'G', 'o', 'v', 'e', 'r', 'n', 'a', 'n', 'c', 'e'],
   ['s', 'c', 'h', 'e', 'd', 'u', 'l', 'e', ':'], ['C', 'A', 'N', 'C', 'E', 'L', 'L', 'E', 'D'],
   ['r', 'e', 'f', 'u', 'n', 'd'], ['R', 'E', 'F', 'U', 'N', 'D', 'E', 'D'],
   ['b', 'r', 'i', 'd', 'g', 'e', '_', 'd', 'o', 'm', 'a', 'i', 'n'], ['g', 'a', 't', 'e'],
   ['s', 'e', 't', 'u', 'p'], ['c', 'o', 'r', 'r', 'i', 'd', 'o', 'r'], ['w', 'i', 'r', 'e'],
   ['C', 'L', 'A', 'I', 'M', 'E', 'D'], ['r', 'e', 'g', 'i', 's', 't', 'e', 'r', ':'],
   ['l', 'e', 'g', 'a', 'c', 'y']]

/-- The tags of the gate's events in base 64: `BRIDGE_SENT`, `BRIDGE_CANCELLED` and
`BRIDGE_REFUNDED`. -/
def gateTags : List Text :=
  [['Q', 'l', 'J', 'J', 'R', 'E', 'd', 'F', 'X', '1', 'N', 'F', 'T', 'l', 'Q', '='],
   ['Q', 'l', 'J', 'J', 'R', 'E', 'd', 'F', 'X', '0', 'N', 'B', 'T', 'k', 'N', 'F', 'T', 'E', 'x',
     'F', 'R', 'A', '=', '='],
   ['Q', 'l', 'J', 'J', 'R', 'E', 'd', 'F', 'X', '1', 'J', 'F', 'R', 'l', 'V', 'O', 'R', 'E', 'V',
     'E']]

/-- The words that the token program's messages begin with. -/
def tokenOpenings : List Text :=
  [['I', 'n', 's', 't', 'r', 'u', 'c', 't', 'i', 'o', 'n', ':'], ['E', 'r', 'r', 'o', 'r', ':']]

/-- A character in base 64. -/
def isBase64 (c : Char) : Bool := isAlphanumeric c || c == '+' || c == '/' || c == '='

/-- Does a text begin with one of some words? -/
def Opens (openings : List Text) (text : Text) : Prop := ∃ w ∈ openings, w <+: text

/-- The data of an event: its tag, and what it holds. -/
def GateData (text : Text) : Prop :=
  ∃ tag ∈ gateTags, ∃ payload, text = tag ++ ' ' :: payload ∧ payload ≠ [] ∧
    payload.all isBase64 = true

/-- **None of these messages reads as a bracket.** -/
theorem not_imitates_of_opens {openings : List Text} (hword : ' ' ∉ word)
    (hall : (openings.all fun w => [INVOKE, SUCCESS, FAILED].all fun p =>
      !w.isPrefixOf p && !p.isPrefixOf w) = true)
    (h : Opens openings text) : ¬Imitates (printed word text) := by
  intro himitates
  obtain ⟨w, hw, hwt⟩ := h
  obtain ⟨p, hp, hpt⟩ := prefix_of_imitates hword himitates
  have hpair := List.all_eq_true.mp (List.all_eq_true.mp hall w hw) p hp
  rw [Bool.and_eq_true, Bool.not_eq_true', Bool.not_eq_true'] at hpair
  rcases List.prefix_or_prefix_of_prefix hwt hpt with hle | hle
  · exact absurd (List.isPrefixOf_iff_prefix.mpr hle) (by rw [hpair.1]; exact Bool.false_ne_true)
  · exact absurd (List.isPrefixOf_iff_prefix.mpr hle) (by rw [hpair.2]; exact Bool.false_ne_true)

theorem not_imitates_gateLog (h : Opens gateOpenings text) : ¬Imitates (logLine text) :=
  not_imitates_of_opens (by decide) (by decide) h

theorem not_imitates_tokenLog (h : Opens tokenOpenings text) : ¬Imitates (logLine text) :=
  not_imitates_of_opens (by decide) (by decide) h

theorem GateData.not_imitates (h : GateData text) : ¬Imitates (dataLine text) := by
  obtain ⟨tag, htag, payload, rfl, -⟩ := h
  have hopens : Opens gateTags (tag ++ ' ' :: payload) := ⟨tag, htag, List.prefix_append _ _⟩
  exact not_imitates_of_opens (by decide) (by decide) hopens

theorem isWhitespace_of_isBase64 {c : Char} (h : isBase64 c = true) : isWhitespace c = false := by
  have halpha : c.isAlpha = (c.isUpper || c.isLower) := rfl
  have hupper : c.isUpper = decide (c.val ≥ 'A'.val ∧ c.val ≤ 'Z'.val) := rfl
  have hlower : c.isLower = (decide (c.val ≥ 'a'.val) && decide (c.val ≤ 'z'.val)) := rfl
  have hrange : 43 ≤ c.toNat ∧ c.toNat ≤ 122 := by
    simp only [isBase64, isAlphanumeric, Char.isAlphanum, halpha, hupper, hlower, Char.isDigit,
      Bool.or_eq_true, Bool.and_eq_true, decide_eq_true_eq, beq_iff_eq,
      UInt32.le_iff_toNat_le, ge_iff_le, Char.toNat_val] at h
    rcases h with ((((h | h) | h) | rfl) | rfl) | rfl
    · exact ⟨le_trans (by decide) h.1, h.2.trans (by decide)⟩
    · exact ⟨le_trans (by decide) h.1, h.2.trans (by decide)⟩
    · exact ⟨le_trans (by decide) h.1, h.2.trans (by decide)⟩
    · decide
    · decide
    · decide
  simp only [isWhitespace, Bool.or_eq_false_iff, Bool.and_eq_false_iff, decide_eq_false_iff_not,
    beq_eq_false_iff_ne]
  omega

theorem trimEnd_concat (s : Text) {d : Char} (hd : isWhitespace d = false) :
    trimEnd (s ++ [d]) = s ++ [d] := by
  have hkept : (d :: s.reverse).dropWhile isWhitespace = d :: s.reverse :=
    List.dropWhile_cons_of_neg (by rw [hd]; exact Bool.false_ne_true)
  rw [trimEnd, List.reverse_append, List.reverse_singleton, List.singleton_append, hkept,
    List.reverse_cons, List.reverse_reverse]

/-- An event's line has nothing to trim. -/
theorem GateData.trim_eq (h : GateData text) : trim (dataLine text) = dataLine text := by
  obtain ⟨tag, htag, payload, rfl, hne, hall⟩ := h
  have hlast : isWhitespace (payload.getLast hne) = false :=
    isWhitespace_of_isBase64 (List.all_eq_true.mp hall _ (List.getLast_mem hne))
  have htext : ' ' :: (tag ++ ' ' :: payload) =
      (' ' :: (tag ++ ' ' :: payload.dropLast)) ++ [payload.getLast hne] := by
    rw [List.cons_append, List.append_assoc, List.cons_append, List.dropLast_append_getLast hne]
  rw [dataLine_eq, trim_printed, htext, trimEnd_concat _ hlast, ← htext]
  rfl

/-! ### Who prints what -/

namespace Trace

/-- The gate and the token program print their own messages, whoever else prints what. -/
def Spoken (gate token : ProgramId) (messages : Set Text) (who : Option ProgramId) : Trace → Prop
  | done => True
  | log text next =>
    ((who = some gate → Opens gateOpenings text) ∧ (who = some token → text ∈ messages)) ∧
      next.Spoken gate token messages who
  | data text next =>
    ((who = some gate → GateData text) ∧ who ≠ some token) ∧ next.Spoken gate token messages who
  | invoke w body _ _ next =>
    body.Spoken gate token messages (some w) ∧ next.Spoken gate token messages who

/-- No other program prints a line that reads as a bracket inside a frame of the gate. -/
def Unspoofed (gate token : ProgramId) (inside : Bool) (who : Option ProgramId) : Trace → Prop
  | done => True
  | log text next =>
    (inside = true → who ≠ some gate → who ≠ some token → ¬Imitates (logLine text)) ∧
      next.Unspoofed gate token inside who
  | data text next =>
    (inside = true → who ≠ some gate → who ≠ some token → ¬Imitates (dataLine text)) ∧
      next.Unspoofed gate token inside who
  | invoke w body _ _ next =>
    body.Unspoofed gate token (inside || decide (w = gate)) (some w) ∧
      next.Unspoofed gate token inside who

/-- The line of what was consumed, if there is one. -/
def consumedCalls (who : ProgramId) : Option Text → Calls Text Text
  | none => .done
  | some units => .say (read (consumedLine who units)) .done

/-- The calls, with how their lines read. -/
def calls : Trace → Calls Text Text
  | done => .done
  | log text next => .say (read (logLine text)) next.calls
  | data text next => .say (read (dataLine text)) next.calls
  | invoke who body consumed _ next =>
    .call who.1 (body.calls.append (consumedCalls who consumed)) next.calls

/-- **The log reads as the calls.** -/
theorem map_read_lines (t : Trace) (depth : ℕ) : (t.lines depth).map read = t.calls.events := by
  induction t generalizing depth with
  | done => rfl
  | log text next ih => rw [lines, calls, Calls.events, List.map_cons, ih]
  | data text next ih => rw [lines, calls, Calls.events, List.map_cons, ih]
  | invoke who body consumed failed next ihbody ihnext =>
    have hconsumed : ((consumed.map (consumedLine who)).toList).map read =
        (consumedCalls who consumed).events := by
      cases consumed <;> rfl
    rw [lines, calls, Calls.events, Calls.events_append, List.map_cons, List.map_append,
      List.map_append, List.map_cons, ihbody, ihnext, hconsumed, read_invokeLine, read_endLine,
      List.append_assoc]

variable {gate token : ProgramId} {messages : Set Text} {who : Option ProgramId} {t : Trace}

/-- Inside a frame of the gate nothing printed reads as a bracket. -/
theorem quiet_calls (hmessages : ∀ m ∈ messages, Opens tokenOpenings m)
    (hspoken : t.Spoken gate token messages who) (h : t.Unspoofed gate token true who) :
    t.calls.Quiet := by
  have hquiet : ∀ line, ¬Imitates line → (∀ i, read line ≠ .push i) ∧ read line ≠ .pop := by
    intro line hline
    obtain ⟨hinvoke, hend⟩ := not_or.mp hline
    rw [Bool.not_eq_true, Option.isSome_eq_false_iff, Option.isNone_iff_eq_none] at hinvoke hend
    rw [read, hinvoke, hend]
    dsimp only
    split <;> exact ⟨fun i => by simp, by simp⟩
  induction t generalizing who with
  | done => trivial
  | log text next ih =>
    refine ⟨hquiet _ ?_, ih hspoken.2 h.2⟩
    by_cases hgate : who = some gate
    · exact not_imitates_gateLog (hspoken.1.1 hgate)
    · by_cases htoken : who = some token
      · exact not_imitates_tokenLog (hmessages _ (hspoken.1.2 htoken))
      · exact h.1 rfl hgate htoken
  | data text next ih =>
    refine ⟨hquiet _ ?_, ih hspoken.2 h.2⟩
    by_cases hgate : who = some gate
    · exact (hspoken.1.1 hgate).not_imitates
    · exact h.1 rfl hgate hspoken.1.2
  | invoke w body consumed failed next ihbody ihnext =>
    refine ⟨Calls.quiet_append.mpr ⟨ihbody hspoken.1 h.1, ?_⟩, ihnext hspoken.2 h.2⟩
    cases consumed with
    | none => trivial
    | some units =>
      refine ⟨?_, trivial⟩
      rw [read_consumedLine]
      exact ⟨fun i => by simp, by simp⟩

/-- Outside, nothing printed reads as the beginning of one. -/
theorem guarded_calls (hmessages : ∀ m ∈ messages, Opens tokenOpenings m)
    (hspoken : t.Spoken gate token messages who) (h : t.Unspoofed gate token false who) :
    t.calls.Guarded gate.1 := by
  induction t generalizing who with
  | done => trivial
  | log text next ih =>
    have hlog : ' ' ∉ LOG := by decide
    exact ⟨read_printed_ne_push hlog gate, ih hspoken.2 h.2⟩
  | data text next ih =>
    have hdata : ' ' ∉ DATA := by decide
    exact ⟨read_printed_ne_push hdata gate, ih hspoken.2 h.2⟩
  | invoke w body consumed failed next ihbody ihnext =>
    refine ⟨⟨fun hw => ?_, fun hw => ?_⟩, ihnext hspoken.2 h.2⟩
    · obtain rfl : w = gate := Subtype.ext hw
      have hinside := h.1
      rw [decide_eq_true rfl, Bool.or_true] at hinside
      have hquiet : (invoke w body consumed failed done).calls.Quiet :=
        @quiet_calls w token messages who _ hmessages ⟨hspoken.1, trivial⟩
          ⟨by rw [Bool.true_or]; exact hinside, trivial⟩
      exact hquiet.1
    · have hne : w ≠ gate := fun heq => hw (congrArg Subtype.val heq)
      have houtside := h.1
      rw [decide_eq_false hne, Bool.or_false] at houtside
      refine Calls.guarded_append.mpr ⟨ihbody hspoken.1 houtside, ?_⟩
      cases consumed with
      | none => trivial
      | some units =>
        refine ⟨?_, trivial⟩
        rw [read_consumedLine]
        simp

/-- **What the gate is to be found to have said is its data.** -/
theorem saidBy_calls (mine : Bool) (hmine : mine = true ↔ who = some gate)
    (hspoken : t.Spoken gate token messages who) :
    t.calls.saidBy gate.1 mine = t.dataOf gate mine := by
  induction t generalizing who mine with
  | done => rfl
  | log text next ih =>
    have hnext := ih mine hmine hspoken.2
    cases mine with
    | true =>
      have hgate := not_imitates_gateLog (hspoken.1.1 (hmine.mp rfl))
      rw [calls, read_logLine hgate, Calls.saidBy, hnext, dataOf]
      exact fun b hb => by cases hb
    | false =>
      rw [dataOf, ← hnext, calls]
      cases hread : read (logLine text) <;> simp [Calls.saidBy]
  | data text next ih =>
    have hnext := ih mine hmine hspoken.2
    cases mine with
    | true =>
      have hgate := hspoken.1.1 (hmine.mp rfl)
      rw [calls, read_dataLine hgate.not_imitates, hgate.trim_eq, Calls.saidBy, hnext, dataOf,
        if_pos rfl]
    | false =>
      rw [dataOf, if_neg Bool.false_ne_true, ← hnext, calls]
      cases hread : read (dataLine text) <;> simp [Calls.saidBy]
  | invoke w body consumed failed next ihbody ihnext =>
    have hconsumed : (consumedCalls w consumed).saidBy gate.1 (decide (w.1 = gate.1)) = [] := by
      cases consumed with
      | none => rfl
      | some units => simp [consumedCalls, read_consumedLine, Calls.saidBy]
    have hdecide : decide (w.1 = gate.1) = decide (w = gate) := by
      rw [decide_eq_decide, Subtype.ext_iff]
    rw [calls, Calls.saidBy, Calls.saidBy_append, hconsumed, List.append_nil, hdecide,
      ihbody _ (by simp) hspoken.1, ihnext mine hmine hspoken.2, dataOf]

end Trace

/-! ### Attribution -/

/-- A program that the gate invokes prints a text and some data, before the gate prints its own. -/
def spoiled (gate who : ProgramId) (text : Text) : Trace :=
  .invoke gate (.invoke who (.log text (.data ['x'] .done)) none none (.data event .done)) none none
    .done
where
  /-- Data as the gate prints it. -/
  event : Text := ['Q', 'l', 'J', 'J', 'R', 'E', 'd', 'F', 'X', '1', 'N', 'F', 'T', 'l', 'Q', '=',
    ' ', 'A', 'g', '=', '=']

theorem gateData_event : GateData spoiled.event :=
  ⟨_, List.mem_cons_self, ['A', 'g', '=', '='], rfl, by decide, by decide⟩

/-- A bracket is read as the beginning of a frame of another program, or as an end. -/
theorem read_of_imitates (h : Imitates (logLine text)) :
    read (logLine text) = .push (LOG ++ [':']) ∨ read (logLine text) = .pop := by
  rw [logLine_eq] at h ⊢
  rw [read]
  rcases hinvoke : parseInvoke (trim (printed LOG text)) with _ | name
  · rcases h with h | h
    · rw [hinvoke] at h
      exact absurd h Bool.false_ne_true
    · obtain ⟨name, hend⟩ := Option.isSome_iff_exists.mp h
      rw [hend]
      exact .inr rfl
  · rw [(parseInvoke_printed (by decide) hinvoke).1]
    exact .inl rfl

/-- **The gate is found to have printed exactly its own data**, if no other program that runs inside
a frame of it prints a line that reads as a bracket. And each such line can spoil it: there is a
transaction where it is the only one, and something else is found. -/
theorem attribution_exact (gate token : ProgramId) {messages : Set Text}
    (hmessages : ∀ m ∈ messages, Opens tokenOpenings m) :
    (∀ t : Trace, t.Spoken gate token messages none → t.Unspoofed gate token false none →
      gateProgramDataLines (t.lines 1) gate.1 = t.dataOf gate false) ∧
    ∀ (who : ProgramId) (text : Text), gate ≠ token → who ≠ gate → who ≠ token →
      Imitates (logLine text) →
        (spoiled gate who text).Spoken gate token messages none ∧
          gateProgramDataLines ((spoiled gate who text).lines 1) gate.1 ≠
            (spoiled gate who text).dataOf gate false := by
  constructor
  · intro t hspoken hunspoofed
    obtain ⟨stack, -, hrun⟩ := run_guarded (Trace.guarded_calls hmessages hspoken hunspoofed)
      (@List.not_mem_nil _ gate.1)
    rw [gateProgramDataLines_eq, Trace.map_read_lines, hrun, List.nil_append,
      Trace.saidBy_calls false (by simp) hspoken]
  · intro who text htoken hgate hwho himitates
    have hne : who.1 ≠ gate.1 := fun heq => hgate (Subtype.ext heq)
    have hx : read (dataLine ['x']) = .emit (dataLine ['x']) :=
      read_dataLine (by decide)
    have hevent : read (dataLine spoiled.event) = .emit (dataLine spoiled.event) := by
      rw [read_dataLine gateData_event.not_imitates, gateData_event.trim_eq]
    refine ⟨?_, ?_⟩
    · simp [spoiled, Trace.Spoken, gateData_event, hgate, hwho, htoken]
    · have hdata : (spoiled gate who text).dataOf gate false = [dataLine spoiled.event] := by
        simp [spoiled, Trace.dataOf, hgate]
      have hcolon : LOG ++ [':'] ≠ gate.1 := fun heq =>
        gate.notMem (c := ':') (by decide) (heq ▸ by decide)
      rw [gateProgramDataLines_eq, Trace.map_read_lines, hdata]
      rcases read_of_imitates himitates with hread | hread
      · -- the end of the frame takes the wrong one off, and what the gate prints next is lost
        simp [spoiled, Trace.calls, Trace.consumedCalls, Calls.events, Calls.append, hx, hevent,
          hread, run, step, hne, hcolon]
      · -- the frame seems to have ended, and what is printed in it is taken for the gate's
        simp [spoiled, Trace.calls, Trace.consumedCalls, Calls.events, Calls.append, hx, hevent,
          hread, run, step]
        decide

/-- Three programs, and what the token program prints. -/
def sampleGate : ProgramId := ⟨['G', 'a', 't', 'e'], by decide⟩

@[inherit_doc sampleGate] def sampleToken : ProgramId := ⟨['T', 'o', 'k', 'e', 'n'], by decide⟩

@[inherit_doc sampleGate] def sampleThief : ProgramId := ⟨['T', 'h', 'i', 'e', 'f'], by decide⟩

/-- What the token program prints of a transfer. -/
def sampleTransfer : Text :=
  ['I', 'n', 's', 't', 'r', 'u', 'c', 't', 'i', 'o', 'n', ':', ' ', 'T', 'r', 'a', 'n', 's', 'f',
   'e', 'r']

/-- A thief that invokes the gate seems to end its own frame before, and prints the data of an event
before and after. -/
def framed : Trace :=
  .invoke sampleThief
    (.log SUCCESS <| .data spoiled.event <|
      .invoke sampleGate
        (.invoke sampleToken (.log sampleTransfer .done) none none <|
          .log ['C', 'L', 'A', 'I', 'M', 'E', 'D', ' ', '4', 'z'] <| .data spoiled.event .done)
        none none <|
      .log (INVOKE ++ [']']) <| .data spoiled.event .done)
    none none .done

theorem attribution_exact_framed :
    gateProgramDataLines (framed.lines 1) sampleGate.1 = [dataLine spoiled.event] := by
  have hdata : framed.dataOf sampleGate false = [dataLine spoiled.event] := by decide
  have hmessages : ∀ m ∈ ({sampleTransfer} : Set Text), Opens tokenOpenings m := by
    rintro m rfl
    exact ⟨_, List.mem_cons_self, by decide⟩
  have hgate : Opens gateOpenings ['C', 'L', 'A', 'I', 'M', 'E', 'D', ' ', '4', 'z'] :=
    ⟨['C', 'L', 'A', 'I', 'M', 'E', 'D'], by decide, by decide⟩
  have hne : sampleThief ≠ sampleGate ∧ sampleThief ≠ sampleToken ∧ sampleToken ≠ sampleGate ∧
      sampleGate ≠ sampleToken := by decide
  have hspoken : framed.Spoken sampleGate sampleToken {sampleTransfer} none := by
    simp [framed, Trace.Spoken, gateData_event, hgate, hne]
  have hunspoofed : framed.Unspoofed sampleGate sampleToken false none := by
    simp [framed, Trace.Unspoofed, hne]
  rw [(attribution_exact sampleGate sampleToken hmessages).1 framed hspoken hunspoofed, hdata]

/-- **A program that the gate invokes can end the gate's frames**, or seem to end its own: what it
prints after that is taken for the gate's, and what the gate prints is not. -/
theorem log_line_ends_frame : ¬∀ t : Trace,
    t.Spoken sampleGate sampleToken {sampleTransfer} none →
      gateProgramDataLines (t.lines 1) sampleGate.1 = t.dataOf sampleGate false := by
  intro h
  have hne : sampleThief ≠ sampleGate ∧ sampleThief ≠ sampleToken ∧ sampleToken ≠ sampleGate ∧
      sampleGate ≠ sampleToken := by decide
  have hspoken : (spoiled sampleGate sampleThief SUCCESS).Spoken sampleGate sampleToken
      {sampleTransfer} none := by
    simp [spoiled, Trace.Spoken, gateData_event, hne]
  exact absurd (h _ hspoken) (by decide)

end Logs

end Solana

end SelendraBridge
