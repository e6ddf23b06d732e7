import SelendraBridge.Lib.Lines
import SelendraBridge.LogScrub.Scrub

/-!
# The writer of the log

Every line of the log goes through `SelendraBridge.LogScrub.ScrubWriter`: bytes are kept until a
line ends, and the line is scrubbed and handed on. What was written without an end is handed on when
the writer is dropped. Bytes that are not UTF-8 are no text and are handed on as they are, since a
line that is lost hides what went wrong.

So what comes out is a matter of the bytes only, not of the calls that wrote them
(`SelendraBridge.LogScrub.emitted_eq`), and a secret is in it only where it was in a line that is
not UTF-8 (`SelendraBridge.LogScrub.secret_only_unscrubbed`).
-/

namespace SelendraBridge

namespace LogScrub

open Lines (cut linesOf)

/-- `\n`. -/
def isNewline (b : UInt8) : Bool := b == 10

/-- The writer: what it keeps, and the lines it handed to the one within. -/
structure ScrubWriter where
  inner : List Bytes
  buf : Bytes

/-- What `write_scrubbed` hands on for a line. -/
def scrubbed (secrets : List Text) (line : Bytes) : Bytes :=
  match fromUtf8 line with
  | some text => utf8 (scrub secrets text)
  | none => line

/-- `ScrubWriter::new`. -/
def ScrubWriter.new : ScrubWriter := ⟨[], []⟩

/-- `drain_lines`. -/
def ScrubWriter.drainLines (secrets : List Text) (w : ScrubWriter) : ScrubWriter :=
  match _h : w.buf.findIdx? isNewline with
  | none => w
  | some nl =>
    ScrubWriter.drainLines secrets
      { inner := w.inner ++ [scrubbed secrets (w.buf.take (nl + 1))]
        buf := w.buf.drop (nl + 1) }
termination_by w.buf.length
decreasing_by
  have hlt := (List.findIdx?_eq_some_iff_findIdx_eq.mp _h).1
  simp only [List.length_drop]
  omega

/-- A call of the writer. -/
inductive Call
  | write (data : Bytes)
  | flush

/-- `write` and `flush`. -/
def ScrubWriter.exec (secrets : List Text) (w : ScrubWriter) : Call → ScrubWriter
  | .write data => { w with buf := w.buf ++ data }.drainLines secrets
  | .flush => w.drainLines secrets

/-- `drop`. -/
def ScrubWriter.drop (secrets : List Text) (w : ScrubWriter) : ScrubWriter :=
  if w.buf = [] then w else { inner := w.inner ++ [scrubbed secrets w.buf], buf := [] }

/-- The lines that come out of a writer's calls, and of its drop. -/
def emitted (secrets : List Text) (calls : List Call) : List Bytes :=
  ((calls.foldl (ScrubWriter.exec secrets) .new).drop secrets).inner

/-- The bytes that went in. -/
def written (calls : List Call) : Bytes :=
  calls.flatMap fun
    | .write data => data
    | .flush => []

/-! ### However the stream is cut -/

/-- **The loop hands on the lines that are ended.** -/
theorem ScrubWriter.drainLines_eq (secrets : List Text) (w : ScrubWriter) :
    w.drainLines secrets =
      ⟨w.inner ++ (cut isNewline w.buf).1.map (scrubbed secrets), (cut isNewline w.buf).2⟩ := by
  fun_induction ScrubWriter.drainLines secrets w with
  | case1 w hnone => rw [Lines.cut_of_no_end hnone, List.map_nil, List.append_nil]
  | case2 w nl hsome ih =>
    rw [ih, Lines.cut_of_findIdx hsome, List.map_cons, List.append_assoc]
    rfl

/-- What a writer has done: it handed on the ended lines, and keeps the rest. -/
def Holds (secrets : List Text) (w : ScrubWriter) (stream : Bytes) : Prop :=
  w = ⟨(cut isNewline stream).1.map (scrubbed secrets), (cut isNewline stream).2⟩

theorem Holds.drain {secrets : List Text} {w : ScrubWriter} {stream : Bytes}
    (h : Holds secrets w stream) (data : Bytes) :
    Holds secrets ({ w with buf := w.buf ++ data }.drainLines secrets) (stream ++ data) := by
  subst h
  rw [Holds, ScrubWriter.drainLines_eq, Lines.cut_append stream data, List.map_append]

/-- **What a writer has done is a matter of what was written**, call by call. -/
theorem Holds.exec {secrets : List Text} {w : ScrubWriter} {stream : Bytes}
    (h : Holds secrets w stream) (call : Call) :
    Holds secrets (w.exec secrets call) (stream ++ written [call]) := by
  cases call with
  | write data =>
    have hdata : written [.write data] = data := List.append_nil data
    rw [hdata]
    exact h.drain data
  | flush =>
    have hnone := h.drain []
    rw [List.append_nil] at hnone
    exact hnone

theorem Holds.run {secrets : List Text} (calls : List Call) :
    Holds secrets (calls.foldl (ScrubWriter.exec secrets) .new) (written calls) := by
  induction calls using List.reverseRecOn with
  | nil => rfl
  | append_singleton calls call ih =>
    have hwritten : written (calls ++ [call]) = written calls ++ written [call] :=
      List.flatMap_append ..
    rw [List.foldl_append, hwritten]
    exact ih.exec call

/-- **What comes out is each line of what went in, scrubbed.** -/
theorem emitted_eq (secrets : List Text) (calls : List Call) :
    emitted secrets calls = (linesOf isNewline (written calls)).map (scrubbed secrets) := by
  have hholds : Holds secrets _ (written calls) := Holds.run calls
  rw [emitted, hholds, linesOf, ScrubWriter.drop]
  split_ifs with hrest <;> simp

/-! ### What is in a line -/

section

variable {secrets : List Text} {secret : Text} {line : Bytes}

/-- **A secret is in a line that comes out only where the line is not UTF-8**, and went in so. -/
theorem unscrubbed_of_infix (hmem : secret ∈ secrets) (hplain : Plain secret)
    (h : utf8 secret <:+: scrubbed secrets line) :
    fromUtf8 line = none ∧ scrubbed secrets line = line := by
  rcases htext : fromUtf8 line with _ | text
  · exact ⟨rfl, by rw [scrubbed, htext]⟩
  · rw [scrubbed, htext] at h
    exact absurd (infix_of_utf8 hplain.ne_nil h) (not_infix_scrub hmem hplain text)

/-- A text whose bytes end in a newline ends in one. -/
theorem eq_concat_of_utf8 {text : Text} {q : Bytes} (h : utf8 text = q ++ [10]) :
    ∃ t, text = t ++ ['\n'] := by
  have hsome : text ≠ [] := by
    rintro rfl
    simp [utf8] at h
  obtain ⟨t, c, rfl⟩ := List.eq_nil_or_concat' text |>.resolve_left hsome
  obtain ⟨b, rest, henc, -, hrest⟩ := selfSync_utf8.shape c
  have hcode : utf8 (t ++ [c]) = utf8 t ++ (b :: rest) := by
    rw [utf8_append, ← henc]
    exact congrArg (utf8 t ++ ·) (List.append_nil _)
  rw [hcode] at h
  -- the newline is a first byte, so it is all there is of the last character
  have hlast : rest = [] := by
    by_contra hne
    obtain ⟨front, d, rfl⟩ := List.eq_nil_or_concat' rest |>.resolve_left hne
    rw [← List.cons_append, ← List.append_assoc] at h
    obtain ⟨-, hd⟩ := List.append_inj' h rfl
    rw [List.singleton_inj] at hd
    exact hrest d (by simp) (hd ▸ by decide)
  subst hlast
  obtain ⟨-, hb⟩ := List.append_inj' h rfl
  rw [List.singleton_inj] at hb
  refine ⟨t, ?_⟩
  have hnewline : String.utf8EncodeChar c = String.utf8EncodeChar '\n' := by
    rw [henc, hb]
    rfl
  rw [selfSync_utf8.prefix_free (hnewline ▸ List.prefix_rfl :
    String.utf8EncodeChar c <+: String.utf8EncodeChar '\n')]

/-- **A line that is ended is so when it comes out.** -/
theorem scrubbed_concat (hplain : ∀ s ∈ secrets, Plain s) (q : Bytes) :
    ∃ p, scrubbed secrets (q ++ [10]) = p ++ [10] := by
  rcases htext : fromUtf8 (q ++ [10]) with _ | text
  · exact ⟨q, by rw [scrubbed, htext]⟩
  · obtain ⟨t, rfl⟩ := eq_concat_of_utf8 (fromUtf8_eq_some.mp htext)
    refine ⟨utf8 (scrub secrets t), ?_⟩
    rw [scrubbed, htext]
    dsimp only
    rw [scrub_concat hplain, utf8_append]
    rfl

/-- The bytes of a text without a newline are no newline. -/
theorem newline_not_mem {t : Text} (h : '\n' ∉ t) : (10 : UInt8) ∉ utf8 t := by
  intro hmem
  obtain ⟨s, u, hsplit⟩ := List.append_of_mem hmem
  have hnewline : utf8 ['\n'] = [10] := by decide
  have hinside : utf8 ['\n'] <:+: utf8 t := ⟨s, u, by simp [hsplit, hnewline]⟩
  exact h ((List.singleton_infix_iff ..).mp (infix_of_utf8 (by simp) hinside))

/-- **What stands in the log stands in a line of it.** -/
theorem exists_line_of_infix (hall : ∀ s ∈ secrets, Plain s) (hplain : Plain secret)
    (calls : List Call) (h : utf8 secret <:+: (emitted secrets calls).flatten) :
    ∃ line ∈ emitted secrets calls, utf8 secret <:+: line := by
  have hcode : utf8 secret ≠ [] := selfSync_utf8.code_ne_nil hplain.ne_nil
  set c := cut isNewline (written calls) with hc
  have hends : ∀ p ∈ c.1.map (scrubbed secrets), ∃ q, p = q ++ [10] := by
    intro p hp
    obtain ⟨line, hline, rfl⟩ := List.mem_map.mp hp
    obtain ⟨q, e, rfl, he, -⟩ := Lines.cut_ends hline
    obtain rfl : e = 10 := by simpa [isNewline] using he
    exact scrubbed_concat hall q
  rw [emitted_eq, linesOf, ← hc, List.map_append] at h ⊢
  rw [List.flatten_append] at h
  rcases Words.exists_infix_of_flatten (newline_not_mem hplain.newline) hcode hends h with
    ⟨line, hline, hstands⟩ | hlast
  · exact ⟨line, List.mem_append_left _ hline, hstands⟩
  · split_ifs at hlast ⊢ with hrest
    · exact absurd (List.infix_nil.mp (by simpa using hlast)) hcode
    · exact ⟨scrubbed secrets c.2, by simp, by simpa using hlast⟩

end

/-- **No secret reaches the log but in a line that is not UTF-8**: whatever was registered, for any
stream and however it is cut into calls. No line that comes out has the bytes of a secret, and the
log as a whole has not, except for lines that are not UTF-8 and had them when they went in; and
what comes out does not depend on the calls. -/
theorem secret_only_unscrubbed (values : List Text) (hplain : ∀ s ∈ registered values, Plain s)
    (calls : List Call) :
    (∀ s ∈ registered values, ∀ line ∈ emitted (registered values) calls, utf8 s <:+: line →
      line ∈ linesOf isNewline (written calls) ∧ fromUtf8 line = none) ∧
    (∀ s ∈ registered values, utf8 s <:+: (emitted (registered values) calls).flatten →
      ∃ line ∈ linesOf isNewline (written calls), fromUtf8 line = none ∧ utf8 s <:+: line) ∧
    ∀ calls', written calls' = written calls →
      emitted (registered values) calls' = emitted (registered values) calls := by
  have hlines : ∀ s ∈ registered values, ∀ line ∈ emitted (registered values) calls,
      utf8 s <:+: line → line ∈ linesOf isNewline (written calls) ∧ fromUtf8 line = none := by
    intro s hs line hline hinside
    rw [emitted_eq] at hline
    obtain ⟨raw, hraw, rfl⟩ := List.mem_map.mp hline
    obtain ⟨hnone, hsame⟩ := unscrubbed_of_infix hs (hplain s hs) hinside
    rw [hsame]
    exact ⟨hraw, hnone⟩
  refine ⟨hlines, ?_, ?_⟩
  · intro s hs hinside
    obtain ⟨line, hline, hstands⟩ := exists_line_of_infix hplain (hplain s hs) calls hinside
    obtain ⟨hraw, hnone⟩ := hlines s hs line hline hstands
    exact ⟨line, hraw, hnone, hstands⟩
  · intro calls' hwritten
    rw [emitted_eq, emitted_eq, hwritten]

/-- A bearer token. -/
def bearer : Text := ['z', 'z', 'q', '7', 'R', 'k', '4', 's']

theorem plain_of_mem_bearer : ∀ s ∈ registered [bearer], Plain s := by
  have hregistered : registered [bearer] = [bearer] := by decide
  rw [hregistered, List.forall_mem_singleton]
  exact ⟨by decide, by decide, by decide, by decide⟩

/-- A line that has the token, written in two calls, comes out without it. -/
theorem secret_only_unscrubbed_split :
    ¬ utf8 bearer <:+: (emitted (registered [bearer])
      [.write [116, 61, 122, 122, 113, 55], .flush, .write [82, 107, 52, 115, 10]]).flatten := by
  intro hinside
  obtain ⟨line, hline, hnone, -⟩ := (secret_only_unscrubbed [bearer] plain_of_mem_bearer
    [.write [116, 61, 122, 122, 113, 55], .flush, .write [82, 107, 52, 115, 10]]).2.1 bearer
    (by decide) hinside
  have hlines : linesOf isNewline (written
      [.write [116, 61, 122, 122, 113, 55], .flush, .write [82, 107, 52, 115, 10]]) =
      [[116, 61, 122, 122, 113, 55, 82, 107, 52, 115, 10]] := by decide
  rw [hlines, List.mem_singleton] at hline
  subst hline
  revert hnone
  decide +kernel

/-- **With one byte that is not UTF-8 in its line, the token is in the log.** -/
theorem secret_in_log :
    (∀ s ∈ registered [bearer], Plain s) ∧
      ∃ line ∈ emitted (registered [bearer]) [.write (255 :: utf8 bearer ++ [10])],
        utf8 bearer <:+: line := by
  have hemitted : emitted (registered [bearer]) [.write (255 :: utf8 bearer ++ [10])] =
      [255 :: utf8 bearer ++ [10]] := by
    rw [emitted_eq]
    decide +kernel
  rw [hemitted]
  exact ⟨plain_of_mem_bearer, _, List.mem_singleton_self _, [255], [10], rfl⟩

end LogScrub

end SelendraBridge
