import TagLexer.Listing
import TagLexer.Proofs.Text.Escapes
import TagLexer.Proofs.Text.Lines
import TagLexer.Segment

/-!
# Listings of lines are lossless

A listing in the format of lines can be read back line by line: up to the tab stands the name of a
kind, behind it a quoted value (`Listing.readLines`). The quotes and escapes of a value give the
value back (`Text.unquoted?_quoted`). Neither names nor quoted values hold control characters or
characters that break lines, so the lines of a listing are exactly those of its tokens.
-/

namespace TagLexer

open Toml (Reader)
open Toml.Reader (Reads)

/-- A table lies within another when each of its ranges lies within one of the other's. -/
def Ranges.Within (table other : Ranges) : Prop :=
  ∀ range ∈ table, ∃ stretch ∈ other, stretch.1 ≤ range.1 ∧ range.2 ≤ stretch.2

instance (table other : Ranges) : Decidable (table.Within other) :=
  inferInstanceAs (Decidable (∀ range ∈ table, ∃ stretch ∈ other, _))

/-- A character of a table is in every table around it. -/
theorem Ranges.Within.contains {table other : Ranges} (h : table.Within other) {c : Char}
    (hc : table.contains c = true) : other.contains c = true := by
  simp only [Ranges.contains, List.any_eq_true, Bool.and_eq_true, decide_eq_true_eq] at hc ⊢
  obtain ⟨range, hrange, hlow, hhigh⟩ := hc
  obtain ⟨stretch, hstretch, hlow', hhigh'⟩ := h range hrange
  exact ⟨stretch, hstretch, by omega, by omega⟩

/-- The control characters, and the two separators that break lines without being one. -/
def controlRanges : Ranges := [(0x0, 0x1F), (0x7F, 0x9F), (0x2028, 0x2029)]

/-- A character that controls the output or breaks a line. -/
def isControl (c : Char) : Bool := controlRanges.contains c

private theorem controlRanges_within_unprintableRanges :
    controlRanges.Within unprintableRanges := by
  decide +kernel

private theorem letters_apart_unprintableRanges :
    Ranges.Apart [(0x61, 0x7A), (0x41, 0x5A)] unprintableRanges := by
  decide +kernel

/-- Letters are printable. -/
theorem isPrintable_of_isAsciiLetter {c : Char} (h : isAsciiLetter c = true) :
    isPrintable c = true := by
  have hletter : Ranges.contains [(0x61, 0x7A), (0x41, 0x5A)] c = true := by
    simp only [Ranges.contains, List.any_cons, List.any_nil, Bool.or_false]
    exact h
  rw [isPrintable, letters_apart_unprintableRanges.contains_eq_false hletter]
  rfl

/-- No printable character is a control. -/
theorem isControl_of_isPrintable {c : Char} (h : isPrintable c = true) : isControl c = false := by
  cases hc : isControl c with
  | false => rfl
  | true =>
    have hcontains := controlRanges_within_unprintableRanges.contains hc
    rw [isPrintable, hcontains] at h
    exact absurd h (by decide)

namespace Text

/-- The characters that a letter behind a backslash stands for. -/
def shortEscapes : List (Char × Char) :=
  [('\\', '\\'), ('\'', '\''), ('"', '"'), ('n', '\n'), ('r', '\r'), ('t', '\t')]

/-- The number of digits behind a letter that introduces a code point. -/
def codeWidth? (letter : Char) : Option Nat :=
  if letter = 'x' then some 2 else if letter = 'u' then some 4 else if letter = 'U' then some 8
  else none

/-- What an escape in a quoted text stands for. -/
def escape : Reader Char := do
  let letter ← Reader.char fun _ => true
  match codeWidth? letter with
  | none => Reader.ofOption (shortEscapes.lookup letter)
  | some width =>
    let n ← code width
    if n.isValidChar then return Char.ofNat n else Reader.fail .malformed

/-- A letter of the table stands for its character. -/
theorem reads_escape_short {letter c : Char} (h : (letter, c) ∈ shortEscapes) (rest : Text) :
    Reads escape (letter :: rest) c rest := by
  simp only [shortEscapes, List.mem_cons, List.not_mem_nil, Prod.mk.injEq, or_false] at h
  rcases h with ⟨rfl, rfl⟩ | ⟨rfl, rfl⟩ | ⟨rfl, rfl⟩ | ⟨rfl, rfl⟩ | ⟨rfl, rfl⟩ | ⟨rfl, rfl⟩
  all_goals exact ⟨_, rfl, rfl⟩

/-- A code point in a width that holds it stands for its character. -/
theorem reads_escape_code {letter c : Char} {width : Nat}
    (hletter : codeWidth? letter = some width) (hwidth : 0 < width) (hc : c.toNat < 16 ^ width)
    (rest : Text) :
    Reads escape (letter :: (hex width c.toNat ++ rest)) c rest := by
  have hvalid : c.toNat.isValidChar := c.valid
  rw [escape, Reader.reads_bind_iff]
  refine ⟨letter, _, Reader.reads_char_iff.mpr ⟨rfl, rfl⟩, ?_⟩
  simp only [hletter]
  rw [Reader.reads_bind_iff]
  refine ⟨c.toNat, rest, reads_code_iff.mpr ⟨_, rfl, isCode_hex hwidth hc⟩, ?_⟩
  rw [if_pos hvalid, Reader.reads_pure_iff]
  exact ⟨Char.ofNat_toNat c, rfl⟩

/-- The escape by code point stands for its character. -/
theorem reads_escapeCode (c : Char) (rest : Text) :
    ∃ digits, escapeCode c.toNat = '\\' :: digits ∧ Reads escape (digits ++ rest) c rest := by
  unfold escapeCode
  split
  · next hc => exact ⟨_, rfl, reads_escape_code rfl (by decide) hc rest⟩
  split
  · next hc => exact ⟨_, rfl, reads_escape_code rfl (by decide) hc rest⟩
  · have hc : c.toNat < 16 ^ 8 := by
      have hvalid : c.toNat.isValidChar := c.valid
      simp only [Nat.isValidChar] at hvalid
      omega
    exact ⟨_, rfl, reads_escape_code rfl (by decide) hc rest⟩

/-- The way texts are written between a quote and the same quote. -/
def quotedBy (q : Quote) : Escaping where
  quote := q.char
  plain c := isPrintable c && c != q.char && c != '\\'
  escape := escape
  quote_ne := by cases q <;> decide
  plain_ne c h := by
    simp only [Bool.and_eq_true, bne_iff_ne] at h
    exact ⟨h.1.2, h.2⟩

/-- A character is read back from what is shown for it. -/
theorem reads_escapeChar (q : Quote) (c : Char) {s text rest : Text}
    (h : Reads (quotedBy q).read s text rest) :
    Reads (quotedBy q).read (escapeChar q.char c ++ s) (c :: text) rest := by
  have hshort : ∀ {letter : Char}, (letter, c) ∈ shortEscapes →
      Reads (quotedBy q).read (['\\', letter] ++ s) (c :: text) rest := fun hletter =>
    Escaping.reads_escape (reads_escape_short hletter s) h
  unfold escapeChar
  split
  · next hc =>
    simp only [Bool.or_eq_true, decide_eq_true_eq] at hc
    rcases hc with rfl | rfl
    · exact hshort (by decide)
    · exact hshort (by cases q <;> decide)
  next hc =>
  split
  · next hc => exact hshort (by rw [hc]; decide)
  split
  · next hc => exact hshort (by rw [hc]; decide)
  split
  · next hc => exact hshort (by rw [hc]; decide)
  split
  · next hprintable =>
    refine Escaping.reads_plain ?_ h
    simp only [Bool.or_eq_true, decide_eq_true_eq, not_or] at hc
    simp [quotedBy, hprintable, hc]
  · obtain ⟨digits, hdigits, hreads⟩ := reads_escapeCode c s
    rw [hdigits, List.cons_append]
    exact Escaping.reads_escape hreads h

/-- The text that a quoted text stands for. -/
def unquoted? : Text → Option Text
  | [] => none
  | c :: rest =>
    match Quote.ofChar? c with
    | none => none
    | some q =>
      match (quotedBy q).read rest with
      | .ok (text, r) => if r.text = [] then some text else none
      | .error _ => none

/-- The delimiter of a text is a quote. -/
theorem exists_char_eq_delimiter (s : Text) : ∃ q : Quote, q.char = s.delimiter := by
  unfold delimiter
  split
  · exact ⟨.double, rfl⟩
  · exact ⟨.single, rfl⟩

/-- A text is read back from its quoted form. -/
theorem unquoted?_quoted (s : Text) : unquoted? s.quoted = some s := by
  obtain ⟨q, hq⟩ := exists_char_eq_delimiter s
  have hreads : ∀ t : Text,
      Reads (quotedBy q).read (t.flatMap (escapeChar q.char) ++ [q.char]) t [] := by
    intro t
    induction t with
    | nil => exact Escaping.reads_quote []
    | cons c t ih =>
      rw [List.flatMap_cons, List.append_assoc]
      exact reads_escapeChar q c ih
  obtain ⟨r, hr, hrest⟩ := hreads s
  have hchar : Quote.ofChar? q.char = some q := by cases q <;> rfl
  simp only [quoted, ← hq, unquoted?, hchar, hr, hrest, if_pos]

end Text

namespace Kind

theorem mem_all (k : Kind) : k ∈ all := by
  cases k with
  | keyword word => cases word <;> decide
  | mark m => cases m <;> decide
  | reserved kind => cases kind <;> decide
  | _ => decide

/-- A kind is found by its name. -/
theorem ofName?_name (k : Kind) : ofName? k.name = some k := by
  have hall : all.all fun k => ofName? k.name == some k := by decide +kernel
  exact beq_iff_eq.mp (List.all_eq_true.mp hall k k.mem_all)

/-- The name of a kind is made of letters. -/
theorem isAsciiLetter_of_mem_name {k : Kind} {c : Char} (h : c ∈ k.name) :
    isAsciiLetter c = true := by
  have hall : k.name.all isAsciiLetter = true := by
    cases k with
    | keyword word => cases word <;> decide
    | mark m => cases m <;> decide
    | reserved kind => cases kind <;> decide
    | _ => decide
  exact List.all_eq_true.mp hall c h

end Kind

namespace Listing

/-- The line of a token without its end. -/
def shown (token : Token) : Text := token.kind.name ++ '\t' :: token.value.quoted

/-- The token that a line shows: up to the tab the name of its kind, behind it its quoted value. -/
def readLine (chars : Text) : Option Token :=
  match Kind.ofName? (chars.takeWhile (· != '\t')), chars.dropWhile (· != '\t') with
  | some kind, _ :: value => (Text.unquoted? value).map fun value => { value, kind }
  | _, _ => none

/-- The tokens that the lines of a listing show. -/
def readLines (text : Text) : Option (List Token) := (text.splitOn '\n').dropLast.mapM readLine

/-- What a line shows holds no control but the tab behind the name. -/
theorem isControl_of_mem_shown (token : Token) :
    ∀ c ∈ token.kind.name ++ token.value.quoted, isControl c = false := by
  intro c hc
  apply isControl_of_isPrintable
  rcases List.mem_append.mp hc with hc | hc
  · exact isPrintable_of_isAsciiLetter (Kind.isAsciiLetter_of_mem_name hc)
  · exact Text.isPrintable_of_mem_quoted hc

/-- What a line shows ends no line. -/
theorem newline_not_mem_shown (token : Token) : '\n' ∉ shown token := by
  have hcontrol : '\n' ∉ token.kind.name ++ token.value.quoted := by
    intro hmem
    exact absurd (isControl_of_mem_shown token '\n' hmem) (by decide)
  simpa [shown] using hcontrol

/-- A token is read back from its line. -/
theorem readLine_shown (token : Token) : readLine (shown token) = some token := by
  have hrun : Text.MaximalRun (· != '\t') token.kind.name ('\t' :: token.value.quoted) := by
    refine ⟨fun c hc => ?_, fun c hc => ?_⟩
    · have hne : c ≠ '\t' := by
        rintro rfl
        exact absurd (Kind.isAsciiLetter_of_mem_name hc) (by decide)
      simpa using hne
    · obtain rfl : '\t' = c := by simpa using hc
      decide
  simp only [readLine, shown, hrun.takeWhile_eq, hrun.dropWhile_eq, Kind.ofName?_name,
    Text.unquoted?_quoted, Option.map_some]

theorem lines_eq_ended (tokens : List Token) : lines tokens = Text.ended (tokens.map shown) := by
  rw [lines, Text.ended, List.flatMap_map]
  rfl

/-- The lines of a listing are what is shown of its tokens. -/
theorem splitOn_lines (tokens : List Token) :
    (lines tokens).splitOn '\n' = tokens.map shown ++ [[]] := by
  rw [lines_eq_ended, Text.splitOn_ended]
  intro chars hchars
  obtain ⟨token, -, rfl⟩ := List.mem_map.mp hchars
  exact newline_not_mem_shown token

/-- Tokens are read back from their lines. -/
theorem readLines_lines (tokens : List Token) : readLines (lines tokens) = some tokens := by
  rw [readLines, splitOn_lines, List.dropLast_concat]
  induction tokens with
  | nil => rfl
  | cons token tokens ih => simp [readLine_shown, ih]

end Listing

/-- The listing of any tokens in the format `text` can be read back. It has as many line feeds as
there are tokens. Each of them ends the line of a token, which is the name of its kind, a tab and
the quoted value. Neither the name nor the quoted value holds a control character or a character
that breaks a line. -/
theorem renderNamed_text_reads_back (tokens : List Token) :
    ∃ text, Listing.renderNamed tokens "text".toList = .ok text ∧
      Listing.readLines text = some tokens ∧
      text.count '\n' = tokens.length ∧
      text = Text.ended (tokens.map Listing.shown) ∧
      ∀ token ∈ tokens, ∃ name value, Listing.shown token = name ++ '\t' :: value ∧
        name = token.kind.name ∧ ∀ c ∈ name ++ value, isControl c = false := by
  refine ⟨Listing.lines tokens, rfl, Listing.readLines_lines tokens, ?_,
    Listing.lines_eq_ended tokens, fun token _ => ?_⟩
  · have hlines := Text.length_splitOn_newline (Listing.lines tokens)
    rw [Listing.splitOn_lines, List.length_append, List.length_map] at hlines
    exact (Nat.add_right_cancel hlines).symm
  · exact ⟨_, _, rfl, rfl, Listing.isControl_of_mem_shown token⟩

end TagLexer
