import TagLexer.Note
import TagLexer.Text.Blank
import TagLexer.Token.Word

/-!
# Segments

A source falls into segments: runs of blanks, comments, marks, operators, stray slashes, strings,
words and single characters that belong to nothing. A segment knows its text, the token it forms
and the note it causes. `Segment.cut` takes the one segment that starts at a given character and
returns it with what follows; `text_cut` says that nothing is lost on the way.
-/

namespace TagLexer

/-- The two characters that open and close a string literal. -/
inductive Quote where
  | single | double
  deriving DecidableEq, Repr

namespace Quote

/-- The character of the quote. -/
def char : Quote → Char
  | single => '\''
  | double => '"'

/-- The quote that a character is. -/
def ofChar? (c : Char) : Option Quote :=
  if c = '"' then some double else if c = '\'' then some single else none

/-- A quote found for a character is that character. -/
theorem char_of_ofChar? {c : Char} {q : Quote} (h : ofChar? c = some q) : q.char = c := by
  grind [ofChar?, char]

end Quote

/-- A stretch of source that is read as one thing. -/
inductive Segment where
  /-- Blank characters. -/
  | blank (run : Text)
  /-- Two slashes and the rest of the line, whose end is not part of it. -/
  | comment (body : Text)
  /-- A punctuation mark. -/
  | mark (mark : Mark)
  /-- A binary operator. -/
  | operator (operator : Operator)
  /-- A slash with nothing to divide: only blanks stand between it and a `>` or the end. -/
  | straySlash
  /-- A quote, a body without that quote, and the quote again. -/
  | quoted (quote : Quote) (body : Text)
  /-- A quote and a body without that quote up to the end of the source. -/
  | unclosed (quote : Quote) (body : Text)
  /-- A word. -/
  | word (word : Text)
  /-- A character that belongs to nothing. -/
  | other (char : Char)
  deriving DecidableEq, Repr

namespace Segment

/-- The characters of a segment. -/
def text : Segment → Text
  | blank run => run
  | comment body => '/' :: '/' :: body
  | mark m => m.lexeme
  | operator o => [o.char]
  | straySlash => ['/']
  | quoted q body => q.char :: (body ++ [q.char])
  | unclosed q body => q.char :: body
  | word w => w
  | other c => [c]

/-- The token a segment forms. -/
def token? : Segment → Option Token
  | blank _ | comment _ | straySlash | other _ => none
  | mark m => some ⟨m.lexeme, .mark m⟩
  | operator o => some ⟨[o.char], .binaryOperator⟩
  | quoted _ body | unclosed _ body => some ⟨body, .stringLiteral⟩
  | word w => some ⟨w, .ofWord w⟩

/-- The note a segment at the given offset causes. -/
def note? (offset : Nat) : Segment → Option Note
  | straySlash => some ⟨.straySlash, offset, ['/']⟩
  | unclosed q _ => some ⟨.unterminatedString, offset, [q.char]⟩
  | other c => some ⟨.unrecognized, offset, [c]⟩
  | _ => none

/-- Only blanks stand before a `>` or the end. -/
def closesNext (rest : Text) : Bool :=
  match rest.dropWhile isBlank with
  | [] => true
  | c :: _ => c == '>'

/-- The segment that a slash starts. -/
def cutSlash (rest : Text) : Segment × Text :=
  match rest with
  | '/' :: body => (comment (body.takeWhile (· != '\n')), body.dropWhile (· != '\n'))
  | '>' :: rest => (mark .selfClosingTag, rest)
  | _ => if closesNext rest then (straySlash, rest) else (operator .divide, rest)

/-- The segment that a `<` starts. -/
def cutAngle (rest : Text) : Segment × Text :=
  match rest with
  | '/' :: rest => (mark .endBracket, rest)
  | _ => (mark .openBracket, rest)

/-- The string literal that a quote starts: up to the next such quote, or to the end. -/
def cutQuote (q : Quote) (rest : Text) : Segment × Text :=
  match rest.dropWhile (· != q.char) with
  | [] => (unclosed q rest, [])
  | _ :: after => (quoted q (rest.takeWhile (· != q.char)), after)

/-- The segment that a character starts, and what follows it. Blanks are no exception here: where
blanks have not been passed over, a blank is a character that belongs to nothing. -/
def cut (c : Char) (rest : Text) : Segment × Text :=
  if c = '/' then cutSlash rest
  else if c = '<' then cutAngle rest
  else
    match Mark.ofChar? c with
    | some m => (mark m, rest)
    | none =>
      match Operator.ofChar? c with
      | some o => (operator o, rest)
      | none =>
        match Quote.ofChar? c with
        | some q => cutQuote q rest
        | none =>
          if isWordChar c then (word (c :: rest.takeWhile isWordChar), rest.dropWhile isWordChar)
          else (other c, rest)

private theorem text_cutSlash (rest : Text) :
    (cutSlash rest).1.text ++ (cutSlash rest).2 = '/' :: rest := by
  unfold cutSlash
  split
  · simp [text, List.takeWhile_append_dropWhile]
  · simp [text, Mark.lexeme]
  · split <;> simp [text, Operator.char]

private theorem text_cutAngle (rest : Text) :
    (cutAngle rest).1.text ++ (cutAngle rest).2 = '<' :: rest := by
  unfold cutAngle
  split <;> simp [text, Mark.lexeme]

private theorem text_cutQuote (q : Quote) (rest : Text) :
    (cutQuote q rest).1.text ++ (cutQuote q rest).2 = q.char :: rest := by
  have happ := List.takeWhile_append_dropWhile (p := (· != q.char)) (l := rest)
  unfold cutQuote
  split
  · simp [text]
  · next c after h =>
    have hc : c = q.char := by
      have := List.head?_dropWhile_not (· != q.char) rest
      simpa [h] using this
    rw [h, hc] at happ
    simpa [text] using happ

/-- A cut loses nothing: the segment's text and what follows are the text that was cut. -/
theorem text_cut (c : Char) (rest : Text) : (cut c rest).1.text ++ (cut c rest).2 = c :: rest := by
  unfold cut
  split
  · next h => rw [h, text_cutSlash]
  split
  · next h => rw [h, text_cutAngle]
  split
  · next m hm => simp [text, Mark.lexeme_of_ofChar? hm]
  split
  · next o ho => simp [text, Operator.char_of_ofChar? ho]
  split
  · next q hq => rw [text_cutQuote, Quote.char_of_ofChar? hq]
  split
  · simp [text, List.takeWhile_append_dropWhile]
  · simp [text]

private theorem length_cutSlash_le (rest : Text) :
    (cutSlash rest).2.length ≤ rest.length := by
  unfold cutSlash
  split
  · next body =>
    have := (List.dropWhile_suffix (· != '\n') (l := body)).length_le
    simp only [List.length_cons]
    omega
  · simp
  · split <;> simp

private theorem length_cutAngle_le (rest : Text) :
    (cutAngle rest).2.length ≤ rest.length := by
  unfold cutAngle
  split <;> simp

private theorem length_cutQuote_le (q : Quote) (rest : Text) :
    (cutQuote q rest).2.length ≤ rest.length := by
  have hle := (List.dropWhile_suffix (· != q.char) (l := rest)).length_le
  unfold cutQuote
  split
  · simp
  · next c after h =>
    rw [h, List.length_cons] at hle
    exact Nat.le_of_succ_le hle

/-- A cut moves on: what follows the segment is no longer than what followed the character. -/
theorem length_cut_le (c : Char) (rest : Text) : (cut c rest).2.length ≤ rest.length := by
  unfold cut
  split
  · exact length_cutSlash_le rest
  split
  · exact length_cutAngle_le rest
  split
  · exact Nat.le_refl _
  split
  · exact Nat.le_refl _
  split
  · exact length_cutQuote_le _ rest
  split
  · exact (List.dropWhile_suffix isWordChar).length_le
  · exact Nat.le_refl _

end Segment

end TagLexer
