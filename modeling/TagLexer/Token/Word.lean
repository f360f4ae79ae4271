import TagLexer.Text.Cased
import TagLexer.Text.Numeral
import TagLexer.Token.Basic

/-!
# Words

Which characters form words, which words are number literals, and what kind of token a word is.
A word is a run of letters, ASCII digits, underscores and hyphens; a number literal is a word read
as a whole, so `12ab` is an identifier and not a number followed by a name.
-/

namespace TagLexer

/-- A character that words are made of. -/
def isWordChar (c : Char) : Bool := isCased c || c == '_' || c == '-' || isAsciiDigit c

namespace Text

/-- A text with some cased character, or one of the two joining characters alone. -/
def isAlphabetic (s : Text) : Bool := s.any isCased || s == ['_'] || s == ['-']

/-- A non-empty run of consecutive ascending digits, such as a single digit. -/
def isNumeric (s : Text) : Bool := !s.isEmpty && occursIn s "0123456789".toList

/-- A text that counts as alphabetic or as numeric. -/
def isWordLike (s : Text) : Bool := isAlphabetic s || isNumeric s

/-- A non-empty text all of whose characters have a property. -/
def nonemptyAll (p : Char → Bool) (s : Text) : Bool := !s.isEmpty && s.all p

/-- What may follow the digits of a decimal literal: nothing, or an exponent. -/
def isExponentPart : Text → Bool
  | [] => true
  | e :: rest =>
    (e == 'e' || e == 'E') &&
      match rest with
      | '-' :: digits => nonemptyAll isAsciiDigit digits
      | digits => nonemptyAll isAsciiDigit digits

/-- Decimal digits with an optional exponent. -/
def isDecimalLiteral (s : Text) : Bool :=
  !(s.takeWhile isAsciiDigit).isEmpty && isExponentPart (s.dropWhile isAsciiDigit)

/-- A zero, a letter for the base and digits of that base. -/
def isRadixLiteral : Text → Bool
  | '0' :: base :: digits =>
    if base == 'x' || base == 'X' then nonemptyAll isHexDigit digits
    else if base == 'o' || base == 'O' then nonemptyAll isOctalDigit digits
    else if base == 'b' || base == 'B' then nonemptyAll isBinaryDigit digits
    else false
  | _ => false

/-- A text that is a number literal from its first to its last character. -/
def isNumberLiteral (s : Text) : Bool := isDecimalLiteral s || isRadixLiteral s

end Text

/-- The kind of token a word forms: a number, a reserved word or an identifier. -/
def Kind.ofWord (word : Text) : Kind :=
  if word.isNumberLiteral then .number
  else
    match Keyword.ofText? word with
    | some k => .keyword k
    | none => .identifier

end TagLexer
