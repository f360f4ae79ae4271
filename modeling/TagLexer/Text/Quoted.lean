import TagLexer.Text.Numeral
import TagLexer.Text.Printable

/-!
# Quoted text

A quoted text stands between two equal quotes, shows printable characters as they are and escapes
the others, so that it never spans lines. The quote is the single one unless the text holds single
quotes and no double ones.
-/

namespace TagLexer.Text

/-- The quote that delimits a text. -/
def delimiter (s : Text) : Char := if s.contains '\'' && !s.contains '"' then '"' else '\''

/-- A code point in the shortest of the three hexadecimal escapes that hold it. -/
def escapeCode (n : Nat) : Text :=
  if n < 0x100 then '\\' :: 'x' :: hex 2 n
  else if n < 0x10000 then '\\' :: 'u' :: hex 4 n
  else '\\' :: 'U' :: hex 8 n

/-- A character between the given delimiters. -/
def escapeChar (delimiter c : Char) : Text :=
  if c = '\\' || c = delimiter then ['\\', c]
  else if c = '\n' then ['\\', 'n']
  else if c = '\r' then ['\\', 'r']
  else if c = '\t' then ['\\', 't']
  else if isPrintable c then [c]
  else escapeCode c.toNat

/-- The quoted form of a text. -/
def quoted (s : Text) : Text :=
  let q := delimiter s
  q :: (s.flatMap (escapeChar q) ++ [q])

end TagLexer.Text
