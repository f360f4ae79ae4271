import TagLexer.Text.Basic

/-!
# Line ends

Files may end their lines with a line feed, a carriage return or both. Two readings make line feeds
of them: one for sources, which takes all three, and one for settings, which takes the pair only.
-/

namespace TagLexer.Text

/-- A carriage return, alone or with a line feed behind it, becomes a line feed. -/
def universalNewlines : Text → Text
  | [] => []
  | '\r' :: '\n' :: rest => '\n' :: universalNewlines rest
  | '\r' :: rest => '\n' :: universalNewlines rest
  | c :: rest => c :: universalNewlines rest

/-- A carriage return with a line feed behind it becomes a line feed; one alone stays. -/
def pairedNewlines : Text → Text
  | [] => []
  | '\r' :: '\n' :: rest => '\n' :: pairedNewlines rest
  | c :: rest => c :: pairedNewlines rest

end TagLexer.Text
