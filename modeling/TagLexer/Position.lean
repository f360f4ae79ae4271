import TagLexer.Text.Basic

/-!
# Positions

A position names a place in a source by line and column, which count from one, and by offset, which
counts from zero. Only a line feed ends a line.
-/

namespace TagLexer

/-- A place in a source. -/
structure Position where
  /-- The line, from one. -/
  line : Nat
  /-- The column in the line, from one. -/
  column : Nat
  /-- The number of characters before the place. -/
  offset : Nat
  deriving DecidableEq, Repr

/-- The position of an offset; an offset outside the source is moved to its nearer end. -/
def Position.at (source : Text) (offset : Int) : Position :=
  let offset := min offset.toNat source.length
  let before := source.take offset
  { line := before.count '\n' + 1
    column := (before.reverse.takeWhile (· != '\n')).length + 1
    offset }

end TagLexer
