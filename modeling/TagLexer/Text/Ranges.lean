import TagLexer.Text.Basic

/-!
# Tables of code points

A character class is given by a table of inclusive ranges in increasing order, with one look-up for
all tables.
-/

namespace TagLexer

/-- Inclusive ranges of code points, in increasing order. -/
abbrev Ranges := List (Nat × Nat)

/-- A character is in a table when some range holds its code point. -/
def Ranges.contains (table : Ranges) (c : Char) : Bool :=
  table.any fun range => decide (range.1 ≤ c.toNat) && decide (c.toNat ≤ range.2)

end TagLexer
