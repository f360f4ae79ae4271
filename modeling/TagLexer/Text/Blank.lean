import TagLexer.Text.Ranges

/-!
# Blank characters

The characters that separate words without being part of one: the white space of Unicode 14.0
together with the four information separators U+001C to U+001F.
-/

namespace TagLexer

/-- The code points of blank characters. -/
def blankRanges : Ranges :=
  [(0x9, 0xD), (0x1C, 0x20), (0x85, 0x85), (0xA0, 0xA0), (0x1680, 0x1680), (0x2000, 0x200A),
   (0x2028, 0x2029), (0x202F, 0x202F), (0x205F, 0x205F), (0x3000, 0x3000)]

/-- A character that only separates other characters. -/
def isBlank (c : Char) : Bool := blankRanges.contains c

end TagLexer
