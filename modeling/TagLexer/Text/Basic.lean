/-!
# Text

A text is the list of its code points, so every length, offset and column counts code points. Lone
surrogates are not among them. Besides the type this module holds the search for one text inside
another and the class of ASCII letters.
-/

namespace TagLexer

/-- A text is the list of its code points. -/
abbrev Text := List Char

/-- An ASCII letter of either case. -/
def isAsciiLetter (c : Char) : Bool :=
  (decide ('a' ≤ c) && decide (c ≤ 'z')) || (decide ('A' ≤ c) && decide (c ≤ 'Z'))

namespace Text

/-- Whether one text occurs inside another without gaps. -/
def occursIn (part : Text) : Text → Bool
  | [] => part.isEmpty
  | c :: rest => part.isPrefixOf (c :: rest) || occursIn part rest

end Text

end TagLexer
