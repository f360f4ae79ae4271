import TagLexer.Text.Basic

/-!
# Version

The version under which the program is released.
-/

namespace TagLexer

/-- The version of the program. -/
def version : Text := "0.1.0".toList

end TagLexer
