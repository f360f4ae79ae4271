import TagLexer.Text.Numeral

/-!
# JSON documents

The part of JSON that listings are made of, and its indented written form: two blanks per level, a
member or an item on each line, and nothing between the brackets of an empty list or object.
-/

namespace TagLexer

/-- A JSON value built from strings. -/
inductive Json where
  | string (value : Text)
  | array (items : List Json)
  | object (members : List (Text × Json))
  deriving Repr

namespace Json

/-- A character inside a JSON string: quotes, backslashes and controls are escaped. -/
def escapeChar (c : Char) : Text :=
  if c = '"' || c = '\\' then ['\\', c]
  else if c = '\n' then ['\\', 'n']
  else if c = '\r' then ['\\', 'r']
  else if c = '\t' then ['\\', 't']
  else if c = '\x08' then ['\\', 'b']
  else if c = '\x0c' then ['\\', 'f']
  else if c.toNat < 0x20 then '\\' :: 'u' :: Text.hex 4 c.toNat
  else [c]

/-- The written form of a string. -/
def writeString (s : Text) : Text := '"' :: (s.flatMap escapeChar ++ ['"'])

/-- A line feed and the indentation of a level. -/
def newline (level : Nat) : Text := '\n' :: List.replicate (2 * level) ' '

mutual

/-- The written form of a value that stands at a level of indentation. -/
def write (level : Nat) : Json → Text
  | string value => writeString value
  | array [] => ['[', ']']
  | array (item :: items) =>
    '[' :: newline (level + 1) ++ write (level + 1) item ++ writeItems (level + 1) items ++
      newline level ++ [']']
  | object [] => ['\x7b', '\x7d']
  | object ((key, value) :: members) =>
    '\x7b' :: newline (level + 1) ++ writeString key ++ [':', ' '] ++ write (level + 1) value ++
      writeMembers (level + 1) members ++ newline level ++ ['\x7d']

/-- The items after the first, each after a comma on a line of its own. -/
def writeItems (level : Nat) : List Json → Text
  | [] => []
  | item :: items => ',' :: newline level ++ write level item ++ writeItems level items

/-- The members after the first, each after a comma on a line of its own. -/
def writeMembers (level : Nat) : List (Text × Json) → Text
  | [] => []
  | (key, value) :: members =>
    ',' :: newline level ++ writeString key ++ [':', ' '] ++ write level value ++
      writeMembers level members

end

/-- A document: a value at the left margin, and a line feed. -/
def document (value : Json) : Text := write 0 value ++ ['\n']

end Json

end TagLexer
