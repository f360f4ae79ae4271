import TagLexer.Json
import TagLexer.Text.Quoted
import TagLexer.Token.Basic

/-!
# Listings

A listing shows the tokens of a source in one of two formats: a line of text per token, or a JSON
document. A format is chosen by its name.
-/

namespace TagLexer

/-- The formats of a listing. -/
inductive Format where
  | text | json
  deriving DecidableEq, Repr

namespace Format

/-- The formats, the usual one first. -/
def all : List Format := [text, json]

/-- The name by which a format is chosen. -/
def name : Format → Text
  | text => "text".toList
  | json => "json".toList

/-- The format with a given name. -/
def ofName? (word : Text) : Option Format := all.find? fun f => f.name == word

/-- The names of the formats as messages list them. -/
def names : Text := List.intercalate [',', ' '] (all.map name)

end Format

namespace Listing

/-- The line of a token: the name of its kind, a tab and its quoted value. -/
def line (token : Token) : Text := token.kind.name ++ '\t' :: token.value.quoted ++ ['\n']

/-- The lines of all tokens. -/
def lines (tokens : List Token) : Text := tokens.flatMap line

/-- A token as an object with a value and the name of its kind. -/
def object (token : Token) : Json :=
  .object [("value".toList, .string token.value), ("type".toList, .string token.kind.name)]

/-- The tokens as a JSON document. -/
def document (tokens : List Token) : Text := (Json.array (tokens.map object)).document

/-- The listing of tokens in a format. -/
def render (tokens : List Token) : Format → Text
  | .text => lines tokens
  | .json => document tokens

/-- A listing was asked for in a format that does not exist. -/
inductive UnknownFormat where
  /-- No format has the name that was given. -/
  | named (name : Text)
  /-- No name was given. -/
  | unnamed
  deriving DecidableEq, Repr

/-- What is said about a format that does not exist: its name is quoted, and a missing name shows as
an empty list. -/
def UnknownFormat.message (e : UnknownFormat) : Text :=
  "unknown output format ".toList ++
    (match e with
     | named name => name.quoted
     | unnamed => ['[', ']']) ++
    " (expected one of: ".toList ++ Format.names ++ [')']

/-- The listing of tokens in the format with a given name. -/
def renderNamed (tokens : List Token) (name : Text) : Except UnknownFormat Text :=
  match Format.ofName? name with
  | some format => .ok (render tokens format)
  | none => .error (.named name)

end Listing

end TagLexer
