import TagLexer.Text.Basic

/-!
# Notes

A scan never fails. What it drops or absorbs without a token of its own it records as a note.
-/

namespace TagLexer

/-- Why a note was taken. -/
inductive NoteKind where
  /-- A character that belongs to no token was dropped. -/
  | unrecognized
  /-- A slash that neither closes a tag nor divides was dropped. -/
  | straySlash
  /-- A string literal without its closing quote took the rest of the text. -/
  | unterminatedString
  deriving DecidableEq, Repr

namespace NoteKind

/-- Every kind of note, in the order of their numbers, which count from one. -/
def all : List NoteKind := [unrecognized, straySlash, unterminatedString]

/-- The name of a kind of note. -/
def name : NoteKind → Text
  | unrecognized => "UNRECOGNIZED".toList
  | straySlash => "STRAY_SLASH".toList
  | unterminatedString => "UNTERMINATED_STRING".toList

/-- The kind of note with a given name. -/
def ofName? (word : Text) : Option NoteKind := all.find? fun k => k.name == word

end NoteKind

/-- A note of a scan. -/
structure Note where
  /-- Why the note was taken. -/
  kind : NoteKind
  /-- Where in the source the noted text starts. -/
  offset : Nat
  /-- The noted text. -/
  text : Text
  deriving DecidableEq, Repr

/-- A note about an offset that need not lie in the source: one before it counts as its start. -/
def Note.atOffset (kind : NoteKind) (offset : Int) (text : Text) : Note :=
  { kind, offset := offset.toNat, text }

end TagLexer
