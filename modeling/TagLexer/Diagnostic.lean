import TagLexer.Report
import TagLexer.Scanner

/-!
# Diagnostics for an editor

The diagnostics of a text are what an editor shows beside it: a warning per note of its scan, with a
range whose lines and characters count from zero.
-/

namespace TagLexer

/-- A place in a document as an editor counts: both numbers from zero. -/
structure Place where
  /-- The line, from zero. -/
  line : Nat
  /-- The character in the line, from zero. -/
  character : Nat
  deriving DecidableEq, Repr

/-- The place of a position. -/
def Place.of (p : Position) : Place := { line := p.line - 1, character := p.column - 1 }

/-- A warning about a range of a document. -/
structure Diagnostic where
  /-- Where the range starts. -/
  first : Place
  /-- Where the range ends; the character there is no longer part of it. -/
  last : Place
  /-- What is wrong. -/
  message : Text
  deriving DecidableEq, Repr

namespace Diagnostic

/-- The number of the severity that all diagnostics have: a warning. -/
def severity : Nat := 2

/-- The name under which diagnostics are published. -/
def publisher : Text := "tagscript".toList

/-- The diagnostic of a note in a source: its range covers the noted text. -/
def ofNote (source : Text) (note : Note) : Diagnostic :=
  { first := .of (Position.at source note.offset)
    last := .of (Position.at source (note.offset + note.text.length : Nat))
    message := note.message }

/-- The diagnostics of a source: one per note of its scan, in order. -/
def all (source : Text) : List Diagnostic := (Scan.of source).notes.map (ofNote source)

end Diagnostic

end TagLexer
