import TagLexer.Note
import TagLexer.Position
import TagLexer.Text.Quoted

/-!
# Reports of notes

A note is reported as a message of one line, and the notes of a file as lines that name the file,
the line and the column.
-/

namespace TagLexer

/-- The message of a note. -/
def Note.message (note : Note) : Text :=
  match note.kind with
  | .unrecognized => "unrecognized character ".toList ++ note.text.quoted ++ " dropped".toList
  | .straySlash => "stray '/' dropped (did you mean '/>'?)".toList
  | .unterminatedString =>
    "unterminated string literal, opening ".toList ++ note.text ++ " runs to end of input".toList

namespace Report

/-- The name that stands for a file when none is given. -/
def defaultFile : Text := "input.tag".toList

/-- The report of a note in a source: file, line, column and message. -/
def line (source file : Text) (note : Note) : Text :=
  let p := Position.at source note.offset
  file ++ ':' :: Text.ofNat p.line ++ ':' :: Text.ofNat p.column ++ [':', ' '] ++ note.message ++
    ['\n']

/-- The reports of all notes, in their order. -/
def lines (source file : Text) (notes : List Note) : Text := notes.flatMap (line source file)

end Report

end TagLexer
