import TagLexer.Fault
import TagLexer.Toml.Grammar

/-!
# The settings file

Settings come from the file that the command line names, or else from `tagscript.toml` beside the
input. Where there is no such file there are no settings.
-/

namespace TagLexer

/-- Why settings cannot be had. -/
inductive ConfigFault where
  /-- The file does not follow the grammar. -/
  | malformed
  /-- Something else went wrong. -/
  | fault (fault : Fault)
  deriving DecidableEq, Repr

namespace Config

/-- The name of the settings file beside an input. -/
def fileName : Text := "tagscript.toml".toList

/-- The path of the settings file. -/
def path (named : Option Path) (inputDir : Path) : Path := named.getD (inputDir.child fileName)

/-- Name a fault of the files. -/
def liftFile {α : Type} : Except FileFault α → Except ConfigFault α
  | .ok a => .ok a
  | .error f => .error (.fault (.file f))

/-- The settings that the bytes of a file give. -/
def parse (stack : Toml.Stack) (bytes : Bytes) : Except ConfigFault Toml.Table :=
  match Utf8.decode bytes with
  | .error f => .error (.fault (.notUtf8 f))
  | .ok text =>
    match Toml.parse stack text with
    | .ok table => .ok table
    | .error .malformed => .error .malformed
    | .error (.longInteger digits) => .error (.fault (.longInteger digits))
    | .error .tooDeep => .error (.fault .tooDeep)

/-- The settings that a path gives: none at all unless it leads to a file. -/
def load (stack : Toml.Stack) (fs : FileSystem) (path : Path) : Except ConfigFault Toml.Table := do
  if ← liftFile (fs.isFile path) then parse stack (← liftFile (fs.read path)) else return []

end Config

end TagLexer
