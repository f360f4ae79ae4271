import TagLexer.Arguments.Parse
import TagLexer.Program.Config

/-!
# Settings

What a run does is settled by three sources: what holds where nothing is said, the settings file,
and the command line, of which a later one outweighs an earlier one.
-/

namespace TagLexer

/-- What a run does. -/
structure Settings where
  /-- The input. -/
  input : Path
  /-- The file the listing goes to; without one it goes to the standard output. -/
  output : Option Path
  /-- The format of the listing. -/
  format : Operand Format
  /-- Whether to watch the input for changes. -/
  watch : Bool
  /-- Whether to report notes. -/
  debug : Bool
  deriving DecidableEq, Repr

/-- Why settings are refused. -/
inductive Refusal where
  /-- The settings file does not follow the grammar. -/
  | invalidConfig
  /-- The settings file asks for a format that does not exist. -/
  | invalidFormat (value : Toml.Value)
  /-- Something else went wrong. -/
  | fault (fault : Fault)

/-- What is said about refused settings. Of a settings file that does not follow the grammar it is
left out where and how. -/
def Refusal.message : Refusal → Text
  | invalidConfig => "invalid config file".toList
  | invalidFormat value =>
    "invalid output format in config: ".toList ++ value.describe ++ " (expected one of: ".toList ++
      Format.names ++ [')']
  | fault f => f.message

namespace Settings

/-- The table of a settings file that is about the output; anything but a table counts as none. -/
def outputTable (config : Toml.Table) : Toml.Table :=
  match config.get? "output".toList with
  | some (.table entries) => entries
  | _ => []

/-- Refuse a value that names no format. -/
def refuseFormat (stack : Toml.Stack) (value : Toml.Value) : Refusal :=
  match value.unshown? stack.showing with
  | none => .invalidFormat value
  | some cause => .fault (.unshown cause)

/-- The format that a settings file asks for. -/
def configuredFormat (stack : Toml.Stack) (config : Toml.Table) : Except Refusal (Option Format) :=
  match (outputTable config).get? "format".toList with
  | none => .ok none
  | some (.string name) =>
    match Format.ofName? name with
    | some format => .ok (some format)
    | none => .error (refuseFormat stack (.string name))
  | some value => .error (refuseFormat stack value)

/-- The output that a settings file asks for: any text that is not empty. -/
def configuredOutput (config : Toml.Table) : Option Path :=
  match (outputTable config).get? "file".toList with
  | some (.string (c :: name)) => some (.ofText (c :: name))
  | _ => none

/-- Whether a settings file asks for reports. -/
def configuredDebug (config : Toml.Table) : Bool :=
  match config.get? "debug".toList with
  | some value => value.truth
  | none => false

/-- The path that a switch of the command line names; an empty word and a void value name none. -/
def namedPath : Option (Operand Text) → Option Path
  | some (.value (c :: word)) => some (.ofText (c :: word))
  | _ => none

/-- The settings that a command line and a settings file come to. -/
def merge (stack : Toml.Stack) (args : Arguments) (config : Toml.Table) :
    Except Refusal Settings := do
  let format ← configuredFormat stack config
  return {
    input := .ofText args.input
    output := (namedPath args.output).or (configuredOutput config)
    format := (args.format.or (format.map .value)).getD (.value .text)
    watch := args.watch
    debug := args.debug || configuredDebug config }

/-- The path of the settings file that a command line asks for. -/
def configPath (args : Arguments) : Path :=
  Config.path (namedPath args.config) (Path.ofText args.input).parent

/-- The settings of a command line. -/
def resolve (stack : Toml.Stack) (fs : FileSystem) (args : Arguments) : Except Refusal Settings :=
  match Config.load stack fs (configPath args) with
  | .error .malformed => .error .invalidConfig
  | .error (.fault f) => .error (.fault f)
  | .ok config => merge stack args config

end Settings

end TagLexer
