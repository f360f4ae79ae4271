import TagLexer.Arguments.Usage

/-!
# Reading the command line

The arguments are first told apart and then taken from left to right. The first plain word that is
not the word of a switch is the input; what no one takes is left over and refused at the end. Of a
switch given twice the later one counts. A `--` attached to a switch is no word: the switch counts
as given, and its value is void.
-/

namespace TagLexer

/-- The value of a switch that is given. -/
inductive Operand (α : Type) where
  /-- The switch has a word, and this is what it means. -/
  | value (value : α)
  /-- The switch has a `--` in the place of its word. -/
  | void
  deriving DecidableEq, Repr

/-- The operand that the word of a switch is. -/
def Operand.ofWord (word : Text) : Operand Text :=
  if word = Argument.separatorText then .void else .value word

/-- What a command line asks for. -/
structure Arguments where
  /-- The input as it was named. -/
  input : Text
  /-- The output, where one was named. -/
  output : Option (Operand Text)
  /-- The format, where one was named. -/
  format : Option (Operand Format)
  /-- The configuration, where one was named. -/
  config : Option (Operand Text)
  /-- Whether to watch the input for changes. -/
  watch : Bool
  /-- Whether to report notes. -/
  debug : Bool
  deriving DecidableEq, Repr

namespace Arguments

/-- What has been understood of a command line so far. -/
structure Draft where
  /-- The input, once it has been found. -/
  input : Option Text := none
  /-- The latest output. -/
  output : Option (Operand Text) := none
  /-- The latest format. -/
  format : Option (Operand Format) := none
  /-- The latest configuration. -/
  config : Option (Operand Text) := none
  /-- Whether watching was asked for. -/
  watch : Bool := false
  /-- Whether reports were asked for. -/
  debug : Bool := false
  /-- The words that nothing takes, in order. -/
  extras : List Text := []
  deriving DecidableEq, Repr

/-- Leave a word over. -/
def Draft.leaveOver (d : Draft) (word : Text) : Draft := { d with extras := d.extras ++ [word] }

/-- The end of a cluster of letters behind one dash. -/
inductive Tail where
  /-- Nothing is left of the cluster. -/
  | done
  /-- The last letter has its word in the cluster. -/
  | given (switch : Switch) (word : Text)
  /-- The last letter needs the next argument for its word. -/
  | wanting (switch : Switch)
  deriving DecidableEq, Repr

/-- What a switch with no word attached comes to. -/
def alone (switch : Switch) : List Switch × Tail :=
  if switch.takesWord then ([], .wanting switch) else ([switch], .done)

/-- The text attached to the letter of a switch that takes no word is read as letters of further
switches, up to the first that takes a word and finds it in the rest. The result lists the switches
without words in front and the end of the cluster. -/
def cluster (switch : Switch) : Text → Except Misuse (List Switch × Tail)
  | [] => .error (.ignoredWord switch [])
  | c :: rest =>
    match Switch.ofLetter? c with
    | none => .error (.ignoredWord switch (c :: rest))
    | some next => do
      let (switches, tail) ←
        if rest.isEmpty then .ok (alone next)
        else if next.takesWord then .ok ([], .given next rest)
        else cluster next rest
      return (switch :: switches, tail)

/-- What a switch and the word attached to it come to. -/
def expand (switch : Switch) (style : Style) (attached : Option Text) :
    Except Misuse (List Switch × Tail) :=
  match attached with
  | none => .ok (alone switch)
  | some word =>
    if switch.takesWord then .ok ([], .given switch word)
    else
      match style with
      | .letter => cluster switch word
      | .name => .error (.ignoredWord switch word)

/-- Act on a switch that takes no word. -/
def Draft.raise (d : Draft) : Switch → Except Stop Draft
  | .help => .error .help
  | .watch => .ok { d with watch := true }
  | .debug => .ok { d with debug := true }
  | _ => .ok d

/-- Act on a switch and its word. -/
def Draft.assign (d : Draft) (switch : Switch) (word : Text) : Except Stop Draft :=
  match switch with
  | .output => .ok { d with output := some (.ofWord word) }
  | .config => .ok { d with config := some (.ofWord word) }
  | .format =>
    match Operand.ofWord word with
    | .void => .ok { d with format := some .void }
    | .value name =>
      match Format.ofName? name with
      | some format => .ok { d with format := some (.value format) }
      | none => .error (.misuse (.invalidChoice name))
  | _ => .ok d

/-- Act on switches from left to right. -/
def Draft.raiseAll (d : Draft) (switches : List Switch) : Except Stop Draft :=
  switches.foldlM Draft.raise d

/-- Take the arguments from left to right. A `--` disappears with the input it stands next to and
is left over everywhere else. -/
def read (d : Draft) : List Argument → Except Stop Draft
  | [] => .ok d
  | .word w :: .separator :: rest =>
    match d.input with
    | none => read { d with input := some w } rest
    | some _ => read ((d.leaveOver w).leaveOver Argument.separatorText) rest
  | .word w :: rest =>
    match d.input with
    | none => read { d with input := some w } rest
    | some _ => read (d.leaveOver w) rest
  | .separator :: .word w :: rest =>
    match d.input with
    | none => read { d with input := some w } rest
    | some _ => read ((d.leaveOver Argument.separatorText).leaveOver w) rest
  | .separator :: rest => read (d.leaveOver Argument.separatorText) rest
  | .unknown w :: rest => read (d.leaveOver w) rest
  | .switch switch style attached :: rest =>
    match expand switch style attached with
    | .error m => .error (.misuse m)
    | .ok (switches, .done) => do read (← d.raiseAll switches) rest
    | .ok (switches, .given last w) => do read (← (← d.raiseAll switches).assign last w) rest
    | .ok (switches, .wanting last) =>
      match rest with
      | .word w :: rest => do read (← (← d.raiseAll switches).assign last w) rest
      | _ => .error (.misuse (.expectedWord last))

/-- What a draft comes to: a missing input is reported before words that are left over. -/
def Draft.complete (d : Draft) : Except Stop Arguments :=
  match d.input, d.extras with
  | none, _ => .error (.misuse .missingInput)
  | some _, w :: ws => .error (.misuse (.unrecognized (w :: ws)))
  | some input, [] =>
    .ok
      { input
        output := d.output
        format := d.format
        config := d.config
        watch := d.watch
        debug := d.debug }

/-- Read a command line. -/
def parse (argv : List Text) : Except Stop Arguments :=
  match Argument.classifyAll argv with
  | .error a => .error (.misuse (.ambiguous a))
  | .ok arguments => do (← read {} arguments).complete

end Arguments

end TagLexer
