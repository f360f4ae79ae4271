import TagLexer.Text.Digit

/-!
# Switches of the command line

The switches, how they are written, and how a single argument is told apart: a plain word, a switch
with or without a word attached to it, something that looks like a switch and is none, or the `--`
after which every argument is a plain word.
-/

namespace TagLexer

/-- The switches of the command line. -/
inductive Switch where
  | help | output | format | config | watch | debug
  deriving DecidableEq, Repr

namespace Switch

/-- Every way to write a switch in full, in the order of the help text. -/
def spellings : List (Text × Switch) :=
  [("-h".toList, help), ("--help".toList, help), ("-o".toList, output), ("--output".toList, output),
   ("-f".toList, format), ("--format".toList, format), ("--config".toList, config),
   ("--watch".toList, watch), ("--debug".toList, debug)]

/-- The switch that is written in full as given. -/
def ofSpelling? (s : Text) : Option Switch := spellings.lookup s

/-- The switch of a single letter. -/
def ofLetter? (c : Char) : Option Switch := ofSpelling? ['-', c]

/-- Whether a switch comes with a word. -/
def takesWord : Switch → Bool
  | output | format | config => true
  | help | watch | debug => false

/-- The switch as messages name it: all its spellings. -/
def label (switch : Switch) : Text :=
  List.intercalate ['/'] ((spellings.filter fun entry => entry.2 = switch).map Prod.fst)

end Switch

/-- The two ways to write a switch. -/
inductive Style where
  /-- A dash and a letter. -/
  | letter
  /-- Two dashes and a name. -/
  | name
  deriving DecidableEq, Repr

/-- What an argument of the command line is. -/
inductive Argument where
  /-- A plain word. -/
  | word (word : Text)
  /-- A switch, and the word in the same argument if there is one: glued to a letter as in `-ofile`
  or behind an equals sign. -/
  | switch (switch : Switch) (style : Style) (attached : Option Text)
  /-- Something that looks like a switch and is none. -/
  | unknown (word : Text)
  /-- The `--` that ends the switches. -/
  | separator
  deriving DecidableEq, Repr

/-- An abbreviation that fits several switches. -/
structure Ambiguity where
  /-- The argument as it was written. -/
  argument : Text
  /-- The spellings it fits. -/
  fits : List Text
  deriving DecidableEq, Repr

namespace Argument

/-- The `--` that ends the switches. -/
def separatorText : Text := ['-', '-']

/-- A minus sign, digits and at most one point that has digits behind it. -/
def isNegativeNumeral (s : Text) : Bool :=
  match s with
  | '-' :: rest =>
    -- A line feed at the very end does not count.
    let rest := if rest.getLast? = some '\n' then rest.dropLast else rest
    match rest.dropWhile isDecimalDigit with
    | [] => !rest.isEmpty
    | '.' :: digits => !digits.isEmpty && digits.all isDecimalDigit
    | _ => false
  | _ => false

/-- An argument that fits no switch: a number or one with a blank in it is a plain word after
all. -/
def unmatched (s : Text) : Argument :=
  if isNegativeNumeral s || s.contains ' ' then .word s else .unknown s

/-- The part of an argument before its first equals sign, and what follows the sign. -/
def splitAssigned (s : Text) : Text × Option Text :=
  (s.takeWhile (· != '='),
    match s.dropWhile (· != '=') with
    | [] => none
    | _ :: value => some value)

/-- An argument that starts with two dashes: a long switch, or any beginning of just one. -/
def classifyLong (s : Text) : Except Ambiguity Argument :=
  let (stem, attached) := splitAssigned s
  match Switch.spellings.filter fun entry => stem.isPrefixOf entry.1 with
  | [] => .ok (unmatched s)
  | [(_, found)] => .ok (.switch found .name attached)
  | fits => .error { argument := s, fits := fits.map Prod.fst }

/-- An argument that starts with one dash: a letter with a word glued to it. -/
def classifyShort (s letter glued : Text) : Argument :=
  match Switch.ofSpelling? letter with
  | some found => .switch found .letter (some glued)
  | none => unmatched s

/-- What a single argument is, as long as no `--` came before it. -/
def classify (s : Text) : Except Ambiguity Argument :=
  match s with
  | '-' :: second :: rest =>
    if s = separatorText then .ok .separator
    else
      let (stem, attached) := splitAssigned s
      match Switch.ofSpelling? stem with
      | some found => .ok (.switch found (if second = '-' then .name else .letter) attached)
      | none =>
        if second = '-' then classifyLong s else .ok (classifyShort s ['-', second] rest)
  | _ => .ok (.word s)

/-- What the arguments are: after the first `--` all are plain words. -/
def classifyAll : List Text → Except Ambiguity (List Argument)
  | [] => .ok []
  | s :: rest => do
    match ← classify s with
    | .separator => return .separator :: rest.map .word
    | argument => return argument :: (← classifyAll rest)

end Argument

end TagLexer
