import TagLexer.Arguments.Switch
import TagLexer.Listing

/-!
# Usage and help

The texts that the command line shows when it is asked for help or cannot be understood.
-/

namespace TagLexer

/-- The name of the program. -/
def programName : Text := "tagscript".toList

/-- How the program is called. -/
def usage : Text :=
  ("usage: tagscript [-h] [-o OUTPUT] [-f \x7btext,json\x7d] [--config FILE] [--watch]\n" ++
   "                 [--debug]\n" ++
   "                 input\n").toList

/-- What the program does and what its switches mean. -/
def helpText : Text :=
  usage ++
    ("\n" ++
     "Tokenize TagScript source and print the token stream\n" ++
     "\n" ++
     "positional arguments:\n" ++
     "  input                 Input .tag file\n" ++
     "\n" ++
     "options:\n" ++
     "  -h, --help            show this help message and exit\n" ++
     "  -o OUTPUT, --output OUTPUT\n" ++
     "                        Output file (default: stdout)\n" ++
     "  -f \x7btext,json\x7d, --format \x7btext,json\x7d\n" ++
     "                        Output format (default: text)\n" ++
     "  --config FILE         Config file (default: auto-discover tagscript.toml)\n" ++
     "  --watch               Watch for changes and re-tokenize\n" ++
     "  --debug               Report dropped characters and unterminated strings to\n" ++
     "                        stderr\n").toList

/-- Why a command line cannot be understood. -/
inductive Misuse where
  /-- No input is named. -/
  | missingInput
  /-- Words are left over. -/
  | unrecognized (words : List Text)
  /-- A format does not exist. -/
  | invalidChoice (word : Text)
  /-- A switch lacks its word. -/
  | expectedWord (switch : Switch)
  /-- A switch that takes no word has one attached. -/
  | ignoredWord (switch : Switch) (word : Text)
  /-- An abbreviation fits several switches. -/
  | ambiguous (ambiguity : Ambiguity)
  deriving DecidableEq, Repr

namespace Misuse

/-- A message about a switch. -/
def about (switch : Switch) (message : Text) : Text :=
  "argument ".toList ++ switch.label ++ [':', ' '] ++ message

/-- What is wrong with the command line. -/
def message : Misuse → Text
  | missingInput => "the following arguments are required: input".toList
  | unrecognized words => "unrecognized arguments: ".toList ++ List.intercalate [' '] words
  | invalidChoice word =>
    about .format <|
      "invalid choice: ".toList ++ word.quoted ++ " (choose from ".toList ++
        List.intercalate [',', ' '] (Format.all.map fun f => f.name.quoted) ++ [')']
  | expectedWord switch => about switch "expected one argument".toList
  | ignoredWord switch word => about switch ("ignored explicit argument ".toList ++ word.quoted)
  | ambiguous a =>
    "ambiguous option: ".toList ++ a.argument ++ " could match ".toList ++
      List.intercalate [',', ' '] a.fits

end Misuse

/-- Why the program ends before it has done anything: help was asked for, or the command line
cannot be understood. -/
inductive Stop where
  | help
  | misuse (misuse : Misuse)
  deriving DecidableEq, Repr

namespace Stop

/-- The exit code. -/
def code : Stop → Nat
  | help => 0
  | misuse _ => 2

/-- What goes to the standard output. -/
def stdout : Stop → Text
  | help => helpText
  | misuse _ => []

/-- What goes to the standard error output. -/
def stderr : Stop → Text
  | help => []
  | misuse m => usage ++ programName ++ ": error: ".toList ++ m.message ++ ['\n']

end Stop

end TagLexer
