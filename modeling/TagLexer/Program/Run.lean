import TagLexer.Program.Settings
import TagLexer.Report
import TagLexer.Scanner
import TagLexer.Text.Newline

/-!
# A single run

A run reads the input, scans it, reports its notes where that is asked for, and delivers the listing
to a file or to the standard output. It is a function of the command line and the files, and its
outcome says what was written and how the run ended.
-/

namespace TagLexer

/-- How a program ends. -/
inductive Ending where
  /-- It ends by itself with an exit code. -/
  | returned (code : Nat)
  /-- The command line ended it with an exit code. -/
  | stopped (code : Nat)
  /-- A fault that it does not handle ended it. -/
  | escaped (fault : Fault)
  deriving DecidableEq, Repr

/-- What a program has done. -/
structure Outcome where
  /-- What went to the standard output. -/
  stdout : Text
  /-- What went to the standard error output. -/
  stderr : Text
  /-- The files afterwards. -/
  files : FileSystem
  /-- How it ended. -/
  ending : Ending
  deriving DecidableEq, Repr

/-- What becomes of an input: the reports of its notes and its listing. -/
structure Product where
  /-- The reports, where they are asked for. -/
  report : Text
  /-- The listing, unless there is no format for it. -/
  listing : Except Fault Text

namespace Settings

/-- The source that the bytes of an input give. -/
def sourceOf (bytes : Bytes) : Except Fault Text :=
  match Utf8.decode bytes with
  | .ok text => .ok text.universalNewlines
  | .error f => .error (.notUtf8 f)

/-- The listing of tokens in the format of the settings. -/
def list (s : Settings) (tokens : List Token) : Except Fault Text :=
  match s.format with
  | .value format => .ok (Listing.render tokens format)
  | .void => .error (.unknownFormat .unnamed)

/-- Scan a source. -/
def process (s : Settings) (source : Text) : Product :=
  let scan := Scan.of source
  { report := if s.debug then Report.lines source s.input.write scan.notes else []
    listing := s.list scan.tokens }

/-- Read and scan the input. -/
def produce (s : Settings) (fs : FileSystem) : Except Fault Product :=
  match fs.read s.input with
  | .error f => .error (.file f)
  | .ok bytes => (sourceOf bytes).map s.process

/-- Deliver a listing: what goes to the standard output, and the files afterwards. -/
def deliver (s : Settings) (fs : FileSystem) (listing : Text) : Except Fault (Text × FileSystem) :=
  match s.output with
  | none => .ok (listing, fs)
  | some path =>
    match fs.write path (Utf8.encode listing) with
    | .ok fs => .ok ([], fs)
    | .error f => .error (.file f)

/-- Run once. An input that cannot be read gives exit code 1; a listing that cannot be made or
delivered ends the program. -/
def run (s : Settings) (fs : FileSystem) : Outcome :=
  match s.produce fs with
  | .error f =>
    if f.isReported then
      { stdout := []
        stderr :=
          "error: cannot read ".toList ++ s.input.write ++ [':', ' '] ++ f.message ++ ['\n']
        files := fs
        ending := .returned 1 }
    else { stdout := [], stderr := [], files := fs, ending := .escaped f }
  | .ok product =>
    match product.listing.bind (s.deliver fs) with
    | .error f => { stdout := [], stderr := product.report, files := fs, ending := .escaped f }
    | .ok (stdout, files) => { stdout, stderr := product.report, files, ending := .returned 0 }

end Settings

namespace Program

/-- Settle what to do, or end at once: the command line stops the program, or the settings are
refused. -/
def settle (stack : Toml.Stack) (argv : List Text) (fs : FileSystem) : Except Outcome Settings :=
  match Arguments.parse argv with
  | .error stop =>
    .error
      { stdout := stop.stdout
        stderr := stop.stderr
        files := fs
        ending := .stopped stop.code }
  | .ok args =>
    match Settings.resolve stack fs args with
    | .error (.fault f) => .error { stdout := [], stderr := [], files := fs, ending := .escaped f }
    | .error refusal =>
      .error
        { stdout := []
          stderr := "error: ".toList ++ refusal.message ++ ['\n']
          files := fs
          ending := .returned 2 }
    | .ok settings => .ok settings

end Program

end TagLexer
