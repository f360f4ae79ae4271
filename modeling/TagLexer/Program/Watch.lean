import TagLexer.Program.Run

/-!
# Watching

A watching program looks at its input again and again and scans it whenever the time of its last
change differs from the one seen before. Between two looks others may change the files. The program
remembers nothing but the time it saw last, which starts at zero, and ends when it is interrupted.
-/

namespace TagLexer

/-- What a program has done in a stretch of time. -/
structure Turn where
  /-- What went to the standard output. -/
  stdout : Text
  /-- What went to the standard error output. -/
  stderr : Text
  /-- The files before. -/
  before : FileSystem
  /-- The files afterwards. -/
  after : FileSystem
  deriving DecidableEq, Repr

/-- Nothing has been done. -/
def Turn.idle (fs : FileSystem) : Turn := { stdout := [], stderr := [], before := fs, after := fs }

/-- One look at the input. -/
structure Look where
  /-- What was done. -/
  turn : Turn
  /-- The time of the last change to remember, or the fault that ends the program. -/
  next : Except Fault Int

/-- All that a program has done: turn by turn up to each sleep, then what came after the last one,
and how it ended. -/
structure Session where
  /-- The turns that ended in a sleep. -/
  turns : List Turn
  /-- The turn after the last sleep. -/
  rest : Turn
  /-- How the program ended. -/
  ending : Ending

namespace Settings

/-- A look at an input that could not be scanned. A fault that is reported is remembered with the
time like any other version of the input. -/
def failedLook (modified : Int) (fs : FileSystem) (report : Text) (f : Fault) : Look :=
  if f.isReported then
    { turn := { Turn.idle fs with stderr := report ++ "error: ".toList ++ f.message ++ ['\n'] }
      next := .ok modified }
  else { turn := { Turn.idle fs with stderr := report }, next := .error f }

/-- Scan the input because it has changed. -/
def refresh (s : Settings) (modified : Int) (fs : FileSystem) : Look :=
  match s.produce fs with
  | .error f => failedLook modified fs [] f
  | .ok product =>
    match product.listing.bind (s.deliver fs) with
    | .error f => failedLook modified fs product.report f
    | .ok (stdout, files) =>
      { turn :=
          { stdout
            stderr := product.report ++ "Tokenized ".toList ++ s.input.write ++ ['\n']
            before := fs
            after := files }
        next := .ok modified }

/-- Look at the input once. An input that cannot be found is passed over. -/
def look (s : Settings) (seen : Int) (fs : FileSystem) : Look :=
  match fs.find s.input with
  | .error (.os ..) => { turn := .idle fs, next := .ok seen }
  | .error .nullByte => { turn := .idle fs, next := .error (.file .nullByte) }
  | .ok entry =>
    if entry.modified = seen then { turn := .idle fs, next := .ok seen }
    else s.refresh entry.modified fs

/-- What is said when watching begins. -/
def greeting (s : Settings) : Text :=
  "Watching ".toList ++ s.input.write ++ " for changes...\n".toList

/-- Look at the input, then at each state of the files that others make of them, until the interrupt
that comes in the sleep after the last look. What was said before the first look counts as part of
it. -/
def watchFrom (s : Settings) (said : Text) (seen : Int) (fs : FileSystem)
    (changes : List (FileSystem → FileSystem)) : Session :=
  let now := s.look seen fs
  let turn := { now.turn with stderr := said ++ now.turn.stderr }
  match now.next, changes with
  | .error f, _ => { turns := [], rest := turn, ending := .escaped f }
  | .ok _, [] => { turns := [turn], rest := .idle turn.after, ending := .returned 0 }
  | .ok seen, change :: changes =>
    let later := s.watchFrom [] seen (change turn.after) changes
    { later with turns := turn :: later.turns }

/-- Watch the input. -/
def watchAll (s : Settings) (fs : FileSystem) (changes : List (FileSystem → FileSystem)) :
    Session :=
  s.watchFrom s.greeting 0 fs changes

end Settings

namespace Program

/-- The session of a program that ends without sleeping. -/
def ended (fs : FileSystem) (o : Outcome) : Session :=
  { turns := []
    rest := { stdout := o.stdout, stderr := o.stderr, before := fs, after := o.files }
    ending := o.ending }

/-- Everything a program does when it is called with a command line: it runs once, or it watches its
input while others change the files. -/
def session (stack : Toml.Stack) (argv : List Text) (fs : FileSystem)
    (changes : List (FileSystem → FileSystem)) : Session :=
  match settle stack argv fs with
  | .error outcome => ended fs outcome
  | .ok settings =>
    if settings.watch then settings.watchAll fs changes else ended fs (settings.run fs)

end Program

end TagLexer
