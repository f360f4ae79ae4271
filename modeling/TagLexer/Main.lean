import TagLexer.Files.Edit
import TagLexer.Program.Watch

/-!
# The command line program

The outer layer: it takes a picture of the files that matter, lets the library work on that picture,
and carries out what the library has decided.
-/

namespace TagLexer.CommandLine

/-- A file of the disk; one that cannot be read has no content. -/
def inspectFile (name : String) (modified : Int) : IO Entry := do
  try
    return .file (← IO.FS.readBinFile name).toList modified
  catch _ => return .file [] modified { Access.full with read := false }

/-- What stands at a path of the disk, or why that cannot be said. -/
def inspect (name : String) : IO (Except OsError Entry) := do
  try
    let info ← (← IO.FS.realPath name).metadata
    let modified := info.modified.sec * 1000000000 + info.modified.nsec.toNat
    match info.type with
    | .dir => return .ok (.directory modified)
    | _ => return .ok (← inspectFile name modified)
  catch fault =>
    match fault with
    | .permissionDenied .. => return .error .permissionDenied
    | _ => return .error .noEntry

/-- The name of a place on the disk. -/
def diskName (place : Location) : String := String.ofList ('/' :: List.intercalate ['/'] place)

/-- Take away the right to pass through a directory. -/
def forbid (fs : FileSystem) (place : Location) : FileSystem :=
  match fs.get? place with
  | some (.directory modified access) =>
    fs.put place (.directory modified { access with search := false })
  | _ => fs

/-- Add to a picture what stands at a place and at those above it. -/
def photograph (fs : FileSystem) (place : Location) : IO FileSystem :=
  (List.range (place.length + 1)).foldlM
    (fun fs n => do
      match ← inspect (diskName (place.take n)) with
      | .ok entry => return fs.put (place.take n) entry
      | .error .permissionDenied => return forbid fs (place.take (n - 1))
      | .error _ => return fs)
    fs

/-- A picture of the files at some paths. -/
def snapshot (paths : List Path) : IO FileSystem := do
  let current := (Path.ofText (← IO.currentDir).toString.toList).names
  let blank := FileSystem.empty current 0
  let usable := paths.filter fun path => !path.write.contains '\x00'
  usable.foldlM (fun fs path => photograph fs (fs.placeOf path)) blank

/-- Carry out what was done in a turn. -/
def carryOut (turn : Turn) : IO Unit := do
  for (place, content) in FileSystem.changesSince turn.before turn.after do
    IO.FS.writeBinFile (diskName place) ⟨content.toArray⟩
  let stdout ← IO.getStdout
  stdout.putStr (String.ofList turn.stdout)
  stdout.flush
  (← IO.getStderr).putStr (String.ofList turn.stderr)

/-- The exit code of an ending; a fault that nothing handles is shown. -/
def exitCode : Ending → IO UInt32
  | .returned code | .stopped code => return code.toUInt32
  | .escaped fault => do
    (← IO.getStderr).putStrLn (String.ofList fault.message)
    return 1

/-- Look at the input every half second until the program is interrupted. -/
partial def watch (settings : Settings) (seen : Int) : IO UInt32 := do
  let look := settings.look seen (← snapshot (settings.input :: settings.output.toList))
  carryOut look.turn
  match look.next with
  | .error fault => exitCode (.escaped fault)
  | .ok seen =>
    IO.sleep 500
    watch settings seen

/-- The files that decide what a command line asks for. -/
def settingFiles (argv : List Text) : List Path :=
  match Arguments.parse argv with
  | .ok args => [Settings.configPath args]
  | .error _ => []

/-- Run the program. -/
def run (argv : List Text) : IO UInt32 := do
  let fs ← snapshot (settingFiles argv)
  match Program.settle .usual argv fs with
  | .error outcome =>
    carryOut (Program.ended fs outcome).rest
    exitCode outcome.ending
  | .ok settings =>
    if settings.watch then
      (← IO.getStderr).putStr (String.ofList settings.greeting)
      watch settings 0
    else
      let fs ← snapshot (settings.input :: settings.output.toList)
      let outcome := settings.run fs
      carryOut (Program.ended fs outcome).rest
      exitCode outcome.ending

end TagLexer.CommandLine

/-- The entry point. -/
def main (args : List String) : IO UInt32 := TagLexer.CommandLine.run (args.map String.toList)
