import TagLexer.Files.Path
import TagLexer.Text.Quoted
import TagLexer.Text.Utf8

/-!
# Files

A file system is a value: what stands at which place and what may be done with it, which directory
is the current one, and a clock that stamps every change. Reading and writing follow a path from the
current directory name by name and fail for one of five causes, or because a name holds a null
character. There are no links, and nothing stands anywhere but files and directories.
-/

namespace TagLexer

/-- Why the operating system refuses a path. -/
inductive OsError where
  | noEntry | permissionDenied | notDirectory | isDirectory | nameTooLong
  deriving DecidableEq, Repr

namespace OsError

/-- The number of the error. -/
def number : OsError → Nat
  | noEntry => 2
  | permissionDenied => 13
  | notDirectory => 20
  | isDirectory => 21
  | nameTooLong => 36

/-- The text of the error. -/
def text : OsError → Text
  | noEntry => "No such file or directory".toList
  | permissionDenied => "Permission denied".toList
  | notDirectory => "Not a directory".toList
  | isDirectory => "Is a directory".toList
  | nameTooLong => "File name too long".toList

end OsError

/-- Why a path cannot be used. -/
inductive FileFault where
  /-- The operating system refuses it. -/
  | os (error : OsError) (path : Path)
  /-- It holds a null character. -/
  | nullByte
  deriving DecidableEq, Repr

/-- What is said about a path that cannot be used. -/
def FileFault.message : FileFault → Text
  | os error path =>
    "[Errno ".toList ++ Text.ofNat error.number ++ [']', ' '] ++ error.text ++ [':', ' '] ++
      path.write.quoted
  | nullByte => "embedded null byte".toList

/-- A place in the file system: the names on the way from its top. -/
abbrev Location := List Text

/-- What the program may do with an entry. -/
structure Access where
  /-- It may be read. -/
  read : Bool
  /-- Its content may be changed; that of a directory are its names. -/
  write : Bool
  /-- It may be passed through, if it is a directory. -/
  search : Bool
  deriving DecidableEq, Repr

/-- Everything may be done. -/
def Access.full : Access := { read := true, write := true, search := true }

/-- What stands at a place. -/
inductive Entry where
  /-- A file with its content, the time of its last change and what may be done with it. -/
  | file (content : Bytes) (modified : Int) (access : Access := .full)
  /-- A directory with the time of its last change and what may be done with it. -/
  | directory (modified : Int) (access : Access := .full)
  deriving DecidableEq, Repr

namespace Entry

/-- The time of the last change, in the ticks of some clock. -/
def modified : Entry → Int
  | file _ modified _ => modified
  | directory modified _ => modified

/-- What may be done with an entry. -/
def access : Entry → Access
  | file _ _ access => access
  | directory _ access => access

end Entry

/-- A file system. -/
structure FileSystem where
  /-- What stands where, no place twice. -/
  entries : List (Location × Entry)
  /-- The place that relative paths start from. -/
  current : Location
  /-- The time that the next change is stamped with. -/
  clock : Int
  deriving DecidableEq, Repr

namespace FileSystem

/-- What stands at a place. -/
def get? (fs : FileSystem) (place : Location) : Option Entry := fs.entries.lookup place

/-- Replace what stands at a place, or put something there. -/
def putEntry (place : Location) (entry : Entry) : List (Location × Entry) → List (Location × Entry)
  | [] => [(place, entry)]
  | (p, e) :: rest => if p = place then (p, entry) :: rest else (p, e) :: putEntry place entry rest

/-- Put something at a place. -/
def put (fs : FileSystem) (place : Location) (entry : Entry) : FileSystem :=
  { fs with entries := putEntry place entry fs.entries }

/-- The most bytes a single name may have. -/
def nameLimit : Nat := 255

/-- The number of bytes that a path has to stay below. -/
def pathLimit : Nat := 4096

/-- Follow names from a place. A directory has to be searchable before any name in it counts. -/
def walk (fs : FileSystem) (place : Location) : List Text → Except OsError Location
  | [] => .ok place
  | name :: names =>
    match fs.get? place with
    | none => .error .noEntry
    | some (.file ..) => .error .notDirectory
    | some (.directory _ access) =>
      if !access.search then .error .permissionDenied
      else if name = Path.here then fs.walk place names
      else if name = Path.up then fs.walk place.dropLast names
      else if (Utf8.encode name).length > nameLimit then .error .nameTooLong
      else
        match fs.get? (place ++ [name]) with
        | none => .error .noEntry
        | some _ => fs.walk (place ++ [name]) names

/-- Where a path starts. -/
def startOf (fs : FileSystem) (path : Path) : Location :=
  if path.root.isEmpty then fs.current else []

/-- Paths with a null character and paths that are too long are refused before anything else. -/
def checkPath (path : Path) : Except FileFault Unit :=
  if path.write.contains '\x00' then .error .nullByte
  else if (Utf8.encode path.write).length ≥ pathLimit then .error (.os .nameTooLong path)
  else .ok ()

/-- Name the path that the operating system refused. -/
def refuse {α : Type} (path : Path) : Except OsError α → Except FileFault α
  | .ok a => .ok a
  | .error e => .error (.os e path)

/-- What stands at the end of a path. -/
def find (fs : FileSystem) (path : Path) : Except FileFault Entry := do
  checkPath path
  refuse path do
    match fs.get? (← fs.walk (fs.startOf path) path.steps) with
    | some entry => .ok entry
    | none => .error .noEntry

/-- Whether a path leads to a file. A path that leads nowhere does not, and neither does one with a
null character; a name that is too long and a directory that may not be searched are errors. -/
def isFile (fs : FileSystem) (path : Path) : Except FileFault Bool :=
  match fs.find path with
  | .ok (.file ..) => .ok true
  | .ok (.directory ..) => .ok false
  | .error (.os .nameTooLong p) => .error (.os .nameTooLong p)
  | .error (.os .permissionDenied p) => .error (.os .permissionDenied p)
  | .error _ => .ok false

/-- The content of an entry: only a file has one. -/
def contentOf : Entry → Except OsError Bytes
  | .file content _ access => if access.read then .ok content else .error .permissionDenied
  | .directory _ access => .error (if access.read then .isDirectory else .permissionDenied)

/-- The content of a file. -/
def read (fs : FileSystem) (path : Path) : Except FileFault Bytes := do
  refuse path (contentOf (← fs.find path))

/-- The place where a path may create or replace a file. -/
def target (fs : FileSystem) (path : Path) : Except OsError Location :=
  match path.steps.getLast? with
  | none => .error .isDirectory
  | some name =>
    if name = Path.here ∨ name = Path.up then do
      let _ ← fs.walk (fs.startOf path) path.steps
      .error .isDirectory
    else do
      let dir ← fs.walk (fs.startOf path) path.steps.dropLast
      match fs.get? dir with
      | none => .error .noEntry
      | some (.file ..) => .error .notDirectory
      | some (.directory _ access) =>
        if !access.search then .error .permissionDenied
        else if (Utf8.encode name).length > nameLimit then .error .nameTooLong
        else
          match fs.get? (dir ++ [name]) with
          | some (.directory ..) => .error .isDirectory
          | some (.file _ _ own) =>
            if own.write then .ok (dir ++ [name]) else .error .permissionDenied
          | none => if access.write then .ok (dir ++ [name]) else .error .permissionDenied

/-- What may be done at a place: anything, where nothing stands yet. -/
def accessAt (fs : FileSystem) (place : Location) : Access :=
  ((fs.get? place).map Entry.access).getD .full

/-- Stamp the directory of a place as changed because something appears or disappears there. -/
def stampParent (fs : FileSystem) (place : Location) : FileSystem :=
  fs.put place.dropLast (.directory fs.clock (fs.accessAt place.dropLast))

/-- Put a file at a place; a new one changes its directory too. What may be done with a file that
stood there before stays as it is. The clock moves on. -/
def store (fs : FileSystem) (place : Location) (content : Bytes) : FileSystem :=
  let access := fs.accessAt place
  let fs := if (fs.get? place).isSome then fs else fs.stampParent place
  { fs.put place (.file content fs.clock access) with clock := fs.clock + 1 }

/-- Create or replace a file. -/
def write (fs : FileSystem) (path : Path) (content : Bytes) : Except FileFault FileSystem := do
  checkPath path
  let place ← refuse path (fs.target path)
  return fs.store place content

/-- The files that another file system does not have or has with another content. -/
def changesSince (before after : FileSystem) : List (Location × Bytes) :=
  after.entries.filterMap fun (place, entry) =>
    match entry with
    | .directory .. => none
    | .file content .. =>
      match before.get? place with
      | some (.file old ..) => if old = content then none else some (place, content)
      | _ => some (place, content)

/-- The path from the current directory to a place below it. -/
def relative? (fs : FileSystem) (place : Location) : Option Path :=
  if fs.current.isPrefixOf place then some ⟨[], place.drop fs.current.length⟩ else none

end FileSystem

end TagLexer
