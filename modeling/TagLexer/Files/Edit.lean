import TagLexer.Files.FileSystem

/-!
# Edits from outside

What others do to the files: writing a file with its directories, changing the time of an entry, and
deleting an entry.
-/

namespace TagLexer

namespace FileSystem

/-- A file system with nothing in it but the current directory and those above it. -/
def empty (current : Location) (clock : Int) : FileSystem :=
  { entries := (List.range (current.length + 1)).map fun n => (current.take n, .directory clock)
    current
    clock := clock + 1 }

/-- The place that a path names, whatever stands on the way. -/
def placeOf (fs : FileSystem) (path : Path) : Location :=
  path.names.foldl
    (fun place name => if name = Path.up then place.dropLast else place ++ [name])
    (fs.startOf path)

/-- Make sure that a directory stands at a place, unless something does already. -/
def ensureDirectory (fs : FileSystem) (place : Location) : FileSystem :=
  if (fs.get? place).isSome then fs
  else
    let fs := fs.stampParent place
    { fs.put place (.directory fs.clock) with clock := fs.clock + 1 }

/-- Make sure that directories stand at a place and everywhere above it. -/
def ensureDirectories (fs : FileSystem) (place : Location) : FileSystem :=
  (List.range (place.length + 1)).foldl (fun fs n => fs.ensureDirectory (place.take n)) fs

end FileSystem

/-- An edit from outside. -/
inductive Edit where
  /-- Make a directory with all directories above it. -/
  | makeDirectory (path : Path)
  /-- Write a file with all directories above it. -/
  | write (path : Path) (content : Bytes)
  /-- Set the time of the last change of an entry. -/
  | touch (path : Path) (modified : Int)
  /-- Delete an entry and all that is below it. -/
  | delete (path : Path)

/-- The file system after an edit. -/
def Edit.apply (fs : FileSystem) : Edit → FileSystem
  | makeDirectory path => fs.ensureDirectories (fs.placeOf path)
  | write path content =>
    let place := fs.placeOf path
    (fs.ensureDirectories place.dropLast).store place content
  | touch path modified =>
    let place := fs.placeOf path
    match fs.get? place with
    | some (.file content _ access) => fs.put place (.file content modified access)
    | some (.directory _ access) => fs.put place (.directory modified access)
    | none => fs
  | delete path =>
    let place := fs.placeOf path
    if (fs.get? place).isNone then fs
    else
      let fs := fs.stampParent place
      let kept := fs.entries.filter fun e => !place.isPrefixOf e.1
      { fs with entries := kept, clock := fs.clock + 1 }

/-- The file system after edits in order. -/
def Edit.applyAll (fs : FileSystem) (edits : List Edit) : FileSystem := edits.foldl Edit.apply fs

end TagLexer
