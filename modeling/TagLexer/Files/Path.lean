import TagLexer.Text.Basic

/-!
# Paths

A path is a root, which is empty for a relative path, and names. Reading a path drops what does not
change its meaning: empty names, names of a single dot and a slash at the end. A name of two dots
stays, since what it means depends on the files.
-/

namespace TagLexer

/-- A path. -/
structure Path where
  /-- The slashes an absolute path starts with. -/
  root : Text
  /-- The names between the slashes. -/
  names : List Text
  deriving DecidableEq, Repr

namespace Path

/-- The root of a path: exactly two slashes at the front differ from any other number of them. -/
def rootOf (s : Text) : Text :=
  match (s.takeWhile (· == '/')).length with
  | 0 => []
  | 2 => ['/', '/']
  | _ => ['/']

/-- The path that a text writes. -/
def ofText (s : Text) : Path :=
  { root := rootOf s
    names := (s.splitOn '/').filter fun name => !name.isEmpty && name != ['.'] }

/-- The written form of a path. -/
def write (p : Path) : Text :=
  match p.root ++ List.intercalate ['/'] p.names with
  | [] => ['.']
  | s => s

/-- The path of the directory that a path lies in. -/
def parent (p : Path) : Path := { p with names := p.names.dropLast }

/-- The path of a name in a directory. -/
def child (p : Path) (name : Text) : Path := { p with names := p.names ++ [name] }

/-- The name that leads one directory up. -/
def up : Text := ['.', '.']

/-- The name that stays in a directory. -/
def here : Text := ['.']

/-- The names to follow for a path. One without any names stays where relative paths start. -/
def steps (p : Path) : List Text :=
  if p.root.isEmpty && p.names.isEmpty then [here] else p.names

end Path

end TagLexer
