import TagLexer.Toml.Value

/-!
# Assembling tables

The statements of a settings file build its table step by step. While that goes on, a table knows
whether it is closed: a table that has its own header or was extended by dotted keys in an earlier
section takes no further header and no further dotted key. A value, once given, is never touched
again.
-/

namespace TagLexer.Toml

/-- A key with dots: the names of the tables on the way and the name of the entry itself. -/
structure Key where
  /-- The names of the tables on the way. -/
  parents : List Text
  /-- The name of the entry. -/
  last : Text
  deriving DecidableEq, Repr

/-- All names of a key in order. -/
def Key.path (k : Key) : List Text := k.parents ++ [k.last]

/-- An entry of a table that is still being assembled. -/
inductive Node where
  /-- A finished value. -/
  | value (value : Value)
  /-- A table. -/
  | table (closed : Bool) (entries : List (Text × Node))
  /-- A list of tables, of which only the last can still grow. -/
  | tables (earlier : List Table) (last : List (Text × Node))

/-- The entries of a table that is still being assembled. -/
abbrev Entries := List (Text × Node)

mutual

/-- The value that a node has come to. -/
def Node.finish : Node → Value
  | .value v => v
  | .table _ entries => .table (finishEntries entries)
  | .tables earlier last => .array (earlier.map Value.table ++ [.table (finishEntries last)])

/-- The table that entries have come to. -/
def finishEntries : List (Text × Node) → Table
  | [] => []
  | (key, node) :: rest => (key, node.finish) :: finishEntries rest

end

namespace Entries

/-- Change the entry of a key, or add one at the end. -/
def update (key : Text) (change : Option Node → Option Node) : Entries → Option Entries
  | [] => (change none).map fun node => [(key, node)]
  | (k, node) :: rest =>
    if k = key then (change (some node)).map fun node => (k, node) :: rest
    else (update key change rest).map ((k, node) :: ·)

/-- Change the table at the end of a path. Missing tables on the way are created, lists of tables
are entered at their last table, and values block the way. -/
def within : List Text → (Entries → Option Entries) → Entries → Option Entries
  | [], change, entries => change entries
  | name :: path, change, entries =>
    update name
      (fun
       | none => (within path change []).map (Node.table false)
       | some (.table closed sub) => (within path change sub).map (Node.table closed)
       | some (.tables earlier last) => (within path change last).map (Node.tables earlier)
       | some (.value _) => none)
      entries

/-- Give a dotted key a value. The tables on the way must be open, and the key must be new. -/
def insert : List Text → Text → Value → Entries → Option Entries
  | [], last, value, entries =>
    update last
      (fun
       | none => some (.value value)
       | some _ => none)
      entries
  | name :: parents, last, value, entries =>
    update name
      (fun
       | none => (insert parents last value []).map (Node.table false)
       | some (.table false sub) => (insert parents last value sub).map (Node.table false)
       | some _ => none)
      entries

/-- Close the tables on the way of a dotted key. -/
def close : List Text → Entries → Option Entries
  | [], entries => some entries
  | name :: parents, entries =>
    update name
      (fun
       | some (.table _ sub) => (close parents sub).map (Node.table true)
       | node => node)
      entries

/-- Give a table its header, which it can have only once. -/
def openTable (key : Key) (entries : Entries) : Option Entries :=
  within key.parents
    (update key.last fun
      | none => some (.table true [])
      | some (.table false sub) => some (.table true sub)
      | some _ => none)
    entries

/-- Start another table of a list of tables. -/
def appendTable (key : Key) (entries : Entries) : Option Entries :=
  within key.parents
    (update key.last fun
      | none => some (.tables [] [])
      | some (.tables earlier last) => some (.tables (earlier ++ [finishEntries last]) [])
      | some _ => none)
    entries

end Entries

/-- A statement of a settings file. -/
inductive Statement where
  /-- The header of a table. -/
  | table (key : Key)
  /-- The header of another table of a list. -/
  | tables (key : Key)
  /-- A key and its value. -/
  | entry (key : Key) (value : Value)

/-- A settings file that is being assembled. -/
structure Builder where
  /-- All entries so far. -/
  root : Entries
  /-- The path of the current section. -/
  header : List Text
  /-- The dotted keys of the current section. -/
  dotted : List Key

namespace Builder

/-- Nothing has been stated. -/
def empty : Builder := { root := [], header := [], dotted := [] }

/-- End a section: the tables its dotted keys went through are closed. -/
def closeSection (b : Builder) : Option Entries :=
  b.dotted.foldlM (fun root key => Entries.within b.header (Entries.close key.parents) root) b.root

/-- Follow a statement, unless it contradicts an earlier one. -/
def add (b : Builder) : Statement → Option Builder
  | .table key => do
    let root ← (← b.closeSection).openTable key
    return { root, header := key.path, dotted := [] }
  | .tables key => do
    let root ← (← b.closeSection).appendTable key
    return { root, header := key.path, dotted := [] }
  | .entry key value => do
    let root ← Entries.within b.header (Entries.insert key.parents key.last value) b.root
    return { b with root, dotted := b.dotted ++ [key] }

/-- The table that the statements have come to. -/
def finish (b : Builder) : Table := finishEntries b.root

end Builder

end TagLexer.Toml
