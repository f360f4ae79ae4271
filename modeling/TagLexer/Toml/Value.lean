import TagLexer.Decimal.Shortest
import TagLexer.Text.Quoted
import TagLexer.Toml.Calendar

/-!
# Values of a settings file

A settings file is a table of values. Tables keep their entries in the order of the file. A value
has a truth, which is false for zeros and for empty texts, lists and tables, and a form in which
messages show it, unless it is nested too deep or holds an integer that is too long.
-/

namespace TagLexer.Toml

/-- The most decimal digits with which integers are read and shown. -/
def digitLimit : Nat := 4300

/-- A value of a settings file. -/
inductive Value where
  | string (value : Text)
  | integer (value : Int)
  | float (value : Double)
  | boolean (value : Bool)
  | dateTime (date : Date) (time : Time) (offset : Option UtcOffset)
  | date (date : Date)
  | time (time : Time)
  | array (items : List Value)
  | table (entries : List (Text × Value))
  deriving Repr

/-- A table: its entries in the order of the file, no key twice. -/
abbrev Table := List (Text × Value)

/-- Why messages cannot show a value. -/
inductive Unshown where
  /-- Values are nested so deep that the calls run out. -/
  | tooDeep
  /-- An integer has more decimal digits than are shown. -/
  | longInteger
  deriving DecidableEq, Repr

namespace Value

/-- Whether a value counts as true. -/
def truth : Value → Bool
  | string value => !value.isEmpty
  | integer value => value != 0
  | float value => !value.isZero
  | boolean value => value
  | dateTime .. | date _ | time _ => true
  | array items => !items.isEmpty
  | table entries => !entries.isEmpty

/-- The values that are open while messages show an offset: itself, and the time that it is ahead
unless that is none. -/
def offsetDepth : Option UtcOffset → Nat
  | none => 0
  | some o => if o.minutes = 0 then 1 else 2

mutual

/-- What keeps messages from showing a value while so many values can be open at once: the first
thing on the way through it. -/
def unshown? (room : Nat) (value : Value) : Option Unshown :=
  match room, value with
  | 0, _ => some .tooDeep
  | room + 1, dateTime _ _ offset =>
    if offsetDepth offset ≤ room then none else some .tooDeep
  | _ + 1, integer value =>
    if (Text.ofNat value.natAbs).length ≤ digitLimit then none else some .longInteger
  | room + 1, array items => unshownInList? room items
  | room + 1, table entries => unshownInTable? room entries
  | _ + 1, _ => none

/-- What keeps messages from showing the items of a list. -/
def unshownInList? (room : Nat) (items : List Value) : Option Unshown :=
  match items with
  | [] => none
  | item :: items => (unshown? room item).or (unshownInList? room items)

/-- What keeps messages from showing the values of entries. Their keys are texts, which can be shown
where the values can. -/
def unshownInTable? (room : Nat) (entries : List (Text × Value)) : Option Unshown :=
  match entries with
  | [] => none
  | (_, value) :: entries => (unshown? room value).or (unshownInTable? room entries)

end

/-- Numbers in a list of arguments. -/
def arguments (numbers : List Nat) : Text :=
  List.intercalate [',', ' '] (numbers.map Text.ofNat)

/-- The numbers of a time that messages show: seconds and microseconds only where they matter. -/
def timeArguments (t : Time) : List Nat :=
  if t.micro ≠ 0 then [t.hour, t.minute, t.second, t.micro]
  else if t.second ≠ 0 then [t.hour, t.minute, t.second]
  else [t.hour, t.minute]

/-- The form in which messages show an offset: days and seconds ahead of universal time. -/
def describeOffset (o : UtcOffset) : Text :=
  if o.minutes = 0 then "datetime.timezone.utc".toList
  else
    let seconds := if o.minutes < 0 then 86400 + o.minutes * 60 else o.minutes * 60
    "datetime.timezone(datetime.timedelta(".toList ++
      (if o.minutes < 0 then "days=-1, ".toList else []) ++
      "seconds=".toList ++ Text.ofInt seconds ++ [')', ')']

mutual

/-- The form in which messages show a value. -/
def describe : Value → Text
  | string value => value.quoted
  | integer value => Text.ofInt value
  | float value => value.write
  | boolean value => (if value then "True" else "False").toList
  | dateTime d t offset =>
    "datetime.datetime(".toList ++ arguments ([d.year, d.month, d.day] ++ timeArguments t) ++
      (match offset with
       | none => []
       | some o => ", tzinfo=".toList ++ describeOffset o) ++ [')']
  | date d => "datetime.date(".toList ++ arguments [d.year, d.month, d.day] ++ [')']
  | time t => "datetime.time(".toList ++ arguments (timeArguments t) ++ [')']
  | array [] => ['[', ']']
  | array (item :: items) => '[' :: describe item ++ describeItems items ++ [']']
  | table [] => ['\x7b', '\x7d']
  | table ((key, value) :: entries) =>
    '\x7b' :: key.quoted ++ [':', ' '] ++ describe value ++ describeEntries entries ++ ['\x7d']

/-- The items after the first, each after a comma. -/
def describeItems : List Value → Text
  | [] => []
  | item :: items => ',' :: ' ' :: describe item ++ describeItems items

/-- The entries after the first, each after a comma. -/
def describeEntries : List (Text × Value) → Text
  | [] => []
  | (key, value) :: entries =>
    ',' :: ' ' :: key.quoted ++ [':', ' '] ++ describe value ++ describeEntries entries

end

end Value

/-- The value of a key in a table. -/
def Table.get? (t : Table) (key : Text) : Option Value := t.lookup key

end TagLexer.Toml
