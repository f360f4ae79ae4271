import TagLexer.Toml.Reader
import TagLexer.Toml.Value

/-!
# Scalars of a settings file

Numbers, truth values, dates and times. Digits may be grouped by single underscores. What looks like
a date is one, and is refused if the calendar does not have it.
-/

namespace TagLexer.Toml

open Reader

/-- The length of digits at the front of a text that go on after a first digit: each may have one
underscore before it. -/
def groupedLength (p : Char → Bool) : Text → Nat
  | '_' :: d :: rest => if p d then 2 + groupedLength p rest else 0
  | d :: rest => if p d then 1 + groupedLength p rest else 0
  | [] => 0

/-- One or more digits, grouped at will; the result leaves out the underscores. -/
def digits (p : Char → Bool) : Reader Text := do
  let first ← char p
  let more ← take (groupedLength p)
  return first :: more.filter (· != '_')

/-- The digits before the point of a decimal number: a zero stands alone. -/
def wholeDigits : Reader Text := do
  if ← accept ['0'] then return ['0'] else digits isAsciiDigit

/-- A plus or minus sign. -/
def isSign (c : Char) : Bool := c == '+' || c == '-'

/-- An integer in base sixteen, eight or two. -/
def radixInteger : Reader Value :=
  firstOf
    [do exactly "0x".toList; return .integer ((← digits isHexDigit).valueIn 16),
     do exactly "0o".toList; return .integer ((← digits isOctalDigit).valueIn 8),
     do exactly "0b".toList; return .integer ((← digits isBinaryDigit).valueIn 2)]

/-- The digits after the point. -/
def fraction : Reader Text := do
  exactly ['.']
  digits isAsciiDigit

/-- The power of ten. -/
def exponent : Reader Int := do
  let _ ← char fun c => c == 'e' || c == 'E'
  let sign ← optional (char isSign)
  let n := (← digits isAsciiDigit).valueIn 10
  return if sign = some '-' then -(n : Int) else n

/-- An integer or a number with a fraction or an exponent. -/
def decimalNumber : Reader Value := do
  let sign ← optional (char isSign)
  let negative := decide (sign = some '-')
  let whole ← wholeDigits
  let part ← optional fraction
  let power ← optional exponent
  if part.isNone && power.isNone then
    if whole.length > digitLimit then fail (.longInteger whole.length)
    else
      let n : Int := whole.valueIn 10
      return .integer (if negative then -n else n)
  else
    let part := part.getD []
    return .float (.ofDecimal negative ((whole ++ part).valueIn 10) (power.getD 0 - part.length))

/-- An infinity or what is not a number. -/
def specialNumber : Reader Value :=
  firstOf
    [do exactly "inf".toList; return .float (.infinite false),
     do exactly "+inf".toList; return .float (.infinite false),
     do exactly "-inf".toList; return .float (.infinite true),
     do exactly "nan".toList; return .float .notANumber,
     do exactly "+nan".toList; return .float .notANumber,
     do exactly "-nan".toList; return .float .notANumber]

/-- A truth value. -/
def boolean : Reader Value :=
  firstOf
    [do exactly "true".toList; return .boolean true,
     do exactly "false".toList; return .boolean false]

/-- Two digits whose value lies between two bounds. -/
def twoDigits (low high : Nat) : Reader Nat := do
  let n := (← count 2 isAsciiDigit).valueIn 10
  if low ≤ n && n ≤ high then return n else fail .malformed

/-- The form of a date. -/
def dateForm : Reader Date := do
  let year := (← count 4 isAsciiDigit).valueIn 10
  exactly ['-']
  let month ← twoDigits 1 12
  exactly ['-']
  let day ← twoDigits 1 31
  return { year, month, day }

/-- The microseconds of a fraction of a second; further digits are cut off. -/
def microseconds : Reader Nat := do
  exactly ['.']
  let first ← char isAsciiDigit
  let more ← takeWhile isAsciiDigit
  return Text.valueIn 10 ((first :: more ++ List.replicate 5 '0').take 6)

/-- A time of day. -/
def timeForm : Reader Time := do
  let hour ← twoDigits 0 23
  exactly [':']
  let minute ← twoDigits 0 59
  exactly [':']
  let second ← twoDigits 0 59
  let micro ← optional microseconds
  return { hour, minute, second, micro := micro.getD 0 }

/-- An offset from universal time. -/
def offsetForm : Reader UtcOffset := do
  if (← optional (char fun c => c == 'Z' || c == 'z')).isSome then return ⟨0⟩
  else
    let sign ← char isSign
    let hours ← twoDigits 0 23
    exactly [':']
    let minutes ← twoDigits 0 59
    let n : Int := hours * 60 + minutes
    return ⟨if sign = '-' then -n else n⟩

/-- A time with an optional offset, after the letter or blank that divides it from a date. -/
def timePart : Reader (Time × Option UtcOffset) := do
  let _ ← char fun c => c == 'T' || c == 't' || c == ' '
  let time ← timeForm
  return (time, ← optional offsetForm)

/-- A date, with a time or alone. -/
def dateOrDateTime : Reader (Date × Option (Time × Option UtcOffset)) := do
  let date ← dateForm
  return (date, ← optional timePart)

/-- Any value that is not a text, a list or a table. -/
def scalar : Reader Value := do
  match ← optional dateOrDateTime with
  | some (d, time) =>
    if d.exists? then
      match time with
      | none => return .date d
      | some (t, offset) => return .dateTime d t offset
    else fail .malformed
  | none =>
    firstOf [boolean, do return .time (← timeForm), radixInteger, decimalNumber, specialNumber]

end TagLexer.Toml
