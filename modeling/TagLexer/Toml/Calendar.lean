import TagLexer.Text.Numeral

/-!
# Dates and times

The dates, times of day and offsets from universal time that a settings file can hold, in the
written form `1979-05-27T07:32:00.5+01:00`.
-/

namespace TagLexer.Toml

/-- A day of the calendar. -/
structure Date where
  /-- The year, from one. -/
  year : Nat
  /-- The month, from one. -/
  month : Nat
  /-- The day of the month, from one. -/
  day : Nat
  deriving DecidableEq, Repr

/-- A time of day to the microsecond. -/
structure Time where
  /-- The hour, from zero. -/
  hour : Nat
  /-- The minute, from zero. -/
  minute : Nat
  /-- The second, from zero. -/
  second : Nat
  /-- The microsecond, from zero. -/
  micro : Nat
  deriving DecidableEq, Repr

/-- Minutes ahead of universal time. -/
structure UtcOffset where
  /-- The number of minutes; negative ones are behind. -/
  minutes : Int
  deriving DecidableEq, Repr

namespace Date

/-- Whether a year has a twenty-ninth of February. -/
def isLeap (year : Nat) : Bool := year % 4 == 0 && (year % 100 != 0 || year % 400 == 0)

/-- The number of days in a month. -/
def daysIn (year month : Nat) : Nat :=
  if month = 2 then (if isLeap year then 29 else 28)
  else if month = 4 ∨ month = 6 ∨ month = 9 ∨ month = 11 then 30
  else 31

/-- Whether the calendar has the day; there is no year zero. -/
def exists? (d : Date) : Bool :=
  decide (1 ≤ d.year) && decide (1 ≤ d.month) && decide (d.month ≤ 12) && decide (1 ≤ d.day) &&
    decide (d.day ≤ daysIn d.year d.month)

/-- Year, month and day with dashes between them. -/
def write (d : Date) : Text :=
  Text.ofNatPadded 4 d.year ++ '-' :: Text.ofNatPadded 2 d.month ++ '-' :: Text.ofNatPadded 2 d.day

end Date

/-- Hour, minute and second with colons between them; microseconds only where there are any. -/
def Time.write (t : Time) : Text :=
  Text.ofNatPadded 2 t.hour ++ ':' :: Text.ofNatPadded 2 t.minute ++
    ':' :: Text.ofNatPadded 2 t.second ++
    (if t.micro = 0 then [] else '.' :: Text.ofNatPadded 6 t.micro)

/-- The sign, the hours and the minutes of an offset. -/
def UtcOffset.write (o : UtcOffset) : Text :=
  (if o.minutes < 0 then '-' else '+') :: Text.ofNatPadded 2 (o.minutes.natAbs / 60) ++
    ':' :: Text.ofNatPadded 2 (o.minutes.natAbs % 60)

end TagLexer.Toml
