import TagLexer.Decimal.Double
import TagLexer.Text.Numeral

/-!
# Shortest decimals

The shortest decimal of a number of double precision has the fewest digits among those that round
back to it, and is the nearest of these. All comparisons are made in exact integer arithmetic. The
second part writes such a decimal: positionally from 0.0001 up to 16 digits before the point, and
with an exponent of at least two digits elsewhere.
-/

namespace TagLexer.Double

/-- Digits times a power of ten. -/
structure Decimal where
  /-- The digits, read as one number. -/
  digits : Nat
  /-- The power of ten of the last digit. -/
  exponent : Int
  deriving DecidableEq, Repr

/-- The numbers that round to a significand and exponent lie between two bounds, given as multiples
of a quarter of the unit in the last place. The bounds themselves belong to the interval exactly
when the significand is even. -/
structure Interval where
  /-- The lower bound. -/
  low : Nat
  /-- The number itself. -/
  mid : Nat
  /-- The upper bound. -/
  high : Nat
  /-- Whether the bounds belong to the interval. -/
  closed : Bool
  /-- The power of two of the multiples. -/
  exponent : Int

/-- The interval of a significand and exponent; below a power of two the grid is finer. -/
def interval (significand : Nat) (exponent : Int) : Interval :=
  let finer := significand = fullSignificand && exponent > leastExponent
  { low := if finer then 4 * significand - 1 else 4 * significand - 2
    mid := 4 * significand
    high := 4 * significand + 2
    closed := significand % 2 == 0
    exponent := exponent - 2 }

/-- What one unit of the decimal grid at a power of ten is, on the common scale with the
interval. -/
def gridUnit (i : Interval) (power : Int) : Nat :=
  Nat.pow 10 power.toNat * Nat.pow 2 (-i.exponent).toNat

/-- A multiple of the interval's unit on the common scale with the decimal grid. -/
def onScale (i : Interval) (power : Int) (multiple : Nat) : Nat :=
  multiple * Nat.pow 2 i.exponent.toNat * Nat.pow 10 (-power).toNat

/-- Whether a point of the decimal grid rounds to the number. -/
def Interval.holds (i : Interval) (power : Int) (digits : Nat) : Bool :=
  let x := digits * gridUnit i power
  let low := onScale i power i.low
  let high := onScale i power i.high
  if i.closed then decide (low ≤ x) && decide (x ≤ high) else decide (low < x) && decide (x < high)

/-- The point of the decimal grid that is nearest to the number among those that round to it, if
there is one. It can only be one of the two neighbours of the number. -/
def Interval.nearest? (i : Interval) (power : Int) : Option Nat :=
  let unit := gridUnit i power
  let value := onScale i power i.mid
  let below := value / unit
  let above := below + 1
  match i.holds power below, i.holds power above with
  | false, false => none
  | true, false => some below
  | false, true => some above
  | true, true =>
    let middle := (below + above) * unit
    if 2 * value < middle || (2 * value == middle && below % 2 == 0) then some below
    else some above

/-- The power of ten of the first digit of a positive number. -/
def leadingPower (i : Interval) : Int :=
  let scaled := onScale i (-400) i.mid / gridUnit i (-400)
  (Nat.toDigits 10 scaled).length - 401

/-- The shortest decimal of a positive finite number. Seventeen digits always suffice. -/
def shortest (significand : Nat) (exponent : Int) : Decimal :=
  let i := interval significand exponent
  let top := leadingPower i
  let grids := (List.range 17).map fun n : Nat => top - (n : Int)
  let hit := grids.findSome? fun power => (i.nearest? power).map fun digits => (digits, power)
  match hit with
  | some (digits, power) => { digits, exponent := power }
  | none => { digits := 0, exponent := 0 }

/-- Digits and the number of them that stand before the point, without zeros at the end. -/
def Decimal.significant (d : Decimal) : Text × Int :=
  let digits := Text.ofNat d.digits
  ((digits.reverse.dropWhile (· == '0')).reverse, digits.length + d.exponent)

/-- Digits with a point after the given number of them, and at least one digit on either side. -/
def positional (digits : Text) (point : Int) : Text :=
  if point ≤ 0 then '0' :: '.' :: List.replicate (-point).toNat '0' ++ digits
  else
    let whole := digits.take point.toNat
    let rest := digits.drop point.toNat
    whole ++ List.replicate (point.toNat - digits.length) '0' ++
      '.' :: (if rest.isEmpty then ['0'] else rest)

/-- Digits with a point after the first and the power of ten of that first digit. -/
def scientific (digits : Text) (point : Int) : Text :=
  let power := point - 1
  let tail := digits.drop 1
  digits.take 1 ++ (if tail.isEmpty then [] else '.' :: tail) ++
    'e' :: (if power < 0 then '-' else '+') :: Text.ofNatPadded 2 power.natAbs

/-- The written form of a number. -/
def write : Double → Text
  | notANumber => "nan".toList
  | infinite negative => (if negative then "-inf" else "inf").toList
  | finite negative significand exponent =>
    let sign := if negative then ['-'] else []
    if significand = 0 then sign ++ "0.0".toList
    else
      let (digits, point) := (shortest significand exponent).significant
      sign ++ if -4 < point && point ≤ 16 then positional digits point else scientific digits point

end TagLexer.Double
