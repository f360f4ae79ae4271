/-!
# Numbers of double precision

A number of double precision is a sign, a significand of at most 53 bits and a power of two, or an
infinity, or no number at all. `Double.ofDecimal` rounds a decimal number to the nearest one in
exact integer arithmetic; of two equally near ones it takes that with the even significand.
-/

namespace TagLexer

/-- A number of double precision. -/
inductive Double where
  /-- The significand times two to the exponent, with a sign that zero has too. -/
  | finite (negative : Bool) (significand : Nat) (exponent : Int)
  /-- An infinity. -/
  | infinite (negative : Bool)
  /-- Not a number. -/
  | notANumber
  deriving DecidableEq, Repr

namespace Double

/-- The least exponent, which numbers close to zero have. -/
def leastExponent : Int := -1074

/-- The greatest exponent of a finite number. -/
def greatestExponent : Int := 971

/-- The least significand that has all 53 bits. -/
def fullSignificand : Nat := Nat.pow 2 52

/-- Whether a number is zero of either sign. -/
def isZero : Double → Bool
  | finite _ significand _ => significand == 0
  | _ => false

/-- A quotient rounded to the nearest natural number; a half goes to the even neighbour. -/
def roundQuotient (num den : Nat) : Nat :=
  let q := num / den
  let twice := 2 * (num % den)
  if twice > den || (twice == den && q % 2 == 1) then q + 1 else q

/-- Numerator and denominator of a quotient that is divided by two to the exponent. -/
def scaleDown (num den : Nat) (exponent : Int) : Nat × Nat :=
  if 0 ≤ exponent then (num, den * Nat.pow 2 exponent.toNat)
  else (num * Nat.pow 2 (-exponent).toNat, den)

/-- The exponent at which the significand of a positive quotient has 53 bits, or the least one. -/
def exponentOf (num den : Nat) : Int :=
  let low := max ((num.log2 : Int) - den.log2 - 53) leastExponent
  let (n, d) := scaleDown num den low
  if 2 * fullSignificand ≤ n / d then low + 1 else low

/-- The number nearest to a positive quotient. -/
def ofQuotient (negative : Bool) (num den : Nat) : Double :=
  let exponent := exponentOf num den
  let (n, d) := scaleDown num den exponent
  let significand := roundQuotient n d
  let (significand, exponent) :=
    if significand = 2 * fullSignificand then (fullSignificand, exponent + 1)
    else (significand, exponent)
  if exponent > greatestExponent then infinite negative else finite negative significand exponent

/-- The number nearest to `digits` times ten to the exponent. Numbers with more than 310 digits
before the point are beyond every finite number, those with more than 330 zeros behind it are nearer
to zero than to any other. -/
def ofDecimal (negative : Bool) (digits : Nat) (exponent : Int) : Double :=
  let places := (Nat.toDigits 10 digits).length + exponent
  if digits = 0 || places < -330 then finite negative 0 leastExponent
  else if places > 310 then infinite negative
  else if 0 ≤ exponent then ofQuotient negative (digits * Nat.pow 10 exponent.toNat) 1
  else ofQuotient negative digits (Nat.pow 10 (-exponent).toNat)

end Double

end TagLexer
