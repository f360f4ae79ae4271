import TagLexer.Text.Basic

/-!
# Numerals

The ASCII digits of the usual bases, the value of digits in a base, and the numerals of natural
numbers and integers.
-/

namespace TagLexer

/-- An ASCII decimal digit. -/
def isAsciiDigit (c : Char) : Bool := decide ('0' ≤ c) && decide (c ≤ '9')

/-- An ASCII hexadecimal digit of either case. -/
def isHexDigit (c : Char) : Bool :=
  isAsciiDigit c || (decide ('a' ≤ c) && decide (c ≤ 'f')) || (decide ('A' ≤ c) && decide (c ≤ 'F'))

/-- An octal digit. -/
def isOctalDigit (c : Char) : Bool := decide ('0' ≤ c) && decide (c ≤ '7')

/-- A binary digit. -/
def isBinaryDigit (c : Char) : Bool := c == '0' || c == '1'

namespace Text

/-- The value of a digit in a base up to sixteen. -/
def digitValue (c : Char) : Nat :=
  if isAsciiDigit c then c.toNat - '0'.toNat
  else if 'a' ≤ c then c.toNat - 'a'.toNat + 10
  else c.toNat - 'A'.toNat + 10

/-- The value of digits in a base. -/
def valueIn (base : Nat) (digits : Text) : Nat :=
  digits.foldl (fun n c => n * base + digitValue c) 0

/-- The decimal numeral of a natural number. -/
def ofNat (n : Nat) : Text := Nat.toDigits 10 n

/-- The decimal numeral of an integer, with a minus sign in front of a negative one. -/
def ofInt : Int → Text
  | .ofNat n => ofNat n
  | .negSucc n => '-' :: ofNat (n + 1)

/-- A numeral filled up with zeros on the left to at least the given width. -/
def padLeft (width : Nat) (digits : Text) : Text :=
  List.replicate (width - digits.length) '0' ++ digits

/-- The decimal numeral of a natural number in at least the given width. -/
def ofNatPadded (width n : Nat) : Text := padLeft width (ofNat n)

/-- The lower-case hexadecimal numeral of a natural number in at least the given width. -/
def hex (width n : Nat) : Text := padLeft width (Nat.toDigits 16 n)

end Text

end TagLexer
