import TagLexer.Json
import TagLexer.Proofs.Text.Escapes

/-!
# The grammar of JSON

The whole of the format, said without regard to how a document is written or read. `Denotes` gives
the value of a text, `Document` allows white space around it. Arrays and objects differ in their
brackets and in the form of their elements only.
-/

namespace TagLexer.Json

open Text (IsCode)

/-- What a document can say. A number stays as it is written, and an object keeps the order of its
members. -/
inductive Value where
  | null
  | bool (value : Bool)
  | number (numeral : Text)
  | string (value : Text)
  | array (items : List Value)
  | object (members : List (Text × Value))

/-- The white space of the format. -/
def isSpace (c : Char) : Bool := c == ' ' || c == '\t' || c == '\n' || c == '\r'

/-- A text of white space. -/
def Spaces (s : Text) : Prop := ∀ c ∈ s, isSpace c = true

/-- One or more digits and then a text of a form. -/
def digitsThen (form : Text → Bool) (s : Text) : Bool :=
  !(s.takeWhile isAsciiDigit).isEmpty && form (s.dropWhile isAsciiDigit)

/-- A text without a sign in front. -/
def dropSign (signs : Text) : Text → Text
  | [] => []
  | c :: s => if c ∈ signs then s else c :: s

/-- Nothing, or an exponent. -/
def isExponent : Text → Bool
  | [] => true
  | c :: s => (c == 'e' || c == 'E') && digitsThen List.isEmpty (dropSign ['+', '-'] s)

/-- The part of a numeral behind its integer: a fraction and an exponent, both of which may be
missing. -/
def isFraction : Text → Bool
  | '.' :: s => digitsThen isExponent s
  | s => isExponent s

/-- A numeral without a sign. Zero is the only integer that starts with a zero. -/
def isUnsigned : Text → Bool
  | '0' :: s => isFraction s
  | s => digitsThen isFraction s

/-- A numeral of the format. -/
def isNumeral (s : Text) : Bool := isUnsigned (dropSign ['-'] s)

/-- The letters behind a backslash and what they stand for. -/
def shortEscapes : List (Char × Char) :=
  [('"', '"'), ('\\', '\\'), ('/', '/'), ('b', '\x08'), ('f', '\x0c'), ('n', '\n'), ('r', '\r'),
   ('t', '\t')]

/-- A code unit that starts a pair. -/
def IsHigh (n : Nat) : Prop := 0xD800 ≤ n ∧ n < 0xDC00

instance (n : Nat) : Decidable (IsHigh n) := inferInstanceAs (Decidable (_ ∧ _))

/-- A code unit that ends a pair. -/
def IsLow (n : Nat) : Prop := 0xDC00 ≤ n ∧ n < 0xE000

instance (n : Nat) : Decidable (IsLow n) := inferInstanceAs (Decidable (_ ∧ _))

/-- The character of a pair of code units. -/
def ofPair (m n : Nat) : Char := Char.ofNat (0x10000 + (m - 0xD800) * 0x400 + (n - 0xDC00))

/-- What an escape stands for, written without its backslash: a letter of the table, a code unit, or
two code units that make up a pair. Half a pair alone stands for nothing. -/
inductive Escape : Text → Char → Prop
  | short {letter c : Char} : (letter, c) ∈ shortEscapes → Escape [letter] c
  | unit {digits : Text} {n : Nat} : IsCode 4 digits n → ¬ IsHigh n → ¬ IsLow n →
      Escape ('u' :: digits) (Char.ofNat n)
  | pair {high low : Text} {m n : Nat} : IsCode 4 high m → IsHigh m → IsCode 4 low n → IsLow n →
      Escape ('u' :: (high ++ '\\' :: 'u' :: low)) (ofPair m n)

/-- A character that may stand for itself in a string. -/
def isPlain (c : Char) : Bool := decide (0x20 ≤ c.toNat) && c != '"' && c != '\\'

/-- What the characters between the quotes of a string stand for. -/
inductive Spells : Text → Text → Prop
  | nil : Spells [] []
  | plain {c : Char} {raw text : Text} : isPlain c = true → Spells raw text →
      Spells (c :: raw) (c :: text)
  | escape {code : Text} {c : Char} {raw text : Text} : Escape code c → Spells raw text →
      Spells ('\\' :: (code ++ raw)) (c :: text)

/-- The values that are written as words. -/
def literals : List (Text × Value) :=
  [("null".toList, .null), ("true".toList, .bool true), ("false".toList, .bool false)]

/-- The two kinds of values that hold others are told apart by their brackets. -/
inductive Bracket where
  | square | curly
  deriving DecidableEq

namespace Bracket

/-- The bracket in front of the elements. -/
def opening : Bracket → Char
  | square => '['
  | curly => '\x7b'

/-- The bracket behind the elements. -/
def closing : Bracket → Char
  | square => ']'
  | curly => '\x7d'

/-- What stands between the brackets: values, or values with names. -/
abbrev Element : Bracket → Type
  | square => Value
  | curly => Text × Value

/-- The value that holds the elements. -/
def value : (k : Bracket) → List k.Element → Value
  | square, items => .array items
  | curly, members => .object members

end Bracket

/-- The name of a member, with white space around it, and the colon behind it. -/
inductive Name : Text → Text → Prop
  | mk {before raw key after : Text} : Spaces before → Spells raw key → Spaces after →
      Name (before ++ '"' :: (raw ++ '"' :: (after ++ [':']))) key

mutual

/-- The value that a text denotes. -/
inductive Denotes : Text → Value → Prop
  | literal {text : Text} {v : Value} : (text, v) ∈ literals → Denotes text v
  | number {numeral : Text} : isNumeral numeral = true → Denotes numeral (.number numeral)
  | string {raw text : Text} : Spells raw text → Denotes ('"' :: (raw ++ ['"'])) (.string text)
  | empty (k : Bracket) {within : Text} : Spaces within →
      Denotes (k.opening :: (within ++ [k.closing])) (k.value [])
  | holding {k : Bracket} {text : Text} {elements : List k.Element} : Elements k text elements →
      Denotes (k.opening :: (text ++ [k.closing])) (k.value elements)

/-- A value with white space around it, as a whole document has it. -/
inductive Document : Text → Value → Prop
  | mk {before text after : Text} {v : Value} : Spaces before → Denotes text v → Spaces after →
      Document (before ++ (text ++ after)) v

/-- One element: a value, or a name and a value. -/
inductive Element : (k : Bracket) → Text → k.Element → Prop
  | item {text : Text} {v : Value} : Document text v → Element .square text v
  | member {name text key : Text} {v : Value} : Name name key → Document text v →
      Element .curly (name ++ text) (key, v)

/-- One or more elements with commas between them. -/
inductive Elements : (k : Bracket) → Text → List k.Element → Prop
  | last {k : Bracket} {text : Text} {element : k.Element} : Element k text element →
      Elements k text [element]
  | cons {k : Bracket} {text more : Text} {element : k.Element} {elements : List k.Element} :
      Element k text element → Elements k more elements →
      Elements k (text ++ ',' :: more) (element :: elements)

end

end TagLexer.Json
