import TagLexer.Text.Basic

/-!
# Tokens and their kinds

The categories a token can have. Reserved words, punctuation marks and operators are finite types
with their spellings, so that a keyword and its word, or a mark and its lexeme, cannot drift apart.
Five further kinds are set aside for later stages and no scan produces them.
-/

namespace TagLexer

/-- The reserved words. -/
inductive Keyword where
  | letWord | constWord | argsWord | argWord | returnWord | counterWord | nameWord | typeWord
  | whileWord | forWord | ifWord | elseIfWord | elseWord | fromWord | toWord | conditionWord
  deriving DecidableEq, Repr

namespace Keyword

/-- All reserved words, in the order in which the table of keywords lists them. -/
def all : List Keyword :=
  [letWord, constWord, argsWord, argWord, returnWord, counterWord, nameWord, typeWord,
   whileWord, forWord, ifWord, elseIfWord, elseWord, fromWord, toWord, conditionWord]

/-- The word itself; its case matters. -/
def spelling : Keyword → Text
  | letWord => "let".toList
  | constWord => "const".toList
  | argsWord => "args".toList
  | argWord => "arg".toList
  | returnWord => "return".toList
  | counterWord => "counter".toList
  | nameWord => "name".toList
  | typeWord => "type".toList
  | whileWord => "while".toList
  | forWord => "for".toList
  | ifWord => "if".toList
  | elseIfWord => "elseIf".toList
  | elseWord => "else".toList
  | fromWord => "from".toList
  | toWord => "to".toList
  | conditionWord => "condition".toList

/-- The name of the word's kind in listings. -/
def name : Keyword → Text
  | letWord => "Let".toList
  | constWord => "Const".toList
  | argsWord => "Args".toList
  | argWord => "Arg".toList
  | returnWord => "Return".toList
  | counterWord => "Counter".toList
  | nameWord => "Name".toList
  | typeWord => "Type".toList
  | whileWord => "While".toList
  | forWord => "For".toList
  | ifWord => "If".toList
  | elseIfWord => "ElseIf".toList
  | elseWord => "Else".toList
  | fromWord => "From".toList
  | toWord => "To".toList
  | conditionWord => "Condition".toList

/-- The reserved word with a given spelling. -/
def ofText? (word : Text) : Option Keyword := all.find? fun k => k.spelling == word

end Keyword

/-- The punctuation marks: each has one fixed lexeme. -/
inductive Mark where
  | openParen | closeParen | openBracket | closeBracket | endBracket | equals | selfClosingTag
  | openBrace | closeBrace
  deriving DecidableEq, Repr

namespace Mark

/-- The characters of the mark. -/
def lexeme : Mark → Text
  | openParen => ['(']
  | closeParen => [')']
  | openBracket => ['<']
  | closeBracket => ['>']
  | endBracket => ['<', '/']
  | equals => ['=']
  | selfClosingTag => ['/', '>']
  | openBrace => ['\x7b']
  | closeBrace => ['\x7d']

/-- The name of the mark's kind in listings. -/
def name : Mark → Text
  | openParen => "OpenParen".toList
  | closeParen => "CloseParen".toList
  | openBracket => "OpenBracket".toList
  | closeBracket => "CloseBracket".toList
  | endBracket => "EndBracket".toList
  | equals => "Equals".toList
  | selfClosingTag => "SelfClosingTag".toList
  | openBrace => "OpenBrace".toList
  | closeBrace => "CloseBrace".toList

/-- The mark that a single character forms whatever follows it. -/
def ofChar? (c : Char) : Option Mark :=
  if c = '>' then some closeBracket
  else if c = '(' then some openParen
  else if c = ')' then some closeParen
  else if c = '\x7b' then some openBrace
  else if c = '\x7d' then some closeBrace
  else if c = '=' then some equals
  else none

/-- The lexeme of a mark found for a character is that character alone. -/
theorem lexeme_of_ofChar? {c : Char} {m : Mark} (h : ofChar? c = some m) : m.lexeme = [c] := by
  grind [ofChar?, lexeme]

end Mark

/-- The binary operators. -/
inductive Operator where
  | plus | minus | times | divide
  deriving DecidableEq, Repr

namespace Operator

/-- The character of the operator. -/
def char : Operator → Char
  | plus => '+'
  | minus => '-'
  | times => '*'
  | divide => '/'

/-- The operator that a single character forms whatever follows it; a slash needs a closer look. -/
def ofChar? (c : Char) : Option Operator :=
  if c = '+' then some plus
  else if c = '-' then some minus
  else if c = '*' then some times
  else none

/-- An operator found for a character is that character. -/
theorem char_of_ofChar? {c : Char} {o : Operator} (h : ofChar? c = some o) : o.char = c := by
  grind [ofChar?, char]

end Operator

/-- The kinds that are set aside for later stages and never scanned. -/
inductive Reserved where
  | comment | startTemplateString | endTemplateString | startInterpolation | endInterpolation
  deriving DecidableEq, Repr

namespace Reserved

/-- The name of the kind in listings. -/
def name : Reserved → Text
  | comment => "Comment".toList
  | startTemplateString => "StartTemplateString".toList
  | endTemplateString => "EndTemplateString".toList
  | startInterpolation => "StartInterpolation".toList
  | endInterpolation => "EndInterpolation".toList

/-- The reserved kinds in the alphabetical order of their names. -/
def all : List Reserved :=
  [comment, endInterpolation, endTemplateString, startInterpolation, startTemplateString]

end Reserved

/-- The category of a token. -/
inductive Kind where
  | number
  | stringLiteral
  | identifier
  | binaryOperator
  | keyword (word : Keyword)
  | mark (mark : Mark)
  | reserved (kind : Reserved)
  deriving DecidableEq, Repr

namespace Kind

/-- The name of a kind in listings. -/
def name : Kind → Text
  | number => "Number".toList
  | stringLiteral => "StringLiteral".toList
  | identifier => "Identifier".toList
  | binaryOperator => "BinaryOperator".toList
  | keyword word => word.name
  | mark m => m.name
  | reserved kind => kind.name

/-- Every kind, in the order of their numbers, which count from one. -/
def all : List Kind :=
  [number, keyword .nameWord, stringLiteral, identifier,
   mark .openParen, mark .closeParen, binaryOperator, mark .openBracket, mark .closeBracket,
   mark .endBracket, mark .equals,
   keyword .letWord, keyword .constWord, keyword .argsWord, keyword .argWord,
   keyword .returnWord, keyword .counterWord, keyword .typeWord,
   mark .selfClosingTag,
   keyword .whileWord, keyword .forWord, keyword .ifWord, keyword .elseIfWord, keyword .elseWord,
   keyword .fromWord, keyword .toWord, keyword .conditionWord,
   mark .openBrace, mark .closeBrace,
   reserved .comment, reserved .startTemplateString, reserved .endTemplateString,
   reserved .startInterpolation, reserved .endInterpolation]

/-- The kind with a given name. -/
def ofName? (word : Text) : Option Kind := all.find? fun k => k.name == word

end Kind

/-- A token: its value and its kind. The value of a string literal leaves out the quotes. -/
structure Token where
  /-- The characters the token stands for. -/
  value : Text
  /-- The category of the token. -/
  kind : Kind
  deriving DecidableEq, Repr

end TagLexer
