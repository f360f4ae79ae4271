import TagLexer.Text.Numeral
import TagLexer.Toml.Reader

/-!
# Quoted texts of a settings file

Texts stand between single quotes, where every character means itself, or between double quotes,
where a backslash starts an escape. With three quotes they may span lines. No form holds control
characters other than tabs and, in those that span lines, line feeds.
-/

namespace TagLexer.Toml

open Reader

/-- A blank or a tab. -/
def isSpace (c : Char) : Bool := c == ' ' || c == '\t'

/-- A blank, a tab or a line feed. -/
def isFiller (c : Char) : Bool := isSpace c || c == '\n'

/-- A control character that no line may hold. -/
def isControl (c : Char) : Bool := (decide (c.toNat < 0x20) && c != '\t') || c.toNat == 0x7F

/-- A control character that no text over several lines may hold. -/
def isControlInLines (c : Char) : Bool := isControl c && c != '\n'

/-- How far it is to the first occurrence of a text. -/
def lengthUntil? (stop : Text) : Text → Option Nat
  | [] => if stop.isEmpty then some 0 else none
  | c :: rest =>
    if stop.isPrefixOf (c :: rest) then some 0 else (lengthUntil? stop rest).map (· + 1)

/-- The characters up to the first occurrence of a text, which is passed over. -/
def upTo (stop : Text) : Reader Text := do
  let taken ← take fun s => (lengthUntil? stop s).getD 0
  exactly stop
  return taken

/-- A text between single quotes. -/
def literalText : Reader Text := do
  exactly ['\'']
  let body ← upTo ['\'']
  if body.any isControl then fail .malformed else return body

/-- The code point that a number of hexadecimal digits give. -/
def codePoint (length : Nat) : Reader Text := do
  let n := (← count length isHexDigit).valueIn 16
  if n.isValidChar then return [Char.ofNat n] else fail .malformed

/-- What an escape stands for, read after its backslash. In a text over several lines a backslash at
the end of a line passes over that end and all blanks and line feeds behind it. -/
def escape (lines : Bool) : Reader Text := do
  let c ← char fun _ => true
  if lines && isFiller c then
    if c != '\n' then
      skip isSpace
      exactly ['\n']
    skip isFiller
    return []
  else
    match c with
    | 'b' => return ['\x08']
    | 't' => return ['\t']
    | 'n' => return ['\n']
    | 'f' => return ['\x0c']
    | 'r' => return ['\r']
    | '"' => return ['"']
    | '\\' => return ['\\']
    | 'u' => codePoint 4
    | 'U' => codePoint 8
    | _ => fail .malformed

/-- The rest of a text between double quotes and the quotes that end it: one, or three where the
text may span lines. -/
def basicBody (lines : Bool) (s : Text) : Found Text s :=
  match s with
  | [] => .error .malformed
  | '\\' :: rest =>
    match escape lines rest with
    | .error e => .error e
    | .ok (piece, r) =>
      match basicBody lines r.text with
      | .error e => .error e
      | .ok (more, r') => .ok (piece ++ more, (r.trans r').cons _)
  | c :: rest =>
    if c = '"' && (!lines || ['"', '"'].isPrefixOf rest) then
      .ok ([], ((Remainder.whole rest).drop (if lines then 2 else 0)).cons c)
    else if c != '"' && (if lines then isControlInLines c else isControl c) then .error .malformed
    else
      match basicBody lines rest with
      | .error e => .error e
      | .ok (more, r) => .ok (c :: more, r.cons c)
termination_by s.length
decreasing_by
  · have := r.le
    simp only [List.length_cons]
    omega
  · simp

/-- A text between double quotes. -/
def basicText : Reader Text := do
  exactly ['"']
  basicBody false

/-- Up to two quotes that stand directly before the three that end a text belong to it. -/
def trailingQuotes (quote : Char) : Reader Text := do
  if ← accept [quote] then
    if ← accept [quote] then return [quote, quote] else return [quote]
  else return []

/-- A text between three single quotes; a line feed right after the opening is not part of it. -/
def literalLines : Reader Text := do
  exactly ['\'', '\'', '\'']
  let _ ← accept ['\n']
  let body ← upTo ['\'', '\'', '\'']
  if body.any isControlInLines then fail .malformed
  else return body ++ (← trailingQuotes '\'')

/-- A text between three double quotes; a line feed right after the opening is not part of it. -/
def basicLines : Reader Text := do
  exactly ['"', '"', '"']
  let _ ← accept ['\n']
  let body ← basicBody true
  return body ++ (← trailingQuotes '"')

/-- Whether a text starts with the given text. -/
def startsWith (text : Text) : Reader Bool := fun s => .ok (text.isPrefixOf s, .whole s)

/-- A quoted text of any form. -/
def quotedText : Reader Text := do
  if ← startsWith ['"', '"', '"'] then basicLines
  else if ← startsWith ['"'] then basicText
  else if ← startsWith ['\'', '\'', '\''] then literalLines
  else literalText

end TagLexer.Toml
