import TagLexer.Text.Newline
import TagLexer.Toml.Quotation
import TagLexer.Toml.Scalar
import TagLexer.Toml.Stack
import TagLexer.Toml.Tree

/-!
# The grammar of settings files

Keys, values, and the lines of a file with one statement each. Lists may span lines and hold
comments, tables in braces may not. The readers of lists and of tables in braces recurse on
remainders that the commas make shorter. A value that is nested deeper than the stack allows is a
fault of its own, whether or not the file follows the grammar.
-/

namespace TagLexer.Toml

open Reader

/-- A character of a key without quotes. -/
def isBareKeyChar (c : Char) : Bool :=
  isAsciiDigit c || isAsciiLetter c || c == '-' || c == '_'

/-- A character that a key can start with. -/
def startsKey (c : Char) : Bool := isBareKeyChar c || c == '"' || c == '\''

/-- A part of a key: bare, or quoted on one line. -/
def keyPart : Reader Text := do
  if ← startsWith ['\''] then literalText
  else if ← startsWith ['"'] then basicText
  else
    let bare ← takeWhile isBareKeyChar
    if bare.isEmpty then fail .malformed else return bare

/-- A part of a key and the blanks around it. -/
def spacedKeyPart : Reader Text := do
  skip isSpace
  let part ← keyPart
  skip isSpace
  return part

/-- The further parts of a key, each after a dot. -/
def keyParts (s : Text) : Found (List Text) s :=
  match s with
  | '.' :: rest =>
    match spacedKeyPart rest with
    | .error e => .error e
    | .ok (part, r) =>
      match keyParts r.text with
      | .error e => .error e
      | .ok (parts, r') => .ok (part :: parts, (r.trans r').cons _)
  | s => .ok ([], .whole s)
termination_by s.length
decreasing_by
  have := r.le
  simp only [List.length_cons]
  omega

/-- A key and the blanks around its parts. -/
def key : Reader Key := do
  let first ← spacedKeyPart
  let parts := first :: (← keyParts)
  return { parents := parts.dropLast, last := parts.getLast?.getD first }

/-- The text of a comment up to the end of its line. -/
def commentBody : Reader Unit := do
  if (← takeWhile (· != '\n')).any isControl then fail .malformed

/-- A comment, if one comes next. -/
def comment : Reader Unit := do
  if ← accept ['#'] then commentBody

/-- Blanks, line feeds and comments between the items of a list. -/
def filler (s : Text) : Found Unit s :=
  let r := (Remainder.whole s).drop (s.takeWhile isFiller).length
  match _ : r.text with
  | '#' :: _ =>
    match commentBody (r.drop 1).text with
    | .error e => .error e
    | .ok (_, r₁) =>
      match filler r₁.text with
      | .error e => .error e
      | .ok (_, r₂) => .ok ((), ((r.drop 1).trans r₁).trans r₂)
  | _ => .ok ((), r)
termination_by s.length
decreasing_by
  have := Remainder.length_drop_lt ‹r.text = '#' :: _›
  have := r₁.le
  omega

/-- The key of a pair, the equals sign and the blanks behind it. -/
def keyAndEquals : Reader Key := do
  let k ← key
  exactly ['=']
  skip isSpace
  return k

/-- A value that holds no other values: a quoted text or a scalar. -/
def simpleValue : Reader Value := do
  match ← peek with
  | some '"' | some '\'' => return .string (← quotedText)
  | _ => scalar

mutual

/-- A value, while some calls are open for the brackets around it. -/
def value (stack : Stack) (opened : Nat) (s : Text) : Found Value s :=
  if !stack.holds opened s then .error .tooDeep else
  match s with
  | '[' :: rest =>
    match filler rest with
    | .error e => .error e
    | .ok (_, r) =>
      match r.text with
      | ']' :: _ => .ok (.array [], (r.drop 1).cons _)
      | _ =>
        match items stack (opened + Bracket.list.calls) r.text with
        | .error e => .error e
        | .ok (found, r₁) => .ok (.array found, (r.trans r₁).cons _)
  | '\x7b' :: rest =>
    match skip isSpace rest with
    | .error e => .error e
    | .ok (_, r) =>
      match r.text with
      | '\x7d' :: _ => .ok (.table [], (r.drop 1).cons _)
      | _ =>
        match pairs stack (opened + Bracket.table.calls) [] r.text with
        | .error e => .error e
        | .ok (entries, r₁) => .ok (.table (finishEntries entries), (r.trans r₁).cons _)
  | s => simpleValue s
termination_by 2 * s.length
decreasing_by
  · have := r.le
    simp only [List.length_cons]
    omega
  · have := r.le
    simp only [List.length_cons]
    omega

/-- The items of a list, from the first one on, and the bracket that ends it. A comma may stand
before that bracket. -/
def items (stack : Stack) (opened : Nat) (s : Text) : Found (List Value) s :=
  match value stack opened s with
  | .error e => .error e
  | .ok (item, r₁) =>
    match filler r₁.text with
    | .error e => .error e
    | .ok (_, r₂) =>
      let r := r₁.trans r₂
      match _ : r.text with
      | ']' :: _ => .ok ([item], r.drop 1)
      | ',' :: _ =>
        match filler (r.drop 1).text with
        | .error e => .error e
        | .ok (_, r₃) =>
          match r₃.text with
          | ']' :: _ => .ok ([item], (r.drop 1).trans (r₃.drop 1))
          | _ =>
            match items stack opened r₃.text with
            | .error e => .error e
            | .ok (more, r₄) => .ok (item :: more, ((r.drop 1).trans r₃).trans r₄)
      | _ => .error .malformed
termination_by 2 * s.length + 1
decreasing_by
  · omega
  · have := Remainder.length_drop_lt ‹r.text = ',' :: _›
    have := r₃.le
    omega

/-- The entries of a table in braces from a key on, added to the earlier ones, and the brace that
ends it. Each pair is added before the next is read. -/
def pairs (stack : Stack) (opened : Nat) (entries : Entries) (s : Text) : Found Entries s :=
  match keyAndEquals s with
  | .error e => .error e
  | .ok (k, r₁) =>
    match value stack opened r₁.text with
    | .error e => .error e
    | .ok (v, r₂) =>
      match entries.insert k.parents k.last v with
      | none => .error .malformed
      | some entries =>
        match skip isSpace r₂.text with
        | .error e => .error e
        | .ok (_, r₃) =>
          let r := (r₁.trans r₂).trans r₃
          match _ : r.text with
          | '\x7d' :: _ => .ok (entries, r.drop 1)
          | ',' :: _ =>
            match pairs stack opened entries (r.drop 1).text with
            | .error e => .error e
            | .ok (all, r₄) => .ok (all, (r.drop 1).trans r₄)
          | _ => .error .malformed
termination_by 2 * s.length + 1
decreasing_by
  · have := r₁.le
    omega
  · have := Remainder.length_drop_lt ‹r.text = ',' :: _›
    change 2 * (r.drop 1).text.length + 1 < 2 * s.length + 1
    omega

end

/-- The header of a table or of another table of a list. -/
def header : Reader Statement := do
  if ← accept ['[', '['] then
    let k ← key
    exactly [']', ']']
    return .tables k
  else
    exactly ['[']
    let k ← key
    exactly [']']
    return .table k

/-- A key and its value. -/
def entry (stack : Stack) : Reader Statement := do
  let k ← keyAndEquals
  return .entry k (← value stack 0)

/-- A line without its end: a statement or none, and perhaps a comment. -/
def line (stack : Stack) : Reader (Option Statement) := do
  skip isSpace
  let statement ←
    match ← peek with
    | some '[' => some <$> header
    | some c => if startsKey c then some <$> entry stack else pure none
    | none => pure none
  skip isSpace
  comment
  return statement

/-- Follow a line that may hold a statement. -/
def Builder.addLine (b : Builder) (statement : Option Statement) : Except Fault Builder :=
  match statement with
  | none => .ok b
  | some statement =>
    match b.add statement with
    | some b => .ok b
    | none => .error .malformed

/-- Follow all lines; after each stands a line feed or the end. Each line is followed before the
next is read, so the first fault of a file is the one that is found. -/
def Builder.addLines (stack : Stack) (b : Builder) (s : Text) : Except Fault Builder :=
  match line stack s with
  | .error e => .error e
  | .ok (statement, r) =>
    match b.addLine statement with
    | .error e => .error e
    | .ok b =>
      match _ : r.text with
      | [] => .ok b
      | '\n' :: rest => b.addLines stack rest
      | _ => .error .malformed
termination_by s.length
decreasing_by
  rename_i h
  have hr := r.le
  rw [h, List.length_cons] at hr
  omega

/-- The table that a settings file describes. -/
def parse (stack : Stack) (s : Text) : Except Fault Table :=
  (Builder.empty.addLines stack (Text.pairedNewlines s)).map Builder.finish

end TagLexer.Toml
