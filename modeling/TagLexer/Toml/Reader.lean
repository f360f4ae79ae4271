import TagLexer.Text.Basic

/-!
# Readers

A reader takes something from the front of a text and hands back the remainder, which is never
longer than the text was. That bound is part of the result, so that grammars built from readers can
recurse on remainders.
-/

namespace TagLexer.Toml

/-- Why a settings file cannot be read. -/
inductive Fault where
  /-- It does not follow the grammar, or its statements contradict each other. -/
  | malformed
  /-- An integer has more decimal digits than are accepted. -/
  | longInteger (digits : Nat)
  /-- Values are nested so deep that the calls run out. -/
  | tooDeep
  deriving DecidableEq, Repr

/-- What is left of a text after something was read from its front. -/
structure Remainder (s : Text) where
  /-- The text that is left. -/
  text : Text
  /-- Reading never makes a text longer. -/
  le : text.length ≤ s.length

/-- All of a text is left. -/
def Remainder.whole (s : Text) : Remainder s := ⟨s, Nat.le_refl _⟩

/-- What is left of a remainder is left of the text. -/
def Remainder.trans {s : Text} (r : Remainder s) (r' : Remainder r.text) : Remainder s :=
  ⟨r'.text, Nat.le_trans r'.le r.le⟩

/-- What is left of a text is left of it with another character in front. -/
def Remainder.cons {s : Text} (c : Char) (r : Remainder s) : Remainder (c :: s) :=
  ⟨r.text, Nat.le_trans r.le (by simp)⟩

/-- What is left without some more characters from the front. -/
def Remainder.drop {s : Text} (r : Remainder s) (n : Nat) : Remainder s :=
  ⟨r.text.drop n, Nat.le_trans (by simp) r.le⟩

/-- Passing a character makes what is left shorter. -/
theorem Remainder.length_drop_lt {s : Text} {r : Remainder s} {c : Char} {after : Text}
    (h : r.text = c :: after) : (r.drop 1).text.length < s.length := by
  have hr := r.le
  simp only [h, List.length_cons] at hr
  simp only [drop, h, List.drop_succ_cons, List.drop_zero]
  omega

/-- What a reader finds at the front of a text. -/
abbrev Found (α : Type) (s : Text) := Except Fault (α × Remainder s)

/-- A reader takes something from the front of any text. -/
def Reader (α : Type) := (s : Text) → Found α s

namespace Reader

/-- Find something without reading. -/
protected def pure {α : Type} (a : α) : Reader α := fun s => .ok (a, .whole s)

/-- Continue from a remainder of a text. -/
def resume {α : Type} {s : Text} (rest : Remainder s) (found : Found α rest.text) : Found α s :=
  match found with
  | .error e => .error e
  | .ok (a, r) => .ok (a, rest.trans r)

/-- Read one thing and then another that may depend on it. -/
protected def bind {α β : Type} (first : Reader α) (next : α → Reader β) : Reader β := fun s =>
  match first s with
  | .error e => .error e
  | .ok (a, r) => resume r (next a r.text)

instance : Monad Reader where
  pure := Reader.pure
  bind := Reader.bind

/-- Find nothing. -/
def fail {α : Type} (fault : Fault) : Reader α := fun _ => .error fault

/-- Something that has to be there. -/
def ofOption {α : Type} : Option α → Reader α
  | some a => pure a
  | none => fail .malformed

/-- The next character, which stays where it is. -/
def peek : Reader (Option Char) := fun s => .ok (s.head?, .whole s)

/-- As many characters as a measure of the text says. -/
def take (measure : Text → Nat) : Reader Text := fun s =>
  .ok (s.take (measure s), (Remainder.whole s).drop (measure s))

/-- The characters at the front that have a property. -/
def takeWhile (p : Char → Bool) : Reader Text := take fun s => (s.takeWhile p).length

/-- Pass over the characters at the front that have a property. -/
def skip (p : Char → Bool) : Reader Unit := do let _ ← takeWhile p

/-- A given number of characters that all have a property. -/
def count (n : Nat) (p : Char → Bool) : Reader Text := do
  let taken ← take fun _ => n
  if taken.length = n && taken.all p then return taken else fail .malformed

/-- One character that has a property. -/
def char (p : Char → Bool) : Reader Char := do
  match ← count 1 p with
  | [c] => return c
  | _ => fail .malformed

/-- The given text. -/
def exactly (text : Text) : Reader Unit := do
  let taken ← take fun _ => text.length
  if taken = text then return () else fail .malformed

/-- Whether the given text comes next; if so it is passed over. -/
def accept (text : Text) : Reader Bool := fun s =>
  if text.isPrefixOf s then .ok (true, (Remainder.whole s).drop text.length)
  else .ok (false, .whole s)

/-- What a reader finds, or nothing if the text does not have its form. -/
def optional {α : Type} (reader : Reader α) : Reader (Option α) := fun s =>
  match reader s with
  | .ok (a, r) => .ok (some a, r)
  | .error .malformed => .ok (none, .whole s)
  | .error e => .error e

/-- What the first of several readers finds whose form the text has. -/
def firstOf {α : Type} : List (Reader α) → Reader α
  | [] => fail .malformed
  | reader :: readers => do
    match ← optional reader with
    | some a => return a
    | none => firstOf readers

end Reader

end TagLexer.Toml
