import TagLexer.Text.Basic

/-!
# The stack

Values of a settings file are read and shown by calls within calls, and only so many of them can be
open at once. How many there are is no matter of settings files: it depends on the machine and on
what the program has called before, so it is a parameter of everything that reads or shows values.
-/

namespace TagLexer.Toml

/-- A bracket that is open around a value. -/
inductive Bracket where
  | list | table
  deriving DecidableEq, Repr

/-- The calls that a bracket keeps open while a value in it is read. -/
def Bracket.calls : Bracket → Nat
  | list => 2
  | table => 3

/-- The calls that a settings file can make. -/
structure Stack where
  /-- The calls that can be open at once while a settings file is read. -/
  reading : Nat
  /-- The calls that the value at the front of a text takes beside those of the brackets around
  it. -/
  calls : Text → Nat
  /-- The values that can be open at once while a message shows one. -/
  showing : Nat

namespace Stack

/-- Whether the value at the front of a text can be read while some calls are open. -/
def holds (stack : Stack) (opened : Nat) (s : Text) : Bool :=
  decide (opened + stack.calls s ≤ stack.reading)

/-- The stack of a program that has room for a thousand calls and has just been started. -/
def usual : Stack := { reading := 987, calls := fun _ => 0, showing := 995 }

end Stack

end TagLexer.Toml
