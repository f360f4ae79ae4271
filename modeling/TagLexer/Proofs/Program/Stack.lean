import TagLexer.Program.Watch
import TagLexer.Proofs.Toml.Nesting

/-!
# What the stack decides

How many calls there are decides whether values are nested too deep, and nothing else. Whatever two
programs with different stacks read from a settings file, show in a message or do in a session is
the same, unless one of them runs out of calls (`session_same`).
-/

namespace TagLexer

/-- Two results are the same, unless one of them has a property. -/
def SameUnless {α : Type} (p : α → Prop) (a b : α) : Prop := p a ∨ p b ∨ a = b

namespace SameUnless

variable {α β : Type} {p : α → Prop} {a b : α}

theorem refl (a : α) : SameUnless p a a := .inr (.inr rfl)

/-- What is made of two results in one way is the same, unless it shows that one of them has the
property. -/
theorem map {q : β → Prop} {f : α → β} (h : SameUnless p a b) (hf : ∀ x, p x → q (f x)) :
    SameUnless q (f a) (f b) := by
  rcases h with h | h | rfl
  · exact .inl (hf a h)
  · exact .inr (.inl (hf b h))
  · exact .refl _

end SameUnless

namespace Toml

open Reader

/-- Reading ended because the calls ran out. -/
abbrev RanOut {α : Type} (found : Except Fault α) : Prop := found = .error .tooDeep

section Values

variable {stack stack' : Stack}

/-- Lists are the same where the values in them are. -/
theorem items_same {opened : Nat} {s : Text}
    (hvalue : ∀ t : Text, t.length ≤ s.length →
      SameUnless RanOut (value stack opened t) (value stack' opened t)) :
    SameUnless RanOut (items stack opened s) (items stack' opened s) := by
  unfold items
  -- Only values look at the stack. What stands between them is read in one way.
  rcases hvalue s (Nat.le_refl _) with h | h | h
  · exact .inl (by simp only [h])
  · exact .inr (.inl (by simp only [h]))
  simp only [h]
  split
  · exact .refl _
  next r₁ _ =>
  split
  · exact .refl _
  next r₂ _ =>
  split
  · exact .refl _
  · next hcomma =>
    split
    · exact .refl _
    next r₃ _ =>
    split
    · exact .refl _
    have hlt := Remainder.length_drop_lt hcomma
    have hle := r₃.le
    have hmore := @items_same opened r₃.text fun t ht => hvalue t (by omega)
    rcases hmore with h | h | h <;> simp [SameUnless, h]
  · exact .refl _
termination_by s.length

/-- Tables in braces are the same where the values in them are. -/
theorem pairs_same {opened : Nat} {entries : Entries} {s : Text}
    (hvalue : ∀ t : Text, t.length ≤ s.length →
      SameUnless RanOut (value stack opened t) (value stack' opened t)) :
    SameUnless RanOut (pairs stack opened entries s) (pairs stack' opened entries s) := by
  unfold pairs
  split
  · exact .refl _
  next r₁ _ =>
  rcases hvalue r₁.text r₁.le with h | h | h
  · exact .inl (by simp only [h])
  · exact .inr (.inl (by simp only [h]))
  simp only [h]
  split
  · exact .refl _
  next r₂ _ =>
  split
  · exact .refl _
  next added _ =>
  split
  · exact .refl _
  next r₃ _ =>
  split
  · exact .refl _
  · next hcomma =>
    have hlt := Remainder.length_drop_lt hcomma
    have hmore := @pairs_same opened added (((r₁.trans r₂).trans r₃).drop 1).text
      fun t ht => hvalue t (by omega)
    rcases hmore with h | h | h <;> simp [SameUnless, h]
  · exact .refl _
termination_by s.length

/-- A value is the same where the values in its brackets are. -/
theorem value_same_of_shorter {opened : Nat} {s : Text}
    (hshorter : ∀ opened (t : Text), t.length < s.length →
      SameUnless RanOut (value stack opened t) (value stack' opened t)) :
    SameUnless RanOut (value stack opened s) (value stack' opened s) := by
  cases hholds : stack.holds opened s with
  | false => exact .inl (value_of_not_holds hholds)
  | true =>
  cases hholds' : stack'.holds opened s with
  | false => exact .inr (.inl (value_of_not_holds hholds'))
  | true =>
  unfold value
  simp only [hholds, hholds', Bool.not_true, Bool.false_eq_true, if_false]
  split
  · split
    · exact .refl _
    next r _ =>
    split
    · exact .refl _
    have hitems := @items_same stack stack' (opened + Bracket.list.calls) r.text
      fun t ht => hshorter _ t (Nat.lt_succ_of_le (Nat.le_trans ht r.le))
    rcases hitems with h | h | h <;> simp [SameUnless, h]
  · split
    · exact .refl _
    next r _ =>
    split
    · exact .refl _
    have hpairs := @pairs_same stack stack' (opened + Bracket.table.calls) [] r.text
      fun t ht => hshorter _ t (Nat.lt_succ_of_le (Nat.le_trans ht r.le))
    rcases hpairs with h | h | h <;> simp [SameUnless, h]
  · exact .refl _

/-- A value is the same for all stacks, unless the calls run out for one. -/
theorem value_same (opened : Nat) (s : Text) :
    SameUnless RanOut (value stack opened s) (value stack' opened s) :=
  value_same_of_shorter fun opened t _ => value_same opened t
termination_by s.length

end Values

section Lines

variable {stack stack' : Stack}

/-- One reader after another is the same where both are. -/
theorem bind_same {α β : Type} {first first' : Reader α} {next next' : α → Reader β} {s : Text}
    (hfirst : SameUnless RanOut (first s) (first' s))
    (hnext : ∀ a t, SameUnless RanOut (next a t) (next' a t)) :
    SameUnless RanOut ((first >>= next) s) ((first' >>= next') s) := by
  rcases hfirst with h | h | h
  · exact .inl (bind_eq_error h)
  · exact .inr (.inl (bind_eq_error h))
  have hbind : (first >>= next) s = Reader.bind first next s := rfl
  have hbind' : (first' >>= next') s = Reader.bind first' next' s := rfl
  rw [hbind, hbind', Reader.bind, Reader.bind, h]
  split
  · exact .refl _
  next a r _ => exact (hnext a r.text).map fun found hfound => by rw [hfound, resume]

theorem line_same (s : Text) : SameUnless RanOut (line stack s) (line stack' s) := by
  have hentry : ∀ t, SameUnless RanOut (entry stack t) (entry stack' t) := fun t =>
    bind_same (.refl _) fun k t' => bind_same (value_same 0 t') fun _ _ => .refl _
  refine bind_same (.refl _) fun _ _ => bind_same (.refl _) fun c t => ?_
  split
  · exact .refl _
  · split
    · exact bind_same (bind_same (hentry t) fun _ _ => .refl _) fun _ _ => .refl _
    · exact .refl _
  · exact .refl _

theorem addLines_same (b : Builder) (s : Text) :
    SameUnless RanOut (b.addLines stack s) (b.addLines stack' s) := by
  unfold Builder.addLines
  rcases @line_same stack stack' s with h | h | h
  · exact .inl (by simp only [h])
  · exact .inr (.inl (by simp only [h]))
  simp only [h]
  split
  · exact .refl _
  next r _ =>
  split
  · exact .refl _
  split
  · exact .refl _
  · next rest hrest =>
    have hlt : rest.length < s.length := by
      have hle := r.le
      rw [hrest, List.length_cons] at hle
      omega
    exact addLines_same _ rest
  · exact .refl _
termination_by s.length

/-- A settings file describes the same table for all stacks, unless the calls run out for one. -/
theorem parse_same (stack stack' : Stack) (s : Text) :
    SameUnless RanOut (parse stack s) (parse stack' s) :=
  (addLines_same Builder.empty (Text.pairedNewlines s)).map fun found hfound => by
    rw [hfound]
    rfl

end Lines

namespace Value

/-- Showing ended because the calls ran out. -/
abbrev Unfinished (cause : Option Unshown) : Prop := cause = some .tooDeep

theorem or_same {first first' rest rest' : Option Unshown}
    (hfirst : SameUnless Unfinished first first') (hrest : SameUnless Unfinished rest rest') :
    SameUnless Unfinished (first.or rest) (first'.or rest') := by
  rcases hfirst with rfl | rfl | rfl
  · exact .inl rfl
  · exact .inr (.inl rfl)
  cases first with
  | none => simpa using hrest
  | some cause => exact .refl _

mutual

/-- What keeps messages from showing a value is the same for all stacks, unless the calls run out
for one. -/
theorem unshown?_same (room room' : Nat) (value : Value) :
    SameUnless Unfinished (value.unshown? room) (value.unshown? room') := by
  cases room with
  | zero => exact .inl (by simp only [unshown?])
  | succ room =>
  cases room' with
  | zero => exact .inr (.inl (by simp only [unshown?]))
  | succ room' =>
  cases value with
  | dateTime d t offset =>
    simp only [unshown?]
    split <;> split <;> simp [SameUnless]
  | array items =>
    simp only [unshown?]
    exact unshownInList?_same room room' items
  | table entries =>
    simp only [unshown?]
    exact unshownInTable?_same room room' entries
  | integer | string | float | boolean | date | time =>
    simp only [unshown?]
    exact .refl _

theorem unshownInList?_same (room room' : Nat) (items : List Value) :
    SameUnless Unfinished (unshownInList? room items) (unshownInList? room' items) := by
  cases items with
  | nil => exact .refl _
  | cons item items =>
    simp only [unshownInList?]
    exact or_same (unshown?_same room room' item) (unshownInList?_same room room' items)

theorem unshownInTable?_same (room room' : Nat) (entries : List (Text × Value)) :
    SameUnless Unfinished (unshownInTable? room entries) (unshownInTable? room' entries) := by
  match entries with
  | [] => exact .refl _
  | (_, value) :: entries =>
    simp only [unshownInTable?]
    exact or_same (unshown?_same room room' value) (unshownInTable?_same room room' entries)

end

end Value

end Toml

/-- A fault of nesting: the calls ran out while values were read or shown. -/
def Fault.OfNesting (f : Fault) : Prop := f = .tooDeep ∨ f = .unshown .tooDeep

variable (stack stack' : Toml.Stack)

theorem Config.parse_same (bytes : Bytes) :
    SameUnless (· = .error (.fault .tooDeep)) (parse stack bytes) (parse stack' bytes) := by
  unfold parse
  split
  · exact .refl _
  next text _ =>
  rcases Toml.parse_same stack stack' text with h | h | h
  · exact .inl (by simp only [h])
  · exact .inr (.inl (by simp only [h]))
  · exact .inr (.inr (by simp only [h]))

theorem Config.load_same (fs : FileSystem) (path : Path) :
    SameUnless (· = .error (.fault .tooDeep)) (load stack fs path) (load stack' fs path) := by
  cases hfile : liftFile (fs.isFile path) with
  | error f => exact .inr (.inr (by simp only [load, hfile, bind, Except.bind]))
  | ok isFile =>
  cases isFile with
  | false =>
    exact .inr (.inr (by simp only [load, hfile, bind, Except.bind, Bool.false_eq_true, if_false]))
  | true =>
  cases hread : liftFile (fs.read path) with
  | error f => exact .inr (.inr (by simp only [load, hfile, hread, bind, Except.bind, if_true]))
  | ok bytes =>
    simp only [load, hfile, hread, bind, Except.bind, if_true]
    exact parse_same stack stack' bytes

namespace Settings

/-- Settings are not settled because of a fault of nesting. -/
abbrev Overrun {α : Type} (result : Except Refusal α) : Prop :=
  ∃ f : Fault, f.OfNesting ∧ result = .error (.fault f)

theorem configuredFormat_same (config : Toml.Table) :
    SameUnless Overrun (configuredFormat stack config) (configuredFormat stack' config) := by
  have hrefuse : ∀ value : Toml.Value,
      SameUnless Overrun (.error (refuseFormat stack value) : Except Refusal (Option Format))
        (.error (refuseFormat stack' value)) := by
    intro value
    unfold refuseFormat
    rcases value.unshown?_same stack.showing stack'.showing with h | h | h
    · exact .inl ⟨_, .inr rfl, by simp only [h]⟩
    · exact .inr (.inl ⟨_, .inr rfl, by simp only [h]⟩)
    · exact .inr (.inr (by simp only [h]))
  unfold configuredFormat
  split
  · exact .refl _
  · split
    · exact .refl _
    · exact hrefuse _
  · exact hrefuse _

theorem merge_same (args : Arguments) (config : Toml.Table) :
    SameUnless Overrun (merge stack args config) (merge stack' args config) := by
  unfold merge
  rcases configuredFormat_same stack stack' config with ⟨f, hf, h⟩ | ⟨f, hf, h⟩ | h
  · exact .inl ⟨f, hf, by simp only [h, bind, Except.bind]⟩
  · exact .inr (.inl ⟨f, hf, by simp only [h, bind, Except.bind]⟩)
  · exact .inr (.inr (by rw [h]))

theorem resolve_same (fs : FileSystem) (args : Arguments) :
    SameUnless Overrun (resolve stack fs args) (resolve stack' fs args) := by
  unfold resolve
  rcases Config.load_same stack stack' fs (configPath args) with h | h | h
  · exact .inl ⟨_, .inl rfl, by simp only [h]⟩
  · exact .inr (.inl ⟨_, .inl rfl, by simp only [h]⟩)
  rw [h]
  split
  · exact .refl _
  · exact .refl _
  · exact merge_same stack stack' args _

end Settings

/-- Whatever stacks a program is run with, its sessions are the same, unless one of them is ended by
a fault of nesting. -/
theorem session_same (argv : List Text) (fs : FileSystem)
    (changes : List (FileSystem → FileSystem)) :
    SameUnless (fun w : Session => ∃ f : Fault, f.OfNesting ∧ w.ending = .escaped f)
      (Program.session stack argv fs changes) (Program.session stack' argv fs changes) := by
  unfold Program.session Program.settle
  cases Arguments.parse argv with
  | error stop => exact .refl _
  | ok args =>
    rcases Settings.resolve_same stack stack' fs args with ⟨f, hf, h⟩ | ⟨f, hf, h⟩ | h
    · exact .inl ⟨f, hf, by simp only [h, Program.ended]⟩
    · exact .inr (.inl ⟨f, hf, by simp only [h, Program.ended]⟩)
    · exact .inr (.inr (by simp only [h]))

end TagLexer
