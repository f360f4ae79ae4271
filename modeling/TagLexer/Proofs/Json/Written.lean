import TagLexer.Proofs.Json.Exactness

/-!
# Written documents

The indented written form of a value is a text of the grammar that denotes the value
(`denotes_write`), at every level of indentation. Of the control characters it holds the line feed
only, so what a string holds of them is always escaped.
-/

namespace TagLexer.Json

open Text (IsCode isCode_hex)

mutual

/-- What a value made of strings says. -/
def denoted : Json → Value
  | string value => .string value
  | array items => .array (denotedItems items)
  | object members => .object (denotedMembers members)

/-- What the items of an array say. -/
def denotedItems : List Json → List Value
  | [] => []
  | item :: items => denoted item :: denotedItems items

/-- What the members of an object say. -/
def denotedMembers : List (Text × Json) → List (Text × Value)
  | [] => []
  | (key, value) :: members => (key, denoted value) :: denotedMembers members

end

theorem denotedItems_eq_map (items : List Json) : denotedItems items = items.map denoted := by
  induction items with
  | nil => rfl
  | cons item items ih => rw [denotedItems, ih, List.map_cons]

/-! ## Strings -/

/-- What is written for a character: a letter of the table behind a backslash, the code of a
control character, or the character itself. -/
theorem escapeChar_cases (c : Char) :
    (∃ letter, (letter, c) ∈ shortEscapes ∧ escapeChar c = ['\\', letter]) ∨
      (c.toNat < 0x20 ∧ escapeChar c = '\\' :: 'u' :: Text.hex 4 c.toNat) ∨
      (isPlain c = true ∧ escapeChar c = [c]) := by
  unfold escapeChar
  split
  · next hc =>
    simp only [Bool.or_eq_true, decide_eq_true_eq] at hc
    rcases hc with rfl | rfl
    all_goals exact .inl ⟨_, by decide, rfl⟩
  next hc =>
  iterate 5
    split
    · next hc => exact .inl ⟨_, by rw [hc]; decide, rfl⟩
  split
  · next hcontrol => exact .inr (.inl ⟨hcontrol, rfl⟩)
  · next hcontrol =>
    simp only [Bool.or_eq_true, decide_eq_true_eq, not_or] at hc
    exact .inr (.inr ⟨by simp [isPlain, hc, Nat.not_lt.mp hcontrol], rfl⟩)

/-- The code of a control character is a code unit of its own. -/
theorem isCode_of_control {c : Char} (h : c.toNat < 0x20) :
    IsCode 4 (Text.hex 4 c.toNat) c.toNat :=
  isCode_hex (by decide) (by omega)

/-- What is written for a character stands for it. -/
theorem spells_escapeChar (c : Char) {raw text : Text} (h : Spells raw text) :
    Spells (escapeChar c ++ raw) (c :: text) := by
  rcases escapeChar_cases c with ⟨letter, hletter, hc⟩ | ⟨hcontrol, hc⟩ | ⟨hplain, hc⟩
  · rw [hc]
    exact .escape (.short hletter) h
  · have hescape := Escape.unit (isCode_of_control hcontrol) (by unfold IsHigh; omega)
      (by unfold IsLow; omega)
    rw [Char.ofNat_toNat] at hescape
    rw [hc]
    exact .escape hescape h
  · rw [hc]
    exact .plain hplain h

theorem spells_flatMap_escapeChar (s : Text) : Spells (s.flatMap escapeChar) s := by
  induction s with
  | nil => exact .nil
  | cons c s ih => exact spells_escapeChar c ih

/-!
## Nested values

A comma is written in front of every element but the first. So the lemmas about the elements take
the first one with the value it denotes, and recurse on the others.
-/

theorem spaces_nil : Spaces [] := List.forall_mem_nil _

theorem spaces_newline (level : Nat) : Spaces (newline level) := by
  intro c hc
  rcases List.mem_cons.mp hc with rfl | hc
  · decide
  · rw [(List.mem_replicate.mp hc).2]
    decide

/-- A written name, with the colon behind it, on a line of its own. -/
theorem name_writeString (level : Nat) (key : Text) :
    Name (newline level ++ (writeString key ++ [':'])) key := by
  have hname := Name.mk (spaces_newline level) (spells_flatMap_escapeChar key) spaces_nil
  simpa [writeString] using hname

mutual

/-- The written form of a value denotes it at every level. -/
theorem denotes_write (level : Nat) (json : Json) : Denotes (write level json) json.denoted := by
  match json with
  | string value => exact .string (spells_flatMap_escapeChar value)
  | array [] => exact .empty .square spaces_nil
  | array (item :: items) =>
    have h := elements_writeItems (level + 1) level (denotes_write (level + 1) item) items
    simpa [write, denoted, denotedItems, Bracket.opening, Bracket.closing, Bracket.value]
      using Denotes.holding h
  | object [] => exact .empty .curly spaces_nil
  | object ((key, value) :: members) =>
    have h := elements_writeMembers (level + 1) level key (denotes_write (level + 1) value) members
    simpa [write, denoted, denotedMembers, Bracket.opening, Bracket.closing, Bracket.value]
      using Denotes.holding h

/-- A text before further items makes up the elements of an array together with them. -/
theorem elements_writeItems (level outer : Nat) {text : Text} {v : Value} (h : Denotes text v)
    (items : List Json) :
    Elements .square (newline level ++ (text ++ (writeItems level items ++ newline outer)))
      (v :: denotedItems items) := by
  match items with
  | [] => exact .last (.item (.mk (spaces_newline level) h (spaces_newline outer)))
  | item :: items =>
    have hfirst : Element .square (newline level ++ (text ++ [])) v :=
      .item (.mk (spaces_newline level) h spaces_nil)
    have hmore := elements_writeItems level outer (denotes_write level item) items
    simpa [writeItems, denotedItems] using Elements.cons hfirst hmore

/-- A name and a text before further members make up the elements of an object together with
them. -/
theorem elements_writeMembers (level outer : Nat) (key : Text) {text : Text} {v : Value}
    (h : Denotes text v) (members : List (Text × Json)) :
    Elements .curly (newline level ++ (writeString key ++ ':' :: ' ' :: (text ++
      (writeMembers level members ++ newline outer)))) ((key, v) :: denotedMembers members) := by
  have hblank : Spaces [' '] := by simp [Spaces, isSpace]
  match members with
  | [] =>
    have hlast := Element.member (name_writeString level key) (.mk hblank h (spaces_newline outer))
    simpa [writeMembers, denotedMembers] using Elements.last hlast
  | (key', value) :: members =>
    have hfirst := Element.member (name_writeString level key) (.mk hblank h spaces_nil)
    have hmore := elements_writeMembers level outer key' (denotes_write level value) members
    simpa [writeMembers, denotedMembers] using Elements.cons hfirst hmore

end

/-! ## Control characters -/

/-- A character that a written form may hold: no control character but the line feed. -/
def isWritten (c : Char) : Bool := decide (0x20 ≤ c.toNat) || c == '\n'

theorem isWritten_of_isHexDigit {c : Char} (h : isHexDigit c = true) : isWritten c = true := by
  have hc : '0' ≤ c := by
    simp only [isHexDigit, isAsciiDigit, Bool.or_eq_true, Bool.and_eq_true, decide_eq_true_eq] at h
    rcases h with (h | h) | h
    · exact h.1
    · exact Char.le_trans (by decide) h.1
    · exact Char.le_trans (by decide) h.1
  have hnat : 0x30 ≤ c.toNat := hc
  simp only [isWritten, Bool.or_eq_true, decide_eq_true_eq]
  omega

theorem all_isWritten_escapeChar (c : Char) : (escapeChar c).all isWritten = true := by
  rcases escapeChar_cases c with ⟨letter, hletter, hc⟩ | ⟨hcontrol, hc⟩ | ⟨hplain, hc⟩
  · have hall : shortEscapes.all fun entry => isWritten entry.1 := by decide
    rw [hc, List.all_cons, List.all_cons, List.all_eq_true.mp hall _ hletter]
    rfl
  · have hdigits := List.all_eq_true.mpr fun d hd =>
      isWritten_of_isHexDigit ((isCode_of_control hcontrol).all d hd)
    rw [hc, List.all_cons, List.all_cons, hdigits]
    rfl
  · simp only [isPlain, Bool.and_eq_true] at hplain
    simp [hc, isWritten, hplain.1.1]

theorem all_isWritten_writeString (s : Text) : (writeString s).all isWritten = true := by
  have hchars : (s.flatMap escapeChar).all isWritten = true := by
    rw [List.all_flatMap, List.all_eq_true]
    exact fun c _ => all_isWritten_escapeChar c
  rw [writeString, List.all_cons, List.all_append, hchars]
  rfl

theorem all_isWritten_newline (level : Nat) : (newline level).all isWritten = true := by
  have hblanks : (List.replicate (2 * level) ' ').all isWritten = true := by
    rw [List.all_eq_true]
    intro c hc
    rw [(List.mem_replicate.mp hc).2]
    decide
  rw [newline, List.all_cons, hblanks]
  rfl

mutual

/-- Of the control characters a written form holds the line feed only. -/
theorem all_isWritten_write (level : Nat) (json : Json) :
    (write level json).all isWritten = true := by
  match json with
  | string value => exact all_isWritten_writeString value
  | array [] => rfl
  | array (item :: items) =>
    simp only [write, List.all_append, List.all_cons, all_isWritten_newline,
      all_isWritten_write (level + 1) item, all_isWritten_writeItems (level + 1) items]
    rfl
  | object [] => rfl
  | object ((key, value) :: members) =>
    simp only [write, List.all_append, List.all_cons, all_isWritten_newline,
      all_isWritten_writeString, all_isWritten_write (level + 1) value,
      all_isWritten_writeMembers (level + 1) members]
    rfl

theorem all_isWritten_writeItems (level : Nat) (items : List Json) :
    (writeItems level items).all isWritten = true := by
  match items with
  | [] => rfl
  | item :: items =>
    simp only [writeItems, List.all_append, List.all_cons, all_isWritten_newline,
      all_isWritten_write level item, all_isWritten_writeItems level items]
    rfl

theorem all_isWritten_writeMembers (level : Nat) (members : List (Text × Json)) :
    (writeMembers level members).all isWritten = true := by
  match members with
  | [] => rfl
  | (key, value) :: members =>
    simp only [writeMembers, List.all_append, List.all_cons, all_isWritten_newline,
      all_isWritten_writeString, all_isWritten_write level value,
      all_isWritten_writeMembers level members]
    rfl

end

end TagLexer.Json
