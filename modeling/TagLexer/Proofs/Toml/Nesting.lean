import TagLexer.Proofs.Toml.Reading
import TagLexer.Toml.Grammar

/-!
# Values that are nested too deep

Messages can show a value exactly if it is not nested too deep for them and holds no integer that is
too long (`Value.unshown?_eq_none_iff`). However many calls a settings file can make, lists can be
nested too deep to be read, and then it does not matter what follows their brackets
(`parse_lists_tooDeep`).
-/

namespace TagLexer.Toml

namespace Value

mutual

/-- The values that are open at once while messages show a value. -/
def depth : Value → Nat
  | dateTime _ _ offset => offsetDepth offset + 1
  | array items => listDepth items + 1
  | table entries => tableDepth entries + 1
  | _ => 1

/-- The values that are open at once while messages show the items of a list. -/
def listDepth : List Value → Nat
  | [] => 0
  | item :: items => max (depth item) (listDepth items)

/-- The values that are open at once while messages show the values of entries. -/
def tableDepth : List (Text × Value) → Nat
  | [] => 0
  | (_, value) :: entries => max (depth value) (tableDepth entries)

end

/-- An integer with more digits than are shown stands in a value. -/
inductive HasLongInteger : Value → Prop
  | integer {n : Int} : digitLimit < (Text.ofNat n.natAbs).length → HasLongInteger (.integer n)
  | array {items : List Value} {item : Value} : item ∈ items → HasLongInteger item →
      HasLongInteger (.array items)
  | table {entries : List (Text × Value)} {entry : Text × Value} : entry ∈ entries →
      HasLongInteger entry.2 → HasLongInteger (.table entries)

theorem one_le_depth (value : Value) : 1 ≤ value.depth := by
  cases value <;> simp [depth]

theorem hasLongInteger_integer_iff {n : Int} :
    HasLongInteger (.integer n) ↔ digitLimit < (Text.ofNat n.natAbs).length := by
  constructor
  · rintro ⟨h⟩
    exact h
  · exact .integer

theorem hasLongInteger_array_iff {items : List Value} :
    HasLongInteger (.array items) ↔ ∃ item ∈ items, HasLongInteger item := by
  constructor
  · intro h
    cases h with
    | array hmem hitem => exact ⟨_, hmem, hitem⟩
  · rintro ⟨item, hmem, hitem⟩
    exact .array hmem hitem

theorem hasLongInteger_table_iff {entries : List (Text × Value)} :
    HasLongInteger (.table entries) ↔ ∃ entry ∈ entries, HasLongInteger entry.2 := by
  constructor
  · intro h
    cases h with
    | table hmem hvalue => exact ⟨_, hmem, hvalue⟩
  · rintro ⟨entry, hmem, hvalue⟩
    exact .table hmem hvalue

mutual

/-- Messages can show a value exactly if it is not nested too deep and holds no integer that is too
long. -/
theorem unshown?_eq_none_iff (room : Nat) (value : Value) :
    value.unshown? room = none ↔ value.depth ≤ room ∧ ¬ value.HasLongInteger := by
  cases room with
  | zero =>
    have hdepth := value.one_le_depth
    have hdeep : ¬ value.depth ≤ 0 := by omega
    simp [unshown?, hdeep]
  | succ room =>
    cases value with
    | integer n =>
      have hone : 1 ≤ room + 1 := by omega
      simp [unshown?, depth, hasLongInteger_integer_iff, hone]
    | array items =>
      have hitems := unshownInList?_eq_none_iff room items
      simp only [unshown?, depth, hitems, hasLongInteger_array_iff, Nat.add_le_add_iff_right,
        not_exists, not_and]
    | table entries =>
      have hentries := unshownInTable?_eq_none_iff room entries
      simp only [unshown?, depth, hentries, hasLongInteger_table_iff, Nat.add_le_add_iff_right,
        not_exists, not_and]
    | dateTime d t offset =>
      have hshort : ¬ HasLongInteger (.dateTime d t offset) := nofun
      simp [unshown?, depth, hshort]
    | string | float | boolean | date | time =>
      simp only [unshown?, depth, Nat.le_add_left, true_and, true_iff]
      exact nofun

theorem unshownInList?_eq_none_iff (room : Nat) (items : List Value) :
    unshownInList? room items = none ↔
      listDepth items ≤ room ∧ ∀ item ∈ items, ¬ HasLongInteger item := by
  cases items with
  | nil => simp [unshownInList?, listDepth]
  | cons item items =>
    have hitem := unshown?_eq_none_iff room item
    have hitems := unshownInList?_eq_none_iff room items
    simp only [unshownInList?, listDepth, Option.or_eq_none_iff, hitem, hitems, Nat.max_le,
      List.forall_mem_cons, and_and_and_comm]

theorem unshownInTable?_eq_none_iff (room : Nat) (entries : List (Text × Value)) :
    unshownInTable? room entries = none ↔
      tableDepth entries ≤ room ∧ ∀ entry ∈ entries, ¬ HasLongInteger entry.2 := by
  match entries with
  | [] => simp [unshownInTable?, tableDepth]
  | (key, value) :: entries =>
    have hvalue := unshown?_eq_none_iff room value
    have hentries := unshownInTable?_eq_none_iff room entries
    simp only [unshownInTable?, tableDepth, Option.or_eq_none_iff, hvalue, hentries, Nat.max_le,
      List.forall_mem_cons, and_and_and_comm]

end

end Value

open Reader

section Faults

variable {α β : Type} {first : Reader α} {next : α → Reader β} {s : Text} {f : Fault}

/-- A fault of a reader is a fault of what goes on from it. -/
theorem bind_eq_error (h : first s = .error f) : (first >>= next) s = .error f := by
  have hbind : (first >>= next) s = Reader.bind first next s := rfl
  simp only [hbind, Reader.bind, h]

/-- A fault in what goes on from a reader is a fault of both together. -/
theorem bind_eq_error_of_reads {a : α} {after : Text} (h : Reads first s a after)
    (hnext : next a after = .error f) : (first >>= next) s = .error f := by
  obtain ⟨r, hr, rfl⟩ := h
  have hbind : (first >>= next) s = Reader.bind first next s := rfl
  simp only [hbind, Reader.bind, hr, resume, hnext]

end Faults

/-- Nothing is passed over before a character that is neither filler nor starts a comment. -/
theorem reads_filler_of_ne {c : Char} (hc : isFiller c = false) (hne : c ≠ '#') (s : Text) :
    Reads filler (c :: s) () (c :: s) := by
  have htext : ((Remainder.whole (c :: s)).drop ((c :: s).takeWhile isFiller).length).text =
      c :: s := by
    simp [Remainder.drop, Remainder.whole, List.takeWhile, hc]
  refine ⟨_, ?_, htext⟩
  unfold filler
  dsimp only
  split
  · next h =>
    obtain ⟨rfl, -⟩ := List.cons.inj (htext.symm.trans h)
    exact absurd rfl hne
  · rfl

section Lists

variable {stack : Stack} {opened : Nat} {f : Fault}

theorem value_of_not_holds {s : Text} (h : stack.holds opened s = false) :
    value stack opened s = .error .tooDeep := by
  unfold value
  simp [h]

/-- Items have the faults of the first of them. -/
theorem items_of_value {s : Text} (h : value stack opened s = .error f) :
    items stack opened s = .error f := by
  unfold items
  simp only [h]

/-- A list has the faults of its items. -/
theorem value_of_items {rest after : Text} (hholds : stack.holds opened ('[' :: rest) = true)
    (hfiller : Reads filler rest () after) (hend : after.head? ≠ some ']')
    (hitems : items stack (opened + Bracket.list.calls) after = .error f) :
    value stack opened ('[' :: rest) = .error f := by
  obtain ⟨r, hr, rfl⟩ := hfiller
  unfold value
  simp only [hholds, Bool.not_true, Bool.false_eq_true, if_false, hr]
  split
  · next h => simp [h] at hend
  · simp only [hitems]

/-- Each bracket of a list within lists takes its calls, until there are none left. -/
theorem value_lists_tooDeep {n : Nat} (h : stack.reading < opened + Bracket.list.calls * n)
    (rest : Text) : value stack opened (List.replicate (n + 1) '[' ++ rest) = .error .tooDeep := by
  induction n generalizing opened with
  | zero =>
    refine value_of_not_holds (decide_eq_false ?_)
    omega
  | succ n ih =>
    rw [List.replicate_succ, List.cons_append]
    cases hholds : stack.holds opened ('[' :: (List.replicate (n + 1) '[' ++ rest)) with
    | false => exact value_of_not_holds hholds
    | true =>
      have hfiller := @reads_filler_of_ne '[' (by decide) (by decide)
        (List.replicate n '[' ++ rest)
      refine value_of_items hholds hfiller (by simp) (items_of_value (ih ?_))
      rw [Nat.mul_succ] at h
      omega

/-- A bare key of one letter, an equals sign and a list. -/
private theorem reads_keyAndEquals (s : Text) :
    Reads keyAndEquals ('a' :: '=' :: '[' :: s) { parents := [], last := ['a'] } ('[' :: s) := by
  have hpart : Reads spacedKeyPart ('a' :: '=' :: '[' :: s) ['a'] ('=' :: '[' :: s) :=
    ⟨⟨'=' :: '[' :: s, by simp⟩, rfl, rfl⟩
  have hparts : Reads keyParts ('=' :: '[' :: s) [] ('=' :: '[' :: s) := by
    refine ⟨.whole _, ?_, rfl⟩
    unfold keyParts
    rfl
  have hkey : Reads key ('a' :: '=' :: '[' :: s) { parents := [], last := ['a'] }
      ('=' :: '[' :: s) :=
    reads_bind_iff.mpr ⟨_, _, hpart,
      reads_bind_iff.mpr ⟨_, _, hparts, reads_pure_iff.mpr ⟨rfl, rfl⟩⟩⟩
  have hspace : Reads (skip isSpace) ('[' :: s) () ('[' :: s) :=
    ⟨⟨'[' :: s, Nat.le_refl _⟩, rfl, rfl⟩
  exact reads_bind_iff.mpr ⟨_, _, hkey, reads_bind_iff.mpr ⟨(), '[' :: s, by simp,
    reads_bind_iff.mpr ⟨_, _, hspace, reads_pure_iff.mpr ⟨rfl, rfl⟩⟩⟩⟩

/-- A line has the faults of the list that it gives a key. -/
private theorem line_of_value {s : Text} (h : value stack 0 ('[' :: s) = .error f) :
    line stack ('a' :: '=' :: '[' :: s) = .error f := by
  have hspace : Reads (skip isSpace) ('a' :: '=' :: '[' :: s) () ('a' :: '=' :: '[' :: s) :=
    ⟨⟨_, Nat.le_refl _⟩, rfl, rfl⟩
  have hpeek : Reads peek ('a' :: '=' :: '[' :: s) (some 'a') ('a' :: '=' :: '[' :: s) :=
    ⟨⟨_, Nat.le_refl _⟩, rfl, rfl⟩
  have hentry : entry stack ('a' :: '=' :: '[' :: s) = .error f :=
    bind_eq_error_of_reads (reads_keyAndEquals s) (bind_eq_error h)
  refine bind_eq_error_of_reads hspace (bind_eq_error_of_reads hpeek (bind_eq_error ?_))
  exact bind_eq_error hentry

/-- Lists within lists are too deep to be read once their brackets take more calls than there are,
whether or not they are well formed. -/
theorem parse_lists_tooDeep {n : Nat} (h : stack.reading < Bracket.list.calls * n) (rest : Text) :
    parse stack ('a' :: '=' :: (List.replicate (n + 1) '[' ++ rest)) = .error .tooDeep := by
  have hpaired : ∀ m, Text.pairedNewlines (List.replicate m '[' ++ rest) =
      List.replicate m '[' ++ Text.pairedNewlines rest := by
    intro m
    induction m with
    | zero => rfl
    | succ m ih =>
      rw [List.replicate_succ, List.cons_append, List.cons_append, ← ih]
      rfl
  have htext : Text.pairedNewlines ('a' :: '=' :: (List.replicate (n + 1) '[' ++ rest)) =
      'a' :: '=' :: (List.replicate (n + 1) '[' ++ Text.pairedNewlines rest) := by
    rw [← hpaired]
    rfl
  have hvalue := @value_lists_tooDeep stack 0 n (by omega) (Text.pairedNewlines rest)
  have hline : line stack ('a' :: '=' :: (List.replicate (n + 1) '[' ++ Text.pairedNewlines rest)) =
      .error .tooDeep := line_of_value hvalue
  unfold parse Builder.addLines
  rw [htext, hline]
  rfl

end Lists

end TagLexer.Toml
