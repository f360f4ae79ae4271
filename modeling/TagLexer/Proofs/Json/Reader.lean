import TagLexer.Proofs.Json.Grammar

/-!
# Reading JSON

A reader for the whole format by recursive descent, and what each of its parts reads. Numerals,
words, strings and names are read exactly as the grammar has them. For values and elements there are
the steps that the reader can take, from which the whole is put together later.
-/

namespace TagLexer.Json

open Text (IsCode reads_code_iff)
open Toml (Found Reader Remainder)
open Toml.Reader (Reads)

/-- The characters that numerals and words are made of. -/
def isScalarChar (c : Char) : Bool :=
  isAsciiDigit c || isAsciiLetter c || c == '+' || c == '-' || c == '.'

/-- A code unit, or a pair of them. -/
def units : Reader Char := do
  let m ← Text.code 4
  if IsLow m then Reader.fail .malformed
  else if IsHigh m then do
    Reader.exactly ['\\', 'u']
    let n ← Text.code 4
    if IsLow n then return ofPair m n else Reader.fail .malformed
  else return Char.ofNat m

/-- What stands behind a backslash. -/
def escape : Reader Char := do
  let letter ← Reader.char fun _ => true
  if letter = 'u' then units else Reader.ofOption (shortEscapes.lookup letter)

/-- The way strings are written. -/
def strings : Escaping where
  quote := '"'
  plain := isPlain
  escape := escape
  quote_ne := by decide
  plain_ne c h := by
    simp only [isPlain, Bool.and_eq_true, bne_iff_ne] at h
    exact ⟨h.1.2, h.2⟩

/-- A numeral or a word. -/
def scalar : Reader Value := do
  let run ← Reader.takeWhile isScalarChar
  if isNumeral run then return .number run else Reader.ofOption (literals.lookup run)

/-- The name of a member, with white space around it, and the colon behind it. -/
def name : Reader Text := do
  Reader.skip isSpace
  Reader.exactly ['"']
  let key ← strings.read
  Reader.skip isSpace
  Reader.exactly [':']
  return key

/-- The bracket that a character opens. -/
def Bracket.ofOpening? (c : Char) : Option Bracket :=
  if c = '[' then some .square else if c = '\x7b' then some .curly else none

/-- No elements, and the bracket behind them. -/
def Bracket.nothing (k : Bracket) : Reader (List k.Element) := do
  Reader.skip isSpace
  Reader.exactly [k.closing]
  return []

mutual

/-- A value without white space in front. -/
def readValue : Reader Value
  | [] => .error .malformed
  | c :: s =>
    if c = '"' then
      match strings.read s with
      | .error fault => .error fault
      | .ok (text, r) => .ok (.string text, r.cons c)
    else
      match Bracket.ofOpening? c with
      | none => scalar (c :: s)
      | some k =>
        match k.nothing s with
        | .ok (elements, r) => .ok (k.value elements, r.cons c)
        | .error _ =>
          -- The closing bracket does not come next, so an element has to.
          match readElements k s with
          | .error fault => .error fault
          | .ok (elements, r) => .ok (k.value elements, r.cons c)
termination_by s => 4 * s.length
decreasing_by
  simp only [List.length_cons]
  omega

/-- A value and the white space around it. -/
def readSpaced (s : Text) : Found Value s :=
  match Reader.skip isSpace s with
  | .error fault => .error fault
  | .ok (_, r) =>
    match readValue r.text with
    | .error fault => .error fault
    | .ok (v, r') =>
      match Reader.skip isSpace r'.text with
      | .error fault => .error fault
      | .ok (_, r'') => .ok (v, r.trans (r'.trans r''))
termination_by 4 * s.length + 1
decreasing_by
  have := r.le
  omega

/-- One element. -/
def readElement (k : Bracket) (s : Text) : Found k.Element s :=
  match k with
  | .square => readSpaced s
  | .curly =>
    match name s with
    | .error fault => .error fault
    | .ok (key, r) =>
      match readSpaced r.text with
      | .error fault => .error fault
      | .ok (v, r') => .ok ((key, v), r.trans r')
termination_by 4 * s.length + 2
decreasing_by
  · omega
  · have := r.le
    omega

/-- One or more elements and the bracket behind them. -/
def readElements (k : Bracket) (s : Text) : Found (List k.Element) s :=
  match readElement k s with
  | .error fault => .error fault
  | .ok (element, r) =>
    match _ : r.text with
    | [] => .error .malformed
    | c :: _ =>
      if c = k.closing then .ok ([element], r.drop 1)
      else if c = ',' then
        match readElements k (r.drop 1).text with
        | .error fault => .error fault
        | .ok (elements, r') => .ok (element :: elements, (r.drop 1).trans r')
      else .error .malformed
termination_by 4 * s.length + 3
decreasing_by
  · omega
  · have := Remainder.length_drop_lt ‹r.text = _›
    omega

end

/-- The value of a whole document. -/
def read (s : Text) : Option Value :=
  match readSpaced s with
  | .ok (v, r) => if r.text = [] then some v else none
  | .error _ => none

/-! ## Numerals and words -/

private theorem isScalarChar_of_digitsThen {form : Text → Bool} {s : Text}
    (hform : ∀ t, form t = true → ∀ c ∈ t, isScalarChar c = true)
    (h : digitsThen form s = true) : ∀ c ∈ s, isScalarChar c = true := by
  intro c hc
  rw [← List.takeWhile_append_dropWhile (p := isAsciiDigit) (l := s)] at hc
  rw [digitsThen, Bool.and_eq_true] at h
  rcases List.mem_append.mp hc with hc | hc
  · have hdigit : isAsciiDigit c = true := List.mem_takeWhile_imp hc
    simp [isScalarChar, hdigit]
  · exact hform _ h.2 c hc

private theorem isScalarChar_of_dropSign (signs : Text) {s : Text}
    (hsigns : signs.all isScalarChar = true)
    (h : ∀ c ∈ dropSign signs s, isScalarChar c = true) : ∀ c ∈ s, isScalarChar c = true := by
  cases s with
  | nil => exact h
  | cons d s =>
    rw [dropSign] at h
    split at h
    · next hd => exact List.forall_mem_cons.mpr ⟨List.all_eq_true.mp hsigns d hd, h⟩
    · exact h

private theorem isScalarChar_of_isExponent {s : Text} (h : isExponent s = true) :
    ∀ c ∈ s, isScalarChar c = true := by
  cases s with
  | nil => simp
  | cons d s =>
    rw [isExponent, Bool.and_eq_true, Bool.or_eq_true, beq_iff_eq, beq_iff_eq] at h
    refine List.forall_mem_cons.mpr ⟨?_, isScalarChar_of_dropSign ['+', '-'] (by decide) ?_⟩
    · rcases h.1 with rfl | rfl <;> decide
    · refine isScalarChar_of_digitsThen (fun t ht => ?_) h.2
      simp [List.isEmpty_iff.mp ht]

private theorem isScalarChar_of_isFraction {s : Text} (h : isFraction s = true) :
    ∀ c ∈ s, isScalarChar c = true := by
  unfold isFraction at h
  split at h
  · refine List.forall_mem_cons.mpr ⟨by decide, ?_⟩
    exact isScalarChar_of_digitsThen (fun _ => isScalarChar_of_isExponent) h
  · exact isScalarChar_of_isExponent h

/-- A numeral is made of the characters of numerals and words. -/
theorem isScalarChar_of_isNumeral {s : Text} (h : isNumeral s = true) :
    ∀ c ∈ s, isScalarChar c = true := by
  refine isScalarChar_of_dropSign ['-'] (by decide) ?_
  unfold isNumeral isUnsigned at h
  split at h
  · next hs =>
    rw [hs]
    exact List.forall_mem_cons.mpr ⟨by decide, isScalarChar_of_isFraction h⟩
  · exact isScalarChar_of_digitsThen (fun _ => isScalarChar_of_isFraction) h

/-- A numeral or a word, and its value. -/
def IsScalar (text : Text) (v : Value) : Prop :=
  (isNumeral text = true ∧ v = .number text) ∨ (text, v) ∈ literals

/-- Numerals and words are not empty, and they are made of the characters of their class. -/
theorem IsScalar.all {text : Text} {v : Value} (h : IsScalar text v) :
    text ≠ [] ∧ ∀ c ∈ text, isScalarChar c = true := by
  rcases h with ⟨h, -⟩ | h
  · refine ⟨?_, isScalarChar_of_isNumeral h⟩
    rintro rfl
    exact absurd h (by decide)
  · have hall : literals.all fun word => !word.1.isEmpty && word.1.all isScalarChar := by decide
    have hword := List.all_eq_true.mp hall _ h
    rw [Bool.and_eq_true, Bool.not_eq_true', List.all_eq_true] at hword
    refine ⟨?_, hword.2⟩
    rintro rfl
    exact Bool.noConfusion hword.1

/-- Exactly the numerals and words are read that nothing prolongs. -/
theorem reads_scalar_iff {s rest : Text} {v : Value} :
    Reads scalar s v rest ↔
      ∃ run, run ++ rest = s ∧ Text.MaximalRun isScalarChar run rest ∧ IsScalar run v := by
  have hnodup : (literals.map Prod.fst).Nodup := by decide
  rw [scalar, Reader.reads_bind_iff]
  constructor
  · rintro ⟨run, after, hread, h⟩
    obtain ⟨rfl, hrun⟩ := Reader.reads_takeWhile_iff.mp hread
    split at h
    · next hnumeral =>
      obtain ⟨rfl, rfl⟩ := Reader.reads_pure_iff.mp h
      exact ⟨run, rfl, hrun, .inl ⟨hnumeral, rfl⟩⟩
    · obtain ⟨hword, rfl⟩ := Reader.reads_ofOption_iff.mp h
      exact ⟨run, rfl, hrun, .inr ((lookup_eq_some_iff_mem hnodup).mp hword)⟩
  · rintro ⟨run, hsplit, hrun, hscalar⟩
    refine ⟨run, rest, Reader.reads_takeWhile_iff.mpr ⟨hsplit, hrun⟩, ?_⟩
    rcases hscalar with ⟨hnumeral, rfl⟩ | hword
    · rw [if_pos hnumeral, Reader.reads_pure_iff]
      exact ⟨rfl, rfl⟩
    · have hall : literals.all fun word => !isNumeral word.1 := by decide
      have hnumeral : ¬ isNumeral run = true := by
        simpa using List.all_eq_true.mp hall _ hword
      rw [if_neg hnumeral, Reader.reads_ofOption_iff]
      exact ⟨(lookup_eq_some_iff_mem hnodup).mpr hword, rfl⟩

/-! ## Strings and names -/

/-- Exactly the code units and the pairs of them are read. -/
theorem reads_units_iff {s rest : Text} {c : Char} :
    Reads units s c rest ↔ ∃ digits, digits ++ rest = s ∧ Escape ('u' :: digits) c := by
  rw [units, Reader.reads_bind_iff]
  constructor
  · rintro ⟨m, after, hread, h⟩
    obtain ⟨digits, rfl, hm⟩ := reads_code_iff.mp hread
    split at h
    · exact absurd h Reader.not_reads_fail
    next hlow =>
    split at h
    · next hhigh =>
      rw [Reader.reads_bind_iff] at h
      obtain ⟨_, after', hbackslash, h⟩ := h
      obtain rfl := Reader.reads_exactly_iff.mp hbackslash
      rw [Reader.reads_bind_iff] at h
      obtain ⟨n, after, hread', h⟩ := h
      obtain ⟨digits', rfl, hn⟩ := reads_code_iff.mp hread'
      split at h
      · next hlow' =>
        obtain ⟨rfl, rfl⟩ := Reader.reads_pure_iff.mp h
        exact ⟨_, by simp, .pair hm hhigh hn hlow'⟩
      · exact absurd h Reader.not_reads_fail
    · next hhigh =>
      obtain ⟨rfl, rfl⟩ := Reader.reads_pure_iff.mp h
      exact ⟨digits, rfl, .unit hm hhigh hlow⟩
  · rintro ⟨digits, rfl, hescape⟩
    cases hescape with
    | short hmem => exact absurd hmem (by simp [shortEscapes])
    | @unit _ n hn hhigh hlow =>
      refine ⟨n, rest, reads_code_iff.mpr ⟨digits, rfl, hn⟩, ?_⟩
      rw [if_neg hlow, if_neg hhigh, Reader.reads_pure_iff]
      exact ⟨rfl, rfl⟩
    | @pair high low m n hm hhigh hn hlow =>
      have hnot : ¬ IsLow m := by
        unfold IsHigh at hhigh
        unfold IsLow
        omega
      refine ⟨m, _, reads_code_iff.mpr ⟨high, (List.append_assoc ..).symm, hm⟩, ?_⟩
      rw [if_neg hnot, if_pos hhigh, Reader.reads_bind_iff]
      refine ⟨(), low ++ rest, Reader.reads_exactly_iff.mpr rfl, ?_⟩
      rw [Reader.reads_bind_iff]
      refine ⟨n, rest, reads_code_iff.mpr ⟨low, rfl, hn⟩, ?_⟩
      rw [if_pos hlow, Reader.reads_pure_iff]
      exact ⟨rfl, rfl⟩

/-- Exactly the escapes of the format are read behind a backslash. -/
theorem reads_escape_iff {s rest : Text} {c : Char} :
    Reads escape s c rest ↔ ∃ code, code ++ rest = s ∧ Escape code c := by
  have hnodup : (shortEscapes.map Prod.fst).Nodup := by decide
  rw [escape, Reader.reads_bind_iff]
  constructor
  · rintro ⟨letter, after, hletter, h⟩
    obtain ⟨rfl, -⟩ := Reader.reads_char_iff.mp hletter
    split at h
    · next hu =>
      obtain ⟨digits, rfl, hescape⟩ := reads_units_iff.mp h
      exact ⟨'u' :: digits, by rw [hu]; rfl, hescape⟩
    · obtain ⟨hshort, rfl⟩ := Reader.reads_ofOption_iff.mp h
      exact ⟨[letter], rfl, .short ((lookup_eq_some_iff_mem hnodup).mp hshort)⟩
  · rintro ⟨code, rfl, hescape⟩
    have hunits : ∀ digits, code = 'u' :: digits →
        ∃ letter after, Reads (Reader.char fun _ => true) (code ++ rest) letter after ∧
          Reads (if letter = 'u' then units else Reader.ofOption (shortEscapes.lookup letter))
            after c rest := by
      rintro digits rfl
      refine ⟨'u', digits ++ rest, Reader.reads_char_iff.mpr ⟨rfl, rfl⟩, ?_⟩
      rw [if_pos rfl]
      exact reads_units_iff.mpr ⟨digits, rfl, hescape⟩
    cases hescape with
    | @short letter _ hmem =>
      refine ⟨letter, rest, Reader.reads_char_iff.mpr ⟨rfl, rfl⟩, ?_⟩
      have hne : letter ≠ 'u' := by
        rintro rfl
        exact absurd hmem (by simp [shortEscapes])
      rw [if_neg hne, Reader.reads_ofOption_iff]
      exact ⟨(lookup_eq_some_iff_mem hnodup).mpr hmem, rfl⟩
    | unit => exact hunits _ rfl
    | pair => exact hunits _ rfl

/-- Exactly the spellings of a text, and the quote behind them, are read as the text. -/
theorem reads_strings_iff {s text rest : Text} :
    Reads strings.read s text rest ↔ ∃ raw, raw ++ '"' :: rest = s ∧ Spells raw text := by
  constructor
  · intro h
    induction text generalizing s with
    | nil =>
      rcases Escaping.reads_cases h with ⟨-, rfl⟩ | ⟨_, _, _, _, ht, _⟩ | ⟨_, _, _, _, _, ht, _⟩
      · exact ⟨[], rfl, .nil⟩
      · cases ht
      · cases ht
    | cons c text ih =>
      rcases Escaping.reads_cases h with ⟨ht, -⟩ | ⟨_, _, _, rfl, ht, hplain, h⟩ |
        ⟨_, _, _, _, rfl, ht, hescape, h⟩
      · cases ht
      · obtain ⟨rfl, rfl⟩ := List.cons.inj ht
        obtain ⟨raw, rfl, hraw⟩ := ih h
        exact ⟨c :: raw, rfl, .plain hplain hraw⟩
      · obtain ⟨rfl, rfl⟩ := List.cons.inj ht
        obtain ⟨raw, rfl, hraw⟩ := ih h
        obtain ⟨code, rfl, hcode⟩ := reads_escape_iff.mp hescape
        exact ⟨'\\' :: (code ++ raw), by simp, .escape hcode hraw⟩
  · rintro ⟨raw, rfl, h⟩
    induction h with
    | nil => exact Escaping.reads_quote rest
    | plain hplain _ ih => exact Escaping.reads_plain hplain ih
    | @escape code c raw text hcode _ ih =>
      refine Escaping.reads_escape ?_ ih
      exact reads_escape_iff.mpr ⟨code, by simp, hcode⟩

/-- White space is read as a whole before anything else. -/
theorem reads_skip_spaces {spaces rest : Text} (h : Spaces spaces) (hrest : rest.Stops isSpace) :
    Reads (Reader.skip isSpace) (spaces ++ rest) () rest :=
  Reader.reads_skip_iff.mpr ⟨spaces, rfl, h, hrest⟩

/-- Exactly the names of the grammar are read as names. -/
theorem reads_name_iff {s key rest : Text} :
    Reads name s key rest ↔ ∃ text, text ++ rest = s ∧ Name text key := by
  simp only [name, Reader.reads_bind_iff, Reader.reads_skip_iff, Reader.reads_exactly_iff,
    reads_strings_iff, Reader.reads_pure_iff]
  constructor
  · rintro ⟨-, _, ⟨before, rfl, hbefore⟩, -, _, rfl, _, _, ⟨raw, rfl, hraw⟩, -, _,
      ⟨after, rfl, hafter⟩, -, _, rfl, rfl, rfl⟩
    exact ⟨_, by simp, .mk hbefore.all hraw hafter.all⟩
  · rintro ⟨_, rfl, @⟨before, raw, _, after, hbefore, hraw, hafter⟩⟩
    have hquote : ∀ t : Text, Text.Stops isSpace ('"' :: t) := by simp [Text.Stops, isSpace]
    have hcolon : ∀ t : Text, Text.Stops isSpace (':' :: t) := by simp [Text.Stops, isSpace]
    exact ⟨(), _, ⟨before, by simp, hbefore, hquote _⟩, (), raw ++ '"' :: (after ++ ':' :: rest),
      rfl, key, _, ⟨raw, rfl, hraw⟩, (), _, ⟨after, rfl, hafter, hcolon _⟩, (), _, rfl, rfl, rfl⟩

/-! ## What each step reads -/

theorem Bracket.ofOpening?_opening (k : Bracket) : ofOpening? k.opening = some k := by
  cases k <;> rfl

theorem Bracket.opening_of_ofOpening? {c : Char} {k : Bracket} (h : ofOpening? c = some k) :
    k.opening = c := by
  unfold ofOpening? at h
  split at h
  · next hc =>
    obtain rfl := Option.some.inj h
    exact hc.symm
  split at h
  · next hc =>
    obtain rfl := Option.some.inj h
    exact hc.symm
  · cases h

/-- White space and a closing bracket are read as no elements. -/
theorem reads_nothing_iff {k : Bracket} {s rest : Text} {elements : List k.Element} :
    Reads k.nothing s elements rest ↔
      elements = [] ∧ ∃ within, within ++ k.closing :: rest = s ∧ Spaces within := by
  have hstop : ∀ t, Text.Stops isSpace (k.closing :: t) := by
    cases k <;> simp [Text.Stops, isSpace, Bracket.closing]
  simp only [Bracket.nothing, Reader.reads_bind_iff, Reader.reads_skip_iff,
    Reader.reads_exactly_iff, Reader.reads_pure_iff]
  constructor
  · rintro ⟨-, _, ⟨within, rfl, hwithin⟩, -, _, rfl, rfl, rfl⟩
    exact ⟨rfl, within, rfl, hwithin.all⟩
  · rintro ⟨rfl, within, rfl, hwithin⟩
    exact ⟨(), _, ⟨within, rfl, hwithin, hstop rest⟩, (), rest, rfl, rfl, rfl⟩

/-- A quote starts a string. -/
theorem reads_value_string {s text rest : Text} (h : Reads strings.read s text rest) :
    Reads readValue ('"' :: s) (.string text) rest := by
  obtain ⟨r, hr, rfl⟩ := h
  refine ⟨r.cons '"', ?_, rfl⟩
  rw [readValue, if_pos rfl, hr]

/-- An opening bracket starts a value without elements if the closing bracket follows. -/
theorem reads_value_empty {k : Bracket} {s rest : Text} {elements : List k.Element}
    (h : Reads k.nothing s elements rest) :
    Reads readValue (k.opening :: s) (k.value elements) rest := by
  obtain ⟨r, hr, rfl⟩ := h
  have hquote : k.opening ≠ '"' := by cases k <;> decide
  refine ⟨r.cons k.opening, ?_, rfl⟩
  rw [readValue, if_neg hquote, k.ofOpening?_opening]
  simp only [hr]

/-- An opening bracket starts a value with elements otherwise. -/
theorem reads_value_holding {k : Bracket} {s rest : Text} {elements : List k.Element}
    (hempty : ∀ none after, ¬ Reads k.nothing s none after)
    (h : Reads (readElements k) s elements rest) :
    Reads readValue (k.opening :: s) (k.value elements) rest := by
  obtain ⟨r, hr, rfl⟩ := h
  have hquote : k.opening ≠ '"' := by cases k <;> decide
  refine ⟨r.cons k.opening, ?_, rfl⟩
  rw [readValue, if_neg hquote, k.ofOpening?_opening]
  cases hnothing : k.nothing s with
  | ok found => exact absurd ⟨found.2, hnothing, rfl⟩ (hempty found.1 found.2.text)
  | error fault => simp only [hnothing, hr]

/-- A numeral or a word starts with a character of its class. -/
theorem reads_value_scalar {c : Char} {s rest : Text} {v : Value} (hc : isScalarChar c = true)
    (h : Reads scalar (c :: s) v rest) : Reads readValue (c :: s) v rest := by
  obtain ⟨r, hr, rfl⟩ := h
  have hquote : c ≠ '"' := by
    rintro rfl
    exact absurd hc (by decide)
  have hopening : Bracket.ofOpening? c = none := by
    cases hk : Bracket.ofOpening? c with
    | none => rfl
    | some k =>
      obtain rfl := Bracket.opening_of_ofOpening? hk
      exact absurd hc (by cases k <;> decide)
  refine ⟨r, ?_, rfl⟩
  rw [readValue, if_neg hquote, hopening]
  exact hr

/-- A value is read in these ways only. -/
theorem reads_value_cases {s rest : Text} {v : Value} (h : Reads readValue s v rest) :
    (∃ s' text, s = '"' :: s' ∧ v = .string text ∧ Reads strings.read s' text rest) ∨
      Reads scalar s v rest ∨
      ∃ (k : Bracket) (s' : Text) (elements : List k.Element), s = k.opening :: s' ∧
        v = k.value elements ∧
        (Reads k.nothing s' elements rest ∨ Reads (readElements k) s' elements rest) := by
  obtain ⟨r, hr, rfl⟩ := h
  cases s with
  | nil => simp [readValue] at hr
  | cons c s =>
    rw [readValue] at hr
    split at hr
    · next hquote =>
      split at hr
      · cases hr
      next text r₁ hstring =>
      obtain ⟨rfl, rfl⟩ := Prod.mk.inj (Except.ok.inj hr)
      exact .inl ⟨s, text, by rw [hquote], rfl, ⟨r₁, hstring, rfl⟩⟩
    split at hr
    · exact .inr (.inl ⟨r, hr, rfl⟩)
    next k hk =>
    obtain rfl := Bracket.opening_of_ofOpening? hk
    split at hr
    · next elements r₁ hnothing =>
      obtain ⟨rfl, rfl⟩ := Prod.mk.inj (Except.ok.inj hr)
      exact .inr (.inr ⟨k, s, elements, rfl, rfl, .inl ⟨r₁, hnothing, rfl⟩⟩)
    split at hr
    · cases hr
    next elements r₁ helements =>
    obtain ⟨rfl, rfl⟩ := Prod.mk.inj (Except.ok.inj hr)
    exact .inr (.inr ⟨k, s, elements, rfl, rfl, .inr ⟨r₁, helements, rfl⟩⟩)

/-- White space is passed over on both sides of a value. -/
theorem reads_spaced_iff {s rest : Text} {v : Value} :
    Reads readSpaced s v rest ↔ ∃ first last, Reads (Reader.skip isSpace) s () first ∧
      Reads readValue first v last ∧ Reads (Reader.skip isSpace) last () rest := by
  constructor
  · rintro ⟨r, hr, rfl⟩
    rw [readSpaced] at hr
    split at hr
    · cases hr
    next r₁ hfirst =>
    split at hr
    · cases hr
    next r₂ hvalue =>
    split at hr
    · cases hr
    next r₃ hlast =>
    obtain ⟨rfl, rfl⟩ := Prod.mk.inj (Except.ok.inj hr)
    exact ⟨_, _, ⟨r₁, hfirst, rfl⟩, ⟨r₂, hvalue, rfl⟩, ⟨r₃, hlast, rfl⟩⟩
  · rintro ⟨_, _, ⟨r₁, hfirst, rfl⟩, ⟨r₂, hvalue, rfl⟩, ⟨r₃, hlast, rfl⟩⟩
    refine ⟨r₁.trans (r₂.trans r₃), ?_, rfl⟩
    simp only [readSpaced, hfirst, hvalue, hlast]

/-- An element of an array is a value. -/
theorem reads_element_square_iff {s rest : Text} {v : Value} :
    Reads (readElement .square) s v rest ↔ Reads readSpaced s v rest := by
  simp only [Reads, readElement]

/-- An element of an object is a name and a value. -/
theorem reads_element_curly_iff {s key rest : Text} {v : Value} :
    Reads (readElement .curly) s (key, v) rest ↔
      ∃ after, Reads name s key after ∧ Reads readSpaced after v rest := by
  constructor
  · rintro ⟨r, hr, rfl⟩
    rw [readElement] at hr
    split at hr
    · cases hr
    next r₁ hname =>
    split at hr
    · cases hr
    next r₂ hvalue =>
    obtain ⟨⟨rfl, rfl⟩, rfl⟩ := Prod.mk.inj (Except.ok.inj hr)
    exact ⟨_, ⟨r₁, hname, rfl⟩, ⟨r₂, hvalue, rfl⟩⟩
  · rintro ⟨_, ⟨r₁, hname, rfl⟩, ⟨r₂, hvalue, rfl⟩⟩
    refine ⟨r₁.trans r₂, ?_, rfl⟩
    simp only [readElement, hname, hvalue]

/-- Behind an element stands the closing bracket, or a comma and further elements. -/
theorem reads_elements_iff {k : Bracket} {s rest : Text} {elements : List k.Element} :
    Reads (readElements k) s elements rest ↔
      ∃ element after, Reads (readElement k) s element after ∧
        ((after = k.closing :: rest ∧ elements = [element]) ∨
          ∃ more others, after = ',' :: more ∧ elements = element :: others ∧
            Reads (readElements k) more others rest) := by
  have hcomma : ',' ≠ k.closing := by cases k <;> decide
  constructor
  · rintro ⟨r, hr, rfl⟩
    rw [readElements] at hr
    split at hr
    · cases hr
    next element r₁ helement =>
    refine ⟨element, r₁.text, ⟨r₁, helement, rfl⟩, ?_⟩
    split at hr
    · cases hr
    next c after hafter =>
    split at hr
    · next hc =>
      obtain ⟨rfl, rfl⟩ := Prod.mk.inj (Except.ok.inj hr)
      exact .inl ⟨by simp [Remainder.drop, hafter, hc], rfl⟩
    split at hr
    · next hc =>
      split at hr
      · cases hr
      next others r₂ hothers =>
      obtain ⟨rfl, rfl⟩ := Prod.mk.inj (Except.ok.inj hr)
      refine .inr ⟨(r₁.drop 1).text, others, ?_, rfl, ⟨r₂, hothers, rfl⟩⟩
      simp [Remainder.drop, hafter, hc]
    · cases hr
  · rintro ⟨element, _, ⟨r₁, helement, rfl⟩, ⟨hafter, rfl⟩ | ⟨more, others, hafter, rfl, hothers⟩⟩
    · refine ⟨r₁.drop 1, ?_, by simp [Remainder.drop, hafter]⟩
      rw [readElements, helement]
      dsimp only
      split
      · next hnil => simp [hafter] at hnil
      · next hcons =>
        obtain ⟨rfl, rfl⟩ := List.cons.inj (hafter.symm.trans hcons)
        rw [if_pos rfl]
    · obtain rfl : (r₁.drop 1).text = more := by simp [Remainder.drop, hafter]
      obtain ⟨r₂, hothers, rfl⟩ := hothers
      refine ⟨(r₁.drop 1).trans r₂, ?_, rfl⟩
      rw [readElements, helement]
      dsimp only
      split
      · next hnil => simp [hafter] at hnil
      · next hcons =>
        obtain ⟨rfl, -⟩ := List.cons.inj (hafter.symm.trans hcons)
        rw [if_neg hcomma, if_pos rfl]
        simp only [hothers]

end TagLexer.Json
