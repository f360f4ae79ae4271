import TagLexer.Proofs.Json.Reader

/-!
# The reader is exact

What the reader takes is derived by the grammar, by recursion on the length of the text, and what
the grammar derives is taken by the reader, by recursion on the derivation. So the documents of the
grammar are those that can be read, and each has one value (`read_eq_some_iff`).
-/

namespace TagLexer.Json

open Toml (Reader)
open Toml.Reader (Reads)

/-!
## What is read is derived

The recursion follows the reader, whose parts pass on a text that is shorter, or as long to a part
that comes before them in this order: values, white space around them, elements, lists of elements.
-/

theorem IsScalar.denotes {text : Text} {v : Value} (h : IsScalar text v) : Denotes text v := by
  rcases h with ⟨h, rfl⟩ | h
  · exact .number h
  · exact .literal h

mutual

theorem denotes_of_reads {s rest : Text} {v : Value} (h : Reads readValue s v rest) :
    ∃ text, text ++ rest = s ∧ Denotes text v := by
  rcases reads_value_cases h with
    ⟨s', text, rfl, rfl, hs⟩ | hs | ⟨k, s', elements, rfl, rfl, hs | hs⟩
  · obtain ⟨raw, rfl, hraw⟩ := reads_strings_iff.mp hs
    exact ⟨_, by simp, .string hraw⟩
  · obtain ⟨run, rfl, -, hrun⟩ := reads_scalar_iff.mp hs
    exact ⟨run, rfl, hrun.denotes⟩
  · obtain ⟨rfl, within, rfl, hwithin⟩ := reads_nothing_iff.mp hs
    exact ⟨_, by simp, .empty k hwithin⟩
  · obtain ⟨text, rfl, htext⟩ := elements_of_reads hs
    exact ⟨k.opening :: (text ++ [k.closing]), by simp, .holding htext⟩
termination_by 4 * s.length

theorem document_of_reads {s rest : Text} {v : Value} (h : Reads readSpaced s v rest) :
    ∃ text, text ++ rest = s ∧ Document text v := by
  obtain ⟨first, last, hfirst, hvalue, hlast⟩ := reads_spaced_iff.mp h
  obtain ⟨before, rfl, hbefore⟩ := Reader.reads_skip_iff.mp hfirst
  obtain ⟨text, rfl, htext⟩ := denotes_of_reads hvalue
  obtain ⟨after, rfl, hafter⟩ := Reader.reads_skip_iff.mp hlast
  exact ⟨_, by simp, .mk hbefore.all htext hafter.all⟩
termination_by 4 * s.length + 1

theorem element_of_reads {k : Bracket} {s rest : Text} {element : k.Element}
    (h : Reads (readElement k) s element rest) :
    ∃ text, text ++ rest = s ∧ Element k text element := by
  cases k with
  | square =>
    obtain ⟨text, rfl, htext⟩ := document_of_reads (reads_element_square_iff.mp h)
    exact ⟨text, rfl, .item htext⟩
  | curly =>
    obtain ⟨after, hkey, hvalue⟩ := reads_element_curly_iff.mp h
    obtain ⟨name, rfl, hname⟩ := reads_name_iff.mp hkey
    obtain ⟨text, rfl, htext⟩ := document_of_reads hvalue
    exact ⟨_, by simp, .member hname htext⟩
termination_by 4 * s.length + 2

theorem elements_of_reads {k : Bracket} {s rest : Text} {elements : List k.Element}
    (h : Reads (readElements k) s elements rest) :
    ∃ text, text ++ k.closing :: rest = s ∧ Elements k text elements := by
  obtain ⟨element, after, helement, hafter⟩ := reads_elements_iff.mp h
  obtain ⟨text, rfl, htext⟩ := element_of_reads helement
  rcases hafter with ⟨rfl, rfl⟩ | ⟨more, others, rfl, rfl, hothers⟩
  · exact ⟨text, rfl, .last htext⟩
  · obtain ⟨texts, rfl, htexts⟩ := elements_of_reads hothers
    exact ⟨_, by simp, .cons htext htexts⟩
termination_by 4 * s.length + 3

end

/-!
## What is derived is read

The recursion is on the derivations. What stands behind a text is left open as far as it prolongs
nothing: inside brackets it is a comma or a bracket, and at the end of a document nothing follows.
-/

/-- What may stand behind a value with white space: nothing that prolongs one or the other. -/
structure Ends (rest : Text) : Prop where
  /-- The white space ends here. -/
  spaces : rest.Stops isSpace
  /-- Numerals and words end here. -/
  scalars : rest.Stops isScalarChar

theorem ends_nil : Ends [] := ⟨by decide, by decide⟩

theorem ends_comma (rest : Text) : Ends (',' :: rest) := by
  constructor
  all_goals
    rintro c ⟨rfl⟩
    decide

theorem ends_closing (k : Bracket) (rest : Text) : Ends (k.closing :: rest) := by
  constructor
  all_goals
    rintro c ⟨rfl⟩
    cases k <;> decide

/-- White space prolongs no numeral and no word. -/
theorem isScalarChar_of_isSpace {c : Char} (h : isSpace c = true) : isScalarChar c = false := by
  simp only [isSpace, Bool.or_eq_true, beq_iff_eq] at h
  rcases h with ((rfl | rfl) | rfl) | rfl
  all_goals decide

/-- Numerals and words end where white space may stand. -/
theorem Ends.stops_append {spaces rest : Text} (hrest : Ends rest) (h : Spaces spaces) :
    (spaces ++ rest).Stops isScalarChar := by
  cases spaces with
  | nil => exact hrest.scalars
  | cons c spaces =>
    rintro d ⟨rfl⟩
    exact isScalarChar_of_isSpace (h c List.mem_cons_self)

/-- A character that is neither white space nor a closing bracket. -/
structure IsFirst (c : Char) : Prop where
  /-- It is no white space. -/
  space : isSpace c = false
  /-- It ends no elements. -/
  closing : ∀ k : Bracket, c ≠ k.closing

theorem isFirst_quote : IsFirst '"' :=
  ⟨by decide, fun k => by cases k <;> decide⟩

theorem isFirst_opening (k : Bracket) : IsFirst k.opening :=
  ⟨by cases k <;> decide, fun k' => by cases k <;> cases k' <;> decide⟩

theorem isFirst_of_isScalarChar {c : Char} (h : isScalarChar c = true) : IsFirst c where
  space := by
    cases hspace : isSpace c with
    | false => rfl
    | true => simp [isScalarChar_of_isSpace hspace] at h
  closing := by
    rintro k rfl
    exact absurd h (by cases k <;> decide)

theorem IsScalar.exists_cons {text : Text} {v : Value} (h : IsScalar text v) :
    ∃ c s, text = c :: s ∧ isScalarChar c = true := by
  obtain ⟨hne, hall⟩ := h.all
  obtain ⟨c, s, rfl⟩ := List.exists_cons_of_ne_nil hne
  exact ⟨c, s, rfl, hall c List.mem_cons_self⟩

/-- What denotes a value starts with a character of this kind. -/
theorem Denotes.exists_cons {text : Text} {v : Value} (h : Denotes text v) :
    ∃ c s, text = c :: s ∧ IsFirst c := by
  have hscalar : ∀ {text v}, IsScalar text v → ∃ c s, text = c :: s ∧ IsFirst c := fun h => by
    obtain ⟨c, s, htext, hc⟩ := h.exists_cons
    exact ⟨c, s, htext, isFirst_of_isScalarChar hc⟩
  cases h with
  | literal h => exact hscalar (.inr h)
  | number h => exact hscalar (.inl ⟨h, rfl⟩)
  | string _ => exact ⟨_, _, rfl, isFirst_quote⟩
  | empty k _ => exact ⟨_, _, rfl, isFirst_opening k⟩
  | holding _ => exact ⟨_, _, rfl, isFirst_opening _⟩

/-- A text that starts with an element as far as its first character behind white space tells. -/
def Begins (text : Text) : Prop :=
  ∃ before c after, text = before ++ c :: after ∧ Spaces before ∧ IsFirst c

theorem Begins.append {text : Text} (h : Begins text) (more : Text) : Begins (text ++ more) := by
  obtain ⟨before, c, after, rfl, hbefore, hc⟩ := h
  exact ⟨before, c, after ++ more, by simp, hbefore, hc⟩

theorem Document.begins {text : Text} {v : Value} (h : Document text v) : Begins text := by
  obtain ⟨hbefore, htext, -⟩ := h
  obtain ⟨c, s, rfl, hc⟩ := htext.exists_cons
  exact ⟨_, c, _, rfl, hbefore, hc⟩

theorem Elements.begins {k : Bracket} {text : Text} {elements : List k.Element}
    (h : Elements k text elements) : Begins text := by
  have hfirst : ∀ {text : Text} {element : k.Element}, Element k text element → Begins text := by
    intro text element h
    cases h with
    | item h => exact h.begins
    | member hname _ =>
      obtain ⟨hbefore, -, -⟩ := hname
      exact Begins.append ⟨_, '"', _, rfl, hbefore, isFirst_quote⟩ _
  cases h with
  | last h => exact hfirst h
  | cons h _ => exact (hfirst h).append _

/-- Where a text begins with an element the reader does not find an end without elements. -/
theorem Begins.not_reads_nothing {text : Text} (h : Begins text) (k : Bracket)
    (elements : List k.Element) (rest : Text) : ¬ Reads k.nothing text elements rest := by
  intro hread
  obtain ⟨before, c, after, rfl, hbefore, hc⟩ := h
  obtain ⟨-, within, hsplit, hwithin⟩ := reads_nothing_iff.mp hread
  have hrun : Text.MaximalRun isSpace before (c :: after) :=
    ⟨hbefore, by rintro d ⟨rfl⟩; exact hc.space⟩
  have hrun' : Text.MaximalRun isSpace within (k.closing :: rest) :=
    ⟨hwithin, (ends_closing k rest).spaces⟩
  have heq := hrun'.dropWhile_eq
  rw [hsplit, hrun.dropWhile_eq] at heq
  exact hc.closing k (List.cons.inj heq).1

/-- Numerals and words are read where nothing prolongs them. -/
theorem IsScalar.reads {text rest : Text} {v : Value} (h : IsScalar text v)
    (hrest : rest.Stops isScalarChar) : Reads readValue (text ++ rest) v rest := by
  have hread : Reads scalar (text ++ rest) v rest :=
    reads_scalar_iff.mpr ⟨text, rfl, ⟨h.all.2, hrest⟩, h⟩
  obtain ⟨c, s, rfl, hc⟩ := h.exists_cons
  exact reads_value_scalar hc hread

mutual

theorem Denotes.reads {text : Text} {v : Value} (h : Denotes text v) (rest : Text)
    (hrest : rest.Stops isScalarChar) : Reads readValue (text ++ rest) v rest := by
  match h with
  | .literal h => exact IsScalar.reads (.inr h) hrest
  | .number h => exact IsScalar.reads (.inl ⟨h, rfl⟩) hrest
  | .string h => exact reads_value_string (reads_strings_iff.mpr ⟨_, by simp, h⟩)
  | .empty k h => exact reads_value_empty (reads_nothing_iff.mpr ⟨rfl, _, by simp, h⟩)
  | @Denotes.holding k text _ h =>
    have hread := h.reads rest
    rw [List.append_cons] at hread
    exact reads_value_holding (((h.begins.append _).append _).not_reads_nothing k) hread
termination_by structural h

theorem Document.reads {text : Text} {v : Value} (h : Document text v) (rest : Text)
    (hrest : Ends rest) : Reads readSpaced (text ++ rest) v rest := by
  match h with
  | @Document.mk before text after _ hbefore h hafter =>
    -- The white space in front ends where the value starts, so the reader skips no more of it.
    obtain ⟨c, s, htext, hc⟩ := h.exists_cons
    have hstop : Text.Stops isSpace (text ++ (after ++ rest)) := by
      rw [htext]
      rintro d ⟨rfl⟩
      exact hc.space
    have hfirst := reads_skip_spaces hbefore hstop
    have hvalue := h.reads _ (hrest.stops_append hafter)
    simp only [List.append_assoc]
    exact reads_spaced_iff.mpr ⟨_, _, hfirst, hvalue, reads_skip_spaces hafter hrest.spaces⟩
termination_by structural h

theorem Element.reads {k : Bracket} {text : Text} {element : k.Element}
    (h : Element k text element) (rest : Text) (hrest : Ends rest) :
    Reads (readElement k) (text ++ rest) element rest := by
  match k, element, h with
  | .square, _, .item h => exact reads_element_square_iff.mpr (h.reads rest hrest)
  | .curly, _, @Element.member name text _ _ hname h =>
    refine reads_element_curly_iff.mpr ⟨text ++ rest, ?_, h.reads rest hrest⟩
    exact reads_name_iff.mpr ⟨name, by simp, hname⟩
termination_by structural h

theorem Elements.reads {k : Bracket} {text : Text} {elements : List k.Element}
    (h : Elements k text elements) (rest : Text) :
    Reads (readElements k) (text ++ k.closing :: rest) elements rest := by
  match h with
  | .last h =>
    exact reads_elements_iff.mpr ⟨_, _, h.reads _ (ends_closing k rest), .inl ⟨rfl, rfl⟩⟩
  | @Elements.cons _ text more _ _ h hmore =>
    have hread := h.reads _ (ends_comma (more ++ k.closing :: rest))
    rw [List.append_assoc]
    exact reads_elements_iff.mpr ⟨_, _, hread, .inr ⟨_, _, rfl, rfl, hmore.reads rest⟩⟩
termination_by structural h

end

/-- Exactly the documents of the grammar can be read, each as the value that it denotes. -/
theorem read_eq_some_iff {s : Text} {v : Value} : read s = some v ↔ Document s v := by
  constructor
  · intro h
    unfold read at h
    split at h
    · next found r hread =>
      split at h
      · next hr =>
        obtain rfl := Option.some.inj h
        obtain ⟨text, htext, hdocument⟩ := document_of_reads ⟨r, hread, hr⟩
        rw [List.append_nil] at htext
        rwa [← htext]
      · cases h
    · cases h
  · intro h
    have hread := h.reads [] ends_nil
    rw [List.append_nil] at hread
    obtain ⟨r, hr, hrest⟩ := hread
    simp only [read, hr, hrest, if_pos]

end TagLexer.Json
