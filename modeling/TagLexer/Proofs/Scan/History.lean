import TagLexer.Proofs.Scan.Tiling

/-!
# Histories of a run

A run through a source alternates between passing over blanks and taking a segment. Its history up
to some point lists the segments it has passed, runs of blanks among them. What a scanner holds at
that point depends on the text behind it only through the first character and the first visible one,
so a history can be replayed before another text (`History.replay`).
-/

namespace TagLexer

open Segment

/-- The segments that a run through a source has passed, and the scanner behind them. -/
inductive History (source : Text) : List Segment → Scanner → Prop
  /-- Nothing has been passed at the start of the source. -/
  | start : History source [] (.start source)
  /-- Blanks where the scanner stands are passed over in one go. -/
  | blanks {passed : List Segment} {sc : Scanner} {c : Char} {rest : Text} :
      History source passed sc → sc.rest = c :: rest → isBlank c = true →
      History source (passed ++ [.blank (sc.rest.takeWhile isBlank)]) sc.skipBlanks
  /-- Where no blank stands, a segment is taken. -/
  | segment {passed : List Segment} {sc : Scanner} {c : Char} {rest : Text} :
      History source passed sc → sc.rest = c :: rest → isBlank c = false →
      History source (passed ++ [(cut c rest).1]) sc.step

namespace Segment

@[simp] theorem joined_append (gs hs : List Segment) : joined (gs ++ hs) = joined gs ++ joined hs :=
  List.flatMap_append

/-- The note of a segment is about the place where the segment stands. -/
theorem offset_of_note? {g : Segment} {n : Nat} {note : Note} (h : g.note? n = some note) :
    note.offset = n := by
  cases g <;> simp only [note?, Option.some.injEq, reduceCtorEq] at h <;> rw [← h]

end Segment

namespace Scanner

/-- What a scanner has found so far. -/
def held (sc : Scanner) : Scan := { tokens := sc.tokens, notes := sc.notes }

/-- Where a blank stands, passing the first segment passes over the blanks. -/
private theorem pass_of_isBlank {sc : Scanner} {g : Segment} {after rest : Text} {c : Char}
    (hr : sc.rest = c :: rest) (hc : isBlank c = true) (h : first c rest = (g, after)) :
    g = .blank (sc.rest.takeWhile isBlank) ∧ sc.pass g after = sc.skipBlanks := by
  rw [first, if_pos hc, ← hr] at h
  obtain ⟨rfl, rfl⟩ := Prod.mk.inj h
  refine ⟨rfl, ?_⟩
  simp [pass, skipBlanks, Segment.text, Segment.token?, Segment.note?]

/-- Where no blank stands, passing the first segment takes a step. -/
private theorem pass_of_not_isBlank {sc : Scanner} {g : Segment} {after rest : Text} {c : Char}
    (hr : sc.rest = c :: rest) (hc : isBlank c = false) (h : first c rest = (g, after)) :
    g = (cut c rest).1 ∧ sc.pass g after = sc.step := by
  rw [first, if_neg (by simp [hc])] at h
  simp only [step, hr, h, and_self]

end Scanner

namespace History

variable {source : Text} {passed : List Segment} {sc : Scanner}

/-- A segment that fits at the start of the rest is passed next. -/
theorem pass (h : History source passed sc) {g : Segment} {after : Text}
    (ht : g.text ++ after = sc.rest) (hf : g.Fits after) :
    History source (passed ++ [g]) (sc.pass g after) := by
  cases hr : sc.rest with
  | nil =>
    rw [hr] at ht
    exact absurd (List.append_eq_nil_iff.mp ht).1 hf.text_ne_nil
  | cons c rest =>
    have hfirst := hf.first_eq (ht.trans hr)
    cases hc : isBlank c with
    | true =>
      obtain ⟨rfl, hpass⟩ := Scanner.pass_of_isBlank hr hc hfirst
      rw [hpass]
      exact h.blanks hr hc
    | false =>
      obtain ⟨rfl, hpass⟩ := Scanner.pass_of_not_isBlank hr hc hfirst
      rw [hpass]
      exact h.segment hr hc

/-- Both ways to go on pass the one segment that fits where the scanner stands. -/
@[elab_as_elim]
theorem pass_induction
    {motive : (passed : List Segment) → (sc : Scanner) → History source passed sc → Prop}
    (start : motive [] (.start source) .start)
    (pass : ∀ (passed : List Segment) (sc : Scanner) (g : Segment) (after : Text)
      (h : History source passed sc) (ht : g.text ++ after = sc.rest) (hf : g.Fits after),
      motive passed sc h → motive (passed ++ [g]) (sc.pass g after) (h.pass ht hf))
    {passed : List Segment} {sc : Scanner} (h : History source passed sc) :
    motive passed sc h := by
  induction h with
  | start => exact start
  | @blanks passed sc c rest h hr hc ih =>
    rcases hfirst : first c rest with ⟨g, after⟩
    obtain ⟨ht, hf⟩ := first_eq_iff.mp hfirst
    obtain ⟨rfl, hpass⟩ := Scanner.pass_of_isBlank hr hc hfirst
    simpa only [hpass] using pass passed sc _ after h (ht.trans hr.symm) hf ih
  | @segment passed sc c rest h hr hc ih =>
    rcases hfirst : first c rest with ⟨g, after⟩
    obtain ⟨ht, hf⟩ := first_eq_iff.mp hfirst
    obtain ⟨rfl, hpass⟩ := Scanner.pass_of_not_isBlank hr hc hfirst
    simpa only [hpass] using pass passed sc _ after h (ht.trans hr.symm) hf ih

/-- The segments passed and the rest make up the source. -/
theorem joined_append_rest (h : History source passed sc) : joined passed ++ sc.rest = source := by
  induction h using pass_induction with
  | start => rfl
  | pass passed sc g after _ ht _ ih =>
    rw [joined_append, joined_cons, joined_nil, List.append_nil, List.append_assoc]
    exact (congrArg (joined passed ++ ·) ht).trans ih

/-- The scanner stands behind the text of the segments passed. -/
theorem offset_eq (h : History source passed sc) : sc.offset = (joined passed).length := by
  induction h using pass_induction with
  | start => rfl
  | pass passed sc g after _ _ _ ih => simp [Scanner.pass, ih]

/-- The notes of a history are about text that has been passed. -/
theorem offset_lt_of_mem_notes (h : History source passed sc) :
    ∀ note ∈ sc.notes, note.offset < sc.offset := by
  induction h using pass_induction with
  | start => simp [Scanner.start]
  | pass passed sc g after _ _ hf ih =>
    intro note hnote
    have hpos : 0 < g.text.length := List.length_pos_iff.mpr hf.text_ne_nil
    simp only [Scanner.pass]
    rcases List.mem_append.mp hnote with hnote | hnote
    · have := ih note hnote
      omega
    · have := offset_of_note? (Option.mem_toList.mp hnote)
      omega

/-- A scanner on its way ends where the run from the start of the source ends. -/
theorem finish_eq (h : History source passed sc) : sc.finish = (Scanner.start source).finish := by
  induction h using pass_induction with
  | start => rfl
  | pass passed sc g after _ ht hf ih => rw [← Scanner.finish_of_fits ht hf, ih]

/-- A scan of the source finds what the scanner holds and then what is found in its rest. -/
theorem scan_eq (h : History source passed sc) :
    Scan.of source = sc.held ++ (Scan.of sc.rest).shift sc.offset := by
  have hfinish := h.finish_eq
  rw [Scanner.finish_eq] at hfinish
  rw [Scan.of, ← hfinish]
  rfl

/-- At every earlier stage of a history the scanner had the text of the later segments before it. -/
theorem of_append {later : List Segment} (h : History source (passed ++ later) sc) :
    ∃ sc₀, History source passed sc₀ ∧ sc₀.rest = joined later ++ sc.rest := by
  suffices hstage : ∃ sc₀, History source passed sc₀ by
    obtain ⟨sc₀, h₀⟩ := hstage
    have hrest := h₀.joined_append_rest.trans h.joined_append_rest.symm
    rw [joined_append, List.append_assoc] at hrest
    exact ⟨sc₀, h₀, List.append_cancel_left hrest⟩
  generalize hall : passed ++ later = all at h
  induction h using pass_induction generalizing later with
  | start =>
    obtain ⟨rfl, -⟩ := List.append_eq_nil_iff.mp hall
    exact ⟨_, .start⟩
  | pass all sc g after h ht hf ih =>
    rcases List.eq_nil_or_concat later with rfl | ⟨later, g', rfl⟩
    · rw [← List.append_nil passed, hall]
      exact ⟨_, h.pass ht hf⟩
    · rw [List.concat_eq_append, ← List.append_assoc] at hall
      exact ih (List.append_inj' hall rfl).1

/-- The segment passed last fits where the scanner stood before it. -/
theorem of_concat {g : Segment} (h : History source (passed ++ [g]) sc) :
    ∃ sc₀, History source passed sc₀ ∧ g.text ++ sc.rest = sc₀.rest ∧ g.Fits sc.rest ∧
      sc = sc₀.pass g sc.rest := by
  generalize hall : passed ++ [g] = all at h
  cases h using pass_induction with
  | start => simp at hall
  | pass all sc g' after h ht hf =>
    obtain ⟨rfl, hg⟩ := List.append_inj' hall rfl
    obtain rfl := List.singleton_inj.mp hg
    exact ⟨sc, h, ht, hf, rfl⟩

/-- A history can be replayed before another text with the same first character and the same first
visible character. -/
theorem replay (h : History source passed sc) {rest : Text} (hhead : sc.rest.head? = rest.head?)
    (hvisible : Text.firstVisible? sc.rest = Text.firstVisible? rest) :
    History (joined passed ++ rest) passed { sc with rest } := by
  induction h using pass_induction generalizing rest with
  | start => exact .start
  | pass passed sc g after _ ht hf ih =>
    have hhead₀ : sc.rest.head? = (g.text ++ rest).head? := by
      rw [← ht, List.head?_append, List.head?_append]
      exact congrArg _ hhead
    have hvisible₀ : Text.firstVisible? sc.rest = Text.firstVisible? (g.text ++ rest) := by
      rw [← ht, Text.firstVisible?_append, Text.firstVisible?_append]
      exact congrArg _ hvisible
    have hpass := (ih hhead₀ hvisible₀).pass rfl (hf.congr hhead hvisible)
    rw [joined_append, joined_cons, joined_nil, List.append_nil, List.append_assoc]
    exact hpass

end History

end TagLexer
