import TagLexer.Proofs.Scan.Concat

/-!
# Scanners told what to do

A scanner may be told to pass over blanks, to take a segment or to run to the end, in any order.
Every move passes some of the text and adds to what the scanner holds (`Scanner.Advances`), so a
scanner always stands at its offset in the source. A run from there adds what a scan of the rest
alone finds. It ends like a run from the start of the source exactly when no segment has been taken
at a blank, since such a segment leaves a note that no run takes (`finish_of_moveAll`).
-/

namespace TagLexer

namespace Segment

/-- No sign is blank. -/
theorem not_mem_signs_of_isBlank {c : Char} (h : isBlank c = true) : c ∉ signs := by
  intro hmem
  simp [(classes_of_mem_signs hmem).1] at h

/-- A segment that is taken at a blank is that blank alone. -/
theorem cut_of_isBlank {c : Char} (h : isBlank c = true) (rest : Text) :
    cut c rest = (other c, rest) := by
  rw [cut_of_not_mem_signs (not_mem_signs_of_isBlank h),
    if_neg (by simp [isWordChar_of_isBlank h])]

end Segment

namespace Scanner

variable {sc sc' sc'' : Scanner}

/-- At the end of the source there is no segment to take. -/
theorem step_of_nil (h : sc.rest = []) : sc.step = sc := by
  simp only [step, h]

theorem step_of_cons {c : Char} {rest : Text} (h : sc.rest = c :: rest) :
    sc.step = sc.pass (Segment.cut c rest).1 (Segment.cut c rest).2 := by
  simp only [step, h]

/-- A scanner has advanced: it has passed some more of the text and still holds what it held. -/
structure Advances (sc sc' : Scanner) : Prop where
  /-- What was passed and what is left make up what was left before. -/
  passed : ∃ front, front ++ sc'.rest = sc.rest ∧ sc'.offset = sc.offset + front.length
  /-- No token has been changed or removed. -/
  tokens : sc.tokens <+: sc'.tokens
  /-- No note has been changed or removed. -/
  notes : sc.notes <+: sc'.notes

namespace Advances

theorem refl (sc : Scanner) : Advances sc sc :=
  ⟨⟨[], rfl, rfl⟩, List.prefix_refl _, List.prefix_refl _⟩

theorem trans (h : Advances sc sc') (h' : Advances sc' sc'') : Advances sc sc'' := by
  obtain ⟨front, hrest, hoffset⟩ := h.passed
  obtain ⟨front', hrest', hoffset'⟩ := h'.passed
  refine ⟨⟨front ++ front', ?_, ?_⟩, h.tokens.trans h'.tokens, h.notes.trans h'.notes⟩
  · rw [List.append_assoc, hrest', hrest]
  · rw [hoffset', hoffset, List.length_append, Nat.add_assoc]

theorem offset_le (h : Advances sc sc') : sc.offset ≤ sc'.offset := by
  obtain ⟨front, -, hoffset⟩ := h.passed
  omega

end Advances

theorem advances_skipBlanks (sc : Scanner) : Advances sc sc.skipBlanks :=
  ⟨⟨sc.rest.takeWhile isBlank, List.takeWhile_append_dropWhile, rfl⟩, List.prefix_refl _,
    List.prefix_refl _⟩

theorem advances_step (sc : Scanner) : Advances sc sc.step := by
  cases hr : sc.rest with
  | nil =>
    rw [step_of_nil hr]
    exact .refl sc
  | cons c rest =>
    rw [step_of_cons hr]
    exact ⟨⟨(Segment.cut c rest).1.text, (Segment.text_cut c rest).trans hr.symm, rfl⟩,
      List.prefix_append .., List.prefix_append ..⟩

theorem advances_finish (sc : Scanner) : Advances sc sc.finish := by
  rw [finish_eq]
  exact ⟨⟨sc.rest, List.append_nil _, rfl⟩, List.prefix_append .., List.prefix_append ..⟩

/-- Every move advances the scanner. -/
theorem advances_move (sc : Scanner) (m : Move) : Advances sc (sc.move m) := by
  cases m with
  | skipBlanks => exact sc.advances_skipBlanks
  | step => exact sc.advances_step
  | finish => exact sc.advances_finish

/-- Moves advance the scanner. -/
theorem advances_moveAll (sc : Scanner) (moves : List Move) : Advances sc (sc.moveAll moves) := by
  induction moves generalizing sc with
  | nil => exact .refl sc
  | cons m moves ih => exact (sc.advances_move m).trans (ih (sc.move m))

theorem moveAll_append (sc : Scanner) (moves later : List Move) :
    sc.moveAll (moves ++ later) = (sc.moveAll moves).moveAll later :=
  List.foldl_append

/-- A scanner that has advanced from the start of a source stands at its offset in the source. -/
theorem Advances.rest_eq {source : Text} (h : Advances (start source) sc) :
    sc.offset ≤ source.length ∧ sc.rest = source.drop sc.offset := by
  obtain ⟨front, hrest, hoffset⟩ := h.passed
  have hsource : front ++ sc.rest = source := hrest
  have hlength : sc.offset = front.length := by simpa [start] using hoffset
  rw [hlength, ← hsource, List.drop_left]
  exact ⟨by simp, rfl⟩

/-- A run from a scanner that has advanced ends at the end of the source. -/
theorem Advances.finish_eq {source : Text} (h : Advances (start source) sc) :
    sc.finish =
      { offset := source.length
        rest := []
        tokens := sc.tokens ++ (Scan.of (source.drop sc.offset)).tokens
        notes := sc.notes ++
          (Scan.of (source.drop sc.offset)).notes.map (Note.shift sc.offset) } := by
  obtain ⟨hle, hrest⟩ := h.rest_eq
  rw [Scanner.finish_eq, absorb, hrest, List.length_drop, Nat.add_sub_cancel' hle]
  rfl

/-- A run from the start of a source ends with what a scan of the source finds. -/
theorem finish_start (source : Text) :
    (start source).finish =
      { offset := source.length
        rest := []
        tokens := (Scan.of source).tokens
        notes := (Scan.of source).notes } := by
  rw [finish_eq]
  simp [absorb, start]

/-- A scanner that has run to the end stays there. -/
theorem finish_finish (sc : Scanner) : sc.finish.finish = sc.finish := by
  apply finish_of_nil
  rw [finish_eq]
  rfl

/-- A move is one that a run makes as well, unless it takes a segment at a blank. -/
theorem finish_move {m : Move} (h : m = .step → sc.rest.Stops isBlank) :
    (sc.move m).finish = sc.finish := by
  cases m with
  | skipBlanks => exact sc.finish_skipBlanks
  | finish => exact sc.finish_finish
  | step =>
    have hskip : sc.skipBlanks = sc := skipBlanks_of_stops (h rfl)
    by_cases hr : sc.rest = []
    · exact congrArg finish (step_of_nil hr)
    · have hrun : sc.finish = sc.step.finish := by rw [finish, hskip, if_neg hr]
      exact hrun.symm

/-- Moves that take no segment at a blank are moves of a run. -/
theorem finish_moveAll {moves : List Move}
    (h : ∀ earlier later, moves = earlier ++ .step :: later →
      (sc.moveAll earlier).rest.Stops isBlank) :
    (sc.moveAll moves).finish = sc.finish := by
  induction moves generalizing sc with
  | nil => rfl
  | cons m moves ih =>
    have hfirst : (sc.move m).finish = sc.finish := by
      apply finish_move
      rintro rfl
      exact h [] moves rfl
    have hlater : ((sc.move m).moveAll moves).finish = (sc.move m).finish := by
      apply ih
      intro earlier later hsplit
      exact h (m :: earlier) later (congrArg (m :: ·) hsplit)
    exact hlater.trans hfirst

/-- A segment that is taken at a blank leaves a note about it. -/
theorem mem_notes_step {c : Char} (hr : sc.rest.head? = some c) (hc : isBlank c = true) :
    ⟨.unrecognized, sc.offset, [c]⟩ ∈ sc.step.notes := by
  obtain ⟨rest, hrest⟩ := List.head?_eq_some_iff.mp hr
  rw [step_of_cons hrest, Segment.cut_of_isBlank hc]
  exact List.mem_append_right _ (by simp [Segment.note?])

/-- A run that ends like one from the start of the source has taken no segment at a blank. -/
theorem stops_of_finish_moveAll {source : Text} {earlier later : List Move}
    (h : ((start source).moveAll (earlier ++ .step :: later)).finish.notes =
      (start source).finish.notes) :
    ((start source).moveAll earlier).rest.Stops isBlank := by
  intro c hr
  by_contra hc
  rw [Bool.not_eq_false] at hc
  generalize hsc : (start source).moveAll earlier = sc at hr
  -- The note about the blank is kept to the end, but no note of a run is about a blank.
  have hkept : sc.step.notes <+: (start source).finish.notes := by
    rw [← h, moveAll_append, hsc]
    exact ((sc.step.advances_moveAll later).trans (advances_finish _)).notes
  obtain ⟨_, d, _, _, _, htext, hvisible⟩ :=
    Scan.exists_visible_of_mem_notes (hkept.subset (mem_notes_step hr hc))
  obtain rfl : c = d := List.singleton_inj.mp htext
  exact absurd hc (by simp [hvisible])

end Scanner

/-- Take a scanner at the start of a source and tell it what to do, in any order. It then stands at
some offset of the source. A run from there ends at the end of the source, and adds to what the
scanner holds exactly what a scan of the source behind that offset finds, with the notes moved on by
the offset. A second run adds nothing. The run ends with the tokens and notes of the whole source
exactly when the scanner was never told to take a segment where a blank stands. -/
theorem finish_of_moveAll (source : Text) (moves : List Scanner.Move) :
    ∃ offset tokens notes,
      (Scanner.start source).moveAll moves =
        { offset, rest := source.drop offset, tokens, notes } ∧
      offset ≤ source.length ∧
      ((Scanner.start source).moveAll moves).finish =
        { offset := source.length
          rest := []
          tokens := tokens ++ (Scan.of (source.drop offset)).tokens
          notes := notes ++ (Scan.of (source.drop offset)).notes.map fun note =>
            { note with offset := note.offset + offset } } ∧
      ((Scanner.start source).moveAll moves).finish.finish =
        ((Scanner.start source).moveAll moves).finish ∧
      (((Scanner.start source).moveAll moves).finish =
          { offset := source.length
            rest := []
            tokens := (Scan.of source).tokens
            notes := (Scan.of source).notes } ↔
        ∀ earlier later, moves = earlier ++ .step :: later →
          ∀ c, source[((Scanner.start source).moveAll earlier).offset]? = some c →
            isBlank c = false) := by
  have hadvances := (Scanner.start source).advances_moveAll moves
  obtain ⟨hle, hrest⟩ := hadvances.rest_eq
  refine ⟨_, _, _, ?_, hle, hadvances.finish_eq, Scanner.finish_finish _, ?_⟩
  · rw [← hrest]
  rw [← Scanner.finish_start]
  constructor
  · rintro h earlier later rfl c hc
    have hnotes := congrArg Scanner.notes h
    refine Scanner.stops_of_finish_moveAll hnotes c ?_
    rw [((Scanner.start source).advances_moveAll earlier).rest_eq.2, List.head?_drop]
    exact hc
  · intro h
    apply Scanner.finish_moveAll
    intro earlier later hsplit c hc
    rw [((Scanner.start source).advances_moveAll earlier).rest_eq.2, List.head?_drop] at hc
    exact h earlier later hsplit c hc

end TagLexer
