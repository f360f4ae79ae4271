import TagLexer.Position
import TagLexer.Proofs.Text.Classes
import TagLexer.Text.Newline

/-!
# Paired line ends

Where every carriage return has a line feed behind it, both readings of line ends come to the same:
the carriage returns disappear. A place that is not a line feed keeps its line and its column,
since no carriage return stands between it and the start of its line.
-/

namespace TagLexer

namespace Text

/-- Every carriage return of a text has a line feed behind it. -/
def Paired : Text → Prop
  | [] => True
  | c :: s => (c = '\r' → s.head? = some '\n') ∧ Paired s

instance : (s : Text) → Decidable s.Paired
  | [] => inferInstanceAs (Decidable True)
  | c :: s =>
    have := instDecidablePaired s
    inferInstanceAs (Decidable ((c = '\r' → s.head? = some '\n') ∧ Paired s))

/-- A text without its carriage returns. -/
def withoutReturns (s : Text) : Text := s.filter (· != '\r')

@[simp] theorem withoutReturns_nil : withoutReturns [] = [] := rfl

@[simp] theorem withoutReturns_append (s t : Text) :
    withoutReturns (s ++ t) = withoutReturns s ++ withoutReturns t :=
  List.filter_append ..

/-- A text without carriage returns stays as it is. -/
theorem withoutReturns_of_not_mem {s : Text} (h : '\r' ∉ s) : s.withoutReturns = s := by
  refine List.filter_eq_self.mpr fun c hc => ?_
  have hne : c ≠ '\r' := fun he => h (he ▸ hc)
  simpa using hne

/-- A text without carriage returns is paired. -/
theorem paired_of_not_mem {s : Text} (h : '\r' ∉ s) : s.Paired := by
  induction s with
  | nil => trivial
  | cons c s ih =>
    obtain ⟨hc, hs⟩ := not_or.mp fun hor => h (List.mem_cons.mpr hor)
    exact ⟨fun he => absurd he.symm hc, ih hs⟩

/-- Paired texts stay paired behind each other. -/
theorem Paired.append {s t : Text} (hs : Paired s) (ht : Paired t) : Paired (s ++ t) := by
  induction s with
  | nil => exact ht
  | cons c s ih =>
    refine ⟨fun hc => ?_, ih hs.2⟩
    have hhead : (s ++ t).head? = some '\n' := by
      rw [List.head?_append, hs.1 hc]
      rfl
    exact hhead

/-- Only a line feed stands behind a carriage return. -/
theorem Paired.head?_of_append {s t : Text} (h : Paired (s ++ '\r' :: t)) :
    t.head? = some '\n' := by
  induction s with
  | nil => exact h.1 rfl
  | cons c s ih => exact ih h.2

/-- The end of a paired text is paired. -/
theorem Paired.of_append {s t : Text} (h : Paired (s ++ t)) : Paired t := by
  induction s with
  | nil => exact h
  | cons c s ih => exact ih h.2

/-- The start of a paired text is paired unless it is cut off before a line feed. -/
theorem Paired.of_append_left {s t : Text} (h : Paired (s ++ t)) (ht : t.head? ≠ some '\n') :
    Paired s := by
  induction s with
  | nil => trivial
  | cons c s ih =>
    refine ⟨fun hc => ?_, ih h.2⟩
    have hhead : (s ++ t).head? = some '\n' := h.1 hc
    rw [List.head?_append] at hhead
    cases hs : s.head? with
    | none => simp [hs, ht] at hhead
    | some d => simpa [hs] using hhead

/-- A paired text without its carriage returns starts with a line feed in the place of a carriage
return and else with the same character. -/
theorem Paired.head?_withoutReturns {s : Text} (h : Paired s) :
    s.withoutReturns.head? = s.head?.map fun c => if c = '\r' then '\n' else c := by
  cases s with
  | nil => rfl
  | cons c s =>
    by_cases hc : c = '\r'
    · obtain ⟨t, rfl⟩ := List.head?_eq_some_iff.mp (h.1 hc)
      simp [withoutReturns, hc]
    · simp [withoutReturns, hc]

/-- Reading pairs of line ends drops the carriage returns of a paired text. -/
theorem Paired.pairedNewlines_eq {s : Text} (h : Paired s) :
    s.pairedNewlines = s.withoutReturns := by
  fun_induction pairedNewlines s with
  | case1 => rfl
  | case2 rest ih => simpa [withoutReturns] using ih h.2.2
  | case3 c rest hpair ih =>
    have hc : c ≠ '\r' := by
      intro hc
      obtain ⟨t, ht⟩ := List.head?_eq_some_iff.mp (h.1 hc)
      exact hpair t hc ht
    simpa [withoutReturns, hc] using ih h.2

/-- Reading all line ends drops the carriage returns of a paired text. -/
theorem Paired.universalNewlines_eq {s : Text} (h : Paired s) :
    s.universalNewlines = s.withoutReturns := by
  fun_induction universalNewlines s with
  | case1 => rfl
  | case2 rest ih => simpa [withoutReturns] using ih h.2.2
  | case3 rest hpair ih =>
    obtain ⟨t, ht⟩ := List.head?_eq_some_iff.mp (h.1 rfl)
    exact absurd ht (hpair t)
  | case4 c rest _ hc ih =>
    have hne : c ≠ '\r' := hc
    simpa [withoutReturns, hne] using ih h.2

/-- No carriage return stands between a place of a paired text that is not a line feed and the start
of its line. -/
theorem Paired.not_mem_lastLine {s t : Text} (h : Paired (s ++ t)) (ht : t.head? ≠ some '\n') :
    '\r' ∉ s.reverse.takeWhile (· != '\n') := by
  intro hmem
  obtain ⟨behind, ahead, hsplit⟩ := List.append_of_mem hmem
  -- What stands behind the carriage return on its line holds no line feed.
  have hbehind : ∀ c ∈ behind, c ≠ '\n' := by
    intro c hc
    have hline : c ∈ s.reverse.takeWhile (· != '\n') := by
      rw [hsplit]
      exact List.mem_append_left _ hc
    simpa using List.mem_takeWhile_imp hline
  have hreverse := List.takeWhile_append_dropWhile (p := (· != '\n')) (l := s.reverse)
  rw [hsplit] at hreverse
  generalize s.reverse.dropWhile (· != '\n') = before at hreverse
  have hs : s = (ahead ++ before).reverse ++ '\r' :: behind.reverse := by
    rw [← List.reverse_inj, ← hreverse]
    simp
  rw [hs, List.append_assoc, List.cons_append] at h
  have hhead := h.head?_of_append
  rw [List.head?_append] at hhead
  cases hb : behind.reverse.head? with
  | none => simp [hb, ht] at hhead
  | some d =>
    have hd : d ∈ behind := List.mem_reverse.mp (List.mem_of_head? hb)
    exact hbehind d hd (by simpa [hb] using hhead)

end Text

namespace Position

/-- The position of an offset in a text, by what stands before it. -/
theorem at_append (s t : Text) :
    Position.at (s ++ t) s.length =
      { line := s.count '\n' + 1
        column := (s.reverse.takeWhile (· != '\n')).length + 1
        offset := s.length } := by
  have hmin : min s.length (s ++ t).length = s.length := by simp
  simp only [Position.at, Int.toNat_natCast, hmin, List.take_left]

/-- A place of a paired text that is not a line feed has the same line and column without the
carriage returns. -/
theorem at_withoutReturns {s t : Text} (h : (s ++ t).Paired) (ht : t.head? ≠ some '\n') :
    (Position.at (s ++ t).withoutReturns s.withoutReturns.length).line =
        (Position.at (s ++ t) s.length).line ∧
      (Position.at (s ++ t).withoutReturns s.withoutReturns.length).column =
        (Position.at (s ++ t) s.length).column := by
  rw [Text.withoutReturns_append, at_append, at_append]
  constructor
  · have hcount : s.withoutReturns.count '\n' = s.count '\n' := List.count_filter (by decide)
    simp only [hcount]
  · have hline := Text.withoutReturns_of_not_mem (h.not_mem_lastLine ht)
    -- The last line stays, and what stands before it still ends in a line feed.
    have hrun : Text.MaximalRun (· != '\n') (s.reverse.takeWhile (· != '\n'))
        (Text.withoutReturns (s.reverse.dropWhile (· != '\n'))) := by
      obtain ⟨hall, hstop⟩ := Text.MaximalRun.of_takeWhile (· != '\n') s.reverse
      refine ⟨hall, ?_⟩
      cases hdrop : s.reverse.dropWhile (· != '\n') with
      | nil => simp [Text.Stops]
      | cons c rest =>
        have hc : c = '\n' := by simpa [hdrop] using hstop c (by rw [hdrop]; rfl)
        simp [hc, Text.withoutReturns, Text.Stops]
    have hsplit : s.withoutReturns.reverse =
        s.reverse.takeWhile (· != '\n') ++
          Text.withoutReturns (s.reverse.dropWhile (· != '\n')) := by
      rw [← hline, ← Text.withoutReturns_append, List.takeWhile_append_dropWhile,
        Text.withoutReturns, Text.withoutReturns, List.filter_reverse]
    simp only [hsplit, hrun.takeWhile_eq]

end Position

end TagLexer
