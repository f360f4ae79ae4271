import TagLexer.Proofs.Scan.Image
import TagLexer.Proofs.Scan.Moves

/-!
# Progress of a scanner

Whatever a scanner is told to do, it never turns back. Taking a segment passes at least one
character and adds a token, a note, both of them for a string without its closing quote, or nothing
for a comment (`Scanner.Effect`). So the loop of a run (`Scanner.RunsIn`) ends after at most as many
rounds as there are characters left, and since a string without its closing quote takes all of
them, nothing is noted behind it (`Scanner.Orderly`).
-/

namespace TagLexer

/-- What taking a segment at an offset of a source can do: the offset to which it leads and the
tokens and notes that it adds. -/
inductive Scanner.Effect (source : Text) (offset : Nat) : Nat → List Token → List Note → Prop
  /-- One token and no note: a token that is no string literal is passed. -/
  | lexeme {t : Token} {after : Text} : source.drop offset = t.value ++ after → t.WellFormed →
      t.kind ≠ .stringLiteral → Effect source offset (offset + t.value.length) [t] []
  /-- One token and no note: a string literal is passed together with its quotes. -/
  | literal {q : Quote} {body after : Text} :
      source.drop offset = (q.char :: (body ++ [q.char])) ++ after → q.char ∉ body →
      Effect source offset (offset + (q.char :: (body ++ [q.char])).length)
        [⟨body, .stringLiteral⟩] []
  /-- No token and one note: a slash with nothing to divide is dropped. -/
  | stray {after : Text} : source.drop offset = '/' :: after → Segment.LoneSlash after →
      Segment.Stray after →
      Effect source offset (offset + 1) [] [⟨.straySlash, offset, ['/']⟩]
  /-- No token and one note: a character that belongs to nothing is dropped, also a blank. -/
  | unrecognized {c : Char} {after : Text} : source.drop offset = c :: after →
      c ∉ Segment.signs → isWordChar c = false →
      Effect source offset (offset + 1) [] [⟨.unrecognized, offset, [c]⟩]
  /-- One token and one note: a string literal without its closing quote takes the rest. -/
  | unclosed {q : Quote} {body : Text} : source.drop offset = q.char :: body → q.char ∉ body →
      Effect source offset source.length [⟨body, .stringLiteral⟩]
        [⟨.unterminatedString, offset, [q.char]⟩]
  /-- Nothing: a comment is passed up to the end of its line. -/
  | comment {body after : Text} : source.drop offset = ('/' :: '/' :: body) ++ after →
      Text.MaximalRun (· != '\n') body after →
      Effect source offset (offset + ('/' :: '/' :: body).length) [] []

namespace Segment

/-- Where no blank stands, a cut does not find blanks. -/
theorem cut_ne_blank {c : Char} (hc : isBlank c = false) (rest run : Text) :
    (cut c rest).1 ≠ blank run := by
  intro he
  have ht := text_cut c rest
  have hf := fits_cut hc rest
  rw [he] at ht hf
  obtain ⟨hne, hrun⟩ := hf
  obtain ⟨d, tail, rfl⟩ := List.exists_cons_of_ne_nil hne
  obtain ⟨rfl, -⟩ := List.cons.inj ht
  have hd : isBlank d = true := hrun.all d List.mem_cons_self
  simp [hd] at hc

variable {source : Text} {offset : Nat}

/-- A segment that is no run of blanks has an effect where it fits. -/
theorem Fits.effect {g : Segment} {after : Text} (hf : g.Fits after)
    (hs : source.drop offset = g.text ++ after) (hblank : ∀ run, g ≠ blank run) :
    Scanner.Effect source offset (offset + g.text.length) g.token?.toList
      (g.note? offset).toList := by
  cases g with
  | blank run => exact absurd rfl (hblank run)
  | comment body => exact .comment hs hf
  | mark m => exact .lexeme hs (hf.wellFormed _ rfl) (by simp)
  | operator o => exact .lexeme hs (hf.wellFormed _ rfl) (by simp)
  | straySlash => exact .stray hs hf.1 hf.2
  | quoted q body => exact .literal hs hf
  | unclosed q body =>
    obtain ⟨hbody, rfl⟩ := hf
    rw [List.append_nil] at hs
    have hend : offset + (unclosed q body).text.length = source.length := by
      have hpos : 0 < (unclosed q body).text.length := List.length_pos_of_mem List.mem_cons_self
      rw [← hs, List.length_drop] at hpos ⊢
      omega
    rw [hend]
    exact .unclosed hs hbody
  | word w => exact .lexeme hs (hf.wellFormed _ rfl) (Kind.ofWord_ne_stringLiteral w)
  | other c => exact .unrecognized hs hf.2.2 hf.2.1

/-- Every cut has an effect, also one at a blank. -/
theorem effect_cut {c : Char} {rest : Text} (hs : source.drop offset = c :: rest) :
    Scanner.Effect source offset (offset + (cut c rest).1.text.length)
      (cut c rest).1.token?.toList ((cut c rest).1.note? offset).toList := by
  cases hc : isBlank c with
  | true =>
    rw [cut_of_isBlank hc]
    exact .unrecognized hs (not_mem_signs_of_isBlank hc) (isWordChar_of_isBlank hc)
  | false =>
    apply (fits_cut hc rest).effect
    · rw [text_cut, hs]
    · exact cut_ne_blank hc rest

end Segment

namespace Scanner

variable {source : Text} {sc sc' sc'' : Scanner}

namespace Effect

variable {offset next : Nat} {tokens : List Token} {notes : List Note}

/-- Every effect leads on, since no token but a string literal is empty. -/
theorem offset_lt (h : Effect source offset next tokens notes) : offset < next := by
  cases h with
  | @lexeme t after _ hwell hkind =>
    have hpos : 0 < t.value.length := List.length_pos_iff.mpr (hwell.value_ne_nil hkind)
    omega
  | literal => simp
  | stray => omega
  | unrecognized => omega
  | unclosed hs =>
    have hlength := congrArg List.length hs
    rw [List.length_drop, List.length_cons] at hlength
    omega
  | comment => simp

/-- An effect notes no unterminated string unless it leads to the end of the source. -/
theorem notes_cases (h : Effect source offset next tokens notes) :
    (∀ note ∈ notes, note.kind ≠ .unterminatedString) ∨
      next = source.length ∧ ∃ note, notes = [note] := by
  cases h with
  | unclosed => exact Or.inr ⟨rfl, _, rfl⟩
  | _ => exact Or.inl (by simp)

end Effect

namespace Advances

variable (h : Advances (start source) sc)
include h

/-- A scanner has nothing left to read exactly at the end of the source. -/
theorem rest_eq_nil_iff : sc.rest = [] ↔ source.length ≤ sc.offset := by
  rw [h.rest_eq.2, List.drop_eq_nil_iff]

/-- Before the end of the source, taking a segment has an effect. -/
theorem effect_step (hlt : sc.offset < source.length) :
    ∃ tokens notes, sc.step.tokens = sc.tokens ++ tokens ∧ sc.step.notes = sc.notes ++ notes ∧
      Effect source sc.offset sc.step.offset tokens notes := by
  cases hr : sc.rest with
  | nil => exact absurd (h.rest_eq_nil_iff.mp hr) (Nat.not_le_of_lt hlt)
  | cons c rest =>
    have hs : source.drop sc.offset = c :: rest := h.rest_eq.2 ▸ hr
    rw [step_of_cons hr]
    exact ⟨_, _, rfl, rfl, Segment.effect_cut hs⟩

/-- Before the end of the source, taking a segment moves the scanner on. -/
theorem offset_lt_step (hlt : sc.offset < source.length) : sc.offset < sc.step.offset := by
  obtain ⟨_, _, -, -, heffect⟩ := h.effect_step hlt
  exact heffect.offset_lt

end Advances

/-- The loop of a run, with the number of rounds that it makes and the scanner that it ends with. A
loop without end would have no number of rounds. -/
inductive RunsIn (source : Text) : Scanner → Nat → Scanner → Prop
  /-- At the end of the source there is no further round. -/
  | ended {sc : Scanner} : source.length ≤ sc.offset → RunsIn source sc 0 sc
  /-- A round that passes over blanks and finds nothing behind them is the last one. -/
  | blanks {sc : Scanner} : sc.offset < source.length → source.length ≤ sc.skipBlanks.offset →
      RunsIn source sc 1 sc.skipBlanks
  /-- Any other round passes over blanks and takes a segment. -/
  | round {sc sc' : Scanner} {n : Nat} : sc.offset < source.length →
      sc.skipBlanks.offset < source.length → RunsIn source sc.skipBlanks.step n sc' →
      RunsIn source sc (n + 1) sc'

/-- The loop ends in one way only. -/
theorem RunsIn.unique {n m : Nat} (h : RunsIn source sc n sc') (h' : RunsIn source sc m sc'') :
    n = m ∧ sc' = sc'' := by
  induction h generalizing m sc'' with
  | ended hend =>
    cases h' with
    | ended => exact ⟨rfl, rfl⟩
    | blanks hlt => omega
    | round hlt => omega
  | blanks hlt hend =>
    cases h' with
    | ended => omega
    | blanks => exact ⟨rfl, rfl⟩
    | round _ hskip => omega
  | round hlt hskip _ ih =>
    cases h' with
    | ended => omega
    | blanks _ hend => omega
    | round _ _ hruns =>
      obtain ⟨rfl, rfl⟩ := ih hruns
      exact ⟨rfl, rfl⟩

/-- The loop ends with what a run computes. Each round passes a character at least, so there are at
most as many rounds as characters left. -/
theorem Advances.exists_runsIn (h : Advances (start source) sc) :
    ∃ rounds ≤ source.length - sc.offset, RunsIn source sc rounds sc.finish := by
  induction hn : source.length - sc.offset using Nat.strongRecOn generalizing sc with
  | ind n ih =>
    have hskipped := h.trans sc.advances_skipBlanks
    -- The cases are those of the loop: it takes a segment, finds only blanks, or has ended before.
    by_cases hlt : sc.offset < source.length
    · by_cases hskip : sc.skipBlanks.offset < source.length
      · have hrun : sc.finish = sc.skipBlanks.step.finish := by
          rw [finish, if_neg (by rw [hskipped.rest_eq_nil_iff]; omega)]
        have hle := sc.advances_skipBlanks.offset_le
        have hstep := hskipped.offset_lt_step hskip
        obtain ⟨rounds, hrounds, hruns⟩ :=
          ih _ (by omega) (hskipped.trans (advances_step _)) rfl
        rw [hrun]
        exact ⟨rounds + 1, by omega, .round hlt hskip hruns⟩
      · have hrun : sc.finish = sc.skipBlanks := by
          rw [finish, if_pos (hskipped.rest_eq_nil_iff.mpr (Nat.le_of_not_lt hskip))]
        rw [hrun]
        exact ⟨1, by omega, .blanks hlt (Nat.le_of_not_lt hskip)⟩
    · rw [finish_of_nil (h.rest_eq_nil_iff.mpr (Nat.le_of_not_lt hlt))]
      exact ⟨0, Nat.zero_le n, .ended (Nat.le_of_not_lt hlt)⟩

/-- A scanner is in order when it has advanced from the start of the source and has noted nothing
behind a string without its closing quote. -/
structure Orderly (source : Text) (sc : Scanner) : Prop where
  /-- The scanner has advanced from the start. -/
  advances : Advances (start source) sc
  /-- No note but the last one is about an unterminated string. -/
  last : ∀ note ∈ sc.notes.dropLast, note.kind ≠ .unterminatedString
  /-- With an unterminated string the scanner has come to the end of the source. -/
  offset : ∀ note ∈ sc.notes, note.kind = .unterminatedString → sc.offset = source.length

theorem orderly_start (source : Text) : Orderly source (start source) :=
  ⟨.refl _, by simp [start], by simp [start]⟩

namespace Orderly

theorem skipBlanks (h : Orderly source sc) : Orderly source sc.skipBlanks where
  advances := h.advances.trans sc.advances_skipBlanks
  last := h.last
  offset note hmem hkind := by
    have hend := h.offset note hmem hkind
    have hle := sc.advances_skipBlanks.offset_le
    have hbound := (h.advances.trans sc.advances_skipBlanks).rest_eq.1
    omega

/-- Before the end of the source, taking a segment keeps a scanner in order. -/
theorem step (h : Orderly source sc) (hlt : sc.offset < source.length) :
    Orderly source sc.step := by
  -- An unterminated string would have led to the end, so any note about one is the new, last one.
  have hkept : ∀ note ∈ sc.notes, note.kind ≠ .unterminatedString := by
    intro note hmem hkind
    exact absurd (h.offset note hmem hkind) (Nat.ne_of_lt hlt)
  obtain ⟨_, notes, -, hnotes, heffect⟩ := h.advances.effect_step hlt
  have hadvances := h.advances.trans sc.advances_step
  rcases heffect.notes_cases with hnone | ⟨hend, note, rfl⟩
  · have hall : ∀ note ∈ sc.step.notes, note.kind ≠ .unterminatedString := by
      rw [hnotes]
      exact List.forall_mem_append.mpr ⟨hkept, hnone⟩
    exact ⟨hadvances, fun note hmem => hall note ((List.dropLast_subset _) hmem),
      fun note hmem hkind => absurd hkind (hall note hmem)⟩
  · refine ⟨hadvances, ?_, fun _ _ _ => hend⟩
    rw [hnotes, List.dropLast_concat]
    exact hkept

/-- The loop of a run keeps a scanner in order. -/
theorem of_runsIn {n : Nat} (h : Orderly source sc) (hruns : RunsIn source sc n sc') :
    Orderly source sc' := by
  induction hruns with
  | ended => exact h
  | blanks => exact h.skipBlanks
  | round _ hskip _ ih => exact ih (h.skipBlanks.step hskip)

/-- Every move keeps a scanner in order. -/
theorem move (h : Orderly source sc) (m : Move) : Orderly source (sc.move m) := by
  cases m with
  | skipBlanks => exact h.skipBlanks
  | step =>
    by_cases hlt : sc.offset < source.length
    · exact h.step hlt
    · have hnil : sc.rest = [] := h.advances.rest_eq_nil_iff.mpr (Nat.le_of_not_lt hlt)
      change Orderly source sc.step
      rwa [step_of_nil hnil]
  | finish =>
    obtain ⟨_, -, hruns⟩ := h.advances.exists_runsIn
    exact h.of_runsIn hruns

/-- Moves keep a scanner in order. -/
theorem moveAll (h : Orderly source sc) (moves : List Move) :
    Orderly source (sc.moveAll moves) := by
  induction moves generalizing sc with
  | nil => exact h
  | cons m moves ih => exact ih (h.move m)

/-- All notes before the last one are about something else than an unterminated string. -/
theorem notes_cases (h : Orderly source sc) :
    sc.notes = [] ∨ ∃ front final, sc.notes = front ++ [final] ∧
      ∀ note ∈ front, note.kind ≠ .unterminatedString := by
  have hlast := h.last
  rcases List.eq_nil_or_concat sc.notes with hnil | ⟨front, final, hnotes⟩
  · exact Or.inl hnil
  · rw [List.concat_eq_append] at hnotes
    rw [hnotes, List.dropLast_concat] at hlast
    exact Or.inr ⟨front, final, hnotes, hlast⟩

/-- A note about an unterminated string is the last one. -/
theorem getLast?_notes (h : Orderly source sc) {note : Note} (hmem : note ∈ sc.notes)
    (hkind : note.kind = .unterminatedString) : sc.notes.getLast? = some note := by
  rcases h.notes_cases with hnil | ⟨front, final, hnotes, hfront⟩
  · simp [hnil] at hmem
  · rw [hnotes] at hmem ⊢
    rcases List.mem_append.mp hmem with hmem | hmem
    · exact absurd hkind (hfront note hmem)
    · rw [List.mem_singleton.mp hmem, List.getLast?_concat]

/-- At most one note is about an unterminated string. -/
theorem length_filter_notes_le (h : Orderly source sc) :
    (sc.notes.filter fun note => note.kind = .unterminatedString).length ≤ 1 := by
  rcases h.notes_cases with hnil | ⟨front, final, hnotes, hfront⟩
  · simp [hnil]
  · have hnone : (front.filter fun note => note.kind = .unterminatedString) = [] := by
      simpa using hfront
    rw [hnotes, List.filter_append, hnone, List.nil_append]
    exact List.length_filter_le _ [final]

end Orderly

end Scanner

/-- Take a scanner at the start of a source and tell it what to do, in any order. Whatever it is
told further, it does not go back, it does not leave the source, and what it holds stays as it is.
Before the end of the source, taking a segment moves it on and adds one token, or one note about a
single character, or a string literal and a note about its missing quote at the end of the source,
or nothing for a comment. A run from there ends at the end of the source: its loop makes at most as
many rounds as there are characters left, and neither the rounds nor the end can be others. Of the
notes that the scanner then holds at most one is about an unterminated string, and that is the last
one. -/
theorem progress_of_moveAll (source : Text) (moves : List Scanner.Move) :
    ∃ sc, (Scanner.start source).moveAll moves = sc ∧
      (∀ later, sc.offset ≤ (sc.moveAll later).offset ∧
        (sc.moveAll later).offset ≤ source.length ∧
        sc.tokens <+: (sc.moveAll later).tokens ∧ sc.notes <+: (sc.moveAll later).notes) ∧
      (sc.offset < source.length → sc.offset < sc.step.offset ∧
        ∃ tokens notes, sc.step.tokens = sc.tokens ++ tokens ∧
          sc.step.notes = sc.notes ++ notes ∧
          Scanner.Effect source sc.offset sc.step.offset tokens notes) ∧
      (∃ rounds ≤ source.length - sc.offset, Scanner.RunsIn source sc rounds sc.finish ∧
        ∀ n sc', Scanner.RunsIn source sc n sc' → n = rounds ∧ sc' = sc.finish) ∧
      sc.finish.offset = source.length ∧
      (sc.finish.notes.filter fun note => note.kind = .unterminatedString).length ≤ 1 ∧
      ∀ note ∈ sc.finish.notes, note.kind = .unterminatedString →
        sc.finish.notes.getLast? = some note := by
  have horderly := (Scanner.orderly_start source).moveAll moves
  generalize (Scanner.start source).moveAll moves = sc at horderly
  have hadvances := horderly.advances
  refine ⟨sc, rfl, fun later => ?_, fun hlt => ?_, ?_, ?_, ?_, ?_⟩
  · have hlater := sc.advances_moveAll later
    exact ⟨hlater.offset_le, (hadvances.trans hlater).rest_eq.1, hlater.tokens, hlater.notes⟩
  · exact ⟨hadvances.offset_lt_step hlt, hadvances.effect_step hlt⟩
  · obtain ⟨rounds, hrounds, hruns⟩ := hadvances.exists_runsIn
    exact ⟨rounds, hrounds, hruns, fun n sc' hother => hother.unique hruns⟩
  · rw [hadvances.finish_eq]
  · exact (horderly.move .finish).length_filter_notes_le
  · exact fun note hmem hkind => (horderly.move .finish).getLast?_notes hmem hkind

example : (Scanner.start " 'a//".toList).moveAll [.step, .finish] =
    { offset := 5
      rest := []
      tokens := [⟨"a//".toList, .stringLiteral⟩]
      notes := [⟨.unrecognized, 0, [' ']⟩, ⟨.unterminatedString, 1, ['\'']⟩] } := by
  decide +kernel

end TagLexer
