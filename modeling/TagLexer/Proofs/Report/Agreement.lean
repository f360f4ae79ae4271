import TagLexer.Diagnostic
import TagLexer.Proofs.Program.Delivery
import TagLexer.Proofs.Scan.LineEnd
import TagLexer.Proofs.Text.Quoted

/-!
# Reports and diagnostics agree

A run reads its input with all line ends made line feeds, while an editor's text is scanned as it
is. Where every carriage return is paired with a line feed, both find the same: the tokens differ
in the line ends inside strings only, and each line that a run reports names the line, the column
and the message of one diagnostic, in order (`scan_of_paired`).
-/

namespace TagLexer

/-- The message of a note of a scan stays on one line. -/
theorem Note.newline_not_mem_message {s : Text} {note : Note} (h : note ∈ (Scan.of s).notes) :
    '\n' ∉ note.message := by
  obtain ⟨front, c, back, -, -, htext, hvisible⟩ := Scan.exists_visible_of_mem_notes h
  have hquoted : '\n' ∉ note.text.quoted := by
    intro hmem
    exact absurd (Text.isPrintable_of_mem_quoted hmem) (by decide +kernel)
  have hplain : '\n' ∉ note.text := by
    rw [htext, List.mem_singleton]
    rintro rfl
    exact absurd hvisible (by decide)
  unfold Note.message
  split
  · simp [hquoted]
  · decide
  · simp [hplain]

/-- The line of a report that says what a diagnostic says: the file, the place where the diagnostic
starts, counted from one, and its message. -/
def Diagnostic.reportLine (file : Text) (d : Diagnostic) : Text :=
  file ++ ':' :: Text.ofNat (d.first.line + 1) ++ ':' :: Text.ofNat (d.first.character + 1) ++
    [':', ' '] ++ d.message ++ ['\n']

namespace Report

variable {s t : Text}

/-- The report of a note says what the diagnostic of a note says that agrees with it. -/
theorem line_of_agree {a b : Note} (h : Note.Agree s t a b) (file : Text) :
    line s file a = (Diagnostic.ofNote t b).reportLine file := by
  have hline : (Position.at t b.offset).line - 1 + 1 = (Position.at s a.offset).line := by
    rw [h.line]
    rfl
  have hcolumn : (Position.at t b.offset).column - 1 + 1 = (Position.at s a.offset).column := by
    rw [h.column]
    rfl
  have hmessage : b.message = a.message := by
    simp only [Note.message, h.kind, h.text]
  simp only [line, Diagnostic.reportLine, Diagnostic.ofNote, Place.of, hline, hcolumn, hmessage]

/-- The reports of notes say what the diagnostics of notes say that agree with them. -/
theorem lines_of_forall₂ {as bs : List Note} (h : List.Forall₂ (Note.Agree s t) as bs)
    (file : Text) :
    lines s file as = (bs.map (Diagnostic.ofNote t)).flatMap (Diagnostic.reportLine file) := by
  induction h with
  | nil => rfl
  | cons hab _ ih =>
    rw [lines, List.flatMap_cons, line_of_agree hab, List.map_cons, List.flatMap_cons]
    exact congrArg _ ih

end Report

/-- A run that has read its input reports the notes of the source, whatever becomes of the
listing. -/
theorem Settings.stderr_run {settings : Settings} {fs : FileSystem} {source : Text}
    (hdebug : settings.debug = true) (hsource : settings.Reads fs source) :
    (settings.run fs).stderr =
      Report.lines source settings.input.write (Scan.of source).notes := by
  have hreport : (settings.process source).report =
      Report.lines source settings.input.write (Scan.of source).notes := by
    simp only [process, hdebug, if_true]
  unfold run
  rw [produce_eq_ok_iff.mpr ⟨source, hsource, rfl⟩]
  simp only
  split <;> exact hreport

/-- Take a text in which every carriage return has a line feed behind it, and the text with these
pairs made line feeds, which is what a run scans. The tokens of the two are the same, up to the
line ends in their values, and so are the notes, with their lines and columns. So a run with reports
on a file that holds the text reports, line by line, what the diagnostics of the text say. -/
theorem scan_of_paired {s : Text} (h : s.Paired) :
    s.universalNewlines = s.pairedNewlines ∧
      (Scan.of s.pairedNewlines).tokens =
        (Scan.of s).tokens.map (fun t => { t with value := t.value.pairedNewlines }) ∧
      List.Forall₂ (Note.Agree s.pairedNewlines s) (Scan.of s.pairedNewlines).notes
        (Scan.of s).notes ∧
      ∀ (settings : Settings) (fs : FileSystem), settings.debug = true →
        fs.read settings.input = .ok (Utf8.encode s) →
        (settings.run fs).stderr =
            (Diagnostic.all s).flatMap (Diagnostic.reportLine settings.input.write) ∧
          ∀ d ∈ Diagnostic.all s, '\n' ∉ d.message := by
  have hnotes := Scan.forall₂_notes_withoutReturns h
  rw [h.universalNewlines_eq, h.pairedNewlines_eq]
  refine ⟨rfl, ?_, hnotes, ?_⟩
  · rw [Scan.of_withoutReturns h]
    refine List.map_congr_left fun t ht => ?_
    rw [Token.withoutReturns, (Scan.paired_of_mem_tokens h t ht).pairedNewlines_eq]
  · intro settings fs hdebug hread
    have hsource : settings.Reads fs s.withoutReturns :=
      ⟨s, hread, h.universalNewlines_eq.symm⟩
    constructor
    · rw [Settings.stderr_run hdebug hsource]
      exact Report.lines_of_forall₂ hnotes _
    · intro d hd
      obtain ⟨note, hnote, rfl⟩ := List.mem_map.mp hd
      exact Note.newline_not_mem_message hnote

/-- Pairs of line ends behind a comment, inside a string and before a `>` change nothing. -/
theorem scan_of_paired_everywhere :
    Text.Paired "//c\r\n'x\r\ny' $ /\r\n>".toList ∧
      (Scan.of (Text.pairedNewlines "//c\r\n'x\r\ny' $ /\r\n>".toList)).tokens =
        (Scan.of "//c\r\n'x\r\ny' $ /\r\n>".toList).tokens.map
          (fun t => { t with value := t.value.pairedNewlines }) ∧
      ∃ (settings : Settings) (fs : FileSystem), settings.debug = true ∧
        fs.read settings.input = .ok (Utf8.encode "//c\r\n'x\r\ny' $ /\r\n>".toList) ∧
        (settings.run fs).stderr = (Diagnostic.all "//c\r\n'x\r\ny' $ /\r\n>".toList).flatMap
          (Diagnostic.reportLine settings.input.write) := by
  have hpaired : Text.Paired "//c\r\n'x\r\ny' $ /\r\n>".toList := by decide
  obtain ⟨-, htokens, -, hrun⟩ := scan_of_paired hpaired
  let settings : Settings :=
    { input := ⟨[], ["a.tag".toList]⟩, output := none, format := .value .text, watch := false,
      debug := true }
  let fs : FileSystem :=
    { entries := [([], .directory 0),
        (["a.tag".toList], .file (Utf8.encode "//c\r\n'x\r\ny' $ /\r\n>".toList) 0)]
      current := []
      clock := 1 }
  have hread : fs.read settings.input =
      .ok (Utf8.encode "//c\r\n'x\r\ny' $ /\r\n>".toList) := by
    rfl
  exact ⟨hpaired, htokens, settings, fs, rfl, hread, (hrun settings fs rfl hread).1⟩

end TagLexer
