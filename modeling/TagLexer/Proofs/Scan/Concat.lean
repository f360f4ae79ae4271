import TagLexer.Proofs.Segment.Fits
import TagLexer.Scanner

/-!
# Scans put together from segments

What a scan finds in a text is what the first segment gives, followed by what a scan of the rest
finds, with the notes moved on by the length of the segment (`Scan.of_append`). A scanner on its
way adds to what it holds what a scan of its rest alone finds (`Scanner.finish_eq`), so neither
what it has passed nor what it has collected has any influence on what it still finds.
-/

namespace TagLexer

/-- A note about a text that comes to stand behind `n` further characters. -/
def Note.shift (n : Nat) (note : Note) : Note := { note with offset := note.offset + n }

namespace Scan

attribute [ext] Scan

instance : EmptyCollection Scan := ⟨{ tokens := [], notes := [] }⟩

/-- What two scans find, one after the other. -/
instance : Append Scan where
  append a b := { tokens := a.tokens ++ b.tokens, notes := a.notes ++ b.notes }

/-- What a scan finds in a text that comes to stand behind `n` further characters. -/
def shift (n : Nat) (scan : Scan) : Scan := { scan with notes := scan.notes.map (Note.shift n) }

@[simp] theorem tokens_empty : (∅ : Scan).tokens = [] := rfl

@[simp] theorem notes_empty : (∅ : Scan).notes = [] := rfl

@[simp] theorem tokens_append (a b : Scan) : (a ++ b).tokens = a.tokens ++ b.tokens := rfl

@[simp] theorem notes_append (a b : Scan) : (a ++ b).notes = a.notes ++ b.notes := rfl

@[simp] theorem tokens_shift (n : Nat) (a : Scan) : (a.shift n).tokens = a.tokens := rfl

@[simp] theorem notes_shift (n : Nat) (a : Scan) :
    (a.shift n).notes = a.notes.map (Note.shift n) := rfl

@[simp] theorem empty_append (a : Scan) : ∅ ++ a = a := rfl

@[simp] theorem append_empty (a : Scan) : a ++ ∅ = a := by
  ext1 <;> simp

theorem append_assoc (a b c : Scan) : a ++ b ++ c = a ++ (b ++ c) := by
  ext1 <;> simp

@[simp] theorem shift_empty (n : Nat) : shift n ∅ = ∅ := rfl

@[simp] theorem shift_zero (a : Scan) : a.shift 0 = a := by
  have hid : Note.shift 0 = id := rfl
  ext1
  · rfl
  · rw [notes_shift, hid, List.map_id]

theorem shift_append (n : Nat) (a b : Scan) : (a ++ b).shift n = a.shift n ++ b.shift n := by
  ext1 <;> simp

theorem shift_shift (m n : Nat) (a : Scan) : (a.shift m).shift n = a.shift (m + n) := by
  ext1 <;> simp [Note.shift, Nat.add_assoc]

end Scan

/-- What a segment at the start of a text gives. -/
def Segment.scan (g : Segment) : Scan := { tokens := g.token?.toList, notes := (g.note? 0).toList }

/-- A segment behind `n` characters gives the same note, moved on. -/
theorem Segment.note?_eq_shift (n : Nat) (g : Segment) :
    g.note? n = (g.note? 0).map (Note.shift n) := by
  cases g <;> simp [note?, Note.shift]

/-- What a segment gives, moved on, holds the note it causes there. -/
theorem Segment.notes_scan_shift (n : Nat) (g : Segment) :
    (g.scan.shift n).notes = (g.note? n).toList := by
  rw [note?_eq_shift, scan, Scan.notes_shift]
  cases g.note? 0 <;> rfl

/-- A note is about the first character of its segment, which is visible. -/
theorem Segment.Fits.visible_of_note? {g : Segment} {after : Text} (h : g.Fits after) {note : Note}
    (hnote : g.note? 0 = some note) :
    ∃ c tail, g.text = c :: tail ∧ note = { note with offset := 0, text := [c] } ∧
      isBlank c = false := by
  cases g with
  | straySlash =>
    obtain rfl := Option.some.inj hnote
    exact ⟨_, _, rfl, rfl, by decide⟩
  | unclosed q body =>
    obtain rfl := Option.some.inj hnote
    exact ⟨_, _, rfl, rfl, by cases q <;> decide⟩
  | other c =>
    obtain rfl := Option.some.inj hnote
    exact ⟨_, _, rfl, rfl, h.1⟩
  | _ => simp [note?] at hnote

namespace Scanner

/-- A scanner at the end of its source that has added what a scan of its rest finds. -/
def absorb (sc : Scanner) (scan : Scan) : Scanner :=
  { offset := sc.offset + sc.rest.length
    rest := []
    tokens := sc.tokens ++ scan.tokens
    notes := sc.notes ++ (scan.shift sc.offset).notes }

theorem skipBlanks_of_stops {sc : Scanner} (h : sc.rest.Stops isBlank) :
    sc.skipBlanks = sc := by
  have hrun : Text.MaximalRun isBlank [] sc.rest := ⟨by simp, h⟩
  have htake := hrun.takeWhile_eq
  have hdrop := hrun.dropWhile_eq
  rw [List.nil_append] at htake hdrop
  simp only [skipBlanks, htake, hdrop, List.length_nil, Nat.add_zero]

/-- Blanks in front are passed over first in any case. -/
theorem finish_skipBlanks (sc : Scanner) : sc.skipBlanks.finish = sc.finish := by
  have hidem : sc.skipBlanks.skipBlanks = sc.skipBlanks :=
    skipBlanks_of_stops (Text.MaximalRun.of_takeWhile isBlank sc.rest).stop
  rw [finish, finish.eq_def sc, hidem]

/-- A run passes the segment that fits at the start of the rest and goes on behind it. -/
theorem finish_of_fits {sc : Scanner} {g : Segment} {after : Text} (hr : g.text ++ after = sc.rest)
    (hf : g.Fits after) : sc.finish = (sc.pass g after).finish := by
  cases hrest : sc.rest with
  | nil =>
    rw [hrest] at hr
    exact absurd (List.append_eq_nil_iff.mp hr).1 hf.text_ne_nil
  | cons c rest =>
    have hfirst := hf.first_eq (hr.trans hrest)
    cases hc : isBlank c with
    | true =>
      have hpass : sc.pass g after = sc.skipBlanks := by
        rw [Segment.first, if_pos hc, ← hrest] at hfirst
        obtain ⟨rfl, rfl⟩ := Prod.mk.inj hfirst
        simp [pass, skipBlanks, Segment.text, Segment.token?, Segment.note?]
      rw [hpass, finish_skipBlanks]
    | false =>
      have hskip : sc.skipBlanks = sc := skipBlanks_of_stops (by simp [Text.Stops, hrest, hc])
      rw [Segment.first, if_neg (by simp [hc])] at hfirst
      rw [finish, hskip, if_neg (by simp [hrest])]
      simp only [step, hrest, hfirst]

/-- A scanner without a rest has finished. -/
theorem finish_of_nil {sc : Scanner} (h : sc.rest = []) : sc.finish = sc := by
  have hskip : sc.skipBlanks = sc := skipBlanks_of_stops (by simp [Text.Stops, h])
  rw [finish, hskip, if_pos h]

/-- Passing a segment and adding what is found behind it adds what the segment and the text behind
it give together. -/
private theorem absorb_pass {sc : Scanner} {g : Segment} {after : Text}
    (h : g.text ++ after = sc.rest) (scan : Scan) :
    (sc.pass g after).absorb scan = sc.absorb (g.scan ++ scan.shift g.text.length) := by
  have hlen : g.text.length + after.length = sc.rest.length := by
    rw [← h, List.length_append]
  have hnotes : (scan.shift g.text.length).shift sc.offset =
      scan.shift (sc.offset + g.text.length) := by
    rw [Scan.shift_shift, Nat.add_comm]
  simp only [absorb, pass, Scan.shift_append, Scan.tokens_append, Scan.notes_append,
    Segment.notes_scan_shift, hnotes, List.append_assoc, Nat.add_assoc, hlen]
  rfl

private theorem absorb_empty {sc : Scanner} (h : sc.rest = []) : sc.absorb ∅ = sc := by
  obtain ⟨offset, rest, tokens, notes⟩ := sc
  simp only at h
  simp [absorb, h]

end Scanner

namespace Scan

/-- What a run from the start of a source adds is what a scan of the source finds. -/
private theorem of_eq_of_finish {source : Text} {scan : Scan}
    (h : (Scanner.start source).finish = (Scanner.start source).absorb scan) :
    Scan.of source = scan := by
  rw [Scan.of, h]
  simp [Scanner.absorb, Scanner.start]

@[simp] theorem of_nil : Scan.of [] = ∅ :=
  of_eq_of_finish ((Scanner.finish_of_nil rfl).trans (Scanner.absorb_empty rfl).symm)

end Scan

namespace Scanner

/-- A run adds to what the scanner holds what a scan of the rest alone finds, with the notes moved
on by the offset. -/
theorem finish_eq (sc : Scanner) : sc.finish = sc.absorb (Scan.of sc.rest) := by
  induction hr : sc.rest using Segment.text_induction generalizing sc with
  | nil => rw [finish_of_nil hr, Scan.of_nil, absorb_empty hr]
  | append g after hf ih =>
    -- The scan of the rest alone makes the same first step, so one equation serves for both.
    have hstep : ∀ sc' : Scanner, sc'.rest = g.text ++ after →
        sc'.finish = sc'.absorb (g.scan ++ (Scan.of after).shift g.text.length) := by
      intro sc' hr'
      rw [finish_of_fits hr'.symm hf, ih (sc'.pass g after) rfl]
      exact absorb_pass hr'.symm _
    rw [hstep sc hr, Scan.of_eq_of_finish (hstep (start (g.text ++ after)) rfl)]

end Scanner

namespace Scan

/-- What is found in a text is what its first segment gives and then what is found behind it. -/
theorem of_append {g : Segment} {after : Text} (h : g.Fits after) :
    Scan.of (g.text ++ after) = g.scan ++ (Scan.of after).shift g.text.length := by
  apply of_eq_of_finish
  rw [Scanner.finish_of_fits rfl h, Scanner.finish_eq]
  exact Scanner.absorb_pass rfl _

/-- The note that the first segment causes is found in the text. -/
theorem mem_notes_of_note? {g : Segment} {after : Text} (hf : g.Fits after) {note : Note}
    (h : g.note? 0 = some note) : note ∈ (Scan.of (g.text ++ after)).notes := by
  rw [of_append hf]
  exact List.mem_append_left _ (Option.mem_toList.mpr h)

/-- A note that is found behind the first segment is found in the text, moved on. -/
theorem shift_mem_notes {g : Segment} {after : Text} (hf : g.Fits after) {note : Note}
    (h : note ∈ (Scan.of after).notes) :
    note.shift g.text.length ∈ (Scan.of (g.text ++ after)).notes := by
  rw [of_append hf]
  exact List.mem_append_right _ (List.mem_map_of_mem h)

private theorem of_eq_shift_dropWhile (s : Text) :
    Scan.of s = (Scan.of (s.dropWhile isBlank)).shift (s.takeWhile isBlank).length := by
  have hsplit := List.takeWhile_append_dropWhile (p := isBlank) (l := s)
  by_cases hnil : s.takeWhile isBlank = []
  · rw [hnil, List.nil_append] at hsplit
    rw [hsplit, hnil, List.length_nil, shift_zero]
  · have hfits : (Segment.blank (s.takeWhile isBlank)).Fits (s.dropWhile isBlank) :=
      ⟨hnil, Text.MaximalRun.of_takeWhile isBlank s⟩
    have hscan := of_append hfits
    rwa [Segment.text, hsplit] at hscan

/-- Blanks in front of a text give nothing, whether or not the text starts with more of them. -/
theorem of_blanks_append {run : Text} (h : ∀ c ∈ run, isBlank c = true) (s : Text) :
    Scan.of (run ++ s) = (Scan.of s).shift run.length := by
  rw [of_eq_shift_dropWhile, List.takeWhile_append_of_pos h, List.dropWhile_append_of_pos h,
    of_eq_shift_dropWhile s, shift_shift, List.length_append, Nat.add_comm run.length]

/-- A blank in front of a text gives nothing. -/
theorem of_cons_of_isBlank {c : Char} (h : isBlank c = true) (s : Text) :
    Scan.of (c :: s) = (Scan.of s).shift 1 :=
  of_blanks_append (List.forall_mem_singleton.mpr h) s

/-- Nothing is found in a text of blanks. -/
theorem of_blanks {run : Text} (h : ∀ c ∈ run, isBlank c = true) : Scan.of run = ∅ := by
  have hrun := of_blanks_append h []
  rwa [List.append_nil, of_nil, shift_empty] at hrun

/-- A note is about one visible character of the text, at the offset it names. -/
theorem exists_visible_of_mem_notes {s : Text} {note : Note} (h : note ∈ (Scan.of s).notes) :
    ∃ front c back, s = front ++ c :: back ∧ front.length = note.offset ∧ note.text = [c] ∧
      isBlank c = false := by
  induction s using Segment.text_induction generalizing note with
  | nil => simp at h
  | append g after hf ih =>
    rw [of_append hf, notes_append, notes_shift] at h
    rcases List.mem_append.mp h with hg | hafter
    · obtain ⟨c, tail, htext, hnote, hvisible⟩ := hf.visible_of_note? (Option.mem_toList.mp hg)
      exact ⟨[], c, tail ++ after, by rw [htext]; rfl, by rw [hnote]; rfl, by rw [hnote], hvisible⟩
    · obtain ⟨note', hnote', rfl⟩ := List.mem_map.mp hafter
      obtain ⟨front, c, back, rfl, hlength, htext, hvisible⟩ := ih hnote'
      refine ⟨g.text ++ front, c, back, by simp, ?_, htext, hvisible⟩
      rw [List.length_append, hlength, Note.shift, Nat.add_comm]

/-- The notes follow each other in the order of the text. -/
theorem pairwise_offset_notes (s : Text) :
    (Scan.of s).notes.Pairwise fun a b => a.offset < b.offset := by
  induction s using Segment.text_induction with
  | nil => simp
  | append g after hf ih =>
    rw [of_append hf, notes_append, notes_shift, List.pairwise_append, List.pairwise_map]
    refine ⟨?_, ih.imp fun hlt => Nat.add_lt_add_right hlt _, ?_⟩
    · cases hnote : g.note? 0 <;> simp [Segment.scan, hnote]
    · intro a ha b hb
      -- The note of the first segment is about its first character.
      obtain ⟨c, tail, htext, hnote, -⟩ := hf.visible_of_note? (Option.mem_toList.mp ha)
      obtain ⟨b, -, rfl⟩ := List.mem_map.mp hb
      rw [hnote, htext]
      simp only [Note.shift, List.length_cons]
      omega

end Scan

end TagLexer
