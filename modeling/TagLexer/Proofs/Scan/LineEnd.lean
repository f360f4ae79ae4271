import Mathlib.Data.List.Forall2
import TagLexer.Proofs.Scan.Seam
import TagLexer.Proofs.Text.Newline

/-!
# Scans and line ends

Carriage returns are blank, so a scan of a text whose carriage returns are paired with line feeds
goes the same way without them: the segments correspond one to one, also where a carriage return
stands inside a string or at the end of a comment. The same tokens are found with the carriage
returns dropped from their values, and every note keeps its line and its column
(`Scan.of_withoutReturns`, `Scan.forall₂_notes_withoutReturns`).
-/

namespace TagLexer

open Text

/-- A token whose value has lost its carriage returns. -/
def Token.withoutReturns (t : Token) : Token := { t with value := t.value.withoutReturns }

/-- A note about a text that has lost its carriage returns. -/
def Note.withoutReturns (s : Text) (note : Note) : Note :=
  { note with offset := (Text.withoutReturns (s.take note.offset)).length }

/-- What is found in a text, with the carriage returns of the text dropped. -/
def Scan.withoutReturns (s : Text) (scan : Scan) : Scan :=
  { tokens := scan.tokens.map Token.withoutReturns
    notes := scan.notes.map (Note.withoutReturns s) }

namespace Segment

/-- A segment without its carriage returns. -/
def withoutReturns : Segment → Segment
  | blank run => blank run.withoutReturns
  | comment body => comment body.withoutReturns
  | quoted q body => quoted q body.withoutReturns
  | unclosed q body => unclosed q body.withoutReturns
  | g => g

private theorem return_not_mem_word {w : Text} (h : w.IsWord) : '\r' ∉ w := by
  intro hmem
  exact absurd (h.all _ hmem) (by decide)

/-- A segment that fits loses exactly the carriage returns of its text. -/
theorem Fits.text_withoutReturns {g : Segment} {after : Text} (h : g.Fits after) :
    g.withoutReturns.text = g.text.withoutReturns := by
  cases g with
  | blank run => rfl
  | comment body => rfl
  | mark m => cases m <;> rfl
  | operator o => cases o <;> rfl
  | straySlash => rfl
  | quoted q body =>
    have hq : q.char ≠ '\r' := by cases q <;> decide
    simp [withoutReturns, text, Text.withoutReturns, hq]
  | unclosed q body =>
    have hq : q.char ≠ '\r' := by cases q <;> decide
    simp [withoutReturns, text, Text.withoutReturns, hq]
  | word w => exact (withoutReturns_of_not_mem (return_not_mem_word h.1)).symm
  | other c =>
    have hc : c ≠ '\r' := by
      rintro rfl
      exact absurd h.1 (by decide)
    simp [withoutReturns, text, Text.withoutReturns, hc]

/-- A segment that fits gives the same without its carriage returns. -/
theorem Fits.scan_withoutReturns {g : Segment} {after : Text} (h : g.Fits after) (s : Text) :
    g.withoutReturns.scan = g.scan.withoutReturns s := by
  cases g with
  | mark m => cases m <;> rfl
  | operator o => cases o <;> rfl
  | word w =>
    have hw := withoutReturns_of_not_mem (return_not_mem_word h.1)
    simp [withoutReturns, scan, token?, note?, Scan.withoutReturns, Token.withoutReturns, hw]
  | _ => rfl

end Segment

/-- Carriage returns are blank, so none is the first visible character. -/
theorem Text.firstVisible?_withoutReturns (s : Text) :
    firstVisible? s.withoutReturns = firstVisible? s := by
  rw [firstVisible?, Text.withoutReturns, List.find?_filter]
  congr 1
  funext c
  by_cases hc : c = '\r'
  · rw [hc]
    decide
  · simp [hc]

/-- A class without line feeds is not met earlier when carriage returns are dropped. -/
private theorem Text.Paired.stops_withoutReturns {p : Char → Bool} {s : Text} (h : s.Paired)
    (hp : p '\n' = false) (hs : s.Stops p) : s.withoutReturns.Stops p := by
  intro c hc
  rw [h.head?_withoutReturns] at hc
  obtain ⟨d, hd, rfl⟩ := Option.map_eq_some_iff.mp hc
  split
  · exact hp
  · exact hs d hd

namespace Segment

/-- A paired text does not start otherwise than before when carriage returns are dropped. -/
private theorem head?_withoutReturns_ne {s : Text} (h : s.Paired) {c : Char} (hc : c ≠ '\n')
    (hs : s.head? ≠ some c) : s.withoutReturns.head? ≠ some c := by
  rw [h.head?_withoutReturns]
  intro heq
  obtain ⟨d, hd, hdc⟩ := Option.map_eq_some_iff.mp heq
  split at hdc
  · exact hc hdc.symm
  · exact hs (hdc ▸ hd)

/-- A segment that fits before a paired text is read off without the carriage returns as well. -/
theorem Fits.readBefore_withoutReturns {g : Segment} {after : Text} (h : g.Fits after)
    (hp : after.Paired) : g.withoutReturns.ReadBefore after.withoutReturns := by
  have hlone : LoneSlash after → LoneSlash after.withoutReturns := fun hl =>
    ⟨head?_withoutReturns_ne hp (by decide) hl.1, head?_withoutReturns_ne hp (by decide) hl.2⟩
  have hstray : Stray after.withoutReturns ↔ Stray after := by
    rw [Stray, Stray, firstVisible?_withoutReturns]
  cases g with
  | blank run =>
    exact Scan.of_blanks_append (fun c hc => h.2.all c (List.mem_filter.mp hc |>.1)) _
  | comment body =>
    exact Scan.of_append (g := comment _)
      ⟨fun c hc => h.all c (List.mem_filter.mp hc |>.1), hp.stops_withoutReturns rfl h.stop⟩
  | mark m =>
    exact Scan.of_append (g := mark m) fun hm => head?_withoutReturns_ne hp (by decide) (h hm)
  | operator o =>
    exact Scan.of_append (g := operator o) fun ho =>
      ⟨hlone (h ho).1, fun hs => (h ho).2 (hstray.mp hs)⟩
  | straySlash => exact Scan.of_append (g := straySlash) ⟨hlone h.1, hstray.mpr h.2⟩
  | quoted q body =>
    exact Scan.of_append (g := quoted q _) fun hq => h (List.mem_filter.mp hq |>.1)
  | unclosed q body =>
    obtain ⟨hbody, rfl⟩ := h
    exact Scan.of_append (g := unclosed q _) ⟨fun hq => hbody (List.mem_filter.mp hq |>.1), rfl⟩
  | word w =>
    exact Scan.of_append (g := word w) ⟨h.1, hp.stops_withoutReturns (by decide) h.2⟩
  | other c => exact Scan.of_append (g := other c) h

end Segment

namespace Scan

theorem withoutReturns_append (s : Text) (a b : Scan) :
    (a ++ b).withoutReturns s = a.withoutReturns s ++ b.withoutReturns s := by
  ext1 <;> simp [withoutReturns]

/-- Carriage returns can be dropped before or after a text is put in front. -/
theorem withoutReturns_shift (front s : Text) (scan : Scan) :
    (scan.shift front.length).withoutReturns (front ++ s) =
      (scan.withoutReturns s).shift front.withoutReturns.length := by
  ext1
  · rfl
  · simp only [withoutReturns, notes_shift, List.map_map]
    refine List.map_congr_left fun note _ => ?_
    simp only [Function.comp_apply, Note.withoutReturns, Note.shift, Nat.add_comm note.offset,
      List.take_length_add_append, Text.withoutReturns_append, List.length_append,
      Nat.add_comm front.withoutReturns.length]

/-- Without the carriage returns of a paired text the same is found without carriage returns. -/
theorem of_withoutReturns {s : Text} (h : s.Paired) :
    Scan.of s.withoutReturns = (Scan.of s).withoutReturns s := by
  induction s using Segment.text_induction with
  | nil => rw [Text.withoutReturns_nil, of_nil]; rfl
  | append g after hf ih =>
    have hafter : after.Paired := h.of_append
    calc
      Scan.of (g.text ++ after).withoutReturns =
          Scan.of (g.withoutReturns.text ++ after.withoutReturns) := by
        rw [Text.withoutReturns_append, hf.text_withoutReturns]
      _ = g.withoutReturns.scan ++
          (Scan.of after.withoutReturns).shift g.withoutReturns.text.length :=
        hf.readBefore_withoutReturns hafter
      _ = g.scan.withoutReturns (g.text ++ after) ++
          ((Scan.of after).shift g.text.length).withoutReturns (g.text ++ after) := by
        rw [hf.scan_withoutReturns (g.text ++ after), hf.text_withoutReturns, ih hafter,
          withoutReturns_shift]
      _ = (Scan.of (g.text ++ after)).withoutReturns (g.text ++ after) := by
        rw [← withoutReturns_append, ← of_append hf]

end Scan

/-- The value of the token of a segment in a paired text is paired. -/
private theorem Segment.Fits.paired_value {g : Segment} {after : Text} (h : g.Fits after)
    (hp : (g.text ++ after).Paired) : ∀ t ∈ g.token?, t.value.Paired := by
  intro t ht
  cases g with
  | mark m =>
    obtain rfl := Option.some.inj ht
    cases m <;> decide
  | operator o =>
    obtain rfl := Option.some.inj ht
    cases o <;> decide
  | quoted q body =>
    obtain rfl := Option.some.inj ht
    have hbody : (body ++ ([q.char] ++ after)).Paired := by
      rw [← List.append_assoc]
      exact hp.2
    have hq : q.char ≠ '\n' := by cases q <;> decide
    exact hbody.of_append_left fun he => hq (Option.some.inj he)
  | unclosed q body =>
    obtain rfl := Option.some.inj ht
    obtain ⟨-, rfl⟩ := h
    simpa using hp.2
  | word w =>
    obtain rfl := Option.some.inj ht
    exact paired_of_not_mem (return_not_mem_word h.1)
  | _ => simp [token?] at ht

/-- The values of the tokens of a paired text are paired. -/
theorem Scan.paired_of_mem_tokens {s : Text} (h : s.Paired) :
    ∀ t ∈ (Scan.of s).tokens, t.value.Paired := by
  induction s using Segment.text_induction with
  | nil => simp
  | append g after hf ih =>
    rw [of_append hf]
    intro t ht
    rcases List.mem_append.mp ht with ht | ht
    · exact hf.paired_value h t (Option.mem_toList.mp ht)
    · exact ih h.of_append t ht

/-- Two notes, each about a source of its own, that say the same about the same line and column. -/
structure Note.Agree (s t : Text) (a b : Note) : Prop where
  /-- The reason is the same. -/
  kind : a.kind = b.kind
  /-- The noted text is the same. -/
  text : a.text = b.text
  /-- The line is the same. -/
  line : (Position.at s a.offset).line = (Position.at t b.offset).line
  /-- The column is the same. -/
  column : (Position.at s a.offset).column = (Position.at t b.offset).column

/-- A note of a paired text keeps its line and its column without the carriage returns. -/
theorem Note.agree_withoutReturns {s : Text} (h : s.Paired) {note : Note}
    (hnote : note ∈ (Scan.of s).notes) :
    Note.Agree s.withoutReturns s (note.withoutReturns s) note := by
  obtain ⟨front, c, back, rfl, hoffset, -, hvisible⟩ := Scan.exists_visible_of_mem_notes hnote
  have hc : (c :: back).head? ≠ some '\n' := by
    intro he
    obtain rfl : c = '\n' := Option.some.inj he
    exact absurd hvisible (by decide)
  obtain ⟨hline, hcolumn⟩ := Position.at_withoutReturns h hc
  have hlength : (note.withoutReturns (front ++ c :: back)).offset =
      (Text.withoutReturns front).length := by
    simp only [Note.withoutReturns, ← hoffset, List.take_left]
  rw [hoffset] at hline hcolumn
  exact ⟨rfl, rfl, by rw [hlength, hline], by rw [hlength, hcolumn]⟩

/-- The notes of a paired text with and without its carriage returns correspond one to one. -/
theorem Scan.forall₂_notes_withoutReturns {s : Text} (h : s.Paired) :
    List.Forall₂ (Note.Agree s.withoutReturns s) (Scan.of s.withoutReturns).notes
      (Scan.of s).notes := by
  rw [Scan.of_withoutReturns h, Scan.withoutReturns, List.forall₂_map_left_iff, List.forall₂_same]
  exact fun note hnote => Note.agree_withoutReturns h hnote

end TagLexer
