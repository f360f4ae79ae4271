import Mathlib.Data.List.Forall2
import TagLexer.Proofs.Scan.Comment

/-!
# Scans and layout

A run of blanks separates what stands before it from what stands behind it, and it does so whatever
blanks it is made of. The one segment that looks at the blanks themselves is a comment, which goes
on up to a line feed: behind a comment, blanks may only be replaced by blanks with a line feed among
them, and what stands before the line feed then becomes part of the comment. So all tokens and notes
of a source survive the replacement of any run of blanks that a scan skips (`scan_with_blanks`).
-/

namespace TagLexer

open Segment

/-- A note of a source and the same note when `n` characters at an offset are replaced by `m`
others: a note in front of them stays, and one behind them moves by the difference. -/
structure Note.Moves (start n m : Nat) (note moved : Note) : Prop where
  /-- The reason stays. -/
  kind : moved.kind = note.kind
  /-- The noted text stays. -/
  text : moved.text = note.text
  /-- The offset moves where the note stands behind the characters that are replaced. -/
  offset : note.offset < start ∧ moved.offset = note.offset ∨
    start + n ≤ note.offset ∧ moved.offset + n = note.offset + m

namespace Segment

variable {g : Segment} {run blanks after : Text}

/-- A run of blanks starts with a blank, also together with what follows it. -/
private theorem Fits.isBlank_head_append (h : (blank run).Fits after) :
    ∀ c ∈ (run ++ after).head?, isBlank c = true := by
  intro c hc
  cases run with
  | nil => exact absurd rfl h.1
  | cons d run =>
    obtain rfl : d = c := Option.some.inj hc
    exact h.2.all d (List.mem_cons_self ..)

/-- No run of blanks fits before another. -/
private theorem Fits.isBlankRun_before_blank (h : g.Fits (run ++ after))
    (hrun : (blank run).Fits after) : g.isBlankRun = false := by
  cases g with
  | blank r =>
    cases run with
    | nil => exact absurd rfl hrun.1
    | cons c run =>
      have hstop : isBlank c = false := h.2.stop c rfl
      have hblank : isBlank c = true := hrun.2.all c (List.mem_cons_self ..)
      rw [hblank] at hstop
      cases hstop
  | _ => rfl

/-- A segment other than a comment that fits before a run of blanks fits before any other run of
blanks in the same place. -/
private theorem Fits.of_blanks (h : g.Fits (run ++ after)) (hrun : (blank run).Fits after)
    (hblanks : (blank blanks).Fits after) (hcomment : ∀ body, g ≠ comment body) :
    g.Fits (blanks ++ after) := by
  have hhead := hblanks.isBlank_head_append
  have hvisible :
      Text.firstVisible? (blanks ++ after) = Text.firstVisible? (run ++ after) := by
    rw [firstVisible?_blanks_append hblanks.2.all, firstVisible?_blanks_append hrun.2.all]
  have hstray : Stray (blanks ++ after) ↔ Stray (run ++ after) := by simp only [Stray, hvisible]
  cases g with
  | blank r => exact absurd (h.isBlankRun_before_blank hrun) (by simp [isBlankRun])
  | comment body => exact absurd rfl (hcomment body)
  | mark m =>
    intro _ hslash
    exact absurd (hhead '/' hslash) (by decide)
  | operator o =>
    intro ho
    exact ⟨loneSlash_of_isBlank_head hhead, fun hs => (h ho).2 (hstray.mp hs)⟩
  | straySlash => exact ⟨loneSlash_of_isBlank_head hhead, hstray.mpr h.2⟩
  | quoted q body => exact h
  | unclosed q body =>
    obtain ⟨hnil, -⟩ := List.append_eq_nil_iff.mp h.2
    exact absurd hnil hrun.1
  | word w => exact ⟨h.1, fun c hc => isWordChar_of_isBlank (hhead c hc)⟩
  | other c => exact h

/-- A comment before blanks with a line feed among them takes the blanks in front of the line feed,
and neither gives anything. -/
private theorem Fits.scan_comment_blanks {body rest : Text} (h : (comment body).Fits rest)
    (hblanks : (blank blanks).Fits after) (hnewline : '\n' ∈ blanks) :
    Scan.of ((comment body).text ++ (blanks ++ after)) =
      (Scan.of after).shift (blanks.length + (comment body).text.length) := by
  obtain ⟨front, back, rfl, hfront⟩ := List.eq_append_cons_of_mem hnewline
  have hlonger : (comment (body ++ front)).Fits ('\n' :: back ++ after) := by
    refine ⟨List.forall_mem_append.mpr ⟨h.all, fun c hc => ?_⟩, fun c hc => ?_⟩
    · have hne : c ≠ '\n' := fun he => hfront (he ▸ hc)
      simpa using hne
    · obtain rfl : '\n' = c := Option.some.inj hc
      rfl
  have hback : ∀ c ∈ '\n' :: back, isBlank c = true := fun c hc =>
    hblanks.2.all c (List.mem_append_right front hc)
  have htext : (comment body).text ++ (front ++ '\n' :: back ++ after) =
      (comment (body ++ front)).text ++ ('\n' :: back ++ after) := by
    simp [text]
  rw [htext, Scan.of_comment_append hlonger, Scan.of_blanks_append hback, Scan.shift_shift]
  congr 1
  simp only [text, List.length_append, List.length_cons]
  omega

/-- A segment before a run of blanks is read off before any other run of blanks in the same place,
which has to hold a line feed if the segment is a comment. -/
theorem Fits.scan_blanks (h : g.Fits (run ++ after)) (hrun : (blank run).Fits after)
    (hblanks : (blank blanks).Fits after) (hcomment : ∀ body, g = comment body → '\n' ∈ blanks) :
    Scan.of (g.text ++ (blanks ++ after)) =
      g.scan ++ (Scan.of after).shift (blanks.length + g.text.length) := by
  by_cases hg : ∃ body, g = comment body
  · obtain ⟨body, rfl⟩ := hg
    exact h.scan_comment_blanks hblanks (hcomment body rfl)
  · have hfits := h.of_blanks hrun hblanks fun body hbody => hg ⟨body, hbody⟩
    rw [Scan.of_append hfits, Scan.of_blanks_append hblanks.2.all, Scan.shift_shift]

end Segment

/-- Before a run of blanks, a run through a source holds what a run through the text with other
blanks in their place finds first. -/
theorem History.scan_blanks {source : Text} {passed : List Segment} {sc : Scanner}
    {run blanks after : Text} (h : History source passed sc) (hr : sc.rest = run ++ after)
    (hrun : (blank run).Fits after) (hblanks : (blank blanks).Fits after)
    (hcomment : ∀ front body, passed = front ++ [.comment body] → '\n' ∈ blanks) :
    Scan.of (joined passed ++ (blanks ++ after)) =
      sc.held ++ (Scan.of after).shift (sc.offset + blanks.length) := by
  cases h using pass_induction with
  | start =>
    simp only [joined_nil, List.nil_append, Scanner.start, Nat.zero_add]
    exact Scan.of_blanks_append hblanks.2.all after
  | pass passed sc g mid h ht hf =>
    obtain rfl : mid = run ++ after := hr
    have hread := hf.scan_blanks hrun hblanks fun body hg => hcomment passed body (by rw [hg])
    rw [joined_append, joined_cons, joined_nil, List.append_nil, List.append_assoc,
      h.scan_replay ht hf (hf.isBlankRun_before_blank hrun), hread, Scanner.held_pass,
      Scan.shift_append, Scan.shift_shift, Scan.append_assoc]
    congr 3
    simp only [Scanner.pass]
    omega

/-- Take a run of blanks that a scan of a source skips, and put other blanks in its place, with a
line feed among them if the run stands directly behind a comment. The same tokens are found, and the
same notes, of which those behind the run move by exactly the difference in length. -/
theorem scan_with_blanks {source run blanks : Text} {before : List Segment} {sc : Scanner}
    (h : History source (before ++ [.blank run]) sc) (hne : blanks ≠ [])
    (hblank : ∀ c ∈ blanks, isBlank c = true)
    (hcomment : ∀ front body, before = front ++ [.comment body] → '\n' ∈ blanks) :
    source = joined before ++ run ++ sc.rest ∧
      (Scan.of (joined before ++ blanks ++ sc.rest)).tokens = (Scan.of source).tokens ∧
      List.Forall₂ (Note.Moves (joined before).length run.length blanks.length)
        (Scan.of source).notes (Scan.of (joined before ++ blanks ++ sc.rest)).notes := by
  obtain ⟨sc₁, h₁, ht, hrun, -⟩ := h.of_concat
  have hblanks : (blank blanks).Fits sc.rest := ⟨hne, hblank, hrun.2.stop⟩
  have hsource : Scan.of source =
      sc₁.held ++ (Scan.of sc.rest).shift ((joined before).length + run.length) := by
    rw [h₁.scan_eq, ← ht, ← h₁.offset_eq, Nat.add_comm]
    change _ ++ (Scan.of (run ++ sc.rest)).shift _ = _
    rw [Scan.of_blanks_append hrun.2.all, Scan.shift_shift]
  have hreplaced : Scan.of (joined before ++ blanks ++ sc.rest) =
      sc₁.held ++ (Scan.of sc.rest).shift ((joined before).length + blanks.length) := by
    rw [List.append_assoc, h₁.scan_blanks ht.symm hrun hblanks hcomment, h₁.offset_eq]
  refine ⟨?_, ?_, ?_⟩
  · rw [← h₁.joined_append_rest, ← ht, List.append_assoc]
    rfl
  · rw [hsource, hreplaced]
    rfl
  · rw [hsource, hreplaced, Scan.notes_append, Scan.notes_append, Scan.notes_shift,
      Scan.notes_shift]
    refine List.rel_append (List.forall₂_same.mpr fun note hnote => ?_) ?_
    · have hfront := h₁.offset_lt_of_mem_notes note hnote
      rw [h₁.offset_eq] at hfront
      exact ⟨rfl, rfl, .inl ⟨hfront, rfl⟩⟩
    · rw [List.forall₂_map_left_iff, List.forall₂_map_right_iff, List.forall₂_same]
      intro note _
      refine ⟨rfl, rfl, .inr ?_⟩
      simp only [Note.shift]
      omega

/-- Behind a comment, blanks in front of the line feed become part of the comment. -/
theorem scan_with_blanks_behind_comment :
    ∃ sc, History "a / //c\n\t@ >".toList
        [.word ['a'], .blank [' '], .operator .divide, .blank [' '], .comment ['c'],
          .blank ['\n', '\t']] sc ∧
      (Scan.of "a / //c \r\n\n@ >".toList).tokens = (Scan.of "a / //c\n\t@ >".toList).tokens ∧
      List.Forall₂ (Note.Moves 7 2 4)
        (Scan.of "a / //c\n\t@ >".toList).notes (Scan.of "a / //c \r\n\n@ >".toList).notes := by
  have hstart : History "a / //c\n\t@ >".toList [] (.start _) := .start
  have hslash := ((hstart.segment rfl rfl).blanks rfl rfl).segment rfl rfl
  have h := ((hslash.blanks rfl rfl).segment rfl rfl).blanks rfl rfl
  have hne : " \r\n\n".toList ≠ [] := by decide
  have hblank : ∀ c ∈ " \r\n\n".toList, isBlank c = true := List.all_eq_true.mp (by decide)
  obtain ⟨-, htokens, hnotes⟩ := scan_with_blanks h hne hblank fun _ _ _ => by decide
  exact ⟨_, h, htokens, hnotes⟩

end TagLexer
