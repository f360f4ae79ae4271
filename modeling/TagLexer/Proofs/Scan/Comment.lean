import TagLexer.Proofs.Scan.History
import TagLexer.Proofs.Scan.Seam

/-!
# Scans without a comment

When a comment is deleted, what stands before it sees the end of the line or of the source instead.
Only a slash that divides can tell the difference: the comment has kept it from being stray. So the
tokens and notes of a source survive the deletion of any comment that a run skips, except that a
dividing slash before it becomes a stray one when nothing or a `>` comes next
(`scan_without_comment`).
-/

namespace TagLexer

open Segment

/-- A note of a source from which `n` characters are cut out at an offset. -/
def Note.pullBack (start n : Nat) (note : Note) : Note :=
  if note.offset < start then note else { note with offset := note.offset - n }

/-- Notes in front of the cut stay. -/
private theorem Note.map_pullBack_of_lt {start n : Nat} {notes : List Note}
    (h : ∀ note ∈ notes, note.offset < start) : notes.map (Note.pullBack start n) = notes := by
  have hid : ∀ note ∈ notes, Note.pullBack start n note = note := fun note hnote =>
    if_pos (h note hnote)
  rw [List.map_congr_left hid, List.map_id']

/-- Notes behind the cut move back by what is cut out. -/
private theorem Note.map_pullBack_shift (start n : Nat) (scan : Scan) :
    (scan.shift (n + start)).notes.map (Note.pullBack start n) = (scan.shift start).notes := by
  rw [Scan.notes_shift, Scan.notes_shift, List.map_map]
  refine List.map_congr_left fun note _ => ?_
  have hlt : ¬ (note.shift (n + start)).offset < start := by
    simp only [Note.shift]
    omega
  have hoffset : note.offset + (n + start) - n = note.offset + start := by omega
  rw [Function.comp_apply, Note.pullBack, if_neg hlt]
  simp only [Note.shift, hoffset]

namespace Segment

/-- A segment that is a run of blanks. -/
def isBlankRun : Segment → Bool
  | blank _ => true
  | _ => false

private theorem exists_blank_of_isBlankRun {g : Segment} (h : g.isBlankRun = true) :
    ∃ run, g = blank run := by
  cases g with
  | blank run => exact ⟨run, rfl⟩
  | _ => simp [isBlankRun] at h

/-- The last of the segments that is not a run of blanks is a slash that divides. -/
def EndInDivision (segments : List Segment) : Prop :=
  ∃ front run, segments = front ++ operator .divide :: run ∧ ∀ g ∈ run, g.isBlankRun = true

/-- Runs of blanks behind a slash that divides do not matter. -/
private theorem EndInDivision.concat_blank {segments : List Segment} (h : EndInDivision segments)
    (run : Text) : EndInDivision (segments ++ [blank run]) := by
  obtain ⟨front, blanks, rfl, hblanks⟩ := h
  refine ⟨front, blanks ++ [blank run], by simp, fun g hg => ?_⟩
  rcases List.mem_append.mp hg with hg | hg
  · exact hblanks g hg
  · rw [List.mem_singleton.mp hg]
    rfl

/-- Blanks and what stands behind a comment start with a blank or are at the end. -/
private theorem isBlank_head {run body after : Text} (hrun : ∀ c ∈ run, isBlank c = true)
    (hc : (comment body).Fits after) : ∀ c ∈ (run ++ after).head?, isBlank c = true := by
  intro c hhead
  cases run with
  | nil =>
    have hnewline : c = '\n' := by simpa using hc.stop c hhead
    rw [hnewline]
    decide
  | cons d run =>
    obtain rfl : d = c := Option.some.inj hhead
    exact hrun d (List.mem_cons_self ..)

/-- A slash before blanks or the end stands alone. -/
theorem loneSlash_of_isBlank_head {s : Text} (h : ∀ c ∈ s.head?, isBlank c = true) :
    LoneSlash s :=
  ⟨fun hs => absurd (h '/' hs) (by decide), fun hs => absurd (h '>' hs) (by decide)⟩

/-- Blanks in front of a text do not change its first visible character. -/
theorem firstVisible?_blanks_append {run : Text} (hrun : ∀ c ∈ run, isBlank c = true)
    (s : Text) : Text.firstVisible? (run ++ s) = Text.firstVisible? s := by
  rw [Text.firstVisible?_append, Text.firstVisible?_eq_none_iff.mpr hrun, Option.none_or]

/-- A segment with only blanks between it and a comment is read off without the comment as well,
unless it is a slash that the deletion makes stray. -/
theorem Fits.readBefore_without_comment {g : Segment} {run body after : Text}
    (h : g.Fits (run ++ ((comment body).text ++ after))) (hrun : ∀ c ∈ run, isBlank c = true)
    (hc : (comment body).Fits after) (hdivide : g = operator .divide → ¬ Stray after) :
    g.ReadBefore (run ++ after) := by
  have hhead := isBlank_head hrun hc
  cases g with
  | blank r => exact Scan.of_blanks_append h.2.all _
  | comment b =>
    refine Scan.of_append ⟨h.all, fun c hmem => ?_⟩
    cases run with
    | nil => exact absurd (h.stop '/' rfl) (by decide)
    | cons d run => exact h.stop c hmem
  | mark m =>
    exact Scan.of_append (g := mark m) fun _ hslash => absurd (hhead '/' hslash) (by decide)
  | operator o =>
    refine Scan.of_append (g := operator o) fun ho => ⟨loneSlash_of_isBlank_head hhead, ?_⟩
    rw [Stray, firstVisible?_blanks_append hrun]
    exact hdivide (congrArg operator ho)
  | straySlash =>
    -- The first slash of the comment is visible, so no slash before it is stray.
    have hvisible : Text.firstVisible? (run ++ ((comment body).text ++ after)) = some '/' :=
      firstVisible?_blanks_append hrun _
    have hstray := h.2
    simp [Stray, hvisible] at hstray
  | quoted q b => exact Scan.of_append (g := quoted q b) h
  | unclosed q b => exact absurd h.2 (by simp [text])
  | word w =>
    exact Scan.of_append (g := word w)
      ⟨h.1, fun c hmem => isWordChar_of_isBlank (hhead c hmem)⟩
  | other c => exact Scan.of_append (g := other c) h

/-- A slash that divides before a comment is stray without the comment when nothing or a `>` comes
next. -/
theorem fits_straySlash_without_comment {run body after : Text}
    (hrun : ∀ c ∈ run, isBlank c = true) (hc : (comment body).Fits after) (hstray : Stray after) :
    straySlash.Fits (run ++ after) := by
  refine ⟨loneSlash_of_isBlank_head (isBlank_head hrun hc), ?_⟩
  rwa [Stray, firstVisible?_blanks_append hrun]

/-- A segment that is no run of blanks starts with a visible character. -/
theorem Fits.exists_visible_head {g : Segment} {after : Text} (h : g.Fits after)
    (hg : g.isBlankRun = false) : ∃ c tail, g.text = c :: tail ∧ isBlank c = false := by
  cases g with
  | blank run => simp [isBlankRun] at hg
  | comment body => exact ⟨_, _, rfl, by decide⟩
  | mark m => cases m <;> exact ⟨_, _, rfl, by decide⟩
  | operator o => cases o <;> exact ⟨_, _, rfl, by decide⟩
  | straySlash => exact ⟨_, _, rfl, by decide⟩
  | quoted q body => cases q <;> exact ⟨_, _, rfl, by decide⟩
  | unclosed q body => cases q <;> exact ⟨_, _, rfl, by decide⟩
  | word w =>
    obtain ⟨c, tail, rfl⟩ := List.exists_cons_of_ne_nil h.1.ne_nil
    exact ⟨c, tail, rfl, isBlank_of_isWordChar (h.1.all c (List.mem_cons_self ..))⟩
  | other c => exact ⟨_, _, rfl, h.1⟩

end Segment

/-- A comment gives nothing. -/
theorem Scan.of_comment_append {body after : Text} (h : (comment body).Fits after) :
    Scan.of ((comment body).text ++ after) = (Scan.of after).shift (comment body).text.length :=
  Scan.of_append h

/-- A scanner that passes a segment adds what the segment gives. -/
theorem Scanner.held_pass (sc : Scanner) (g : Segment) (after : Text) :
    (sc.pass g after).held = sc.held ++ g.scan.shift sc.offset := by
  ext1
  · rfl
  · rw [Scan.notes_append, notes_scan_shift]
    rfl

namespace History

variable {source : Text} {passed : List Segment} {sc : Scanner}

/-- What a history holds before a segment that starts with a visible character it holds before every
text that starts with that segment. -/
theorem scan_replay (h : History source passed sc) {g : Segment} {after : Text}
    (ht : g.text ++ after = sc.rest) (hf : g.Fits after) (hg : g.isBlankRun = false) (s : Text) :
    Scan.of (joined passed ++ (g.text ++ s)) =
      sc.held ++ (Scan.of (g.text ++ s)).shift sc.offset := by
  obtain ⟨c, tail, hc, hvisible⟩ := hf.exists_visible_head hg
  have hreplay :
      History (joined passed ++ (g.text ++ s)) passed { sc with rest := g.text ++ s } := by
    apply h.replay
    · rw [← ht, hc]
      rfl
    · simp [← ht, hc, Text.firstVisible?, hvisible]
  exact hreplay.scan_eq

/-- Before a comment with nothing but blanks in front, a run holds what a run through the text
without the comment finds first. -/
theorem scan_without {run body after : Text} (h : History source passed sc)
    (hr : sc.rest = run ++ ((comment body).text ++ after)) (hrun : ∀ c ∈ run, isBlank c = true)
    (hc : (comment body).Fits after) (hdivide : EndInDivision passed → ¬ Stray after) :
    Scan.of (joined passed ++ (run ++ after)) =
      sc.held ++ (Scan.of after).shift (sc.offset + run.length) := by
  -- Runs of blanks join the blanks in front of the comment until something visible is passed.
  induction h using pass_induction generalizing run with
  | start =>
    simp only [joined_nil, List.nil_append, Scanner.start, Nat.zero_add]
    exact Scan.of_blanks_append hrun after
  | pass passed sc g mid h ht hf ih =>
    obtain rfl : mid = run ++ ((comment body).text ++ after) := hr
    rw [joined_append, joined_cons, joined_nil, List.append_nil, List.append_assoc,
      Scanner.held_pass]
    cases hg : g.isBlankRun with
    | true =>
      obtain ⟨r, rfl⟩ := exists_blank_of_isBlankRun hg
      have hblank : ∀ c ∈ r ++ run, isBlank c = true :=
        List.forall_mem_append.mpr ⟨hf.2.all, hrun⟩
      have hrest : sc.rest = r ++ run ++ ((comment body).text ++ after) := by
        rw [← ht, List.append_assoc]
        rfl
      have hwithout := ih hrest hblank fun hend => hdivide (hend.concat_blank r)
      rw [List.append_assoc, List.length_append, ← Nat.add_assoc] at hwithout
      exact hwithout.trans (congrArg (· ++ _) (Scan.append_empty _).symm)
    | false =>
      have hread : g.ReadBefore (run ++ after) :=
        hf.readBefore_without_comment hrun hc fun he => hdivide ⟨passed, [], by rw [he], by simp⟩
      rw [h.scan_replay ht hf hg, hread, Scan.of_blanks_append hrun, Scan.shift_append,
        Scan.shift_shift, Scan.shift_shift, Scan.append_assoc]
      congr 3
      simp only [Scanner.pass]
      omega

/-- Blanks and a comment behind what a run has passed give nothing. -/
theorem scan_before_comment {run body after : Text} (h : History source passed sc)
    (hr : sc.rest = run ++ ((comment body).text ++ after)) (hrun : ∀ c ∈ run, isBlank c = true)
    (hc : (comment body).Fits after) :
    Scan.of source =
      sc.held ++ (Scan.of after).shift ((comment body).text.length + (sc.offset + run.length)) := by
  rw [h.scan_eq, hr, Scan.of_blanks_append hrun, Scan.of_comment_append hc, Scan.shift_shift,
    Scan.shift_shift]
  congr 2
  omega

/-- Each segment of a history fits where it stands. -/
theorem fits_of_mem (h : History source passed sc) : ∀ g ∈ passed, ∃ after, g.Fits after := by
  induction h using pass_induction with
  | start => simp
  | pass passed sc g after _ _ hf ih =>
    exact List.forall_mem_append.mpr ⟨ih, List.forall_mem_singleton.mpr ⟨after, hf⟩⟩

/-- The text of the runs of blanks in a history is blank. -/
theorem isBlank_of_mem_joined (h : History source passed sc) {run : List Segment}
    (hpassed : run ⊆ passed) (hrun : ∀ g ∈ run, g.isBlankRun = true) :
    ∀ c ∈ joined run, isBlank c = true := by
  intro c hc
  obtain ⟨g, hg, hcg⟩ := List.mem_flatMap.mp hc
  obtain ⟨r, rfl⟩ := exists_blank_of_isBlankRun (hrun g hg)
  obtain ⟨after, hf⟩ := h.fits_of_mem _ (hpassed hg)
  exact hf.2.all c hcg

/-- A slash that divides before a comment is the one difference that the deletion of the comment
makes when nothing or a `>` comes next. -/
theorem scan_division {front run : List Segment} {body after : Text}
    (h : History source (front ++ operator .divide :: run) sc)
    (hrun : ∀ g ∈ run, g.isBlankRun = true) (hr : sc.rest = (comment body).text ++ after)
    (hc : (comment body).Fits after) (hstray : Stray after) :
    ∃ sc₀, History source front sc₀ ∧
      Scan.of source = sc₀.held ++ (operator .divide).scan.shift sc₀.offset ++
        (Scan.of after).shift ((comment body).text.length + sc.offset) ∧
      Scan.of (joined (front ++ operator .divide :: run) ++ after) =
        sc₀.held ++ straySlash.scan.shift sc₀.offset ++ (Scan.of after).shift sc.offset := by
  have hblank : ∀ c ∈ joined run, isBlank c = true :=
    h.isBlank_of_mem_joined (fun g hg => by simp [hg]) hrun
  have hoffset := h.offset_eq
  rw [List.append_cons] at h
  obtain ⟨behind, hbehind, hrest⟩ := h.of_append
  obtain ⟨sc₀, h₀, ht, hf, hpass⟩ := hbehind.of_concat
  rw [hr] at hrest
  have hlength : sc.offset = sc₀.offset + 1 + (joined run).length := by
    simp only [hoffset, h₀.offset_eq, joined_append, joined_cons, List.length_append, text,
      List.length_singleton, Nat.add_assoc]
  refine ⟨sc₀, h₀, ?_, ?_⟩
  · rw [hbehind.scan_before_comment hrest hblank hc, hpass, Scanner.held_pass, hlength]
    rfl
  · have hstep := Scan.of_append (fits_straySlash_without_comment hblank hc hstray)
    have hreplay := h₀.scan_replay ht hf rfl (joined run ++ after)
    rw [Scan.of_blanks_append hblank, Scan.shift_shift] at hstep
    rw [joined_append, joined_cons, List.append_assoc, List.append_assoc, hreplay]
    change sc₀.held ++ (Scan.of (straySlash.text ++ (joined run ++ after))).shift sc₀.offset = _
    rw [hstep, Scan.shift_append, Scan.shift_shift, Scan.append_assoc, hlength]
    congr 3
    simp only [text, List.length_singleton]
    omega

end History

/-- Take a comment that a run through a source skips, and delete it from the source. The same tokens
are found, and the same notes with those behind the comment moved back by its length, unless the
last thing before the comment apart from blanks is a slash that divides and the first visible
character behind the comment is a `>` or does not exist. In that case exactly this slash is missing
among the tokens, and there is exactly one more note, that the slash is stray. -/
theorem scan_without_comment {source body : Text} {before : List Segment} {sc : Scanner}
    (h : History source (before ++ [.comment body]) sc) :
    source = joined before ++ (comment body).text ++ sc.rest ∧
      (¬ (EndInDivision before ∧ Stray sc.rest) →
        (Scan.of (joined before ++ sc.rest)).tokens = (Scan.of source).tokens ∧
        (Scan.of (joined before ++ sc.rest)).notes =
          (Scan.of source).notes.map
            (Note.pullBack (joined before).length (comment body).text.length)) ∧
      ∀ front run, before = front ++ .operator .divide :: run →
        (∀ g ∈ run, g.isBlankRun = true) → Stray sc.rest →
        ∃ sc₀ tokens notes, History source front sc₀ ∧
          (Scan.of source).tokens = sc₀.tokens ++ ⟨['/'], .binaryOperator⟩ :: tokens ∧
          (Scan.of (joined before ++ sc.rest)).tokens = sc₀.tokens ++ tokens ∧
          (Scan.of source).notes = sc₀.notes ++ notes ∧
          (Scan.of (joined before ++ sc.rest)).notes =
            sc₀.notes ++ ⟨.straySlash, sc₀.offset, ['/']⟩ ::
              notes.map (Note.pullBack (joined before).length (comment body).text.length) := by
  obtain ⟨sc₁, h₁, ht, hc, -⟩ := h.of_concat
  have hoffset := h₁.offset_eq
  refine ⟨?_, ?_, ?_⟩
  · rw [← h₁.joined_append_rest, ← ht, List.append_assoc]
  · intro hordinary
    have hrest : sc₁.rest = [] ++ ((comment body).text ++ sc.rest) := ht.symm
    have hsource := h₁.scan_before_comment hrest (by simp) hc
    have hkept := h₁.scan_without hrest (by simp) hc
      fun hend hstray => hordinary ⟨hend, hstray⟩
    simp only [List.nil_append, List.length_nil, Nat.add_zero] at hsource hkept
    rw [hkept, hsource, ← hoffset]
    refine ⟨rfl, ?_⟩
    rw [Scan.notes_append, Scan.notes_append, List.map_append, Note.map_pullBack_shift]
    exact congrArg (· ++ _) (Note.map_pullBack_of_lt h₁.offset_lt_of_mem_notes).symm
  · rintro front run rfl hrun hstray
    obtain ⟨sc₀, h₀, hsource, hkept⟩ := h₁.scan_division hrun ht.symm hc hstray
    refine ⟨sc₀, (Scan.of sc.rest).tokens,
      ((Scan.of sc.rest).shift ((comment body).text.length + sc₁.offset)).notes, h₀, ?_, ?_, ?_, ?_⟩
    · rw [hsource, Scan.append_assoc]
      rfl
    · rw [hkept, Scan.append_assoc]
      rfl
    · rw [hsource, Scan.append_assoc]
      rfl
    · rw [hkept, Scan.append_assoc, ← hoffset, Note.map_pullBack_shift, Scan.notes_append,
        Scan.notes_append, notes_scan_shift]
      rfl

/-- A comment keeps the slash before it from being stray. -/
theorem scan_without_comment_stray :
    ∃ sc, History "1 / //c\n> $".toList
        [.word ['1'], .blank [' '], .operator .divide, .blank [' '], .comment ['c']] sc ∧
      Stray sc.rest ∧
      ∃ sc₀ tokens notes,
        History "1 / //c\n> $".toList [.word ['1'], .blank [' ']] sc₀ ∧
        (Scan.of "1 / //c\n> $".toList).tokens =
          sc₀.tokens ++ ⟨['/'], .binaryOperator⟩ :: tokens ∧
        (Scan.of "1 / \n> $".toList).tokens = sc₀.tokens ++ tokens ∧
        (Scan.of "1 / //c\n> $".toList).notes = sc₀.notes ++ notes ∧
        (Scan.of "1 / \n> $".toList).notes =
          sc₀.notes ++ ⟨.straySlash, sc₀.offset, ['/']⟩ :: notes.map (Note.pullBack 4 3) := by
  have hblank : ∀ g ∈ [blank [' ']], g.isBlankRun = true := by decide
  have hstart : History "1 / //c\n> $".toList [] (.start _) := .start
  have hslash := ((hstart.segment rfl rfl).blanks rfl rfl).segment rfl rfl
  have h := (hslash.blanks rfl rfl).segment rfl rfl
  exact ⟨_, h, by decide,
    (scan_without_comment h).2.2 [.word ['1'], .blank [' ']] [.blank [' ']] rfl hblank (by decide)⟩

end TagLexer
