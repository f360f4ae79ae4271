import TagLexer.Proofs.Token.Word
import TagLexer.Segment

/-!
# Where a segment may stand

`Segment.Fits` says, without reference to how a source is cut, which segments may stand before a
given text. Of all segments with all texts behind them exactly one fits a given source:
`Segment.first`, which reads blanks as a run and cuts everything else, finds it
(`Segment.first_eq_iff`).
-/

namespace TagLexer

/-- The first character of a text that is not blank. -/
def Text.firstVisible? (s : Text) : Option Char := s.find? fun c => !isBlank c

theorem Text.firstVisible?_append (s t : Text) :
    firstVisible? (s ++ t) = (firstVisible? s).or (firstVisible? t) :=
  List.find?_append

/-- Only texts of blanks have no visible character. -/
theorem Text.firstVisible?_eq_none_iff {s : Text} :
    firstVisible? s = none ↔ ∀ c ∈ s, isBlank c = true := by
  simp [firstVisible?]

namespace Segment

/-- A slash before a text is stray when the first visible character of the text is a `>` or there
is none. -/
def Stray (after : Text) : Prop :=
  Text.firstVisible? after = none ∨ Text.firstVisible? after = some '>'

instance (after : Text) : Decidable (Stray after) :=
  inferInstanceAs (Decidable (_ ∨ _))

/-- A slash before a text stands alone when it starts neither a comment nor the end of a tag. -/
def LoneSlash (after : Text) : Prop := after.head? ≠ some '/' ∧ after.head? ≠ some '>'

instance (after : Text) : Decidable (LoneSlash after) :=
  inferInstanceAs (Decidable (_ ∧ _))

/-- The characters with a meaning of their own: quotes and the signs of marks and operators. -/
def signs : Text := ['"', '\'', '<', '>', '/', '(', ')', '\x7b', '\x7d', '+', '-', '*', '=']

/-- A segment fits before a text when it is well formed and the text neither prolongs it nor makes
it the start of something else. -/
def Fits : Segment → Text → Prop
  | blank run, after => run ≠ [] ∧ Text.MaximalRun isBlank run after
  | comment body, after => Text.MaximalRun (· != '\n') body after
  | mark m, after => m = .openBracket → after.head? ≠ some '/'
  | operator o, after => o = .divide → LoneSlash after ∧ ¬ Stray after
  | straySlash, after => LoneSlash after ∧ Stray after
  | quoted q body, _ => q.char ∉ body
  | unclosed q body, after => q.char ∉ body ∧ after = []
  | word w, after => w.IsWord ∧ after.Stops isWordChar
  | other c, _ => isBlank c = false ∧ isWordChar c = false ∧ c ∉ signs

instance : (g : Segment) → (after : Text) → Decidable (g.Fits after)
  | blank run, after => inferInstanceAs (Decidable (run ≠ [] ∧ Text.MaximalRun isBlank run after))
  | comment body, after => inferInstanceAs (Decidable (Text.MaximalRun (· != '\n') body after))
  | mark m, after => inferInstanceAs (Decidable (m = .openBracket → after.head? ≠ some '/'))
  | operator o, after => inferInstanceAs (Decidable (o = .divide → LoneSlash after ∧ ¬ Stray after))
  | straySlash, after => inferInstanceAs (Decidable (LoneSlash after ∧ Stray after))
  | quoted q body, _ => inferInstanceAs (Decidable (q.char ∉ body))
  | unclosed q body, after => inferInstanceAs (Decidable (q.char ∉ body ∧ after = []))
  | word w, after => inferInstanceAs (Decidable (w.IsWord ∧ after.Stops isWordChar))
  | other c, _ =>
    inferInstanceAs (Decidable (isBlank c = false ∧ isWordChar c = false ∧ c ∉ signs))

/-- The look-ahead of a slash finds exactly the stray ones. -/
theorem closesNext_eq_true_iff (after : Text) : closesNext after = true ↔ Stray after := by
  induction after with
  | nil => simp [closesNext, Stray, Text.firstVisible?]
  | cons c after ih =>
    cases hc : isBlank c with
    | true => simpa [closesNext, Stray, Text.firstVisible?, hc] using ih
    | false => simp [closesNext, Stray, Text.firstVisible?, hc]

/-- A lone slash is cut off as a stray one or as an operator. -/
private theorem cutSlash_of_loneSlash {after : Text} (h : LoneSlash after) :
    cutSlash after =
      if closesNext after then (straySlash, after) else (operator .divide, after) := by
  unfold cutSlash
  split
  · next body => exact absurd rfl h.1
  · next body => exact absurd rfl h.2
  · rfl

private theorem cutAngle_of_head {after : Text} (h : after.head? ≠ some '/') :
    cutAngle after = (mark .openBracket, after) := by
  unfold cutAngle
  split
  · next body => exact absurd rfl h
  · rfl

/-- A body without the quote, read as the run that a search for the quote passes over. -/
private theorem maximalRun_of_not_mem {q : Quote} {body : Text} (h : q.char ∉ body) (after : Text) :
    Text.MaximalRun (· != q.char) body (q.char :: after) where
  all c hc := by
    have hne : c ≠ q.char := fun he => h (he ▸ hc)
    simpa using hne
  stop c hc := by
    have he : q.char = c := by simpa using hc
    simp [he]

private theorem cutQuote_closed {q : Quote} {body : Text} (h : q.char ∉ body) (after : Text) :
    cutQuote q (body ++ q.char :: after) = (quoted q body, after) := by
  have hrun := maximalRun_of_not_mem h after
  simp only [cutQuote, hrun.dropWhile_eq, hrun.takeWhile_eq]

private theorem cutQuote_open {q : Quote} {body : Text} (h : q.char ∉ body) :
    cutQuote q body = (unclosed q body, []) := by
  have hnil : body.dropWhile (· != q.char) = [] :=
    List.dropWhile_eq_nil_iff.mpr (maximalRun_of_not_mem h []).all
  simp only [cutQuote, hnil]

/-- Where no sign stands, a cut finds a word or a character that belongs to nothing. -/
theorem cut_of_not_mem_signs {c : Char} (h : c ∉ signs) (rest : Text) :
    cut c rest =
      if isWordChar c then (word (c :: rest.takeWhile isWordChar), rest.dropWhile isWordChar)
      else (other c, rest) := by
  simp only [signs, List.mem_cons, List.not_mem_nil, or_false, not_or] at h
  simp [cut, Mark.ofChar?, Operator.ofChar?, Quote.ofChar?, h]

private theorem fits_cutSlash (rest : Text) : (cutSlash rest).1.Fits (cutSlash rest).2 := by
  cases rest with
  | nil => simp [cutSlash, closesNext, Fits, LoneSlash, Stray, Text.firstVisible?]
  | cons d rest =>
    by_cases hslash : d = '/'
    · subst d
      exact Text.MaximalRun.of_takeWhile _ rest
    by_cases hangle : d = '>'
    · subst d
      intro h
      cases h
    have hlone : LoneSlash (d :: rest) := by simp [LoneSlash, hslash, hangle]
    rw [cutSlash_of_loneSlash hlone]
    by_cases hcloses : closesNext (d :: rest) = true
    · rw [if_pos hcloses]
      exact ⟨hlone, (closesNext_eq_true_iff _).mp hcloses⟩
    · rw [if_neg hcloses]
      intro _
      refine ⟨hlone, ?_⟩
      intro hstray
      exact hcloses ((closesNext_eq_true_iff _).mpr hstray)

private theorem fits_cutAngle (rest : Text) : (cutAngle rest).1.Fits (cutAngle rest).2 := by
  by_cases h : rest.head? = some '/'
  · obtain ⟨tail, rfl⟩ := List.head?_eq_some_iff.mp h
    intro hm
    cases hm
  · rw [cutAngle_of_head h]
    intro _
    exact h

private theorem fits_cutQuote (q : Quote) (rest : Text) :
    (cutQuote q rest).1.Fits (cutQuote q rest).2 := by
  have hrun := Text.MaximalRun.of_takeWhile (· != q.char) rest
  have hbody : q.char ∉ rest.takeWhile (· != q.char) := by
    intro hq
    simpa using hrun.all _ hq
  unfold cutQuote
  split
  · next hnil =>
    have hall : rest.takeWhile (· != q.char) = rest := by
      simpa [hnil] using List.takeWhile_append_dropWhile (p := (· != q.char)) (l := rest)
    rw [hall] at hbody
    exact ⟨hbody, rfl⟩
  · exact hbody

/-- Where no blank stands, the segment that is cut off fits before what is left. -/
theorem fits_cut {c : Char} (hc : isBlank c = false) (rest : Text) :
    (cut c rest).1.Fits (cut c rest).2 := by
  by_cases hsign : c ∈ signs
  · simp only [signs, List.mem_cons, List.not_mem_nil, or_false] at hsign
    rcases hsign with rfl | rfl | rfl | rfl | rfl | rfl | rfl | rfl | rfl | rfl | rfl | rfl | rfl
    · exact fits_cutQuote .double rest
    · exact fits_cutQuote .single rest
    · exact fits_cutAngle rest
    · intro hm
      cases hm
    · exact fits_cutSlash rest
    -- The other signs are marks and operators that look at nothing behind them.
    all_goals
      intro hm
      cases hm
  · rw [cut_of_not_mem_signs hsign]
    split
    · next hword =>
      have hrun := Text.MaximalRun.of_takeWhile isWordChar (c :: rest)
      simp only [List.takeWhile_cons_of_pos hword, List.dropWhile_cons_of_pos hword] at hrun
      refine ⟨⟨List.cons_ne_nil _ _, ?_, hrun.all⟩, hrun.stop⟩
      intro he
      obtain rfl : c = '-' := by simpa using he
      exact hsign (by decide)
    · next hword => exact ⟨hc, by simpa using hword, hsign⟩

/-- The signs are not blank, and of them only the hyphen is part of words. -/
theorem classes_of_mem_signs {c : Char} (h : c ∈ signs) :
    isBlank c = false ∧ (isWordChar c = true → c = '-') := by
  have hall : signs.all fun c => !isBlank c && (!isWordChar c || c == '-') := by decide +kernel
  have hc := List.all_eq_true.mp hall c h
  simp only [Bool.and_eq_true, Bool.or_eq_true, Bool.not_eq_true', beq_iff_eq] at hc
  refine ⟨hc.1, fun hword => hc.2.resolve_left ?_⟩
  simp [hword]

private theorem not_mem_signs_of_isWordChar {c : Char} (hc : isWordChar c = true) (hne : c ≠ '-') :
    c ∉ signs := fun h => hne ((classes_of_mem_signs h).2 hc)

/-- A segment that fits before a text is never empty. -/
theorem Fits.text_ne_nil {g : Segment} {after : Text} (h : g.Fits after) : g.text ≠ [] := by
  cases g with
  | blank run => exact h.1
  | mark m => cases m <;> exact List.cons_ne_nil _ _
  | word w => exact h.1.ne_nil
  | _ => exact List.cons_ne_nil _ _

/-- The segment that a text starts with, where blanks are read as a run, and what follows it. -/
def first (c : Char) (rest : Text) : Segment × Text :=
  if isBlank c then (blank ((c :: rest).takeWhile isBlank), (c :: rest).dropWhile isBlank)
  else cut c rest

private theorem first_of_isBlank {c : Char} (hc : isBlank c = true) (rest : Text) :
    first c rest = (blank ((c :: rest).takeWhile isBlank), (c :: rest).dropWhile isBlank) :=
  if_pos hc

private theorem first_of_mem_signs {c : Char} (hc : c ∈ signs) (rest : Text) :
    first c rest = cut c rest :=
  if_neg (by simp [(classes_of_mem_signs hc).1])

private theorem text_first (c : Char) (rest : Text) :
    (first c rest).1.text ++ (first c rest).2 = c :: rest := by
  unfold first
  split
  · exact List.takeWhile_append_dropWhile
  · exact text_cut c rest

private theorem fits_first (c : Char) (rest : Text) : (first c rest).1.Fits (first c rest).2 := by
  unfold first
  split
  · next hc =>
    exact ⟨by simp [hc], Text.MaximalRun.of_takeWhile isBlank (c :: rest)⟩
  · next hc => exact fits_cut (by simpa using hc) rest

/-- A mark that fits is read back from its lexeme. -/
private theorem first_mark {m : Mark} {after rest : Text} {c : Char}
    (h : m = .openBracket → after.head? ≠ some '/') (ht : m.lexeme ++ after = c :: rest) :
    first c rest = (mark m, after) := by
  cases m with
  | openBracket =>
    obtain ⟨rfl, rfl⟩ := List.cons.inj ht
    exact (first_of_mem_signs (by decide) _).trans (cutAngle_of_head (h rfl))
  | _ =>
    obtain ⟨rfl, rfl⟩ := List.cons.inj ht
    exact first_of_mem_signs (by decide) _

/-- A lone slash that fits is read back. -/
private theorem first_slash {after : Text} (h : LoneSlash after) :
    first '/' after = if Stray after then (straySlash, after) else (operator .divide, after) := by
  rw [first_of_mem_signs (by decide)]
  refine (cutSlash_of_loneSlash h).trans ?_
  simp only [closesNext_eq_true_iff]

private theorem first_quote (q : Quote) (rest : Text) : first q.char rest = cutQuote q rest := by
  cases q <;> exact first_of_mem_signs (by decide) rest

private theorem first_word {c : Char} {w after : Text} (hc : c ≠ '-')
    (h : Text.MaximalRun isWordChar (c :: w) after) :
    first c (w ++ after) = (word (c :: w), after) := by
  have hword : isWordChar c = true := h.all c (List.mem_cons_self ..)
  have hblank : ¬ isBlank c = true := by simp [isBlank_of_isWordChar hword]
  rw [first, if_neg hblank, cut_of_not_mem_signs (not_mem_signs_of_isWordChar hword hc),
    if_pos hword, h.of_cons.takeWhile_eq, h.of_cons.dropWhile_eq]

/-- A segment that fits is found again at the start of the text it makes up with what follows. -/
theorem Fits.first_eq {g : Segment} {after rest : Text} {c : Char} (h : g.Fits after)
    (ht : g.text ++ after = c :: rest) : first c rest = (g, after) := by
  cases g with
  | blank run =>
    obtain ⟨hne, hrun⟩ := h
    change run ++ after = c :: rest at ht
    have hc : isBlank c = true := by
      cases run with
      | nil => exact absurd rfl hne
      | cons d run => exact (List.cons.inj ht).1 ▸ hrun.all d (List.mem_cons_self ..)
    rw [first_of_isBlank hc, ← ht, hrun.takeWhile_eq, hrun.dropWhile_eq]
  | comment body =>
    obtain ⟨rfl, rfl⟩ := List.cons.inj ht
    refine (first_of_mem_signs (by decide) _).trans ?_
    change (comment ((body ++ after).takeWhile _), (body ++ after).dropWhile _) = _
    rw [Text.MaximalRun.takeWhile_eq h, Text.MaximalRun.dropWhile_eq h]
  | mark m => exact first_mark h ht
  | operator o =>
    obtain ⟨rfl, rfl⟩ := List.cons.inj ht
    cases o with
    | divide =>
      obtain ⟨hlone, hstray⟩ := h rfl
      exact (first_slash hlone).trans (if_neg hstray)
    | _ => exact first_of_mem_signs (by decide) _
  | straySlash =>
    obtain ⟨rfl, rfl⟩ := List.cons.inj ht
    exact (first_slash h.1).trans (if_pos h.2)
  | quoted q body =>
    obtain ⟨rfl, rfl⟩ := List.cons.inj ht
    rw [first_quote]
    change cutQuote q (body ++ [q.char] ++ after) = _
    rw [List.append_assoc]
    exact cutQuote_closed h after
  | unclosed q body =>
    obtain ⟨hbody, rfl⟩ := h
    obtain ⟨rfl, rfl⟩ := List.cons.inj ht
    rw [first_quote]
    change cutQuote q (body ++ []) = _
    rw [List.append_nil]
    exact cutQuote_open hbody
  | word w =>
    obtain ⟨hword, hstop⟩ := h
    cases w with
    | nil => exact absurd rfl hword.ne_nil
    | cons d w =>
      obtain ⟨rfl, rfl⟩ := List.cons.inj ht
      exact first_word (fun he => hword.head (he ▸ rfl)) ⟨hword.all, hstop⟩
  | other d =>
    obtain ⟨rfl, rfl⟩ := List.cons.inj ht
    obtain ⟨hblank, hword, hsign⟩ := h
    rw [first, if_neg (by simp [hblank]), cut_of_not_mem_signs hsign, if_neg (by simp [hword])]
    rfl

/-- A text starts with a segment and goes on with another text exactly when the two make up the
text and the segment fits before the rest. -/
theorem first_eq_iff {c : Char} {rest : Text} {g : Segment} {after : Text} :
    first c rest = (g, after) ↔ g.text ++ after = c :: rest ∧ g.Fits after := by
  constructor
  · intro h
    have ht := text_first c rest
    have hf := fits_first c rest
    rw [h] at ht hf
    exact ⟨ht, hf⟩
  · rintro ⟨ht, hf⟩
    exact hf.first_eq ht

/-- Two segments that fit at the start of one text are the same, and so is what follows them. -/
theorem Fits.unique {g g' : Segment} {after after' : Text} (h : g.Fits after) (h' : g'.Fits after')
    (ht : g.text ++ after = g'.text ++ after') : g = g' ∧ after = after' := by
  obtain ⟨c, tail, hc⟩ := List.exists_cons_of_ne_nil h'.text_ne_nil
  have hcons : g'.text ++ after' = c :: (tail ++ after') := by rw [hc, List.cons_append]
  have heq := (h.first_eq (ht.trans hcons)).symm.trans (h'.first_eq hcons)
  exact ⟨congrArg Prod.fst heq, congrArg Prod.snd heq⟩

/-- All that a segment sees of the text behind it is the first character and the first visible
one. -/
theorem Fits.congr {g : Segment} {after after' : Text} (h : g.Fits after)
    (hhead : after.head? = after'.head?)
    (hvisible : Text.firstVisible? after = Text.firstVisible? after') : g.Fits after' := by
  have hstops : ∀ {p : Char → Bool}, after.Stops p → after'.Stops p := by
    intro p h
    rwa [Text.Stops, ← hhead]
  have hlone : LoneSlash after ↔ LoneSlash after' := by simp only [LoneSlash, hhead]
  have hstray : Stray after ↔ Stray after' := by simp only [Stray, hvisible]
  cases g with
  | blank run => exact ⟨h.1, h.2.all, hstops h.2.stop⟩
  | comment body => exact ⟨h.all, hstops h.stop⟩
  | mark m => exact fun hm => hhead ▸ h hm
  | operator o => exact fun ho => ⟨hlone.mp (h ho).1, fun hs => (h ho).2 (hstray.mpr hs)⟩
  | straySlash => exact ⟨hlone.mp h.1, hstray.mp h.2⟩
  | quoted q body => exact h
  | unclosed q body =>
    obtain ⟨hbody, rfl⟩ := h
    exact ⟨hbody, List.head?_eq_none_iff.mp hhead.symm⟩
  | word w => exact ⟨h.1, hstops h.2⟩
  | other c => exact h

/-- Nothing that is added behind a visible character is seen by a segment in front of it. -/
theorem Fits.append_of_visible {g : Segment} {after : Text} (h : g.Fits after) {c : Char}
    (hc : Text.firstVisible? after = some c) (s : Text) : g.Fits (after ++ s) := by
  apply h.congr
  · cases after with
    | nil => cases hc
    | cons d after => rfl
  · rw [Text.firstVisible?_append, hc, Option.some_or]

/-- Texts are built up from the end, one fitting segment in front of what is there already. -/
@[elab_as_elim]
theorem text_induction {motive : Text → Prop} (nil : motive [])
    (append : ∀ (g : Segment) (after : Text), g.Fits after → motive after →
      motive (g.text ++ after))
    (s : Text) : motive s := by
  induction hn : s.length using Nat.strongRecOn generalizing s with
  | ind n ih =>
    cases s with
    | nil => exact nil
    | cons c rest =>
      rcases hfirst : first c rest with ⟨g, after⟩
      obtain ⟨ht, hf⟩ := first_eq_iff.mp hfirst
      have hlt : after.length < n := by
        have hpos := List.length_pos_iff.mpr hf.text_ne_nil
        rw [← hn, ← ht, List.length_append]
        omega
      rw [← ht]
      exact append g after hf (ih _ hlt after rfl)

end Segment

end TagLexer
