import TagLexer.Proofs.Scan.Concat

/-!
# Scans across a seam

No segment sees further than the first visible character behind it. So whatever is added behind a
text disturbs at most its last token and its last note (`scan_append_keeps_dropLast`), and behind a
line feed a scan starts afresh, unless the text before it ends in an open string or in a slash that
its end makes stray (`scan_across_newline`).
-/

namespace TagLexer

/-- The offset of the last character of a text that is not blank. -/
def Text.lastVisible? : Text → Option Nat
  | [] => none
  | c :: s =>
    match lastVisible? s with
    | some i => some (i + 1)
    | none => if isBlank c then none else some 0

/-- The last visible character of the end of a text is the last one of the whole text. -/
theorem Text.lastVisible?_append_of_some {t : Text} {i : Nat} (h : lastVisible? t = some i)
    (s : Text) : lastVisible? (s ++ t) = some (i + s.length) := by
  induction s with
  | nil => exact h
  | cons c s ih =>
    rw [List.cons_append, lastVisible?, ih]
    rfl

private theorem Text.lastVisible?_of_blanks {s : Text} (h : ∀ c ∈ s, isBlank c = true) :
    lastVisible? s = none := by
  induction s with
  | nil => rfl
  | cons c s ih =>
    obtain ⟨hc, hs⟩ := List.forall_mem_cons.mp h
    simp [lastVisible?, ih hs, hc]

/-- A visible character with only blanks behind it is the last visible one. -/
theorem Text.lastVisible?_cons_of_blanks {c : Char} (hc : isBlank c = false) {s : Text}
    (h : ∀ d ∈ s, isBlank d = true) : lastVisible? (c :: s) = some 0 := by
  simp [lastVisible?, lastVisible?_of_blanks h, hc]

namespace Segment

/-- A segment is read off before a text when a scan finds what it gives and then what the text
gives. -/
def ReadBefore (g : Segment) (after : Text) : Prop :=
  Scan.of (g.text ++ after) = g.scan ++ (Scan.of after).shift g.text.length

private theorem mem_head?_append_newline {after t : Text} {c : Char}
    (h : c ∈ (after ++ '\n' :: t).head?) : c ∈ after.head? ∨ c = '\n' := by
  cases after with
  | nil => exact Or.inr (Option.some.inj h).symm
  | cons d after => exact Or.inl h

/-- A segment that fits is read off before a line feed behind the text as well, unless it is an open
string or a slash that only the end makes stray. -/
theorem Fits.readBefore_newline {g : Segment} {after : Text} (h : g.Fits after)
    (hclosed : ∀ q body, g ≠ unclosed q body)
    (hslash : g = straySlash → Text.firstVisible? after ≠ none) (t : Text) :
    g.ReadBefore (after ++ '\n' :: t) := by
  cases hv : Text.firstVisible? after with
  | some c => exact Scan.of_append (h.append_of_visible hv _)
  | none =>
    -- Nothing visible follows, so at most the head of the text behind the segment changes.
    cases g with
    | blank run => exact Scan.of_blanks_append h.2.all _
    | comment body =>
      refine Scan.of_append ⟨h.all, fun c hc => ?_⟩
      rcases mem_head?_append_newline hc with hc | rfl
      · exact h.stop c hc
      · rfl
    | mark m =>
      refine Scan.of_append (g := mark m) fun hm hc => ?_
      rcases mem_head?_append_newline hc with hc | hc
      · exact h hm hc
      · exact absurd hc (by decide)
    | operator o =>
      refine Scan.of_append (g := operator o) fun ho => absurd ?_ (h ho).2
      simp [Stray, hv]
    | straySlash => exact absurd hv (hslash rfl)
    | quoted q body => exact Scan.of_append (g := quoted q body) h
    | unclosed q body => exact absurd rfl (hclosed q body)
    | word w =>
      refine Scan.of_append (g := word w) ⟨h.1, fun c hc => ?_⟩
      rcases mem_head?_append_newline hc with hc | rfl
      · exact h.2 c hc
      · decide
    | other c => exact Scan.of_append (g := other c) h

end Segment

/-- A text whose notes leave nothing open at its end: no string without its closing quote, and no
stray slash as the last visible character. -/
structure Settled (s : Text) : Prop where
  /-- Every string literal is closed. -/
  closed : ∀ note ∈ (Scan.of s).notes, note.kind ≠ .unterminatedString
  /-- No stray slash is the last visible character. -/
  slash : ∀ note ∈ (Scan.of s).notes, note.kind = .straySlash → s.lastVisible? ≠ some note.offset

namespace Settled

variable {g : Segment} {after : Text}

/-- What stands behind the first segment of a settled text is settled. -/
theorem of_append (hf : g.Fits after) (h : Settled (g.text ++ after)) : Settled after where
  closed note hnote := h.closed (note.shift g.text.length) (Scan.shift_mem_notes hf hnote)
  slash note hnote hkind hlast :=
    h.slash (note.shift g.text.length) (Scan.shift_mem_notes hf hnote) hkind
      (Text.lastVisible?_append_of_some hlast g.text)

/-- The first segment of a settled text is read off before a line feed behind the text as well. -/
theorem readBefore_newline (hf : g.Fits after) (h : Settled (g.text ++ after)) (t : Text) :
    g.ReadBefore (after ++ '\n' :: t) := by
  apply hf.readBefore_newline
  · rintro q body rfl
    exact h.closed _ (Scan.mem_notes_of_note? hf rfl) rfl
  · rintro rfl hv
    have hblank := Text.firstVisible?_eq_none_iff.mp hv
    exact h.slash _ (Scan.mem_notes_of_note? hf rfl) rfl
      (Text.lastVisible?_cons_of_blanks (by decide) hblank)

/-- Behind a settled text and a line feed a scan starts afresh. -/
theorem scan_append_newline {s : Text} (h : Settled s) (t : Text) :
    Scan.of (s ++ '\n' :: t) = Scan.of s ++ (Scan.of t).shift (s.length + 1) := by
  induction s using Segment.text_induction with
  | nil =>
    rw [Scan.of_nil, Scan.empty_append]
    exact Scan.of_cons_of_isBlank (by decide) t
  | append g after hf ih =>
    have hread := readBefore_newline hf h t
    rw [List.append_assoc, hread, ih (h.of_append hf), Scan.of_append hf, Scan.shift_append,
      Scan.shift_shift, Scan.append_assoc, List.length_append]
    congr 3
    omega

end Settled

/-- When a scan of a text finds no open string and no stray slash at its last visible character, a
scan of the text, a line feed and another text finds the tokens and notes of the one and then those
of the other, whose notes move on by the length of the first text and one. -/
theorem scan_across_newline (s t : Text)
    (hclosed : ∀ note ∈ (Scan.of s).notes, note.kind ≠ .unterminatedString)
    (hslash : ∀ note ∈ (Scan.of s).notes, note.kind = .straySlash →
      s.lastVisible? ≠ some note.offset) :
    (Scan.of (s ++ '\n' :: t)).tokens = (Scan.of s).tokens ++ (Scan.of t).tokens ∧
      (Scan.of (s ++ '\n' :: t)).notes = (Scan.of s).notes ++
        (Scan.of t).notes.map fun note => { note with offset := note.offset + (s.length + 1) } := by
  have h : Settled s := ⟨hclosed, hslash⟩
  rw [h.scan_append_newline t]
  exact ⟨rfl, rfl⟩

/-- A stray slash before the last visible character and an open comment leave the text settled. -/
theorem scan_across_newline_comment :
    Scan.of "1e / > //x".toList =
        { tokens := [⟨"1e".toList, .identifier⟩, ⟨['>'], .mark .closeBracket⟩]
          notes := [⟨.straySlash, 3, ['/']⟩] } ∧
      Text.lastVisible? "1e / > //x".toList = some 9 ∧
      (Scan.of ("1e / > //x".toList ++ '\n' :: "/ $".toList)).tokens =
        (Scan.of "1e / > //x".toList).tokens ++ (Scan.of "/ $".toList).tokens ∧
      (Scan.of ("1e / > //x".toList ++ '\n' :: "/ $".toList)).notes =
        (Scan.of "1e / > //x".toList).notes ++ (Scan.of "/ $".toList).notes.map fun note =>
          { note with offset := note.offset + ("1e / > //x".toList.length + 1) } :=
  ⟨by decide +kernel, by decide +kernel,
    scan_across_newline _ _ (by decide +kernel) (by decide +kernel)⟩

/-- All but the last of a list stays a prefix when a common front is put before both. -/
private theorem prefix_of_dropLast_append {α : Type} (front : List α) {back longer : List α}
    (h : back.dropLast <+: longer) : (front ++ back).dropLast <+: front ++ longer := by
  by_cases hnil : back = []
  · subst hnil
    have hfront : front.dropLast <+: front := List.dropLast_prefix front
    rw [List.append_nil]
    exact hfront.trans (List.prefix_append front longer)
  · rw [List.dropLast_append_of_ne_nil hnil]
    exact (List.prefix_append_right_inj front).mpr h

private theorem dropLast_toList {α : Type} (o : Option α) : o.toList.dropLast = [] := by
  cases o <;> rfl

/-- Whatever is added behind a text, all tokens of the text but the last and all its notes but the
last are found again, with nothing before or between them. -/
theorem scan_append_keeps_dropLast (s t : Text) :
    (Scan.of s).tokens.dropLast <+: (Scan.of (s ++ t)).tokens ∧
      (Scan.of s).notes.dropLast <+: (Scan.of (s ++ t)).notes := by
  induction s using Segment.text_induction with
  | nil => simp
  | append g after hf ih =>
    cases hv : Text.firstVisible? after with
    | none =>
      -- Only blanks follow, so the segment gives all there is: one token and one note at most.
      have hempty : Scan.of after = ∅ := Scan.of_blanks (Text.firstVisible?_eq_none_iff.mp hv)
      rw [Scan.of_append hf, hempty, Scan.shift_empty, Scan.append_empty, Segment.scan,
        dropLast_toList, dropLast_toList]
      constructor <;> exact List.nil_prefix
    | some c =>
      obtain ⟨htokens, hnotes⟩ := ih
      rw [List.append_assoc, Scan.of_append hf, Scan.of_append (hf.append_of_visible hv t)]
      refine ⟨prefix_of_dropLast_append _ htokens, prefix_of_dropLast_append _ ?_⟩
      rw [Scan.notes_shift, Scan.notes_shift, ← List.map_dropLast]
      exact hnotes.map _

end TagLexer
