import TagLexer.Proofs.Editor.Ranges

/-!
# What a client takes a range for

A client counts UTF-16 code units, of which a character takes one or two, and ends its lines at
carriage returns, too. Diagnostics count characters and end lines at line feeds only. A client finds
the noted text in the range of a diagnostic if and only if no carriage return before it stands alone
and each character from the start of its line to its end takes one code unit (`covers_ofNote_iff`).
-/

namespace TagLexer

/-- How many UTF-16 code units a character takes: two outside the basic plane. -/
def unitsOf (c : Char) : Nat := if c.toNat < 0x10000 then 1 else 2

/-- A character at which a client ends a line. -/
def isLineEnd (c : Char) : Bool := c == '\r' || c == '\n'

namespace Text

/-- How many code units a text takes. -/
def units : Text → Nat
  | [] => 0
  | c :: s => unitsOf c + units s

/-- The first line of a text as a client reads it. -/
def clientLine (s : Text) : Text := s.takeWhile fun c => !isLineEnd c

/-- How many code units a client counts before a character of a line. A line ends at a carriage
return, at a line feed or at both together. There is no character behind the end of a line, so
that end is meant instead; a line behind the last one means nothing. -/
def unitsBefore? (character : Nat) : Nat → Text → Option Nat
  | 0, s => some (min character s.clientLine.units)
  | _ + 1, [] => none
  | line + 1, '\r' :: '\n' :: s => (unitsBefore? character line s).map (2 + ·)
  | line + 1, c :: s =>
    if isLineEnd c then (unitsBefore? character line s).map (1 + ·)
    else (unitsBefore? character (line + 1) s).map (unitsOf c + ·)

/-- How many code units of a text a client counts before a place. -/
def clientOffset? (s : Text) (p : Place) : Option Nat := unitsBefore? p.character p.line s

end Text

/-- A client takes the range of a diagnostic for the noted text: it counts as many code units before
the range as stand before that text, and as many up to its end as up to the end of that text. -/
def Diagnostic.Covers (s : Text) (note : Note) (d : Diagnostic) : Prop :=
  s.clientOffset? d.first = some (Text.units (s.take note.offset)) ∧
    s.clientOffset? d.last = some (Text.units (s.take (note.offset + note.text.length)))

instance (s : Text) (note : Note) (d : Diagnostic) : Decidable (d.Covers s note) :=
  inferInstanceAs (Decidable (_ ∧ _))

theorem isLineEnd_eq_false_iff {c : Char} : isLineEnd c = false ↔ c ≠ '\r' ∧ c ≠ '\n' := by
  simp [isLineEnd]

theorem unitsOf_pos (c : Char) : 0 < unitsOf c := by
  unfold unitsOf
  split <;> decide

namespace Text

@[simp] theorem units_nil : units [] = 0 := rfl

@[simp] theorem units_cons (c : Char) (s : Text) : units (c :: s) = unitsOf c + units s := rfl

theorem units_newline_cons (s : Text) : units ('\n' :: s) = 1 + units s := units_cons ..

/-- A pair of line ends takes two code units. -/
theorem units_pair_cons (s : Text) : units ('\r' :: '\n' :: s) = 2 + units s := by
  rw [units_cons, units_newline_cons, ← Nat.add_assoc]
  rfl

@[simp] theorem units_append (s t : Text) : units (s ++ t) = units s + units t := by
  induction s with
  | nil => exact (Nat.zero_add _).symm
  | cons c s ih => rw [List.cons_append, units_cons, units_cons, ih, Nat.add_assoc]

/-- A text takes at least one code unit for each character. -/
theorem length_le_units (s : Text) : s.length ≤ s.units := by
  induction s with
  | nil => exact Nat.le_refl 0
  | cons c s ih =>
    have hc := unitsOf_pos c
    rw [List.length_cons, units_cons]
    omega

/-- A text takes as many code units as it has characters if and only if each of them takes one. -/
theorem units_eq_length_iff (s : Text) : s.units = s.length ↔ ∀ c ∈ s, unitsOf c = 1 := by
  induction s with
  | nil => simp
  | cons c s ih =>
    have hc := unitsOf_pos c
    have hs := length_le_units s
    rw [List.forall_mem_cons, ← ih, units_cons, List.length_cons]
    omega

variable {character line : Nat} {s t : Text}

theorem clientLine_cons {c : Char} (hc : isLineEnd c = false) :
    clientLine (c :: s) = c :: s.clientLine :=
  List.takeWhile_cons_of_pos (by simp [hc])

theorem unitsBefore?_pair (character line : Nat) (s : Text) :
    unitsBefore? character (line + 1) ('\r' :: '\n' :: s) =
      (unitsBefore? character line s).map (2 + ·) := rfl

/-- A carriage return alone ends a line. -/
theorem unitsBefore?_return (character line : Nat) (h : s.head? ≠ some '\n') :
    unitsBefore? character (line + 1) ('\r' :: s) =
      (unitsBefore? character line s).map (1 + ·) := by
  rw [unitsBefore?]
  · rfl
  · rintro s - rfl
    exact h rfl

theorem unitsBefore?_newline (character line : Nat) (s : Text) :
    unitsBefore? character (line + 1) ('\n' :: s) =
      (unitsBefore? character line s).map (1 + ·) := rfl

theorem unitsBefore?_cons (character line : Nat) (s : Text) {c : Char}
    (hc : isLineEnd c = false) :
    unitsBefore? character (line + 1) (c :: s) =
      (unitsBefore? character (line + 1) s).map (unitsOf c + ·) := by
  rw [unitsBefore?]
  · simp [hc]
  · rintro s rfl
    exact absurd hc (by decide)

/-- At the end of its line a client stops. -/
theorem unitsBefore?_zero_of_isLineEnd (character : Nat) (s : Text) {c : Char}
    (hc : isLineEnd c = true) : unitsBefore? character 0 (c :: s) = some 0 := by
  rw [unitsBefore?, clientLine, List.takeWhile_cons_of_neg (by simp [hc]), units_nil, Nat.min_zero]

/-- Where the first line of a text is empty, a client that stays in the first part of the other
lines stays in the first part of the text. -/
private theorem exists_unitsBefore?_lt_of_next {lines k n : Nat} (hk : 0 < k)
    (hfirst : unitsBefore? character 0 s = some 0)
    (hnext : ∀ line,
      unitsBefore? character (line + 1) s = (unitsBefore? character line t).map (k + ·))
    (ht : ∀ line < lines, ∃ i < n, unitsBefore? character line t = some i)
    (hline : line < lines + 1) : ∃ i < k + n, unitsBefore? character line s = some i := by
  cases line with
  | zero => exact ⟨0, by omega, hfirst⟩
  | succ line =>
    obtain ⟨i, hi, hbefore⟩ := ht line (by omega)
    exact ⟨k + i, by omega, by rw [hnext, hbefore]; rfl⟩

/-- On a line that ends in the start of a text a client stays in that start. -/
theorem exists_unitsBefore?_lt (ht : t.head? ≠ some '\n')
    (hline : line < s.universalNewlines.count '\n') (character : Nat) :
    ∃ i < s.units, unitsBefore? character line (s ++ t) = some i := by
  fun_induction universalNewlines s generalizing line character with
  | case1 => simp at hline
  | case2 rest ih =>
    rw [List.count_cons_self] at hline
    rw [units_pair_cons]
    exact exists_unitsBefore?_lt_of_next (by decide)
      (unitsBefore?_zero_of_isLineEnd character _ rfl)
      (fun line => unitsBefore?_pair character line (rest ++ t))
      (fun line hline => ih hline character) hline
  | case3 rest hpair ih =>
    rw [List.count_cons_self] at hline
    have hhead : (rest ++ t).head? ≠ some '\n' := by
      cases rest with
      | nil => exact ht
      | cons c rest =>
        rintro ⟨⟩
        exact hpair rest rfl
    rw [units_cons]
    exact exists_unitsBefore?_lt_of_next (unitsOf_pos _)
      (unitsBefore?_zero_of_isLineEnd character _ rfl)
      (fun line => unitsBefore?_return character line hhead)
      (fun line hline => ih hline character) hline
  | case4 c rest _ hreturn ih =>
    rw [units_cons]
    by_cases hc : c = '\n'
    · subst hc
      rw [List.count_cons_self] at hline
      exact exists_unitsBefore?_lt_of_next (unitsOf_pos _)
        (unitsBefore?_zero_of_isLineEnd character _ rfl)
        (fun line => unitsBefore?_newline character line (rest ++ t))
        (fun line hline => ih hline character) hline
    · rw [List.count_cons_of_ne hc] at hline
      have hend : isLineEnd c = false := isLineEnd_eq_false_iff.mpr ⟨hreturn, hc⟩
      cases line with
      | zero =>
        -- A client counts the character and is then ahead by what it takes.
        obtain ⟨i, hi, hbefore⟩ := ih hline (character - unitsOf c)
        rw [unitsBefore?, Option.some.injEq] at hbefore
        refine ⟨_, ?_, rfl⟩
        rw [List.cons_append, clientLine_cons hend, units_cons]
        omega
      | succ line =>
        obtain ⟨i, hi, hbefore⟩ := ih hline character
        refine ⟨unitsOf c + i, by omega, ?_⟩
        rw [List.cons_append, unitsBefore?_cons _ _ _ hend, hbefore]
        rfl

/-- A carriage return alone ends a line for a client only. -/
theorem count_lt_of_not_paired (h : ¬ s.Paired) :
    s.count '\n' < s.universalNewlines.count '\n' := by
  fun_induction universalNewlines s with
  | case1 => exact absurd trivial h
  | case2 rest ih =>
    have hrest : ¬ Paired rest := fun hrest =>
      h ⟨fun _ => rfl, fun hc => absurd hc (by decide), hrest⟩
    simpa using ih hrest
  | case3 rest hpair ih =>
    rw [List.count_cons_of_ne (by decide), List.count_cons_self]
    by_cases hrest : Paired rest
    · rw [hrest.universalNewlines_eq, withoutReturns, List.count_filter (by decide)]
      exact Nat.lt_succ_self _
    · exact Nat.lt_succ_of_lt (ih hrest)
  | case4 c rest _ hreturn ih =>
    have hrest : ¬ Paired rest := fun hrest => h ⟨fun hc => absurd hc hreturn, hrest⟩
    rw [List.count_cons, List.count_cons]
    exact Nat.add_lt_add_right (ih hrest) _

/-- A client skips the lines that end at line feeds where carriage returns are paired. -/
theorem unitsBefore?_append_newline (character : Nat) (h : Paired (s ++ ['\n'])) (t : Text) :
    unitsBefore? character (s.count '\n' + 1) (s ++ '\n' :: t) =
      some (s.units + 1 + min character t.clientLine.units) := by
  fun_induction universalNewlines s with
  | case1 => simp [unitsBefore?_newline, unitsBefore?]
  | case2 rest ih =>
    rw [List.count_cons_of_ne (by decide), List.count_cons_self, List.cons_append, List.cons_append,
      unitsBefore?_pair, ih h.2.2, Option.map_some, units_pair_cons, Option.some.injEq]
    omega
  | case3 rest hpair ih =>
    obtain rfl : rest = [] := by
      cases rest with
      | nil => rfl
      | cons c rest =>
        obtain ⟨⟩ := h.1 rfl
        exact absurd rfl (hpair rest)
    simp [unitsBefore?_pair, unitsBefore?, unitsOf]
  | case4 c rest _ hreturn ih =>
    by_cases hc : c = '\n'
    · subst hc
      rw [List.count_cons_self, List.cons_append, unitsBefore?_newline, ih h.2, Option.map_some,
        units_newline_cons, Option.some.injEq]
      omega
    · have hend : isLineEnd c = false := isLineEnd_eq_false_iff.mpr ⟨hreturn, hc⟩
      rw [List.count_cons_of_ne hc, List.cons_append, unitsBefore?_cons _ _ _ hend, ih h.2,
        Option.map_some, units_cons, Option.some.injEq]
      omega

/-- A client finds the line of a place where carriage returns are paired before it. -/
theorem Paired.exists_unitsBefore?_eq (h : s.Paired) (t : Text) :
    ∃ n, n + s.lastLine.units = s.units ∧ ∀ character,
      unitsBefore? character (s.count '\n') (s ++ t) =
        some (n + min character (s.lastLine.units + t.clientLine.units)) := by
  have hnewline := s.newline_not_mem_lastLine
  have hreturn : '\r' ∉ s.lastLine := by
    have hs : Paired (s ++ []) := by rwa [List.append_nil]
    exact fun hmem => hs.not_mem_lastLine (by simp) (List.mem_reverse.mp hmem)
  have hcases := s.lastLine_cases
  generalize s.lastLine = last at hnewline hreturn hcases ⊢
  have hline : (clientLine (last ++ t)).units = last.units + t.clientLine.units := by
    have hlast : ∀ c ∈ last, (!isLineEnd c) = true := by
      intro c hc
      have hr : c ≠ '\r' := fun he => hreturn (he ▸ hc)
      have hn : c ≠ '\n' := fun he => hnewline (he ▸ hc)
      simp [isLineEnd_eq_false_iff.mpr ⟨hr, hn⟩]
    rw [clientLine, List.takeWhile_append_of_pos hlast, units_append, clientLine]
  rcases hcases with rfl | ⟨front, rfl⟩
  · refine ⟨0, Nat.zero_add _, fun character => ?_⟩
    rw [List.count_eq_zero.mpr hnewline, unitsBefore?, hline, Nat.zero_add]
  · have hfront : Paired (front ++ ['\n']) := by
      rw [← List.singleton_append, ← List.append_assoc] at h
      exact h.of_append_left fun hhead => hnewline (List.mem_of_head? hhead)
    refine ⟨front.units + 1, ?_, fun character => ?_⟩
    · rw [units_append, units_newline_cons, Nat.add_assoc]
    · rw [List.count_append, List.count_cons_self, List.count_eq_zero.mpr hnewline, Nat.zero_add,
        List.append_assoc, List.cons_append, unitsBefore?_append_newline character hfront, hline]

/-- Where carriage returns are paired before a place, a client finds it if and only if no character
before it on its line takes two code units. -/
theorem Paired.clientOffset?_behind_iff (h : s.Paired) (t : Text) :
    (s ++ t).clientOffset? (.behind s) = some s.units ↔ ∀ c ∈ s.lastLine, unitsOf c = 1 := by
  obtain ⟨n, hn, hbefore⟩ := h.exists_unitsBefore?_eq t
  have hlength := length_le_units s.lastLine
  change unitsBefore? s.lastLine.length (s.count '\n') (s ++ t) = some s.units ↔ _
  rw [hbefore, ← units_eq_length_iff, Option.some.injEq]
  omega

/-- A client that finds a place has met no single carriage return before it. -/
theorem paired_of_clientOffset?_behind (ht : t.head? ≠ some '\n')
    (h : (s ++ t).clientOffset? (.behind s) = some s.units) : s.Paired := by
  by_contra hs
  obtain ⟨i, hi, hbefore⟩ :=
    exists_unitsBefore?_lt ht (count_lt_of_not_paired hs) s.lastLine.length
  have heq := Option.some.inj (hbefore.symm.trans h)
  omega

end Text

/-- A client takes the range of a diagnostic for the noted text if and only if no carriage return
before that text lacks its line feed and each character of its line up to its end takes one code
unit. -/
theorem covers_ofNote_iff {s : Text} {note : Note} (h : note ∈ (Scan.of s).notes) :
    (Diagnostic.ofNote s note).Covers s note ↔
      Text.Paired (s.take note.offset) ∧
        ∀ c ∈ Text.lastLine (s.take note.offset) ++ note.text, unitsOf c = 1 := by
  obtain ⟨front, c, back, rfl, hoffset, htext, hvisible⟩ := Scan.exists_visible_of_mem_notes h
  obtain ⟨hreturn, hnewline⟩ := ne_lineEnd_of_visible hvisible
  have hback : front ++ c :: back = (front ++ [c]) ++ back := by simp
  have hlast : Text.lastLine (front ++ [c]) = Text.lastLine front ++ [c] :=
    Text.lastLine_append_of_not_mem front (by simpa using hnewline.symm)
  have hend : (front ++ c :: back).take (note.offset + note.text.length) = front ++ [c] := by
    rw [hback, htext, ← hoffset]
    exact List.take_left' (by simp)
  have hfirst : (front ++ c :: back).take note.offset = front := List.take_left' hoffset
  rw [Diagnostic.Covers, Diagnostic.ofNote_eq hoffset htext, hend, hfirst, htext, ← hlast]
  have hpaired (hfront : Text.Paired front) : Text.Paired (front ++ [c]) :=
    hfront.append (Text.paired_of_not_mem (by simpa using hreturn.symm))
  constructor
  · rintro ⟨hcovers, hcovers'⟩
    have hfront := Text.paired_of_clientOffset?_behind (by simpa using hnewline) hcovers
    rw [hback] at hcovers'
    exact ⟨hfront, ((hpaired hfront).clientOffset?_behind_iff back).mp hcovers'⟩
  · rintro ⟨hfront, hunits⟩
    refine ⟨(hfront.clientOffset?_behind_iff _).mpr fun d hd => ?_, ?_⟩
    · exact hunits d (hlast ▸ List.mem_append_left _ hd)
    · rw [hback]
      exact ((hpaired hfront).clientOffset?_behind_iff back).mpr hunits

/-- A wide character on an earlier line and a pair of line ends do no harm. -/
theorem covers_ofNote_of_paired :
    (⟨.unrecognized, 10, ['@']⟩ : Note) ∈ (Scan.of "// 😀\r\n\"é\" @".toList).notes ∧
      (Diagnostic.ofNote "// 😀\r\n\"é\" @".toList ⟨.unrecognized, 10, ['@']⟩).Covers
        "// 😀\r\n\"é\" @".toList ⟨.unrecognized, 10, ['@']⟩ := by
  have hnote : (⟨.unrecognized, 10, ['@']⟩ : Note) ∈
      (Scan.of "// 😀\r\n\"é\" @".toList).notes := by decide +kernel
  refine ⟨hnote, (covers_ofNote_iff hnote).mpr ⟨by decide +kernel, ?_⟩⟩
  exact (Text.units_eq_length_iff _).mp (by decide +kernel)

/-- A client misses a noted character that takes two code units, and one behind a carriage return
that stands alone. -/
theorem not_covers_wide_or_return :
    (∃ note ∈ (Scan.of "😀".toList).notes,
        ¬ (Diagnostic.ofNote "😀".toList note).Covers "😀".toList note) ∧
      ∃ note ∈ (Scan.of "\r@".toList).notes,
        ¬ (Diagnostic.ofNote "\r@".toList note).Covers "\r@".toList note := by
  decide +kernel

end TagLexer
