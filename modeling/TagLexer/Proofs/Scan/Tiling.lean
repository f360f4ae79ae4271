import TagLexer.Proofs.Scan.Concat

/-!
# Tilings of a source

A source is tiled by segments when their texts make it up and each of them fits before the text of
those behind it. Every source has exactly one tiling, and a run of the scanner ends at the end of
the source with exactly the tokens and notes that the segments of the tiling give, in order.
-/

namespace TagLexer

namespace Segment

/-- The text of segments in a row. -/
def joined (segments : List Segment) : Text := segments.flatMap text

@[simp] theorem joined_nil : joined [] = [] := rfl

@[simp] theorem joined_cons (g : Segment) (gs : List Segment) :
    joined (g :: gs) = g.text ++ joined gs := rfl

/-- Each of the segments in a row fits before the text of those behind it. -/
def Fitting : List Segment → Prop
  | [] => True
  | g :: gs => g.Fits (joined gs) ∧ Fitting gs

instance : (segments : List Segment) → Decidable (Fitting segments)
  | [] => inferInstanceAs (Decidable True)
  | g :: gs =>
    have := instDecidableFitting gs
    inferInstanceAs (Decidable (g.Fits (joined gs) ∧ Fitting gs))

/-- The tokens and notes that a segment at an offset gives, one rule for each kind of segment and
three for words. -/
inductive Gives (offset : Nat) : Segment → List Token → List Note → Prop
  | blank (run : Text) : Gives offset (.blank run) [] []
  | comment (body : Text) : Gives offset (.comment body) [] []
  | mark (m : Mark) : Gives offset (.mark m) [⟨m.lexeme, .mark m⟩] []
  | operator (o : Operator) : Gives offset (.operator o) [⟨[o.char], .binaryOperator⟩] []
  | straySlash : Gives offset .straySlash [] [⟨.straySlash, offset, ['/']⟩]
  | quoted (q : Quote) (body : Text) : Gives offset (.quoted q body) [⟨body, .stringLiteral⟩] []
  | unclosed (q : Quote) (body : Text) :
      Gives offset (.unclosed q body) [⟨body, .stringLiteral⟩]
        [⟨.unterminatedString, offset, [q.char]⟩]
  | number {w : Text} : w.isNumberLiteral = true → Gives offset (.word w) [⟨w, .number⟩] []
  | keyword (k : Keyword) : Gives offset (.word k.spelling) [⟨k.spelling, .keyword k⟩] []
  | identifier {w : Text} : w.isNumberLiteral = false → (∀ k : Keyword, k.spelling ≠ w) →
      Gives offset (.word w) [⟨w, .identifier⟩] []
  | other (c : Char) : Gives offset (.other c) [] [⟨.unrecognized, offset, [c]⟩]

/-- The tokens and notes that segments in a row give, each at the offset where it stands. -/
inductive GiveAll : Nat → List Segment → List Token → List Note → Prop
  | nil (offset : Nat) : GiveAll offset [] [] []
  | cons {offset : Nat} {g : Segment} {gs : List Segment} {tokens tokens' : List Token}
      {notes notes' : List Note} : Gives offset g tokens notes →
      GiveAll (offset + g.text.length) gs tokens' notes' →
      GiveAll offset (g :: gs) (tokens ++ tokens') (notes ++ notes')

/-- A segment gives what the scanner keeps of it. -/
theorem gives_scan (offset : Nat) (g : Segment) :
    g.Gives offset g.scan.tokens (g.scan.shift offset).notes := by
  rw [notes_scan_shift]
  cases g with
  | word w =>
    change Gives offset (word w) [⟨w, .ofWord w⟩] []
    rcases Kind.word_cases w with hn | ⟨k, rfl⟩ | ⟨hn, hk⟩
    · rw [Kind.ofWord_of_isNumberLiteral hn]
      exact .number hn
    · rw [Kind.ofWord_spelling]
      exact .keyword k
    · rw [Kind.ofWord_of_plain hn hk]
      exact .identifier hn hk
  | _ => constructor

end Segment

open Segment

/-- Segments tile a source when their texts make it up and each fits where it stands. -/
structure Tiling (source : Text) (segments : List Segment) : Prop where
  /-- The texts of the segments make up the source. -/
  joined_eq : joined segments = source
  /-- Each segment fits before the text of those behind it. -/
  fitting : Fitting segments

instance (source : Text) (segments : List Segment) : Decidable (Tiling source segments) :=
  decidable_of_iff (joined segments = source ∧ Fitting segments)
    ⟨fun h => ⟨h.1, h.2⟩, fun h => ⟨h.joined_eq, h.fitting⟩⟩

namespace Tiling

theorem cons {g : Segment} {after : Text} {gs : List Segment} (hf : g.Fits after)
    (h : Tiling after gs) : Tiling (g.text ++ after) (g :: gs) where
  joined_eq := by rw [joined_cons, h.joined_eq]
  fitting := ⟨h.joined_eq ▸ hf, h.fitting⟩

/-- Every source has a tiling. -/
theorem exists_of (source : Text) : ∃ segments, Tiling source segments := by
  induction source using text_induction with
  | nil => exact ⟨[], rfl, trivial⟩
  | append g after hf ih =>
    obtain ⟨gs, hgs⟩ := ih
    exact ⟨g :: gs, hgs.cons hf⟩

/-- A segment of a tiling is not empty. -/
theorem text_ne_nil {source : Text} {segments : List Segment} (h : Tiling source segments) :
    ∀ g ∈ segments, g.text ≠ [] := by
  have hfit := h.fitting
  clear h
  induction segments with
  | nil => simp
  | cons g gs ih => exact List.forall_mem_cons.mpr ⟨hfit.1.text_ne_nil, ih hfit.2⟩

/-- A source with a segment in its tiling is not empty. -/
theorem source_ne_nil {source : Text} {g : Segment} {gs : List Segment}
    (h : Tiling source (g :: gs)) : source ≠ [] := by
  intro hnil
  have hjoined : g.text ++ joined gs = [] := h.joined_eq.trans hnil
  exact h.fitting.1.text_ne_nil (List.append_eq_nil_iff.mp hjoined).1

/-- A source has at most one tiling. -/
theorem unique {source : Text} {segments others : List Segment} (h : Tiling source segments)
    (h' : Tiling source others) : segments = others := by
  induction segments generalizing source others with
  | nil =>
    cases others with
    | nil => rfl
    | cons g' gs' => exact absurd h.joined_eq.symm h'.source_ne_nil
  | cons g gs ih =>
    cases others with
    | nil => exact absurd h'.joined_eq.symm h.source_ne_nil
    | cons g' gs' =>
      obtain ⟨rfl, hafter⟩ :=
        h.fitting.1.unique h'.fitting.1 (h.joined_eq.trans h'.joined_eq.symm)
      rw [ih ⟨hafter, h.fitting.2⟩ ⟨rfl, h'.fitting.2⟩]

/-- A scan of a text behind `n` characters finds what the segments of its tiling give there. -/
theorem giveAll {source : Text} {segments : List Segment} (h : Tiling source segments) (n : Nat) :
    GiveAll n segments (Scan.of source).tokens ((Scan.of source).shift n).notes := by
  obtain ⟨rfl, hfit⟩ := h
  induction segments generalizing n with
  | nil =>
    rw [joined_nil, Scan.of_nil]
    exact .nil n
  | cons g gs ih =>
    rw [joined_cons, Scan.of_append hfit.1, Scan.shift_append, Scan.shift_shift, Nat.add_comm]
    exact .cons (gives_scan n g) (ih (n + g.text.length) hfit.2)

end Tiling

/-- Every source has exactly one tiling, its segments are not empty, and a run from the start of the
source ends at its end with the tokens and notes that the segments of the tiling give, in order. -/
theorem exists_unique_tiling_finish (source : Text) :
    ∃ segments : List Segment, Tiling source segments ∧
      (∀ others, Tiling source others → others = segments) ∧
      (∀ g ∈ segments, g.text ≠ []) ∧
      ∃ tokens notes, GiveAll 0 segments tokens notes ∧
        (Scanner.start source).finish =
          { offset := source.length, rest := [], tokens, notes } ∧
        Scan.of source = { tokens, notes } := by
  obtain ⟨segments, h⟩ := Tiling.exists_of source
  refine ⟨segments, h, fun others h' => h'.unique h, h.text_ne_nil,
    (Scan.of source).tokens, (Scan.of source).notes, ?_, ?_, rfl⟩
  · simpa only [Scan.shift_zero] using h.giveAll 0
  · rw [Scanner.finish_eq]
    simp [Scanner.absorb, Scanner.start]

example : Tiling "</a>b / >'".toList
    [.mark .endBracket, .word ['a'], .mark .closeBracket, .word ['b'], .blank [' '], .straySlash,
      .blank [' '], .mark .closeBracket, .unclosed .single []] := by
  decide +kernel

end TagLexer
