import TagLexer.Proofs.Scan.Concat

/-!
# The tokens that scans find

Whether a list of tokens is found in some source can be told token by token: each of them has to be
well formed on its own. Well-formed tokens are written one after the other, with a blank and an
empty comment behind each. The comment keeps a slash from being stray before a `>` or at the end,
which a blank alone would not.
-/

namespace TagLexer

namespace Token

/-- A token whose value is one that a token of its kind can have. -/
def WellFormed (t : Token) : Prop :=
  match t.kind with
  | .number => t.value.isNumberLiteral = true
  | .keyword k => t.value = k.spelling
  | .identifier =>
    t.value.IsWord ∧ t.value.isNumberLiteral = false ∧ ∀ k : Keyword, k.spelling ≠ t.value
  | .stringLiteral => '"' ∉ t.value ∨ '\'' ∉ t.value
  | .binaryOperator => t.value ∈ [['+'], ['-'], ['*'], ['/']]
  | .mark m => t.value = m.lexeme
  | .reserved _ => False

/-- The token that a word forms is well formed. -/
theorem wellFormed_ofWord {w : Text} (h : w.IsWord) : WellFormed ⟨w, .ofWord w⟩ := by
  rcases Kind.word_cases w with hn | ⟨k, rfl⟩ | ⟨hn, hk⟩
  · rw [Kind.ofWord_of_isNumberLiteral hn]
    exact hn
  · rw [Kind.ofWord_spelling]
    rfl
  · rw [Kind.ofWord_of_plain hn hk]
    exact ⟨h, hn, hk⟩

/-- A body without one of the quotes makes a well-formed string literal. -/
theorem wellFormed_of_not_mem {q : Quote} {body : Text} (h : q.char ∉ body) :
    WellFormed ⟨body, .stringLiteral⟩ := by
  cases q with
  | single => exact Or.inr h
  | double => exact Or.inl h

/-- Of the well-formed tokens only string literals can be empty. -/
theorem WellFormed.value_ne_nil {t : Token} (h : t.WellFormed) (hkind : t.kind ≠ .stringLiteral) :
    t.value ≠ [] := by
  obtain ⟨value, kind⟩ := t
  cases kind with
  | number => exact (Text.isWord_of_isNumberLiteral h).ne_nil
  | stringLiteral => exact absurd rfl hkind
  | identifier => exact h.1.ne_nil
  | binaryOperator =>
    rintro rfl
    simp [WellFormed] at h
  | keyword k =>
    obtain rfl : value = k.spelling := h
    exact k.isWord_spelling.ne_nil
  | mark m =>
    obtain rfl : value = m.lexeme := h
    cases m <;> exact List.cons_ne_nil _ _
  | reserved kind => exact absurd h id

end Token

/-- The token of a segment that fits is well formed. -/
theorem Segment.Fits.wellFormed {g : Segment} {after : Text} (h : g.Fits after) :
    ∀ t ∈ g.token?, t.WellFormed := by
  rintro t ht
  cases g with
  | mark m =>
    obtain rfl := Option.some.inj ht
    rfl
  | operator o =>
    obtain rfl := Option.some.inj ht
    cases o <;> simp [Token.WellFormed, Operator.char]
  | quoted q body =>
    obtain rfl := Option.some.inj ht
    exact Token.wellFormed_of_not_mem h
  | unclosed q body =>
    obtain rfl := Option.some.inj ht
    exact Token.wellFormed_of_not_mem h.1
  | word w =>
    obtain rfl := Option.some.inj ht
    exact Token.wellFormed_ofWord h.1
  | _ => simp [Segment.token?] at ht

/-- Every token that a scan finds is well formed. -/
theorem Scan.wellFormed_of_mem_tokens (source : Text) :
    ∀ t ∈ (Scan.of source).tokens, t.WellFormed := by
  induction source using Segment.text_induction with
  | nil => simp
  | append g after hf ih =>
    rw [Scan.of_append hf]
    intro t ht
    rcases List.mem_append.mp ht with ht | ht
    · exact hf.wellFormed t (Option.mem_toList.mp ht)
    · exact ih t ht

/-- A quote that a text does not hold, as long as it does not hold both. -/
def Quote.around (body : Text) : Quote := if '"' ∈ body then .single else .double

theorem Quote.char_around_not_mem {body : Text} (h : '"' ∉ body ∨ '\'' ∉ body) :
    (around body).char ∉ body := by
  unfold around
  split
  · next hd => exact h.resolve_left (not_not_intro hd)
  · next hd => exact hd

namespace Token

/-- The source text of a token. Only string literals need more than their value. -/
def written (t : Token) : Text :=
  if t.kind = .stringLiteral then
    (Quote.around t.value).char :: (t.value ++ [(Quote.around t.value).char])
  else t.value

/-- What is written behind every token: a blank, an empty comment and the end of the line. -/
def separator : Text := [' ', '/', '/', '\n']

/-- Tokens in a row, each with the separator behind it. -/
def writtenAll (ts : List Token) : Text := ts.flatMap fun t => t.written ++ separator

/-- A segment that stands for a token wherever the separator follows. -/
structure IsSegment (t : Token) (g : Segment) : Prop where
  /-- The segment's text is what is written for the token. -/
  text_eq : g.text = t.written
  /-- The segment gives the token and no note. -/
  scan_eq : g.scan = { tokens := [t], notes := [] }
  /-- The segment fits before the separator. -/
  fits : ∀ s, g.Fits (separator ++ s)

private theorem isSegment_word {w : Text} {kind : Kind} (hw : w.IsWord)
    (hkind : Kind.ofWord w = kind) (hs : kind ≠ .stringLiteral) :
    IsSegment ⟨w, kind⟩ (.word w) where
  text_eq := (if_neg hs).symm
  scan_eq := by rw [← hkind]; rfl
  fits _ := by
    refine ⟨hw, ?_⟩
    intro c hc
    obtain rfl := Option.some.inj hc
    decide

private theorem isSegment_operator (o : Operator) :
    IsSegment ⟨[o.char], .binaryOperator⟩ (.operator o) where
  text_eq := rfl
  scan_eq := rfl
  fits s := by
    intro _
    -- The first visible character behind the operator is the slash of the comment.
    have hvisible : Text.firstVisible? (separator ++ s) = some '/' := rfl
    refine ⟨by simp [Segment.LoneSlash, separator], ?_⟩
    simp [Segment.Stray, hvisible]

private theorem isSegment_quoted {body : Text} (h : '"' ∉ body ∨ '\'' ∉ body) :
    IsSegment ⟨body, .stringLiteral⟩ (.quoted (Quote.around body) body) where
  text_eq := rfl
  scan_eq := rfl
  fits _ := Quote.char_around_not_mem h

private theorem isSegment_mark (m : Mark) : IsSegment ⟨m.lexeme, .mark m⟩ (.mark m) where
  text_eq := rfl
  scan_eq := rfl
  fits _ := by simp [Segment.Fits, separator]

/-- Every well-formed token is written as one segment. -/
theorem WellFormed.exists_isSegment {t : Token} (h : t.WellFormed) : ∃ g, t.IsSegment g := by
  obtain ⟨value, kind⟩ := t
  cases kind with
  | number =>
    exact ⟨_, isSegment_word (Text.isWord_of_isNumberLiteral h)
      (Kind.ofWord_of_isNumberLiteral h) (by decide)⟩
  | stringLiteral => exact ⟨_, isSegment_quoted h⟩
  | identifier =>
    obtain ⟨hw, hn, hk⟩ := h
    exact ⟨_, isSegment_word hw (Kind.ofWord_of_plain hn hk) (by decide)⟩
  | binaryOperator =>
    simp only [WellFormed, List.mem_cons, List.not_mem_nil, or_false] at h
    rcases h with rfl | rfl | rfl | rfl
    · exact ⟨_, isSegment_operator .plus⟩
    · exact ⟨_, isSegment_operator .minus⟩
    · exact ⟨_, isSegment_operator .times⟩
    · exact ⟨_, isSegment_operator .divide⟩
  | keyword k =>
    obtain rfl : value = k.spelling := h
    exact ⟨_, isSegment_word k.isWord_spelling (Kind.ofWord_spelling k) (by simp)⟩
  | mark m =>
    obtain rfl : value = m.lexeme := h
    exact ⟨_, isSegment_mark m⟩
  | reserved kind => exact absurd h id

end Token

/-- The separator gives nothing. -/
theorem Scan.of_separator (s : Text) : Scan.of (Token.separator ++ s) = (Scan.of s).shift 4 := by
  have hcomment : (Segment.comment []).Fits ('\n' :: s) := ⟨by simp, by simp [Text.Stops]⟩
  calc
    Scan.of (Token.separator ++ s) =
        (Scan.of ((Segment.comment []).text ++ '\n' :: s)).shift 1 :=
      Scan.of_cons_of_isBlank (by decide) _
    _ = ((Scan.of ('\n' :: s)).shift 2).shift 1 := by
      rw [Scan.of_append hcomment]
      rfl
    _ = (((Scan.of s).shift 1).shift 2).shift 1 := by
      rw [Scan.of_cons_of_isBlank (by decide)]
    _ = (Scan.of s).shift 4 := by
      rw [Scan.shift_shift, Scan.shift_shift]

/-- Well-formed tokens are found again in what is written for them, without a note. -/
theorem Scan.of_writtenAll {ts : List Token} (h : ∀ t ∈ ts, t.WellFormed) :
    Scan.of (Token.writtenAll ts) = { tokens := ts, notes := [] } := by
  induction ts with
  | nil => exact Scan.of_nil
  | cons t ts ih =>
    obtain ⟨ht, hts⟩ := List.forall_mem_cons.mp h
    obtain ⟨g, hg⟩ := ht.exists_isSegment
    have hcons : Token.writtenAll (t :: ts) =
        g.text ++ (Token.separator ++ Token.writtenAll ts) := by
      rw [hg.text_eq, ← List.append_assoc]
      rfl
    rw [hcons, Scan.of_append (hg.fits _), Scan.of_separator, ih hts, hg.scan_eq]
    rfl

/-- A list of tokens is found in some source exactly when each of them is well formed, and exactly
then it is found in some source without a note. -/
theorem exists_scan_tokens_iff (ts : List Token) :
    ((∃ source, (Scan.of source).tokens = ts) ↔ ∀ t ∈ ts, t.WellFormed) ∧
      ((∃ source, Scan.of source = { tokens := ts, notes := [] }) ↔ ∀ t ∈ ts, t.WellFormed) := by
  refine ⟨⟨?_, ?_⟩, ⟨?_, ?_⟩⟩
  · rintro ⟨source, rfl⟩
    exact Scan.wellFormed_of_mem_tokens source
  · intro h
    exact ⟨Token.writtenAll ts, by rw [Scan.of_writtenAll h]⟩
  · rintro ⟨source, hs⟩
    have htokens : (Scan.of source).tokens = ts := by rw [hs]
    exact htokens ▸ Scan.wellFormed_of_mem_tokens source
  · intro h
    exact ⟨Token.writtenAll ts, Scan.of_writtenAll h⟩

end TagLexer
