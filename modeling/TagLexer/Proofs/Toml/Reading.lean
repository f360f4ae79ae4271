import TagLexer.Proofs.Text.Classes
import TagLexer.Toml.Reader

/-!
# What readers take

`Reader.Reads` says what a reader finds at the front of a text and what it leaves. Every combinator
of readers has its law, so that what a reader built from them takes can be read off its definition.
-/

namespace TagLexer.Toml.Reader

variable {α β : Type}

/-- A reader finds something at the front of a text and leaves the given rest. -/
def Reads (reader : Reader α) (s : Text) (a : α) (rest : Text) : Prop :=
  ∃ r : Remainder s, reader s = .ok (a, r) ∧ r.text = rest

variable {s rest : Text}

@[simp] theorem reads_pure_iff {a b : α} :
    Reads (pure a) s b rest ↔ a = b ∧ s = rest := by
  constructor
  · rintro ⟨r, hr, rfl⟩
    obtain ⟨rfl, rfl⟩ := Prod.mk.inj (Except.ok.inj hr)
    exact ⟨rfl, rfl⟩
  · rintro ⟨rfl, rfl⟩
    exact ⟨.whole s, rfl, rfl⟩

@[simp] theorem not_reads_fail {fault : Fault} {a : α} : ¬ Reads (fail fault) s a rest := by
  rintro ⟨r, hr, -⟩
  cases hr

/-- One reader after another reads what the first leaves. -/
@[simp] theorem reads_bind_iff {first : Reader α} {next : α → Reader β} {b : β} :
    Reads (first >>= next) s b rest ↔
      ∃ a after, Reads first s a after ∧ Reads (next a) after b rest := by
  have hbind : (first >>= next) s = Reader.bind first next s := rfl
  constructor
  · rintro ⟨r, hr, rfl⟩
    rw [hbind, Reader.bind] at hr
    cases hfirst : first s with
    | error fault => simp [hfirst] at hr
    | ok found =>
      obtain ⟨a, r₁⟩ := found
      simp only [hfirst, resume] at hr
      cases hnext : next a r₁.text with
      | error fault => simp [hnext] at hr
      | ok found' =>
        obtain ⟨b', r₂⟩ := found'
        rw [hnext] at hr
        obtain ⟨rfl, rfl⟩ := Prod.mk.inj (Except.ok.inj hr)
        exact ⟨a, r₁.text, ⟨r₁, hfirst, rfl⟩, ⟨r₂, hnext, rfl⟩⟩
  · rintro ⟨a, after, ⟨r₁, hfirst, rfl⟩, ⟨r₂, hnext, rfl⟩⟩
    refine ⟨r₁.trans r₂, ?_, rfl⟩
    simp only [hbind, Reader.bind, hfirst, resume, hnext]

@[simp] theorem reads_ofOption_iff {o : Option α} {a : α} :
    Reads (ofOption o) s a rest ↔ o = some a ∧ s = rest := by
  cases o with
  | none => simp [ofOption]
  | some b => simp [ofOption]

/-- So many characters are taken as a measure says. -/
theorem reads_take_iff {measure : Text → Nat} {taken : Text} :
    Reads (take measure) s taken rest ↔ s.take (measure s) = taken ∧ s.drop (measure s) = rest := by
  constructor
  · rintro ⟨r, hr, rfl⟩
    obtain ⟨rfl, rfl⟩ := Prod.mk.inj (Except.ok.inj hr)
    exact ⟨rfl, rfl⟩
  · rintro ⟨rfl, rfl⟩
    exact ⟨_, rfl, rfl⟩

/-- The characters of a class that are taken are a maximal run. -/
@[simp] theorem reads_takeWhile_iff {p : Char → Bool} {run : Text} :
    Reads (takeWhile p) s run rest ↔ run ++ rest = s ∧ Text.MaximalRun p run rest := by
  have hsplit := List.takeWhile_append_dropWhile (p := p) (l := s)
  rw [takeWhile, reads_take_iff]
  constructor
  · rintro ⟨rfl, rfl⟩
    refine ⟨List.take_append_drop .., ?_⟩
    have hrun := Text.MaximalRun.of_takeWhile p s
    generalize s.takeWhile p = run, s.dropWhile p = rest at hsplit hrun ⊢
    rwa [← hsplit, List.take_left, List.drop_left]
  · rintro ⟨rfl, hrun⟩
    rw [hrun.takeWhile_eq]
    exact ⟨List.take_left, List.drop_left⟩

@[simp] theorem reads_skip_iff {p : Char → Bool} {a : Unit} :
    Reads (skip p) s a rest ↔ ∃ run, run ++ rest = s ∧ Text.MaximalRun p run rest := by
  simp [skip]

/-- As many characters of a class are taken as asked for. -/
@[simp] theorem reads_count_iff {n : Nat} {p : Char → Bool} {taken : Text} :
    Reads (count n p) s taken rest ↔
      taken ++ rest = s ∧ taken.length = n ∧ ∀ c ∈ taken, p c = true := by
  rw [count, reads_bind_iff]
  constructor
  · rintro ⟨a, after, htake, hcheck⟩
    obtain ⟨rfl, rfl⟩ := reads_take_iff.mp htake
    split at hcheck
    · next h =>
      obtain ⟨rfl, rfl⟩ := reads_pure_iff.mp hcheck
      rw [Bool.and_eq_true, decide_eq_true_eq, List.all_eq_true] at h
      exact ⟨List.take_append_drop .., h.1, h.2⟩
    · exact absurd hcheck not_reads_fail
  · rintro ⟨rfl, rfl, hall⟩
    refine ⟨taken, rest, reads_take_iff.mpr ⟨List.take_left, List.drop_left⟩, ?_⟩
    rw [if_pos (by simpa using hall)]
    exact reads_pure_iff.mpr ⟨rfl, rfl⟩

@[simp] theorem reads_char_iff {p : Char → Bool} {c : Char} :
    Reads (char p) s c rest ↔ c :: rest = s ∧ p c = true := by
  rw [char, reads_bind_iff]
  constructor
  · rintro ⟨taken, after, hcount, hchar⟩
    obtain ⟨rfl, hlength, hall⟩ := reads_count_iff.mp hcount
    obtain ⟨d, rfl⟩ := List.length_eq_one_iff.mp hlength
    obtain ⟨rfl, rfl⟩ := reads_pure_iff.mp hchar
    exact ⟨rfl, hall d (List.mem_singleton_self d)⟩
  · rintro ⟨rfl, hc⟩
    refine ⟨[c], rest, reads_count_iff.mpr ⟨rfl, rfl, ?_⟩, reads_pure_iff.mpr ⟨rfl, rfl⟩⟩
    exact List.forall_mem_singleton.mpr hc

@[simp] theorem reads_exactly_iff {text : Text} {a : Unit} :
    Reads (exactly text) s a rest ↔ text ++ rest = s := by
  rw [exactly, reads_bind_iff]
  constructor
  · rintro ⟨taken, after, htake, hcheck⟩
    obtain ⟨rfl, rfl⟩ := reads_take_iff.mp htake
    split at hcheck
    · next h =>
      obtain ⟨-, rfl⟩ := reads_pure_iff.mp hcheck
      have hsplit := List.take_append_drop text.length s
      rwa [h] at hsplit
    · exact absurd hcheck not_reads_fail
  · rintro rfl
    refine ⟨text, rest, reads_take_iff.mpr ⟨List.take_left, List.drop_left⟩, ?_⟩
    rw [if_pos rfl]
    exact reads_pure_iff.mpr ⟨rfl, rfl⟩

end TagLexer.Toml.Reader
