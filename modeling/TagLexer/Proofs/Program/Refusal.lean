import TagLexer.Program.Settings
import TagLexer.Proofs.Toml.Nesting

/-!
# Formats that are refused

A settings file may hold any value where it should name a format. Settings are refused exactly if
that value is not the name of a format (`Settings.merge_eq_error_iff`). The refusal shows the value,
unless messages cannot show it, which is a fault of its own (`Settings.Refused`).
-/

namespace TagLexer

/-- A format is found by its name and by no other. -/
theorem Format.ofName?_eq_some_iff {word : Text} {format : Format} :
    ofName? word = some format ↔ word = format.name := by
  constructor
  · intro h
    have hname := List.find?_some h
    exact (eq_of_beq hname).symm
  · rintro rfl
    cases format <;> rfl

namespace Settings

/-- A settings file has a table about the output, and in it a value for a key. -/
def OutputEntry (config : Toml.Table) (key : Text) (value : Toml.Value) : Prop :=
  ∃ entries : Toml.Table, config.get? "output".toList = some (.table entries) ∧
    entries.get? key = some value

/-- A settings file has a value for the format that is not the name of one. -/
def Misnamed (config : Toml.Table) (value : Toml.Value) : Prop :=
  OutputEntry config "format".toList value ∧ ∀ format : Format, value ≠ .string format.name

/-- What a settings file is refused for: a format that does not exist, or, where messages cannot
show what stands in its place, the cause of that. They can show what is not nested too deep and
holds no integer that is too long. -/
inductive Refused (stack : Toml.Stack) (config : Toml.Table) : Refusal → Prop
  | shown {value : Toml.Value} : Misnamed config value → value.depth ≤ stack.showing →
      ¬ value.HasLongInteger → Refused stack config (.invalidFormat value)
  | unshown {value : Toml.Value} {cause : Toml.Unshown} : Misnamed config value →
      value.unshown? stack.showing = some cause → Refused stack config (.fault (.unshown cause))

variable {stack : Toml.Stack} {config : Toml.Table}

theorem outputTable_get?_eq_some_iff {key : Text} {value : Toml.Value} :
    (outputTable config).get? key = some value ↔ OutputEntry config key value := by
  unfold outputTable OutputEntry
  split
  · next table h =>
    constructor
    · exact fun hvalue => ⟨table, h, hvalue⟩
    · rintro ⟨entries, hentries, hvalue⟩
      obtain rfl := Toml.Value.table.inj (Option.some.inj (h.symm.trans hentries))
      exact hvalue
  · next h =>
    constructor
    · intro hvalue
      cases hvalue
    · rintro ⟨entries, hentries, -⟩
      exact absurd hentries (h entries)

theorem OutputEntry.unique {key : Text} {value other : Toml.Value}
    (h : OutputEntry config key value) (h' : OutputEntry config key other) : value = other :=
  Option.some.inj
    ((outputTable_get?_eq_some_iff.mpr h).symm.trans (outputTable_get?_eq_some_iff.mpr h'))

/-- The format of a settings file: there is none, it is one of those that exist, or it is
refused. -/
theorem configuredFormat_cases (stack : Toml.Stack) (config : Toml.Table) :
    ((∀ value, ¬ OutputEntry config "format".toList value) ∧
        configuredFormat stack config = .ok none) ∨
      (∃ format : Format, OutputEntry config "format".toList (.string format.name) ∧
        configuredFormat stack config = .ok (some format)) ∨
      ∃ value, Misnamed config value ∧
        configuredFormat stack config = .error (refuseFormat stack value) := by
  unfold configuredFormat
  split
  · next h =>
    refine .inl ⟨fun value hvalue => ?_, rfl⟩
    cases h.symm.trans (outputTable_get?_eq_some_iff.mpr hvalue)
  · next name h =>
    have hentry := outputTable_get?_eq_some_iff.mp h
    split
    · next format hname =>
      obtain rfl := Format.ofName?_eq_some_iff.mp hname
      exact .inr (.inl ⟨format, hentry, rfl⟩)
    · next hname =>
      refine .inr (.inr ⟨_, ⟨hentry, fun format hformat => ?_⟩, rfl⟩)
      have hfound := Format.ofName?_eq_some_iff.mpr (Toml.Value.string.inj hformat)
      cases hname.symm.trans hfound
  · next value hvalue h =>
    refine .inr (.inr ⟨value, ⟨outputTable_get?_eq_some_iff.mp h, fun format => ?_⟩, rfl⟩)
    exact hvalue format.name

theorem refused_iff {refusal : Refusal} :
    Refused stack config refusal ↔
      ∃ value, Misnamed config value ∧ refuseFormat stack value = refusal := by
  constructor
  · intro h
    cases h with
    | @shown value hvalue hdepth hshort =>
      have hnone := (value.unshown?_eq_none_iff stack.showing).mpr ⟨hdepth, hshort⟩
      exact ⟨value, hvalue, by simp only [refuseFormat, hnone]⟩
    | @unshown value cause hvalue hcause =>
      exact ⟨value, hvalue, by simp only [refuseFormat, hcause]⟩
  · rintro ⟨value, hvalue, rfl⟩
    unfold refuseFormat
    split
    · next hnone =>
      obtain ⟨hdepth, hshort⟩ := (value.unshown?_eq_none_iff stack.showing).mp hnone
      exact .shown hvalue hdepth hshort
    · next hcause => exact .unshown hvalue hcause

theorem configuredFormat_eq_error_iff {refusal : Refusal} :
    configuredFormat stack config = .error refusal ↔ Refused stack config refusal := by
  rw [refused_iff]
  constructor
  · intro h
    rcases configuredFormat_cases stack config with
      ⟨-, hformat⟩ | ⟨format, -, hformat⟩ | ⟨value, hvalue, hformat⟩
    · cases h.symm.trans hformat
    · cases h.symm.trans hformat
    · exact ⟨value, hvalue, Except.error.inj (hformat.symm.trans h)⟩
  · rintro ⟨value, ⟨hentry, hvalue⟩, rfl⟩
    rcases configuredFormat_cases stack config with
      ⟨hnone, -⟩ | ⟨format, hformat, -⟩ | ⟨other, ⟨hother, -⟩, hformat⟩
    · exact absurd hentry (hnone value)
    · exact absurd (hentry.unique hformat) (hvalue format)
    · rw [hformat, hentry.unique hother]

/-- Merged settings are refused for the format of the settings file alone. -/
theorem merge_eq_error_iff {args : Arguments} {refusal : Refusal} :
    merge stack args config = .error refusal ↔ Refused stack config refusal := by
  rw [← configuredFormat_eq_error_iff]
  unfold merge
  cases configuredFormat stack config with
  | ok format => simp [bind, Except.bind, pure, Except.pure]
  | error other => simp [bind, Except.bind]

end Settings

end TagLexer
