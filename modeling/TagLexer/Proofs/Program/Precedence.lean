import Mathlib.Data.List.Basic
import TagLexer.Proofs.Arguments.Void
import TagLexer.Proofs.Program.Watching

/-!
# Where settings come from

A setting has three sources: the command line outweighs the settings file, and the settings file
outweighs what holds where nothing is said (`Settings.Layered`). Under any of its keys a settings
file may hold any value. A format that does not exist is refused whatever the command line says,
and every other value that a setting cannot have counts as not said (`Settings.merge_eq_ok_iff`).
So the settings have a format unless the command line makes it void (`resolve_precedence`), and a
void format is taken over by the settings and found out only by the listing
(`void_format_reaches_listing`).
-/

namespace TagLexer

namespace Toml.Value

/-- The values that count as false: the zeros, and what is empty. -/
inductive IsFalse : Value → Prop
  | string : IsFalse (.string [])
  | integer : IsFalse (.integer 0)
  | float (negative : Bool) (exponent : Int) : IsFalse (.float (.finite negative 0 exponent))
  | boolean : IsFalse (.boolean false)
  | array : IsFalse (.array [])
  | table : IsFalse (.table [])

theorem truth_eq_false_iff {value : Value} : value.truth = false ↔ value.IsFalse := by
  constructor
  · intro h
    cases value with
    | string text =>
      obtain rfl : text = [] := by simpa [truth] using h
      exact .string
    | integer n =>
      obtain rfl : n = 0 := by simpa [truth] using h
      exact .integer
    | float x =>
      cases x with
      | finite negative significand exponent =>
        obtain rfl : significand = 0 := by simpa [truth, Double.isZero] using h
        exact .float negative exponent
      | infinite | notANumber => simp [truth, Double.isZero] at h
    | boolean b =>
      obtain rfl : b = false := h
      exact .boolean
    | dateTime | date | time => simp [truth] at h
    | array items =>
      obtain rfl : items = [] := by simpa [truth] using h
      exact .array
    | table entries =>
      obtain rfl : entries = [] := by simpa [truth] using h
      exact .table
  · rintro (_ | _ | _ | _ | _ | _) <;> rfl

end Toml.Value

namespace Settings

/-- The value of a setting with three sources: what the command line gives, else what the settings
file gives, else the usual value. -/
inductive Layered {α : Type} (given configured : α → Prop) (usual : α) : α → Prop
  | given {a : α} : given a → Layered given configured usual a
  | configured {a : α} : (∀ b, ¬ given b) → configured a → Layered given configured usual a
  | usual : (∀ b, ¬ given b) → (∀ b, ¬ configured b) → Layered given configured usual usual

/-- The command line names an output, and not by an empty word. -/
def OutputGiven (args : Arguments) (output : Option Path) : Prop :=
  ∃ word, word ≠ [] ∧ args.output = some (.value word) ∧ output = some (.ofText word)

/-- A settings file names an output, and not by an empty text. -/
def OutputConfigured (config : Toml.Table) (output : Option Path) : Prop :=
  ∃ name, name ≠ [] ∧ OutputEntry config "file".toList (.string name) ∧
    output = some (.ofText name)

/-- A settings file names a format that exists. -/
def FormatConfigured (config : Toml.Table) (operand : Operand Format) : Prop :=
  ∃ format : Format, OutputEntry config "format".toList (.string format.name) ∧
    operand = .value format

/-- A settings file says whether to report notes, by any value that does or does not count as
false. -/
def DebugConfigured (config : Toml.Table) (debug : Bool) : Prop :=
  ∃ value, config.get? "debug".toList = some value ∧ (debug = false ↔ value.IsFalse)

/-- The settings that a command line and a settings file come to, setting by setting. -/
structure Merged (args : Arguments) (config : Toml.Table) (s : Settings) : Prop where
  /-- The input is named by the command line alone. -/
  input : s.input = .ofText args.input
  /-- Without an output the listing goes to the standard output. -/
  output : Layered (OutputGiven args) (OutputConfigured config) none s.output
  /-- The usual format is text. -/
  format : Layered (args.format = some ·) (FormatConfigured config) (.value .text) s.format
  /-- The command line can ask for reports but not forbid them. -/
  debug : Layered (fun debug => args.debug = true ∧ debug = true) (DebugConfigured config) false
    s.debug
  /-- Watching is asked for by the command line alone. -/
  watch : s.watch = args.watch

section Layered

variable {α : Type} {given configured : α → Prop} {usual a : α}

private theorem forall_not_iff_eq_none {p : α → Prop} {o : Option α}
    (h : ∀ b, p b ↔ o = some b) : (∀ b, ¬ p b) ↔ o = none := by
  simp only [h, Option.eq_none_iff_forall_ne_some, ne_eq]

/-- Layers whose values are optional come to the first of them that is there. -/
theorem layered_iff {first second : Option α} (hfirst : ∀ b, given b ↔ first = some b)
    (hsecond : ∀ b, configured b ↔ second = some b) :
    Layered given configured usual a ↔ (first.or second).getD usual = a := by
  constructor
  · intro h
    cases h with
    | given ha => simp [(hfirst a).mp ha]
    | configured hnone ha => simp [(forall_not_iff_eq_none hfirst).mp hnone, (hsecond a).mp ha]
    | usual hnone hnone' =>
      simp [(forall_not_iff_eq_none hfirst).mp hnone, (forall_not_iff_eq_none hsecond).mp hnone']
  · rintro rfl
    cases first with
    | some b => exact .given ((hfirst b).mpr rfl)
    | none =>
      have hnone := (forall_not_iff_eq_none hfirst).mpr rfl
      cases second with
      | some b => exact .configured hnone ((hsecond b).mpr rfl)
      | none => exact .usual hnone ((forall_not_iff_eq_none hsecond).mpr rfl)

/-- What the command line gives does not depend on the settings file. -/
theorem Layered.given_of_exists (h : Layered given configured usual a) (hgiven : ∃ b, given b) :
    given a := by
  obtain ⟨b, hb⟩ := hgiven
  cases h with
  | given ha => exact ha
  | configured hnone => exact absurd hb (hnone b)
  | usual hnone => exact absurd hb (hnone b)

end Layered

variable {stack : Toml.Stack} {config : Toml.Table} {args : Arguments} {s : Settings}

/-- A format that is not refused is the one that the settings file names. -/
theorem outputEntry_format_iff {configured : Option Format}
    (h : configuredFormat stack config = .ok configured) (format : Format) :
    OutputEntry config "format".toList (.string format.name) ↔ configured = some format := by
  rcases configuredFormat_cases stack config with
    ⟨hnone, hformat⟩ | ⟨other, hother, hformat⟩ | ⟨value, -, hformat⟩
  · obtain rfl := Except.ok.inj (h.symm.trans hformat)
    exact iff_of_false (hnone _) (by simp)
  · obtain rfl := Except.ok.inj (h.symm.trans hformat)
    constructor
    · intro hentry
      have hname := Toml.Value.string.inj (hother.unique hentry)
      rw [← Format.ofName?_eq_some_iff.mpr rfl, hname, Format.ofName?_eq_some_iff.mpr rfl]
    · intro hsame
      rwa [← Option.some.inj hsame]
  · cases h.symm.trans hformat

theorem outputGiven_iff {output : Option Path} :
    OutputGiven args output ↔ (namedPath args.output).map some = some output := by
  unfold OutputGiven namedPath
  constructor
  · rintro ⟨word, hne, hword, rfl⟩
    obtain ⟨c, word, rfl⟩ := List.exists_cons_of_ne_nil hne
    simp [hword]
  · intro h
    split at h
    · next c word hword => exact ⟨c :: word, by simp, hword, (Option.some.inj h).symm⟩
    · cases h

theorem outputConfigured_iff {output : Option Path} :
    OutputConfigured config output ↔ (configuredOutput config).map some = some output := by
  simp only [OutputConfigured, ← outputTable_get?_eq_some_iff]
  unfold configuredOutput
  constructor
  · rintro ⟨name, hne, hname, rfl⟩
    obtain ⟨c, name, rfl⟩ := List.exists_cons_of_ne_nil hne
    rw [hname]
    rfl
  · intro h
    split at h
    · next c name hname => exact ⟨c :: name, by simp, hname, (Option.some.inj h).symm⟩
    · cases h

theorem formatConfigured_iff {configured : Option Format}
    (h : configuredFormat stack config = .ok configured) {operand : Operand Format} :
    FormatConfigured config operand ↔ configured.map .value = some operand := by
  simp only [FormatConfigured, outputEntry_format_iff h, Option.map_eq_some_iff]
  exact exists_congr fun _ => and_congr_right fun _ => eq_comm

theorem debugConfigured_iff {debug : Bool} :
    DebugConfigured config debug ↔
      (config.get? "debug".toList).map Toml.Value.truth = some debug := by
  simp only [DebugConfigured, ← Toml.Value.truth_eq_false_iff, Option.map_eq_some_iff]
  refine exists_congr fun value => and_congr_right fun _ => ?_
  cases debug <;> cases value.truth <;> simp

theorem configuredDebug_eq (config : Toml.Table) :
    configuredDebug config = ((config.get? "debug".toList).map Toml.Value.truth).getD false := by
  unfold configuredDebug
  split
  · next value h =>
    rw [h]
    rfl
  · next h =>
    rw [h]
    rfl

theorem layered_output_iff {output : Option Path} :
    Layered (OutputGiven args) (OutputConfigured config) none output ↔
      (namedPath args.output).or (configuredOutput config) = output := by
  rw [layered_iff (fun _ => outputGiven_iff) fun _ => outputConfigured_iff]
  cases namedPath args.output <;> cases configuredOutput config <;> rfl

theorem layered_debug_iff {debug : Bool} :
    Layered (fun debug => args.debug = true ∧ debug = true) (DebugConfigured config) false debug ↔
      (args.debug || configuredDebug config) = debug := by
  have hgiven : ∀ on, args.debug = true ∧ on = true ↔
      (if args.debug then some true else none) = some on := by
    intro on
    cases args.debug <;> simp [eq_comm]
  rw [layered_iff hgiven fun _ => debugConfigured_iff, configuredDebug_eq]
  cases args.debug <;> simp

/-- Merged settings are those that the layers of each setting come to. -/
theorem merged_iff {configured : Option Format}
    (h : configuredFormat stack config = .ok configured) :
    Merged args config s ↔
      s =
        { input := .ofText args.input
          output := (namedPath args.output).or (configuredOutput config)
          format := (args.format.or (configured.map .value)).getD (.value .text)
          watch := args.watch
          debug := args.debug || configuredDebug config } := by
  have hlayers : ∀ {operand : Operand Format},
      Layered (args.format = some ·) (FormatConfigured config) (.value .text) operand ↔
        (args.format.or (configured.map .value)).getD (.value .text) = operand :=
    layered_iff (fun _ => Iff.rfl) fun _ => formatConfigured_iff h
  constructor
  · rintro ⟨hinput, houtput, hformat, hdebug, hwatch⟩
    obtain ⟨input, output, format, watch, debug⟩ := s
    obtain rfl := hinput
    obtain rfl := layered_output_iff.mp houtput
    obtain rfl := hlayers.mp hformat
    obtain rfl := hwatch
    obtain rfl := layered_debug_iff.mp hdebug
    rfl
  · rintro rfl
    exact ⟨rfl, layered_output_iff.mpr rfl, hlayers.mpr rfl, layered_debug_iff.mpr rfl, rfl⟩

/-- The settings are refused for what the settings file says alone, and else they are merged. -/
theorem merge_eq_ok_iff :
    merge stack args config = .ok s ↔
      (∀ value, ¬ Misnamed config value) ∧ Merged args config s := by
  cases hformat : configuredFormat stack config with
  | error refusal =>
    obtain ⟨value, hvalue, -⟩ := refused_iff.mp (configuredFormat_eq_error_iff.mp hformat)
    constructor
    · intro h
      cases h.symm.trans (merge_eq_error_iff.mpr (configuredFormat_eq_error_iff.mp hformat))
    · rintro ⟨hnone, -⟩
      exact absurd hvalue (hnone value)
  | ok configured =>
    have hnone : ∀ value, ¬ Misnamed config value := by
      intro value hvalue
      have hrefused : Refused stack config (refuseFormat stack value) :=
        refused_iff.mpr ⟨value, hvalue, rfl⟩
      cases hformat.symm.trans (configuredFormat_eq_error_iff.mpr hrefused)
    simp only [merge, hformat, bind, Except.bind, pure, Except.pure, Except.ok.injEq,
      merged_iff hformat, hnone, not_false_eq_true, implies_true, true_and, eq_comm]

/-- Merged settings have no format exactly if the command line makes it void. -/
theorem Merged.format_eq_void_iff (h : Merged args config s) :
    s.format = .void ↔ args.format = some .void := by
  constructor
  · intro hvoid
    have hlayers := h.format
    rw [hvoid] at hlayers
    cases hlayers with
    | given hgiven => exact hgiven
    | configured _ hconfigured =>
      obtain ⟨format, -, hformat⟩ := hconfigured
      cases hformat
  · intro hgiven
    have hformat := h.format.given_of_exists ⟨_, hgiven⟩
    exact (Option.some.inj (hgiven.symm.trans hformat)).symm

/-- Where the command line gives every setting that a settings file can give, all settings files
come to the same. -/
theorem Merged.eq_of_given {other : Toml.Table} {t : Settings} (h : Merged args config s)
    (h' : Merged args other t) (hformat : ∃ operand, args.format = some operand)
    (houtput : ∃ output, OutputGiven args output) (hdebug : args.debug = true) : s = t := by
  have hinput : s.input = t.input := h.input.trans h'.input.symm
  have hwatch : s.watch = t.watch := h.watch.trans h'.watch.symm
  have hformats : s.format = t.format :=
    Option.some.inj ((h.format.given_of_exists hformat).symm.trans
      (h'.format.given_of_exists hformat))
  have houtputs : s.output = t.output :=
    Option.some.inj ((outputGiven_iff.mp (h.output.given_of_exists houtput)).symm.trans
      (outputGiven_iff.mp (h'.output.given_of_exists houtput)))
  have hdebugs : s.debug = t.debug :=
    (h.debug.given_of_exists ⟨true, hdebug, rfl⟩).2.trans
      (h'.debug.given_of_exists ⟨true, hdebug, rfl⟩).2.symm
  obtain ⟨input, output, format, watch, debug⟩ := s
  obtain rfl : input = t.input := hinput
  obtain rfl : output = t.output := houtputs
  obtain rfl : format = t.format := hformats
  obtain rfl : watch = t.watch := hwatch
  obtain rfl : debug = t.debug := hdebugs
  rfl

variable {fs : FileSystem} {seen : Int} {e : Listing.UnknownFormat}

theorem exists_merged_of_resolve (h : resolve stack fs args = .ok s) :
    ∃ config, Merged args config s := by
  unfold resolve at h
  split at h
  · cases h
  · cases h
  · next config _ => exact ⟨config, (merge_eq_ok_iff.mp h).2⟩

theorem void_of_run_ending (h : (s.run fs).ending = .escaped (.unknownFormat e)) :
    s.format = .void := by
  cases run_ending_eq_escaped_iff.mp h with
  | format _ hvoid => exact hvoid

/-- A look that finds no format for the listing has settings without one. -/
theorem void_of_look_next {turn : Turn}
    (h : s.look seen fs = { turn, next := .error (.unknownFormat e) }) : s.format = .void := by
  rcases s.look_cases seen fs with ⟨-, hlook⟩ | ⟨-, hlook⟩ | ⟨_, -, -, hattempt⟩
  · simp [h] at hlook
  · simp [h] at hlook
  · rw [h] at hattempt
    cases hattempt with
    | ended hending _ => exact void_of_run_ending hending

theorem Watches.void_of_ending {changes : List (FileSystem → FileSystem)} {w : Session}
    (h : s.Watches seen fs changes w) (hending : w.ending = .escaped (.unknownFormat e)) :
    s.format = .void := by
  induction h with
  | interrupted => cases hending
  | ended hlook =>
    obtain rfl := Ending.escaped.inj hending
    exact void_of_look_next hlook
  | slept _ _ ih => exact ih hending

end Settings

theorem Session.ending_saying (said : Text) (w : Session) : (w.saying said).ending = w.ending := by
  unfold saying
  split <;> rfl

/-- A program that is ended because its listing has no format has a command line that makes it
void. -/
theorem Program.void_of_session_ending {stack : Toml.Stack} {argv : List Text} {args : Arguments}
    {fs : FileSystem} {changes : List (FileSystem → FileSystem)} {e : Listing.UnknownFormat}
    (hparse : Arguments.parse argv = .ok args)
    (hending : (session stack argv fs changes).ending = .escaped (.unknownFormat e)) :
    args.format = some .void := by
  cases hresolve : Settings.resolve stack fs args with
  | error refusal =>
    -- No listing is made yet, so the fault is one of the settings file.
    simp only [session, settle, hparse, hresolve] at hending
    cases refusal with
    | invalidConfig | invalidFormat => cases hending
    | fault f =>
      obtain rfl := Ending.escaped.inj hending
      cases Settings.resolve_eq_fault_iff.mp hresolve
  | ok s =>
    obtain ⟨config, hmerged⟩ := Settings.exists_merged_of_resolve hresolve
    refine hmerged.format_eq_void_iff.mp ?_
    have hsettle := settle_eq_ok_iff.mpr ⟨args, hparse, hresolve⟩
    simp only [session, hsettle] at hending
    split at hending
    · -- The greeting does not change how watching ends.
      rw [Settings.watchAll, s.watchFrom_eq_saying, Session.ending_saying] at hending
      exact (s.watches_watchFrom 0 fs changes).void_of_ending hending
    · exact Settings.void_of_run_ending hending

/-- Take a command line and a settings file that can be read. The settings are refused exactly if
the settings file has a format that does not exist, whatever the command line says; the refusal
shows it, or, where messages cannot show it, is the fault of that. Else the settings are settled,
and each setting is what the command line gives, else what the settings file gives, else the usual
value. They have a format, and the program never finds that its listing has none, unless the command
line makes the format void, for which it needs an argument that ends in `--` behind something else.
Where the command line gives format, output and reports, all settings files that are not refused
come to the same settings. -/
theorem resolve_precedence {stack : Toml.Stack} {argv : List Text} {args : Arguments}
    {fs : FileSystem} {config : Toml.Table} (hparse : Arguments.parse argv = .ok args)
    (hload : Config.load stack fs (Settings.configPath args) = .ok config) :
    (∀ refusal, Settings.resolve stack fs args = .error refusal ↔
        Settings.Refused stack config refusal) ∧
      ((∀ value, ¬ Settings.Misnamed config value) →
        ∃ s, Settings.resolve stack fs args = .ok s ∧
          ∀ t, Settings.Merged args config t ↔ t = s) ∧
      (∀ s, Settings.resolve stack fs args = .ok s →
        (s.format = .void ↔ args.format = some .void)) ∧
      (∀ changes e, (Program.session stack argv fs changes).ending = .escaped (.unknownFormat e) →
        args.format = some .void) ∧
      (args.format = some .void → ∃ word ∈ argv, Argument.Trailing word) ∧
      ∀ operand word other s t, args.format = some operand → args.output = some (.value word) →
        word ≠ [] → args.debug = true → Settings.resolve stack fs args = .ok s →
        Settings.resolve stack other args = .ok t → s = t := by
  have hresolve : Settings.resolve stack fs args = Settings.merge stack args config := by
    simp only [Settings.resolve, hload]
  refine ⟨fun refusal => ?_, fun hnone => ?_, fun s hs => ?_,
    fun _ _ => Program.void_of_session_ending hparse,
    Arguments.exists_trailing_of_void_format hparse, ?_⟩
  · rw [hresolve, Settings.merge_eq_error_iff]
  · cases hmerge : Settings.merge stack args config with
    | error refusal =>
      obtain ⟨value, hvalue, -⟩ := Settings.refused_iff.mp (Settings.merge_eq_error_iff.mp hmerge)
      exact absurd hvalue (hnone value)
    | ok s =>
      refine ⟨s, hresolve.trans hmerge, fun t => ⟨fun ht => ?_, ?_⟩⟩
      · exact Except.ok.inj ((Settings.merge_eq_ok_iff.mpr ⟨hnone, ht⟩).symm.trans hmerge)
      · rintro rfl
        exact (Settings.merge_eq_ok_iff.mp hmerge).2
  · obtain ⟨_, hmerged⟩ := Settings.exists_merged_of_resolve hs
    exact hmerged.format_eq_void_iff
  · intro operand word other s t hformat houtput hword hdebug hs ht
    obtain ⟨_, hmerged⟩ := Settings.exists_merged_of_resolve hs
    obtain ⟨_, hmerged'⟩ := Settings.exists_merged_of_resolve ht
    exact hmerged.eq_of_given hmerged' ⟨operand, hformat⟩ ⟨_, word, hword, houtput, rfl⟩ hdebug

/-- A command line that gives everything outweighs a settings file that gives everything. -/
theorem resolve_precedence_all_given :
    let argv := ["a.tag".toList, "-f".toList, "text".toList, "-o".toList, "c".toList,
      "--debug".toList]
    let args : Arguments :=
      { input := "a.tag".toList, output := some (.value "c".toList), format := some (.value .text),
        config := none, watch := false, debug := true }
    let config : Toml.Table :=
      [("debug".toList, .array []),
        ("output".toList,
          .table [("format".toList, .string "json".toList), ("file".toList, .string "b".toList)])]
    let settingsFile := "debug = []\n[output]\nformat = \"json\"\nfile = \"b\"".toList
    let bare : FileSystem :=
      { entries := [([], .directory 0), (["a.tag".toList], .file [0x78] 1)], current := [],
        clock := 2 }
    let fs : FileSystem :=
      { bare with
        entries := bare.entries ++ [(["tagscript.toml".toList],
          .file (Utf8.encode settingsFile) 1)] }
    let s : Settings :=
      { input := .ofText "a.tag".toList, output := some (.ofText "c".toList),
        format := .value .text, watch := false, debug := true }
    Arguments.parse argv = .ok args ∧
      Config.load .usual fs (Settings.configPath args) = .ok config ∧
      Settings.resolve .usual fs args = .ok s ∧ Settings.resolve .usual bare args = .ok s ∧
      Settings.Merged args config s ∧
      ∀ e, (Program.session .usual argv fs []).ending ≠ .escaped (.unknownFormat e) := by
  intro argv args config settingsFile bare fs s
  have hparse : Arguments.parse argv = .ok args := rfl
  have hread : fs.read (Settings.configPath args) = .ok (Utf8.encode settingsFile) := rfl
  have hsettings : Toml.parse .usual settingsFile = .ok config := by
    unfold settingsFile config
    cbv
  have hload : Config.load .usual fs (Settings.configPath args) = .ok config := by
    rw [Config.load_of_read hread]
    simp only [Config.parse, Utf8.decode_encode, hsettings]
  have hbare : Settings.resolve .usual bare args = .ok s := rfl
  have hnone : ∀ value, ¬ Settings.Misnamed config value := by
    rintro value ⟨⟨entries, hentries, hvalue⟩, hname⟩
    obtain rfl := Toml.Value.table.inj (Option.some.inj hentries)
    obtain rfl := Option.some.inj hvalue
    exact hname .json rfl
  obtain ⟨-, hsettled, -, hlisted, -, hgiven⟩ := resolve_precedence hparse hload
  obtain ⟨t, ht, hmerged⟩ := hsettled hnone
  obtain rfl : t = s := hgiven (.value .text) "c".toList bare t s rfl rfl (by simp) rfl ht hbare
  refine ⟨hparse, hload, ht, hbare, (hmerged s).mpr rfl, fun e hending => ?_⟩
  have hvoid : some (Operand.value Format.text) = some .void := hlisted [] e hending
  cases hvoid

/-- A void format is settled although there is no such format, and then ends the program. -/
theorem void_format_reaches_listing :
    let argv := ["a.tag".toList, "-f=--".toList]
    let fs : FileSystem :=
      { entries := [([], .directory 0), (["a.tag".toList], .file [0x78] 1)], current := [],
        clock := 2 }
    (∃ args s, Arguments.parse argv = .ok args ∧
        Config.load .usual fs (Settings.configPath args) = .ok [] ∧
        Settings.resolve .usual fs args = .ok s ∧ ∀ format, s.format ≠ .value format) ∧
      (Program.session .usual argv fs []).ending = .escaped (.unknownFormat .unnamed) := by
  intro argv fs
  let args : Arguments :=
    { input := "a.tag".toList, output := none, format := some .void, config := none,
      watch := false, debug := false }
  let s : Settings :=
    { input := .ofText "a.tag".toList, output := none, format := .void, watch := false,
      debug := false }
  exact ⟨⟨args, s, rfl, rfl, rfl, by simp [s]⟩, by decide +kernel⟩

end TagLexer
