import TagLexer.Proofs.Program.Delivery
import TagLexer.Proofs.Program.Refusal

/-!
# How a program ends

A program that understands its command line and does not watch its input should return an exit code.
It reports an input that gives no source and refuses settings that do not follow the grammar, but
other faults pass it by: those of a settings file that cannot be read, or not as text, or not within
the limits of a number and of the stack (`Settings.Unsettled`), and those of a run whose listing
cannot be made or delivered (`Settings.Breaks`). These are all the faults that escape, and each of
them does (`session_ending`).
-/

namespace TagLexer

namespace Config

/-- What keeps a settings file from being read although something may stand there: its name is too
long, a directory on the way may not be searched, or the file itself may not be read. -/
inductive Barred (fs : FileSystem) (path : Path) : FileFault → Prop
  | name {p : Path} : fs.find path = .error (.os .nameTooLong p) →
      Barred fs path (.os .nameTooLong p)
  | search {p : Path} : fs.find path = .error (.os .permissionDenied p) →
      Barred fs path (.os .permissionDenied p)
  | read {content : Bytes} {modified : Int} {access : Access} :
      fs.find path = .ok (.file content modified access) → access.read = false →
      Barred fs path (.os .permissionDenied path)

variable {stack : Toml.Stack} {fs : FileSystem} {path : Path} {bytes : Bytes}

theorem load_of_barred {f : FileFault} (h : Barred fs path f) :
    load stack fs path = .error (.fault (.file f)) := by
  cases h with
  | name hfind => simp [load, FileSystem.isFile, hfind, liftFile, bind, Except.bind]
  | search hfind => simp [load, FileSystem.isFile, hfind, liftFile, bind, Except.bind]
  | read hfind hread =>
    simp [load, FileSystem.isFile, FileSystem.read, hfind, hread, FileSystem.contentOf,
      FileSystem.refuse, liftFile, bind, Except.bind]

theorem load_of_read (h : fs.read path = .ok bytes) : load stack fs path = parse stack bytes := by
  obtain ⟨_, _, hfind, -⟩ := FileSystem.read_eq_ok_iff.mp h
  simp [load, FileSystem.isFile, hfind, h, liftFile, bind, Except.bind]

/-- A settings file is barred, it is read, or there is none. -/
theorem load_cases (stack : Toml.Stack) (fs : FileSystem) (path : Path) :
    (∃ f, Barred fs path f) ∨ (∃ bytes, fs.read path = .ok bytes) ∨
      load stack fs path = .ok [] := by
  cases hfind : fs.find path with
  | ok entry =>
    cases entry with
    | file content modified access =>
      cases hread : access.read with
      | false => exact .inl ⟨_, .read hfind hread⟩
      | true =>
        exact .inr (.inl ⟨content, FileSystem.read_eq_ok_iff.mpr ⟨_, _, hfind, hread⟩⟩)
    | directory =>
      exact .inr (.inr (by simp [load, FileSystem.isFile, hfind, liftFile, bind, Except.bind,
        pure, Except.pure]))
  | error f =>
    -- The other errors say that no file stands there.
    have hnone : FileSystem.isFile fs path = .ok false → load stack fs path = .ok [] := by
      intro hfile
      simp [load, hfile, liftFile, bind, Except.bind, pure, Except.pure]
    cases f with
    | nullByte => exact .inr (.inr (hnone (by simp [FileSystem.isFile, hfind])))
    | os e p =>
      cases e with
      | nameTooLong => exact .inl ⟨_, .name hfind⟩
      | permissionDenied => exact .inl ⟨_, .search hfind⟩
      | noEntry | notDirectory | isDirectory =>
        exact .inr (.inr (hnone (by simp [FileSystem.isFile, hfind])))

theorem parse_eq_malformed_iff :
    parse stack bytes = .error .malformed ↔
      ∃ text, bytes = Utf8.encode text ∧ Toml.parse stack text = .error .malformed := by
  constructor
  · intro h
    unfold parse at h
    split at h
    · cases h
    next text htext =>
    obtain rfl := Utf8.decode_eq_ok_iff.mp htext
    split at h
    · cases h
    · next hparse => exact ⟨text, rfl, hparse⟩
    · cases h
    · cases h
  · rintro ⟨text, rfl, hparse⟩
    simp only [parse, Utf8.decode_encode, hparse]

/-- Settings cannot be had from bytes that are not UTF-8, or because of an integer that is too long
or of values that are nested too deep. -/
theorem parse_eq_fault_iff {f : Fault} :
    parse stack bytes = .error (.fault f) ↔
      (∃ g, Utf8.decode bytes = .error g ∧ f = .notUtf8 g) ∨
        ∃ text, bytes = Utf8.encode text ∧
          ((∃ digits, Toml.parse stack text = .error (.longInteger digits) ∧
              f = .longInteger digits) ∨
            (Toml.parse stack text = .error .tooDeep ∧ f = .tooDeep)) := by
  constructor
  · intro h
    unfold parse at h
    split at h
    · next g hbytes => exact .inl ⟨g, hbytes, by simpa [eq_comm] using h⟩
    next text htext =>
    obtain rfl := Utf8.decode_eq_ok_iff.mp htext
    split at h
    · cases h
    · cases h
    · next digits hparse =>
      exact .inr ⟨text, rfl, .inl ⟨digits, hparse, by simpa [eq_comm] using h⟩⟩
    · next hparse => exact .inr ⟨text, rfl, .inr ⟨hparse, by simpa [eq_comm] using h⟩⟩
  · rintro (⟨g, hbytes, rfl⟩ | ⟨text, rfl, ⟨digits, hparse, rfl⟩ | ⟨hparse, rfl⟩⟩)
    · simp only [parse, hbytes]
    · simp only [parse, Utf8.decode_encode, hparse]
    · simp only [parse, Utf8.decode_encode, hparse]

end Config

namespace Settings

variable {stack : Toml.Stack} {fs : FileSystem} {args : Arguments} {s : Settings} {f : Fault}

/-- The faults of a settings file that are not refusals: something keeps it from being read, it is
not UTF-8, an integer in it is too long or its values are nested too deep to be read, or what it
gives for the format cannot be shown. -/
inductive Unsettled (stack : Toml.Stack) (fs : FileSystem) (args : Arguments) : Fault → Prop
  | file {f : FileFault} : Config.Barred fs (configPath args) f → Unsettled stack fs args (.file f)
  | bytes {bytes : Bytes} {f : Utf8.Fault} : fs.read (configPath args) = .ok bytes →
      Utf8.decode bytes = .error f → Unsettled stack fs args (.notUtf8 f)
  | integer {text : Text} {digits : Nat} : fs.read (configPath args) = .ok (Utf8.encode text) →
      Toml.parse stack text = .error (.longInteger digits) →
      Unsettled stack fs args (.longInteger digits)
  | nesting {text : Text} : fs.read (configPath args) = .ok (Utf8.encode text) →
      Toml.parse stack text = .error .tooDeep → Unsettled stack fs args .tooDeep
  | format {config : Toml.Table} {cause : Toml.Unshown} :
      Config.load stack fs (configPath args) = .ok config →
      Refused stack config (.fault (.unshown cause)) → Unsettled stack fs args (.unshown cause)

/-- The faults of a run that it does not report: the path of its input holds a null character, its
listing has no format, or its listing cannot be written. -/
inductive Breaks (s : Settings) (fs : FileSystem) : Fault → Prop
  | input : fs.read s.input = .error .nullByte → Breaks s fs (.file .nullByte)
  | format {source : Text} : s.Reads fs source → s.format = .void →
      Breaks s fs (.unknownFormat .unnamed)
  | output {listing : Text} {path : Path} {f : FileFault} : s.Lists fs listing →
      s.output = some path → fs.write path (Utf8.encode listing) = .error f → Breaks s fs (.file f)

/-- Settings are not settled because of a fault exactly where the settings file has one. -/
theorem resolve_eq_fault_iff :
    resolve stack fs args = .error (.fault f) ↔ Unsettled stack fs args f := by
  constructor
  · intro h
    unfold resolve at h
    split at h
    · cases h
    · next g hload =>
      obtain rfl : g = f := by simpa using h
      rcases Config.load_cases stack fs (configPath args) with
        ⟨g', hbarred⟩ | ⟨bytes, hread⟩ | hnone
      · rw [Config.load_of_barred hbarred] at hload
        obtain rfl : .file g' = g := by simpa using hload
        exact .file hbarred
      · rw [Config.load_of_read hread] at hload
        rcases Config.parse_eq_fault_iff.mp hload with
          ⟨g', hbytes, rfl⟩ | ⟨text, rfl, ⟨digits, hparse, rfl⟩ | ⟨hparse, rfl⟩⟩
        · exact .bytes hread hbytes
        · exact .integer hread hparse
        · exact .nesting hread hparse
      · cases hnone.symm.trans hload
    · next config hload =>
      have hrefused := merge_eq_error_iff.mp h
      cases hrefused with
      | unshown hvalue hcause => exact .format hload (.unshown hvalue hcause)
  · intro h
    cases h with
    | file hbarred => simp only [resolve, Config.load_of_barred hbarred]
    | bytes hread hbytes =>
      simp only [resolve, Config.load_of_read hread,
        Config.parse_eq_fault_iff.mpr (.inl ⟨_, hbytes, rfl⟩)]
    | integer hread hparse =>
      simp only [resolve, Config.load_of_read hread,
        Config.parse_eq_fault_iff.mpr (.inr ⟨_, rfl, .inl ⟨_, hparse, rfl⟩⟩)]
    | nesting hread hparse =>
      simp only [resolve, Config.load_of_read hread,
        Config.parse_eq_fault_iff.mpr (.inr ⟨_, rfl, .inr ⟨hparse, rfl⟩⟩)]
    | format hload hrefused =>
      simp only [resolve, hload]
      exact merge_eq_error_iff.mpr hrefused

/-- Of the faults of an input, only a null character in its path is not reported. -/
theorem Unread.isReported_eq_false_iff (h : s.Unread fs f) :
    f.isReported = false ↔ f = .file .nullByte := by
  cases h with
  | @file g _ => cases g <;> simp [Fault.isReported]
  | notUtf8 => simp [Fault.isReported]

/-- A run ends with a fault exactly where it breaks. -/
theorem run_ending_eq_escaped_iff : (s.run fs).ending = .escaped f ↔ s.Breaks fs f := by
  constructor
  · intro h
    have hcourse : s.Course fs (s.run fs) := run_eq_iff.mp rfl
    generalize s.run fs = outcome at h hcourse
    cases hcourse with
    | reported => cases h
    | unread hunread hreported =>
      obtain rfl := Ending.escaped.inj h
      obtain rfl := hunread.isReported_eq_false_iff.mp hreported
      cases hunread with
      | file hread => exact .input hread
    | unlisted hsource hvoid =>
      obtain rfl := Ending.escaped.inj h
      exact .format hsource hvoid
    | undelivered hsource hlist hdeliver =>
      obtain rfl := Ending.escaped.inj h
      obtain ⟨format, hformat, rfl⟩ := list_eq_ok_iff.mp hlist
      obtain ⟨path, g, houtput, hwrite, rfl⟩ := deliver_eq_error_iff.mp hdeliver
      exact .output ⟨_, _, hsource, hformat, rfl⟩ houtput hwrite
    | delivered => cases h
  · intro h
    cases h with
    | input hread => rw [run_eq_iff.mpr (.unread (.file hread) rfl)]
    | format hsource hvoid => rw [run_eq_iff.mpr (.unlisted hsource hvoid)]
    | output hlists houtput hwrite =>
      obtain ⟨source, format, hsource, hformat, rfl⟩ := hlists
      have hlist : s.list (Scan.of source).tokens = .ok _ :=
        list_eq_ok_iff.mpr ⟨format, hformat, rfl⟩
      have hdeliver := deliver_eq_error_iff.mpr ⟨_, _, houtput, hwrite, rfl⟩
      rw [run_eq_iff.mpr (.undelivered hsource hlist hdeliver)]

/-- A run that does not break returns 0 or 1. -/
theorem run_ending_cases (s : Settings) (fs : FileSystem) :
    (s.run fs).ending = .returned 0 ∨ (s.run fs).ending = .returned 1 ∨
      ∃ f, (s.run fs).ending = .escaped f := by
  have hcourse : s.Course fs (s.run fs) := run_eq_iff.mp rfl
  generalize s.run fs = outcome at hcourse
  cases hcourse with
  | reported => exact .inr (.inl rfl)
  | unread | unlisted | undelivered => exact .inr (.inr ⟨_, rfl⟩)
  | delivered => exact .inl rfl

/-- An input that gives no source makes a run return 1, unless its path holds a null character. -/
theorem run_ending_of_unread (h : s.Unread fs f) (hf : f ≠ .file .nullByte) :
    (s.run fs).ending = .returned 1 := by
  have hreported : f.isReported = true := by
    rw [← Bool.not_eq_false]
    exact fun hfalse => hf (h.isReported_eq_false_iff.mp hfalse)
  rw [run_eq_iff.mpr (.reported h hreported)]

end Settings

/-- The faults that end a program with a command line: those of its settings file and those of its
run. -/
def Program.Escapes (stack : Toml.Stack) (fs : FileSystem) (args : Arguments) (f : Fault) : Prop :=
  Settings.Unsettled stack fs args f ∨
    ∃ settings, Settings.resolve stack fs args = .ok settings ∧ settings.Breaks fs f

/-- A program that understands its command line and does not watch its input ends as its settings
and its run say. -/
theorem Program.session_ending_eq {argv : List Text} {args : Arguments}
    (hparse : Arguments.parse argv = .ok args) (hwatch : args.watch = false)
    (stack : Toml.Stack) (fs : FileSystem) (changes : List (FileSystem → FileSystem)) :
    (session stack argv fs changes).ending =
      match Settings.resolve stack fs args with
      | .error (.fault f) => .escaped f
      | .error _ => .returned 2
      | .ok settings => (settings.run fs).ending := by
  cases hresolve : Settings.resolve stack fs args with
  | error refusal => cases refusal <;> simp only [session, settle, hparse, hresolve, ended]
  | ok settings =>
    have hoff : settings.watch = false := (Settings.watch_of_resolve hresolve).trans hwatch
    simp only [session, settle, hparse, hresolve, hoff, ended, Bool.false_eq_true, if_false]

/-- A program that understands its command line and does not watch its input returns 0, 1 or 2 or
ends with a fault, and the faults it ends with are exactly those that escape. It returns 2 when its
settings file is a text whose first fault is against the grammar, and 1 when its settings are
settled and its input cannot be read or is not UTF-8. -/
theorem session_ending {argv : List Text} {args : Arguments}
    (hparse : Arguments.parse argv = .ok args) (hwatch : args.watch = false)
    (stack : Toml.Stack) (fs : FileSystem) (changes : List (FileSystem → FileSystem)) :
    ((∃ code ≤ 2, (Program.session stack argv fs changes).ending = .returned code) ∨
        ∃ f, (Program.session stack argv fs changes).ending = .escaped f) ∧
      (∀ f, (Program.session stack argv fs changes).ending = .escaped f ↔
        Program.Escapes stack fs args f) ∧
      (∀ text, fs.read (Settings.configPath args) = .ok (Utf8.encode text) →
        Toml.parse stack text = .error .malformed →
        (Program.session stack argv fs changes).ending = .returned 2) ∧
      ∀ settings f, Settings.resolve stack fs args = .ok settings → settings.Unread fs f →
        f ≠ .file .nullByte → (Program.session stack argv fs changes).ending = .returned 1 := by
  rw [Program.session_ending_eq hparse hwatch]
  refine ⟨?_, fun f => ?_, fun text hread hmalformed => ?_,
    fun settings f hresolve hunread hf => ?_⟩
  · split
    · exact .inr ⟨_, rfl⟩
    · exact .inl ⟨2, by decide, rfl⟩
    next settings _ =>
    rcases settings.run_ending_cases fs with h | h | h
    · exact .inl ⟨0, by decide, h⟩
    · exact .inl ⟨1, by decide, h⟩
    · exact .inr h
  · unfold Program.Escapes
    rw [← Settings.resolve_eq_fault_iff]
    split
    · next hresolve => simp [hresolve]
    · next refusal hrefusal hresolve =>
      have hne : refusal ≠ .fault f := hrefusal f
      simp [hresolve, hne]
    · next settings hresolve => simp [hresolve, Settings.run_ending_eq_escaped_iff]
  · have hload : Config.load stack fs (Settings.configPath args) = .error .malformed := by
      rw [Config.load_of_read hread]
      exact Config.parse_eq_malformed_iff.mpr ⟨text, rfl, hmalformed⟩
    simp only [Settings.resolve, hload]
  · simp only [hresolve]
    exact Settings.run_ending_of_unread hunread hf

/-- A listing for a directory that does not exist ends the program with a fault. -/
theorem session_ending_of_missing_directory :
    let argv := ["a.tag".toList, "-o".toList, "b/c".toList]
    let fs : FileSystem :=
      { entries := [([], .directory 0), (["a.tag".toList], .file [] 0)], current := [], clock := 1 }
    let f : Fault := .file (.os .noEntry (.ofText "b/c".toList))
    (Program.session .usual argv fs []).ending = .escaped f ∧
      ∃ args, Arguments.parse argv = .ok args ∧ Program.Escapes .usual fs args f := by
  intro argv fs f
  let args : Arguments :=
    { input := "a.tag".toList, output := some (.value "b/c".toList), format := none,
      config := none, watch := false, debug := false }
  have hparse : Arguments.parse argv = .ok args := rfl
  have hending : (Program.session .usual argv fs []).ending = .escaped f := by decide +kernel
  obtain ⟨-, hescapes, -⟩ := session_ending hparse rfl .usual fs []
  exact ⟨hending, args, hparse, (hescapes f).mp hending⟩

/-- A settings file that is not UTF-8 is not refused but ends the program with a fault. -/
theorem session_escaped_by_settings :
    let argv := ["a.tag".toList]
    let fs : FileSystem :=
      { entries := [([], .directory 0), (["a.tag".toList], .file [0x78] 0),
          (["tagscript.toml".toList], .file [0xFF] 0)]
        current := []
        clock := 1 }
    (∃ args, Arguments.parse argv = .ok args ∧ args.watch = false ∧
        fs.read (Settings.configPath args) = .ok [0xFF]) ∧
      (Program.session .usual argv fs []).ending =
        .escaped (.notUtf8 { offset := 0, sequence := [0xFF], reason := .startByte }) := by
  intro argv fs
  exact ⟨⟨{ input := "a.tag".toList, output := none, format := none, config := none, watch := false,
            debug := false }, rfl, rfl, rfl⟩, by decide +kernel⟩

/-- However many calls there are, a settings file with enough lists within lists is not refused but
ends the program with a fault, whether the lists are closed behind their brackets or not. -/
theorem session_escaped_by_nesting (stack : Toml.Stack) (rest : Text) :
    let fs : FileSystem :=
      { entries := [([], .directory 0), (["a.tag".toList], .file [0x78] 0),
          (["tagscript.toml".toList],
            .file (Utf8.encode ('a' :: '=' :: (List.replicate (stack.reading + 2) '[' ++ rest))) 0)]
        current := []
        clock := 1 }
    (Program.session stack ["a.tag".toList] fs []).ending = .escaped .tooDeep := by
  intro fs
  let args : Arguments :=
    { input := "a.tag".toList, output := none, format := none, config := none, watch := false,
      debug := false }
  have hread : fs.read (Settings.configPath args) =
      .ok (Utf8.encode ('a' :: '=' :: (List.replicate (stack.reading + 2) '[' ++ rest))) := rfl
  have hdeep : stack.reading < Toml.Bracket.list.calls * (stack.reading + 1) := by
    simp only [Toml.Bracket.calls]
    omega
  have hresolve : Settings.resolve stack fs args = .error (.fault .tooDeep) :=
    Settings.resolve_eq_fault_iff.mpr (.nesting hread (Toml.parse_lists_tooDeep hdeep rest))
  rw [@Program.session_ending_eq ["a.tag".toList] args rfl rfl, hresolve]

end TagLexer
