import Mathlib.Logic.ExistsUnique
import TagLexer.Proofs.Program.Watching
import TagLexer.Proofs.Text.Quoted

/-!
# A watching program goes on

Each look of a watching program does nothing, or does what a single run with the same settings does,
or says on one line what went wrong (`Settings.Did`). What goes wrong with files does not end the
program: it goes on until it is interrupted and then returns 0. The one fault that ends it, as long
as no path holds a null character, is that its listing has no format (`session_survives`,
`session_ended_by_void_format`).
-/

namespace TagLexer

namespace Text

/-- A quoted text stays on one line. -/
theorem newline_not_mem_quoted (s : Text) : '\n' ∉ s.quoted := by
  intro hmem
  exact absurd (isPrintable_of_mem_quoted hmem) (by decide +kernel)

/-- A numeral stays on one line. -/
theorem newline_not_mem_ofNat (n : Nat) : '\n' ∉ ofNat n := by
  intro hmem
  obtain ⟨d, hd, hchar⟩ := exists_digitChar_of_mem_toDigits (by decide) hmem
  have hall : (List.range 10).all fun d => d.digitChar != '\n' := by decide
  have hne := List.all_eq_true.mp hall d (List.mem_range.mpr hd)
  simp [← hchar] at hne

theorem newline_not_mem_hex (width n : Nat) : '\n' ∉ hex width n := by
  intro hmem
  exact absurd (isPrintable_of_mem_hex hmem) (by decide +kernel)

end Text

/-- What is said about bytes that are no UTF-8 stays on one line. -/
theorem Utf8.Fault.newline_not_mem_message (f : Utf8.Fault) : '\n' ∉ f.message := by
  have hplace : '\n' ∉ f.place := by
    unfold place
    split
    · refine List.not_mem_append (List.not_mem_append (List.not_mem_append ?_ ?_) ?_) ?_
      · decide
      · exact Text.newline_not_mem_hex _ _
      · decide
      · exact Text.newline_not_mem_ofNat _
    · simp [Text.newline_not_mem_ofNat]
  have hreason : '\n' ∉ f.reason.message := by
    cases f.reason <;> decide
  unfold message
  exact List.not_mem_append (List.not_mem_append (List.not_mem_append (by decide) hplace)
    (by decide)) hreason

/-- What is said about a fault that is reported stays on one line. -/
theorem Fault.newline_not_mem_message {f : Fault} (h : f.isReported = true) : '\n' ∉ f.message := by
  cases f with
  | file g =>
    cases g with
    | nullByte => cases h
    | os error path =>
      have htext : '\n' ∉ error.text := by cases error <;> decide
      unfold message FileFault.message
      refine List.not_mem_append (List.not_mem_append (List.not_mem_append
        (List.not_mem_append (List.not_mem_append ?_ ?_) ?_) htext) ?_) ?_
      · decide
      · exact Text.newline_not_mem_ofNat _
      · decide
      · decide
      · exact Text.newline_not_mem_quoted _
  | notUtf8 g => exact g.newline_not_mem_message
  | longInteger | tooDeep | unshown | unknownFormat => cases h

namespace FileSystem

variable {fs : FileSystem} {path : Path}

private theorem null_mem_of_checkPath (h : checkPath path = .error .nullByte) :
    '\x00' ∈ path.write := by
  unfold checkPath at h
  split at h
  · next hnull => simpa using hnull
  · split at h <;> cases h

theorem null_mem_of_find (h : fs.find path = .error .nullByte) : '\x00' ∈ path.write := by
  unfold find at h
  cases hcheck : checkPath path with
  | error f =>
    obtain rfl : f = .nullByte := by simpa [hcheck, bind, Except.bind] using h
    exact null_mem_of_checkPath hcheck
  | ok =>
    simp only [hcheck] at h
    exact absurd h (refuse_ne_nullByte _ _)

theorem null_mem_of_read (h : fs.read path = .error .nullByte) : '\x00' ∈ path.write :=
  null_mem_of_find (find_eq_nullByte_of_read h)

theorem null_mem_of_write {content : Bytes} (h : fs.write path content = .error .nullByte) :
    '\x00' ∈ path.write := by
  unfold write at h
  cases hcheck : checkPath path with
  | error f =>
    obtain rfl : f = .nullByte := by simpa [hcheck, bind, Except.bind] using h
    exact null_mem_of_checkPath hcheck
  | ok =>
    cases htarget : fs.target path <;>
      simp [hcheck, htarget, refuse, bind, Except.bind, pure, Except.pure] at h

end FileSystem

/-- What a look at the input can do. -/
inductive Deed where
  /-- The look does nothing at all. -/
  | nothing
  /-- The input is scanned and its listing delivered. -/
  | success
  /-- The input is scanned in vain. -/
  | failure
  deriving DecidableEq, Repr

namespace Settings

/-- A single run with the same settings that does not watch the input. -/
def once (s : Settings) (fs : FileSystem) : Outcome := { s with watch := false }.run fs

/-- What a turn has to be for a deed. A success is what a single run on the same files does, with a
line behind it; a failure changes nothing and says on one line, behind the reports, what is wrong
with files that a single run does not succeed on either. -/
def Did (s : Settings) (t : Turn) : Deed → Prop
  | .nothing => t = .idle t.before
  | .success => (s.once t.before).ending = .returned 0 ∧
      t =
        { stdout := (s.once t.before).stdout
          stderr := (s.once t.before).stderr ++ "Tokenized ".toList ++ s.input.write ++ ['\n']
          before := t.before
          after := (s.once t.before).files }
  | .failure => (s.once t.before).ending ≠ .returned 0 ∧
      ∃ report f, s.Reported t.before report ∧ '\n' ∉ Fault.message f ∧
        t =
          { Turn.idle t.before with
            stderr := report ++ "error: ".toList ++ f.message ++ ['\n'] }

/-- How a watching program ends after a number of looks: in the sleep after the last of them, with
nothing more done, or, where its listing has no format, at a look that has read its input. -/
inductive Ceases (s : Settings) (looks : Nat) (w : Session) : Prop
  | interrupted : w.turns.length = looks → w.rest = .idle w.rest.before →
      w.ending = .returned 0 → Ceases s looks w
  | unlisted {source : Text} : s.format = .void → s.Reads w.rest.before source →
      w.rest = { Turn.idle w.rest.before with stderr := (s.process source).report } →
      w.ending = .escaped (.unknownFormat .unnamed) → Ceases s looks w

variable {s : Settings} {fs : FileSystem} {seen : Int}

/-- A look does one thing only. -/
theorem Did.unique {t : Turn} {deed other : Deed} (h : s.Did t deed) (h' : s.Did t other) :
    deed = other := by
  -- Only the look that does nothing says nothing.
  have hstderr : ∀ {deed : Deed}, s.Did t deed → (deed = .nothing ↔ t.stderr = []) := by
    intro deed h
    cases deed with
    | nothing => exact ⟨fun _ => congrArg Turn.stderr h, fun _ => rfl⟩
    | success =>
      obtain ⟨-, ht⟩ := h
      rw [ht]
      simp
    | failure =>
      obtain ⟨-, report, f, -, -, ht⟩ := h
      rw [ht]
      simp
  have hboth : deed = .nothing ↔ other = .nothing := (hstderr h).trans (hstderr h').symm
  cases deed with
  | nothing => exact (hboth.mp rfl).symm
  | success =>
    cases other with
    | nothing => exact hboth.mpr rfl
    | success => rfl
    | failure => exact absurd h.1 h'.1
  | failure =>
    cases other with
    | nothing => exact hboth.mpr rfl
    | success => exact absurd h'.1 h.1
    | failure => rfl

/-- A look that goes on does exactly one thing. -/
theorem existsUnique_did_of_look {turn : Turn} {next : Int}
    (h : s.look seen fs = { turn, next := .ok next }) : ∃! deed, s.Did turn deed := by
  suffices hdid : ∃ deed, s.Did turn deed by
    obtain ⟨deed, hdeed⟩ := hdid
    exact ⟨deed, hdeed, fun other hother => hother.unique hdeed⟩
  rcases s.look_cases seen fs with ⟨-, hlook⟩ | ⟨-, hlook⟩ | ⟨_, -, -, hattempt⟩
  · obtain rfl : turn = .idle fs := congrArg Look.turn (h.symm.trans hlook)
    exact ⟨.nothing, rfl⟩
  · simp [h] at hlook
  · rw [h] at hattempt
    cases hattempt with
    | success hending => exact ⟨.success, hending, rfl⟩
    | failure hreport hreported hending =>
      exact ⟨.failure, hending, _, _, hreport, Fault.newline_not_mem_message hreported, rfl⟩

/-- Where no path holds a null character, a look ends the program only because its listing has no
format. -/
theorem void_of_look {turn : Turn} {f : Fault} (hinput : '\x00' ∉ s.input.write)
    (houtput : ∀ path ∈ s.output, '\x00' ∉ path.write)
    (h : s.look seen fs = { turn, next := .error f }) :
    s.format = .void ∧ f = .unknownFormat .unnamed ∧
      ∃ source, s.Reads fs source ∧
        turn = { Turn.idle fs with stderr := (s.process source).report } := by
  rcases s.look_cases seen fs with ⟨-, hlook⟩ | ⟨hfind, -⟩ | ⟨_, -, -, hattempt⟩
  · simp [h] at hlook
  · exact absurd (FileSystem.null_mem_of_find hfind) hinput
  · rw [h] at hattempt
    cases hattempt with
    | ended hending hreported =>
      cases run_ending_eq_escaped_iff.mp hending with
      | input hread => exact absurd (FileSystem.null_mem_of_read hread) hinput
      | @format source hsource hvoid =>
        have hrun := run_eq_iff.mpr (.unlisted hsource hvoid)
        exact ⟨hvoid, rfl, source, hsource, by rw [hrun]⟩
      | @output _ path g _ hpath hwrite =>
        cases g with
        | os => cases hreported
        | nullByte => exact absurd (FileSystem.null_mem_of_write hwrite) (houtput path hpath)

variable {changes : List (FileSystem → FileSystem)} {w : Session}

/-- Every look behind which the program sleeps does exactly one thing. -/
theorem Watches.existsUnique_did (h : s.Watches seen fs changes w) :
    ∀ t ∈ w.turns, ∃! deed, s.Did t deed := by
  induction h with
  | interrupted hlook => exact List.forall_mem_singleton.mpr (existsUnique_did_of_look hlook)
  | ended => exact List.forall_mem_nil _
  | slept hlook _ ih => exact List.forall_mem_cons.mpr ⟨existsUnique_did_of_look hlook, ih⟩

/-- Where no path holds a null character, the program goes on until it is interrupted, unless its
listing has no format. -/
theorem Watches.ceases (h : s.Watches seen fs changes w) (hinput : '\x00' ∉ s.input.write)
    (houtput : ∀ path ∈ s.output, '\x00' ∉ path.write) : s.Ceases (changes.length + 1) w := by
  induction h with
  | interrupted => exact .interrupted rfl rfl rfl
  | ended hlook =>
    obtain ⟨hvoid, rfl, source, hsource, rfl⟩ := void_of_look hinput houtput hlook
    exact .unlisted hvoid hsource rfl rfl
  | slept _ _ ih =>
    cases ih with
    | interrupted hlength hrest hending =>
      exact .interrupted (congrArg (· + 1) hlength) hrest hending
    | unlisted hvoid hsource hrest hending => exact .unlisted hvoid hsource hrest hending

end Settings

/-- Take a command line that asks for watching and whose settings are settled, with no null
character in the path of the input or of the output. The program greets and then looks at the files
again and again, each time at what others have made of them since. Every look does nothing, or
succeeds as a single run with the same settings does on these files, or fails on one line without
changing anything. The program goes on until it is interrupted and then returns 0, unless its
listing has no format. -/
theorem session_survives {stack : Toml.Stack} {argv : List Text} {args : Arguments}
    {fs : FileSystem} {s : Settings} (hparse : Arguments.parse argv = .ok args)
    (hwatch : args.watch = true) (hresolve : Settings.resolve stack fs args = .ok s)
    (hinput : '\x00' ∉ s.input.write) (houtput : ∀ path ∈ s.output, '\x00' ∉ path.write)
    (changes : List (FileSystem → FileSystem)) :
    Program.session stack argv fs changes = (s.watchFrom [] 0 fs changes).saying s.greeting ∧
      Turn.Chained fs changes (s.watchFrom [] 0 fs changes).looks ∧
      (∀ t ∈ (s.watchFrom [] 0 fs changes).turns, ∃! deed, s.Did t deed) ∧
      s.Ceases (changes.length + 1) (s.watchFrom [] 0 fs changes) := by
  have hwatches := s.watches_watchFrom 0 fs changes
  have hsettle := Program.settle_eq_ok_iff.mpr ⟨args, hparse, hresolve⟩
  have hon : s.watch = true := (Settings.watch_of_resolve hresolve).trans hwatch
  refine ⟨?_, hwatches.chained, hwatches.existsUnique_did, hwatches.ceases hinput houtput⟩
  simp only [Program.session, hsettle, hon, if_true]
  exact s.watchFrom_eq_saying s.greeting 0 fs changes

/-- A listing that cannot be written is written once there is a directory for it. -/
theorem session_survives_missing_directory :
    let argv := ["a.tag".toList, "--watch".toList, "-o".toList, "b/c".toList]
    let fs : FileSystem :=
      { entries := [([], .directory 0), (["a.tag".toList], .file [0x78] 1)], current := [],
        clock := 2 }
    let change := fun fs => Edit.applyAll fs
      [.makeDirectory (.ofText "b".toList), .touch (.ofText "a.tag".toList) 3]
    let s : Settings :=
      { input := .ofText "a.tag".toList, output := some (.ofText "b/c".toList),
        format := .value .text, watch := true, debug := false }
    Program.session .usual argv fs [change] = (s.watchFrom [] 0 fs [change]).saying s.greeting ∧
      (s.watchFrom [] 0 fs [change]).turns.map Turn.stderr =
        ["error: [Errno 2] No such file or directory: 'b/c'\n".toList,
          "Tokenized a.tag\n".toList] ∧
      (∀ t ∈ (s.watchFrom [] 0 fs [change]).turns, ∃! deed, s.Did t deed) ∧
      (s.watchFrom [] 0 fs [change]).ending = .returned 0 := by
  intro argv fs change s
  let args : Arguments :=
    { input := "a.tag".toList, output := some (.value "b/c".toList), format := none,
      config := none, watch := true, debug := false }
  have hparse : Arguments.parse argv = .ok args := rfl
  have hresolve : Settings.resolve .usual fs args = .ok s := rfl
  obtain ⟨hsession, -, hdid, hceases⟩ := session_survives hparse rfl hresolve (by decide +kernel)
    (by decide +kernel) [change]
  refine ⟨hsession, by decide +kernel, hdid, ?_⟩
  cases hceases with
  | interrupted _ _ hending => exact hending
  | unlisted hvoid => cases hvoid

/-- A void format ends a watching program at its first scan. -/
theorem session_ended_by_void_format :
    let argv := ["a.tag".toList, "--watch".toList, "-f=--".toList]
    let fs : FileSystem :=
      { entries := [([], .directory 0), (["a.tag".toList], .file [0x78] 1)], current := [],
        clock := 2 }
    (∃ args s, Arguments.parse argv = .ok args ∧ args.watch = true ∧
        Settings.resolve .usual fs args = .ok s ∧ '\x00' ∉ s.input.write ∧ s.output = none) ∧
      (Program.session .usual argv fs []).ending = .escaped (.unknownFormat .unnamed) := by
  intro argv fs
  let args : Arguments :=
    { input := "a.tag".toList, output := none, format := some .void, config := none,
      watch := true, debug := false }
  let s : Settings :=
    { input := .ofText "a.tag".toList, output := none, format := .void, watch := true,
      debug := false }
  exact ⟨⟨args, s, rfl, rfl, rfl, by decide +kernel, rfl⟩, by decide +kernel⟩

end TagLexer
