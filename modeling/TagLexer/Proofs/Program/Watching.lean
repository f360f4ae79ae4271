import TagLexer.Files.Edit
import TagLexer.Proofs.Program.Ending

/-!
# When a watching program scans its input

A watching program remembers one number: the time of the last change that it saw at its input, and
zero before it has seen any. So each look compares the time it finds with the one that the latest
successful look before it found, or with zero where there is none (`watchAll_scans_iff`), and a
first version of the input whose time is zero is never scanned (`watchAll_misses_time_zero`).
-/

namespace TagLexer

/-- A turn before which something was said. -/
def Turn.saying (said : Text) (t : Turn) : Turn := { t with stderr := said ++ t.stderr }

/-- Turns in a row: the first at the given files, and each later one at what a change made of the
files that the turn before it left. -/
def Turn.Chained : FileSystem → List (FileSystem → FileSystem) → List Turn → Prop
  | _, _, [] => True
  | fs, [], t :: turns => t.before = fs ∧ turns = []
  | fs, change :: changes, t :: turns => t.before = fs ∧ Chained (change t.after) changes turns

namespace Session

/-- A session before whose first look something was said. -/
def saying (said : Text) (w : Session) : Session :=
  match w.turns with
  | [] => { w with rest := w.rest.saying said }
  | t :: turns => { w with turns := t.saying said :: turns }

/-- What a watching program did at each look: every look ends in a sleep, except for one that ends
the program. -/
def looks (w : Session) : List Turn :=
  match w.ending with
  | .returned _ | .stopped _ => w.turns
  | .escaped _ => w.turns ++ [w.rest]

theorem looks_cons (t : Turn) (w : Session) :
    ({ w with turns := t :: w.turns } : Session).looks = t :: w.looks := by
  obtain ⟨turns, rest, ending⟩ := w
  cases ending <;> rfl

end Session

namespace Settings

/-- The time of the last change of the input, if it can be found. -/
def time? (s : Settings) (fs : FileSystem) : Option Int :=
  (fs.find s.input).toOption.map Entry.modified

/-- The time that the latest of some looks found, if any of them found one. -/
def lastTime? (s : Settings) (turns : List Turn) : Option Int :=
  ((turns.map Turn.before).filterMap s.time?).getLast?

/-- The reports of a scan of the input: those of the notes of its source, and none where it gives no
source. -/
inductive Reported (s : Settings) (fs : FileSystem) : Text → Prop
  | unread {f : Fault} : s.Unread fs f → Reported s fs []
  | read {source : Text} : s.Reads fs source → Reported s fs (s.process source).report

/-- What a look does that scans the input. It delivers the listing as a run does and says so, it
says what went wrong after the reports, or it ends the program with the fault that ends a run. -/
inductive Attempt (s : Settings) (fs : FileSystem) (modified : Int) : Look → Prop
  | success : (s.run fs).ending = .returned 0 →
      Attempt s fs modified
        { turn :=
            { stdout := (s.run fs).stdout
              stderr := (s.run fs).stderr ++ "Tokenized ".toList ++ s.input.write ++ ['\n']
              before := fs
              after := (s.run fs).files }
          next := .ok modified }
  | failure {report : Text} {f : Fault} : s.Reported fs report → f.isReported = true →
      (s.run fs).ending ≠ .returned 0 →
      Attempt s fs modified
        { turn := { Turn.idle fs with stderr := report ++ "error: ".toList ++ f.message ++ ['\n'] }
          next := .ok modified }
  | ended {f : Fault} : (s.run fs).ending = .escaped f → f.isReported = false →
      Attempt s fs modified
        { turn := { Turn.idle fs with stderr := (s.run fs).stderr }, next := .error f }

variable {s : Settings} {fs : FileSystem} {seen : Int}

/-- A look that scans the input does what a run does, up to what is said at the end. -/
theorem attempt_refresh (s : Settings) (fs : FileSystem) (modified : Int) :
    s.Attempt fs modified (s.refresh modified fs) := by
  -- A fault is either reported or ends the program, whatever stage of the scan it comes from.
  have hfailed : ∀ (report : Text) (f : Fault), s.Reported fs report →
      (s.run fs).ending ≠ .returned 0 →
      (f.isReported = false → (s.run fs).ending = .escaped f ∧ (s.run fs).stderr = report) →
      s.Attempt fs modified (failedLook modified fs report f) := by
    intro report f hreport hrun hended
    unfold failedLook
    split
    · next hf => exact .failure hreport hf hrun
    · next hf =>
      obtain ⟨hending, hstderr⟩ := hended (by simpa using hf)
      rw [← hstderr]
      exact .ended hending (by simpa using hf)
  unfold refresh
  split
  · next f hproduce =>
    have hunread := produce_eq_error_iff.mp hproduce
    refine hfailed [] f (.unread hunread) ?_ fun hf => ?_
    · cases hf : f.isReported with
      | true => simp [run_eq_iff.mpr (.reported hunread hf)]
      | false => simp [run_eq_iff.mpr (.unread hunread hf)]
    · simp [run_eq_iff.mpr (.unread hunread hf)]
  next product hproduce =>
  obtain ⟨source, hsource, rfl⟩ := produce_eq_ok_iff.mp hproduce
  cases hlist : s.list (Scan.of source).tokens with
  | error f =>
    obtain ⟨hvoid, rfl⟩ := list_eq_error_iff.mp hlist
    have hrun := run_eq_iff.mpr (.unlisted hsource hvoid)
    have hlook := hfailed _ (.unknownFormat .unnamed) (.read hsource) (by simp [hrun])
      fun _ => by simp [hrun]
    simpa only [process, hlist, Except.bind] using hlook
  | ok listing =>
    cases hdeliver : s.deliver fs listing with
    | error f =>
      have hrun := run_eq_iff.mpr (.undelivered hsource hlist hdeliver)
      have hlook := hfailed _ f (.read hsource) (by simp [hrun]) fun _ => by simp [hrun]
      simpa only [process, hlist, Except.bind, hdeliver] using hlook
    | ok delivered =>
      obtain ⟨stdout, files⟩ := delivered
      have hrun := run_eq_iff.mpr (.delivered hsource hlist hdeliver)
      have hlook : s.Attempt fs modified _ := .success (by simp [hrun])
      simpa only [process, hlist, Except.bind, hdeliver, hrun] using hlook

/-- What a look does: nothing, if it finds no time or the one it knows, or if the path of the input
holds a null character, which ends the program; and else it scans the input. -/
theorem look_cases (s : Settings) (seen : Int) (fs : FileSystem) :
    ((∀ modified, s.time? fs = some modified → modified = seen) ∧
        s.look seen fs = { turn := .idle fs, next := .ok seen }) ∨
      (fs.find s.input = .error .nullByte ∧
        s.look seen fs = { turn := .idle fs, next := .error (.file .nullByte) }) ∨
      ∃ modified, s.time? fs = some modified ∧ modified ≠ seen ∧
        s.Attempt fs modified (s.look seen fs) := by
  unfold look
  split
  · next hfind => exact .inl ⟨by simp [time?, hfind, Except.toOption], rfl⟩
  · next hfind => exact .inr (.inl ⟨hfind, rfl⟩)
  · next entry hfind =>
    have htime : s.time? fs = some entry.modified := by simp [time?, hfind, Except.toOption]
    split
    · next hseen =>
      refine .inl ⟨fun modified hmodified => ?_, rfl⟩
      rw [← hseen, ← Option.some.inj (htime.symm.trans hmodified)]
    · next hseen => exact .inr (.inr ⟨_, htime, hseen, s.attempt_refresh fs _⟩)

theorem before_of_look {turn : Turn} {next : Except Fault Int}
    (h : s.look seen fs = { turn, next }) : turn.before = fs := by
  rcases s.look_cases seen fs with ⟨-, hlook⟩ | ⟨-, hlook⟩ | ⟨_, -, -, hattempt⟩
  · rw [show turn = .idle fs from congrArg Look.turn (h.symm.trans hlook)]
    rfl
  · rw [show turn = .idle fs from congrArg Look.turn (h.symm.trans hlook)]
    rfl
  · rw [h] at hattempt
    cases hattempt <;> rfl

/-- A look remembers the time it finds, and what it knew where it finds none. -/
theorem next_of_look {turn : Turn} {next : Int}
    (h : s.look seen fs = { turn, next := .ok next }) : next = (s.time? fs).getD seen := by
  rcases s.look_cases seen fs with ⟨htime, hlook⟩ | ⟨-, hlook⟩ | ⟨modified, htime, -, hattempt⟩
  · have hnext : next = seen := Except.ok.inj (congrArg Look.next (h.symm.trans hlook))
    cases hmodified : s.time? fs with
    | none => simpa using hnext
    | some modified => simpa [htime modified hmodified] using hnext
  · simp [h] at hlook
  · rw [h] at hattempt
    rw [htime]
    cases hattempt <;> rfl

/-- What is said at the end of a look that scans the input and goes on: that it was scanned, or what
went wrong. -/
inductive Concludes (s : Settings) : Text → Prop
  | tokenized (report : Text) :
      Concludes s (report ++ "Tokenized ".toList ++ s.input.write ++ ['\n'])
  | failed (report message : Text) :
      Concludes s (report ++ "error: ".toList ++ message ++ ['\n'])

theorem Concludes.ne_nil {said : Text} (h : s.Concludes said) : said ≠ [] := by
  cases h <;> simp

/-- A look that goes on concludes exactly if it finds another time than the one it knows. -/
theorem concludes_look_iff {turn : Turn} {next : Int}
    (h : s.look seen fs = { turn, next := .ok next }) :
    s.Concludes turn.stderr ↔ ∃ modified, s.time? fs = some modified ∧ modified ≠ seen := by
  rcases s.look_cases seen fs with ⟨htime, hlook⟩ | ⟨-, hlook⟩ | ⟨modified, htime, hne, hattempt⟩
  · have hturn : turn = .idle fs := congrArg Look.turn (h.symm.trans hlook)
    constructor
    · intro hsaid
      exact absurd (by rw [hturn]; rfl) hsaid.ne_nil
    · rintro ⟨modified, hmodified, hne⟩
      exact absurd (htime modified hmodified) hne
  · simp [h] at hlook
  · refine ⟨fun _ => ⟨modified, htime, hne⟩, fun _ => ?_⟩
    rw [h] at hattempt
    cases hattempt with
    | success => exact .tokenized _
    | failure => exact .failed _ _

/-- A look that ends the program has read the input exactly if it finds another time than the one it
knows; else the path of the input holds a null character, and it has done nothing. -/
theorem reads_of_look_iff {turn : Turn} {f : Fault}
    (h : s.look seen fs = { turn, next := .error f }) :
    (s.Concludes turn.stderr ∨ ∃ source, s.Reads fs source) ↔
      ∃ modified, s.time? fs = some modified ∧ modified ≠ seen := by
  rcases s.look_cases seen fs with ⟨-, hlook⟩ | ⟨hfind, hlook⟩ | ⟨modified, htime, hne, hattempt⟩
  · simp [h] at hlook
  · have hturn : turn = .idle fs := congrArg Look.turn (h.symm.trans hlook)
    have htime : s.time? fs = none := by simp [time?, hfind, Except.toOption]
    simp only [htime, reduceCtorEq, false_and, exists_false, iff_false, not_or]
    refine ⟨fun hsaid => absurd (by rw [hturn]; rfl) hsaid.ne_nil, ?_⟩
    rintro ⟨source, text, hread, -⟩
    obtain ⟨_, _, hfile, -⟩ := FileSystem.read_eq_ok_iff.mp hread
    cases hfind.symm.trans hfile
  · refine ⟨fun _ => ⟨modified, htime, hne⟩, fun _ => .inr ?_⟩
    rw [h] at hattempt
    cases hattempt with
    | ended hending _ =>
      cases run_ending_eq_escaped_iff.mp hending with
      | input hread =>
        simp [time?, FileSystem.find_eq_nullByte_of_read hread, Except.toOption] at htime
      | format hsource _ => exact ⟨_, hsource⟩
      | output hlists _ _ =>
        obtain ⟨source, -, hsource, -⟩ := hlists
        exact ⟨source, hsource⟩

/-- The courses that watching can take: the interrupt comes in the sleep after the look, the look
ends the program, or the program looks again after others have changed the files. -/
inductive Watches (s : Settings) :
    Int → FileSystem → List (FileSystem → FileSystem) → Session → Prop
  | interrupted {seen next : Int} {fs : FileSystem} {turn : Turn} :
      s.look seen fs = { turn, next := .ok next } →
      Watches s seen fs []
        { turns := [turn], rest := .idle turn.after, ending := .returned 0 }
  | ended {seen : Int} {fs : FileSystem} {changes : List (FileSystem → FileSystem)} {turn : Turn}
      {f : Fault} : s.look seen fs = { turn, next := .error f } →
      Watches s seen fs changes { turns := [], rest := turn, ending := .escaped f }
  | slept {seen next : Int} {fs : FileSystem} {change : FileSystem → FileSystem}
      {changes : List (FileSystem → FileSystem)} {turn : Turn} {later : Session} :
      s.look seen fs = { turn, next := .ok next } →
      Watches s next (change turn.after) changes later →
      Watches s seen fs (change :: changes) { later with turns := turn :: later.turns }

/-- What is said before the first look comes first, and nothing else depends on it. -/
theorem watchFrom_eq_saying (s : Settings) (said : Text) (seen : Int) (fs : FileSystem)
    (changes : List (FileSystem → FileSystem)) :
    s.watchFrom said seen fs changes = (s.watchFrom [] seen fs changes).saying said := by
  rcases hlook : s.look seen fs with ⟨turn, next⟩
  cases changes with
  | nil => cases next <;> simp [watchFrom, hlook, Session.saying, Turn.saying]
  | cons change changes => cases next <;> simp [watchFrom, hlook, Session.saying, Turn.saying]

/-- Watching takes one of the courses. -/
theorem watches_watchFrom (s : Settings) (seen : Int) (fs : FileSystem)
    (changes : List (FileSystem → FileSystem)) :
    s.Watches seen fs changes (s.watchFrom [] seen fs changes) := by
  induction changes generalizing seen fs with
  | nil =>
    unfold watchFrom
    rcases hlook : s.look seen fs with ⟨turn, next⟩
    cases next with
    | error f => exact .ended hlook
    | ok next => exact .interrupted hlook
  | cons change changes ih =>
    unfold watchFrom
    rcases hlook : s.look seen fs with ⟨turn, next⟩
    cases next with
    | error f => exact .ended hlook
    | ok next => exact .slept hlook (ih next _)

variable {changes : List (FileSystem → FileSystem)} {w : Session}

theorem Watches.looks_ne_nil (h : s.Watches seen fs changes w) : w.looks ≠ [] := by
  cases h with
  | interrupted | ended => simp [Session.looks]
  | slept => simp [Session.looks_cons]

/-- Each look is at the files that the change before it left. -/
theorem Watches.chained (h : s.Watches seen fs changes w) : Turn.Chained fs changes w.looks := by
  induction h with
  | interrupted hlook => exact ⟨before_of_look hlook, rfl⟩
  | @ended _ _ changes _ _ hlook =>
    cases changes with
    | nil => exact ⟨before_of_look hlook, rfl⟩
    | cons change changes => exact ⟨before_of_look hlook, by simp [Turn.Chained]⟩
  | slept hlook _ ih =>
    rw [Session.looks_cons]
    exact ⟨before_of_look hlook, ih⟩

/-- A look has scanned the input: it concludes by saying so or by saying what went wrong, or else it
has read the input and a fault ends the program behind it. -/
inductive Scanned (s : Settings) (ending : Ending) (t : Turn) (later : List Turn) : Prop
  | concluded : s.Concludes t.stderr → Scanned s ending t later
  | ended {f : Fault} {source : Text} : later = [] → ending = .escaped f →
      s.Reads t.before source → Scanned s ending t later

/-- The time that the latest successful look found, with an earlier look in front. -/
private theorem lastTime?_cons (t : Turn) (turns : List Turn) (seen : Int) :
    (s.lastTime? (t :: turns)).getD seen =
      (s.lastTime? turns).getD ((s.time? t.before).getD seen) := by
  rw [lastTime?, lastTime?, List.map_cons]
  cases htime : s.time? t.before with
  | none => rw [List.filterMap_cons_none htime, Option.getD_none]
  | some modified =>
    rw [List.filterMap_cons_some htime, List.getLast?_cons, Option.getD_some, Option.getD_some]

/-- A look of a watching program scans the input exactly if the time it finds differs from the one
that the latest successful look before it found, or from what was known at first. -/
theorem Watches.scanned_iff (h : s.Watches seen fs changes w) {earlier later : List Turn} {t : Turn}
    (hlooks : w.looks = earlier ++ t :: later) :
    s.Scanned w.ending t later ↔
      ∃ modified, s.time? t.before = some modified ∧
        modified ≠ (s.lastTime? earlier).getD seen := by
  induction h generalizing earlier later with
  | @interrupted seen next fs turn hlook =>
    obtain ⟨rfl, rfl, rfl⟩ : earlier = [] ∧ t = turn ∧ later = [] := by
      cases earlier <;> simp_all [Session.looks]
    rw [before_of_look hlook]
    refine Iff.trans ⟨fun hscanned => ?_, .concluded⟩ (concludes_look_iff hlook)
    cases hscanned with
    | concluded hsaid => exact hsaid
    | ended _ hending => cases hending
  | @ended seen fs changes turn f hlook =>
    obtain ⟨rfl, rfl, rfl⟩ : earlier = [] ∧ t = turn ∧ later = [] := by
      cases earlier <;> simp_all [Session.looks]
    obtain rfl := before_of_look hlook
    refine Iff.trans ⟨fun hscanned => ?_, fun hscanned => ?_⟩ (reads_of_look_iff hlook)
    · cases hscanned with
      | concluded hsaid => exact .inl hsaid
      | ended _ _ hsource => exact .inr ⟨_, hsource⟩
    · rcases hscanned with hsaid | ⟨source, hsource⟩
      · exact .concluded hsaid
      · exact .ended rfl rfl hsource
  | @slept seen next fs change changes turn rest hlook hrest ih =>
    rw [Session.looks_cons] at hlooks
    cases earlier with
    | nil =>
      obtain ⟨rfl, rfl⟩ : turn = t ∧ rest.looks = later := by simpa using hlooks
      rw [before_of_look hlook]
      refine Iff.trans ⟨fun hscanned => ?_, .concluded⟩ (concludes_look_iff hlook)
      cases hscanned with
      | concluded hsaid => exact hsaid
      | ended hlater => exact absurd hlater hrest.looks_ne_nil
    | cons first earlier =>
      obtain ⟨rfl, hlater⟩ : turn = first ∧ rest.looks = earlier ++ t :: later := by
        simpa using hlooks
      rw [ih hlater, lastTime?_cons, before_of_look hlook, ← next_of_look hlook]

end Settings

/-- Watching greets and then looks at the files again and again, each time at what others have made
of them since the look before. A look scans the input exactly if it finds a time of the last change
that differs from the one that the latest successful look before it found, where zero counts as that
time if no look before it was successful. -/
theorem watchAll_scans_iff (s : Settings) (fs : FileSystem)
    (changes : List (FileSystem → FileSystem)) :
    s.watchAll fs changes = (s.watchFrom [] 0 fs changes).saying s.greeting ∧
      Turn.Chained fs changes (s.watchFrom [] 0 fs changes).looks ∧
      ∀ earlier t later, (s.watchFrom [] 0 fs changes).looks = earlier ++ t :: later →
        (s.Scanned (s.watchFrom [] 0 fs changes).ending t later ↔
          ∃ modified, s.time? t.before = some modified ∧
            modified ≠ (s.lastTime? earlier).getD 0) := by
  have hwatches := s.watches_watchFrom 0 fs changes
  exact ⟨s.watchFrom_eq_saying s.greeting 0 fs changes, hwatches.chained,
    fun _ _ _ => hwatches.scanned_iff⟩

/-- An input of time zero is passed over until it is touched. -/
theorem watchAll_scans_iff_of_touch :
    let s : Settings :=
      { input := .ofText "a.tag".toList, output := none, format := .value .text, watch := true,
        debug := false }
    let fs : FileSystem :=
      { entries := [([], .directory 0), (["a.tag".toList], .file [0x78] 0)], current := [],
        clock := 1 }
    let touch := fun fs => Edit.apply fs (.touch (.ofText "a.tag".toList) 7)
    let w := s.watchFrom [] 0 fs [touch]
    let second : Turn :=
      { stdout := "Identifier\t'x'\n".toList, stderr := "Tokenized a.tag\n".toList,
        before := touch fs, after := touch fs }
    w.looks = [.idle fs, second] ∧ ¬ s.Scanned w.ending (.idle fs) [second] ∧
      s.Scanned w.ending second [] := by
  intro s fs touch w second
  obtain ⟨-, -, hscans⟩ := watchAll_scans_iff s fs [touch]
  have hlooks : w.looks = [.idle fs, second] := by decide +kernel
  have hfirst : s.time? fs = some 0 := by decide +kernel
  have hsecond : s.time? second.before = some 7 := by decide +kernel
  refine ⟨hlooks, fun hscanned => ?_, ?_⟩
  · obtain ⟨modified, hmodified, hne⟩ := (hscans [] (.idle fs) [second] hlooks).mp hscanned
    exact hne (Option.some.inj (hfirst.symm.trans hmodified)).symm
  · refine (hscans [.idle fs] second [] hlooks).mpr ⟨7, hsecond, ?_⟩
    decide +kernel

/-- The only version of an input is not scanned if its time is zero. -/
theorem watchAll_misses_time_zero :
    let argv := ["a.tag".toList, "--watch".toList]
    let s : Settings :=
      { input := .ofText "a.tag".toList, output := none, format := .value .text, watch := true,
        debug := false }
    let fs : FileSystem :=
      { entries := [([], .directory 0), (["a.tag".toList], .file [0x78] 0)], current := [],
        clock := 1 }
    let w := s.watchFrom [] 0 fs []
    Program.session .usual argv fs [] = w.saying s.greeting ∧ w.looks = [.idle fs] ∧
      s.time? fs = some 0 ∧ ¬ s.Scanned w.ending (.idle fs) [] := by
  intro argv s fs w
  have hsettle : Program.settle .usual argv fs = .ok s := rfl
  have hlooks : w.looks = [.idle fs] := by decide +kernel
  have hending : w.ending = .returned 0 := by decide +kernel
  refine ⟨?_, hlooks, by decide +kernel, fun hscanned => ?_⟩
  · simp only [Program.session, hsettle]
    exact s.watchFrom_eq_saying s.greeting 0 fs []
  · cases hscanned with
    | concluded hsaid => exact hsaid.ne_nil rfl
    | ended _ hescaped => cases hending.symm.trans hescaped

end TagLexer
