import TagLexer.Program.Watch
import TagLexer.Proofs.Files.Write
import TagLexer.Proofs.Text.Utf8

/-!
# What a run delivers

A run settles what to do, reads its input, lists the tokens and delivers the listing, and it changes
nothing before the delivery. The courses that a run can take are the ways through these stages
(`Settings.Course`). So a program that does not watch its input either leaves everything as it is or
delivers the whole listing to one place (`session_delivers_once`).
-/

namespace TagLexer

namespace Settings

/-- The input of a run gives a source: it can be read, and its bytes are the UTF-8 of a text. -/
def Reads (s : Settings) (fs : FileSystem) (source : Text) : Prop :=
  ∃ text, fs.read s.input = .ok (Utf8.encode text) ∧ source = text.universalNewlines

/-- The input of a run gives no source: it cannot be read, or its bytes are not UTF-8. -/
inductive Unread (s : Settings) (fs : FileSystem) : Fault → Prop
  | file {f : FileFault} : fs.read s.input = .error f → Unread s fs (.file f)
  | notUtf8 {bytes : Bytes} {f : Utf8.Fault} :
      fs.read s.input = .ok bytes → Utf8.decode bytes = .error f → Unread s fs (.notUtf8 f)

/-- The listing of a run: the tokens of the source in the format that was settled. -/
def Lists (s : Settings) (fs : FileSystem) (listing : Text) : Prop :=
  ∃ source format, s.Reads fs source ∧ s.format = .value format ∧
    listing = Listing.render (Scan.of source).tokens format

/-- A listing goes to one place: the file that was settled, or else the standard output. -/
inductive Delivers (s : Settings) (before : FileSystem) (listing : Text) :
    Text → FileSystem → Prop
  | print : s.output = none → Delivers s before listing listing before
  | write {path : Path} {after : FileSystem} : s.output = some path →
      before.Writes path (Utf8.encode listing) after → Delivers s before listing [] after

variable {s : Settings} {fs : FileSystem}

theorem produce_eq_ok_iff {product : Product} :
    s.produce fs = .ok product ↔ ∃ source, s.Reads fs source ∧ product = s.process source := by
  unfold produce sourceOf Reads
  constructor
  · intro h
    split at h
    · cases h
    next bytes hread =>
    split at h
    · next text htext =>
      obtain rfl := Utf8.decode_eq_ok_iff.mp htext
      exact ⟨_, ⟨text, hread, rfl⟩, (Except.ok.inj h).symm⟩
    · cases h
  · rintro ⟨_, ⟨text, hread, rfl⟩, rfl⟩
    simp only [hread, Utf8.decode_encode, Except.map]

theorem produce_eq_error_iff {f : Fault} : s.produce fs = .error f ↔ s.Unread fs f := by
  unfold produce sourceOf
  constructor
  · intro h
    split at h
    · next g hread =>
      obtain rfl := Except.error.inj h
      exact .file hread
    next bytes hread =>
    split at h
    · cases h
    · next g hbytes =>
      obtain rfl := Except.error.inj h
      exact .notUtf8 hread hbytes
  · intro h
    cases h with
    | file hread => simp only [hread]
    | notUtf8 hread hbytes => simp only [hread, hbytes, Except.map]

/-- The courses that a run can take, and what it has done at the end of each: the input gives no
source and that is reported or ends the program, the listing has no format, it cannot be delivered,
or it is delivered. -/
inductive Course (s : Settings) (fs : FileSystem) : Outcome → Prop
  | reported {f : Fault} : s.Unread fs f → f.isReported = true →
      Course s fs
        { stdout := []
          stderr :=
            "error: cannot read ".toList ++ s.input.write ++ [':', ' '] ++ f.message ++ ['\n']
          files := fs
          ending := .returned 1 }
  | unread {f : Fault} : s.Unread fs f → f.isReported = false →
      Course s fs { stdout := [], stderr := [], files := fs, ending := .escaped f }
  | unlisted {source : Text} : s.Reads fs source → s.format = .void →
      Course s fs
        { stdout := []
          stderr := (s.process source).report
          files := fs
          ending := .escaped (.unknownFormat .unnamed) }
  | undelivered {source listing : Text} {f : Fault} : s.Reads fs source →
      s.list (Scan.of source).tokens = .ok listing → s.deliver fs listing = .error f →
      Course s fs
        { stdout := []
          stderr := (s.process source).report
          files := fs
          ending := .escaped f }
  | delivered {source listing stdout : Text} {files : FileSystem} : s.Reads fs source →
      s.list (Scan.of source).tokens = .ok listing → s.deliver fs listing = .ok (stdout, files) →
      Course s fs
        { stdout, stderr := (s.process source).report, files, ending := .returned 0 }

theorem list_eq_error_iff {tokens : List Token} {f : Fault} :
    s.list tokens = .error f ↔ s.format = .void ∧ f = .unknownFormat .unnamed := by
  unfold list
  split
  · next h => simp [h]
  · next h => simp [h, eq_comm]

theorem list_eq_ok_iff {tokens : List Token} {listing : Text} :
    s.list tokens = .ok listing ↔
      ∃ format, s.format = .value format ∧ listing = Listing.render tokens format := by
  unfold list
  split
  · next h => simp [h, eq_comm]
  · next h => simp [h]

/-- A run takes one of the courses, and it takes each where its conditions hold. -/
theorem run_eq_iff {outcome : Outcome} : s.run fs = outcome ↔ s.Course fs outcome := by
  constructor
  · rintro rfl
    unfold run
    split
    · next f hproduce =>
      have hunread := produce_eq_error_iff.mp hproduce
      split
      · next hreported => exact .reported hunread hreported
      · next hreported => exact .unread hunread (by simpa using hreported)
    next product hproduce =>
    obtain ⟨source, hsource, rfl⟩ := produce_eq_ok_iff.mp hproduce
    cases hlist : s.list (Scan.of source).tokens with
    | error f =>
      obtain ⟨hvoid, rfl⟩ := list_eq_error_iff.mp hlist
      simpa only [process, hlist, Except.bind] using Course.unlisted hsource hvoid
    | ok listing =>
      cases hdeliver : s.deliver fs listing with
      | error f =>
        simpa only [process, hlist, Except.bind, hdeliver] using
          Course.undelivered hsource hlist hdeliver
      | ok delivered =>
        simpa only [process, hlist, Except.bind, hdeliver] using
          Course.delivered hsource hlist hdeliver
  · intro h
    cases h with
    | reported hunread hreported =>
      simp only [run, produce_eq_error_iff.mpr hunread, hreported, if_true]
    | unread hunread hreported =>
      simp only [run, produce_eq_error_iff.mpr hunread, hreported, Bool.false_eq_true, if_false]
    | unlisted hsource hvoid =>
      simp only [run, produce_eq_ok_iff.mpr ⟨_, hsource, rfl⟩, process,
        list_eq_error_iff.mpr ⟨hvoid, rfl⟩, Except.bind]
    | undelivered hsource hlist hdeliver =>
      simp only [run, produce_eq_ok_iff.mpr ⟨_, hsource, rfl⟩, process, hlist, Except.bind,
        hdeliver]
    | delivered hsource hlist hdeliver =>
      simp only [run, produce_eq_ok_iff.mpr ⟨_, hsource, rfl⟩, process, hlist, Except.bind,
        hdeliver]

theorem deliver_eq_error_iff {listing : Text} {f : Fault} :
    s.deliver fs listing = .error f ↔
      ∃ path g, s.output = some path ∧ fs.write path (Utf8.encode listing) = .error g ∧
        f = .file g := by
  unfold deliver
  split
  · next h => simp [h]
  next path h =>
  split
  · next hwrite => simp [h, hwrite]
  · next hwrite => simp [h, hwrite, eq_comm]

/-- A listing that is delivered goes to one place. -/
theorem delivers_of_deliver {listing stdout : Text} {after : FileSystem}
    (h : s.deliver fs listing = .ok (stdout, after)) : s.Delivers fs listing stdout after := by
  unfold deliver at h
  split at h
  · next houtput =>
    obtain ⟨rfl, rfl⟩ := Prod.mk.inj (Except.ok.inj h)
    exact .print houtput
  next path houtput =>
  split at h
  · next hwrite =>
    obtain ⟨rfl, rfl⟩ := Prod.mk.inj (Except.ok.inj h)
    exact .write houtput (FileSystem.writes_of_write hwrite)
  · cases h

/-- The only course that changes anything is the one that ends well. -/
theorem Course.unchanged {outcome : Outcome} (h : s.Course fs outcome)
    (hending : outcome.ending ≠ .returned 0) : outcome.files = fs ∧ outcome.stdout = [] := by
  cases h with
  | delivered => exact absurd rfl hending
  | _ => exact ⟨rfl, rfl⟩

/-- The course that ends well delivers the listing. -/
theorem Course.delivers {outcome : Outcome} (h : s.Course fs outcome)
    (hending : outcome.ending = .returned 0) :
    ∃ listing, s.Lists fs listing ∧ s.Delivers fs listing outcome.stdout outcome.files := by
  cases h with
  | delivered hsource hlist hdeliver =>
    obtain ⟨format, hformat, rfl⟩ := list_eq_ok_iff.mp hlist
    exact ⟨_, ⟨_, _, hsource, hformat, rfl⟩, delivers_of_deliver hdeliver⟩
  | _ => simp at hending

/-- Only the command line decides whether the input is watched. -/
theorem watch_of_resolve {stack : Toml.Stack} {args : Arguments}
    (h : resolve stack fs args = .ok s) : s.watch = args.watch := by
  unfold resolve at h
  split at h
  · cases h
  · cases h
  next config _ =>
  cases hformat : configuredFormat stack config with
  | error refusal => simp [merge, hformat, bind, Except.bind] at h
  | ok format =>
    simp only [merge, hformat, bind, Except.bind, pure, Except.pure] at h
    obtain rfl := Except.ok.inj h
    rfl

end Settings

namespace Program

variable {stack : Toml.Stack} {argv : List Text} {fs : FileSystem}

theorem settle_eq_ok_iff {s : Settings} :
    settle stack argv fs = .ok s ↔
      ∃ args, Arguments.parse argv = .ok args ∧ Settings.resolve stack fs args = .ok s := by
  unfold settle
  split
  · next h => simp [h]
  next args h =>
  split
  · next hresolve => simp [h, hresolve]
  · next hresolve => simp [h, hresolve]
  · next hresolve => simp [h, hresolve, eq_comm]

/-- A program that ends before it runs has changed nothing, and it has printed nothing but the help
it was asked for. -/
theorem unchanged_of_settle {outcome : Outcome} (h : settle stack argv fs = .error outcome) :
    outcome.files = fs ∧ outcome.ending ≠ .returned 0 ∧
      (Arguments.parse argv ≠ .error .help → outcome.stdout = []) := by
  unfold settle at h
  split at h
  · next stop hparse =>
    obtain rfl := Except.error.inj h
    refine ⟨rfl, by simp, fun hhelp => ?_⟩
    cases stop with
    | help => exact absurd hparse hhelp
    | misuse m => rfl
  · split at h
    · obtain rfl := Except.error.inj h
      exact ⟨rfl, by simp, fun _ => rfl⟩
    · obtain rfl := Except.error.inj h
      exact ⟨rfl, by simp, fun _ => rfl⟩
    · cases h

end Program

/-- A program that does not watch its input and is not asked for help is done in one go. Unless it
returns 0, it has changed no file and printed nothing. If it returns 0, its settings were settled,
and the listing of its input as it was before is printed, or else the file that was settled for it
holds the listing and nothing else has changed. -/
theorem session_delivers_once {argv : List Text}
    (hwatch : ∀ args, Arguments.parse argv = .ok args → args.watch = false)
    (hhelp : Arguments.parse argv ≠ .error .help)
    (stack : Toml.Stack) (fs : FileSystem) (changes : List (FileSystem → FileSystem)) :
    (Program.session stack argv fs changes).turns = [] ∧
      (Program.session stack argv fs changes).rest.before = fs ∧
      ((Program.session stack argv fs changes).ending ≠ .returned 0 →
        (Program.session stack argv fs changes).rest.after = fs ∧
          (Program.session stack argv fs changes).rest.stdout = []) ∧
      ((Program.session stack argv fs changes).ending = .returned 0 →
        ∃ args settings listing, Arguments.parse argv = .ok args ∧
          Settings.resolve stack fs args = .ok settings ∧ settings.Lists fs listing ∧
          settings.Delivers fs listing (Program.session stack argv fs changes).rest.stdout
            (Program.session stack argv fs changes).rest.after) := by
  unfold Program.session
  split
  · next outcome hsettle =>
    obtain ⟨hfiles, hending, hstdout⟩ := Program.unchanged_of_settle hsettle
    exact ⟨rfl, rfl, fun _ => ⟨hfiles, hstdout hhelp⟩, fun h => absurd h hending⟩
  next settings hsettle =>
  obtain ⟨args, hparse, hresolve⟩ := Program.settle_eq_ok_iff.mp hsettle
  have hoff : settings.watch = false :=
    (Settings.watch_of_resolve hresolve).trans (hwatch args hparse)
  have hcourse : settings.Course fs (settings.run fs) := Settings.run_eq_iff.mp rfl
  rw [if_neg (by simp [hoff])]
  refine ⟨rfl, rfl, hcourse.unchanged, fun h => ?_⟩
  obtain ⟨listing, hlists, hdelivers⟩ := hcourse.delivers h
  exact ⟨args, settings, listing, hparse, hresolve, hlists, hdelivers⟩

/-- A program may write its listing over its own input, which it has read by then. -/
theorem session_delivers_once_over_input :
    let argv := ["a.tag".toList, "-o".toList, "a.tag".toList]
    let fs : FileSystem :=
      { entries := [([], .directory 0), (["a.tag".toList], .file (Utf8.encode ['<', 'a', '>']) 0)]
        current := []
        clock := 1 }
    (Program.session .usual argv fs []).ending = .returned 0 ∧
      ∃ args settings listing, Arguments.parse argv = .ok args ∧
        Settings.resolve .usual fs args = .ok settings ∧ settings.Lists fs listing ∧
        settings.Delivers fs listing (Program.session .usual argv fs []).rest.stdout
          (Program.session .usual argv fs []).rest.after := by
  intro argv fs
  have hparse : Arguments.parse argv =
      .ok { input := "a.tag".toList, output := some (.value "a.tag".toList), format := none,
            config := none, watch := false, debug := false } :=
    rfl
  have hwatch : ∀ args, Arguments.parse argv = .ok args → args.watch = false := by
    intro args h
    rw [← Except.ok.inj (hparse.symm.trans h)]
  have hending : (Program.session .usual argv fs []).ending = .returned 0 := by decide +kernel
  obtain ⟨-, -, -, hdelivers⟩ := session_delivers_once hwatch (by simp [hparse]) .usual fs []
  exact ⟨hending, hdelivers hending⟩

end TagLexer
