import TagLexer.Files.FileSystem

/-!
# Reading and writing files

What can be read is the content of a file that may be read (`FileSystem.read_eq_ok_iff`). A path
that can be written leads to one place in a directory. Writing puts a file there and leaves every
other entry as it is, apart from the time of that directory, so the path leads to the same place
afterwards and reading it gives what was written, unless a file stood there that may be written and
not be read (`FileSystem.writes_of_write`).
-/

namespace TagLexer.FileSystem

/-- An entry found at a place after a change at another place: the same one, or the same directory
with another time. -/
inductive Kept : Option Entry → Option Entry → Prop
  | same (entry : Option Entry) : Kept entry entry
  | directory (modified modified' : Int) (access : Access) :
      Kept (some (.directory modified access)) (some (.directory modified' access))

/-- One file system comes from another by writing a content to a path: the path leads to the place
of a file, there and nowhere else something changes, and reading the path gives the content. -/
structure Writes (before : FileSystem) (path : Path) (content : Bytes) (after : FileSystem) :
    Prop where
  /-- Nothing changes except at the place that the path leads to, and there not what may be done
  with a file that stood there. -/
  kept : ∃ place, before.target path = .ok place ∧
    (∃ modified, after.get? place = some (.file content modified (before.accessAt place))) ∧
    ∀ other, other ≠ place → Kept (before.get? other) (after.get? other)
  /-- Relative paths start where they did. -/
  current : after.current = before.current
  /-- The path leads to a file with the content. -/
  find : ∃ modified access, after.find path = .ok (.file content modified access)
  /-- Reading the path gives the content, unless a file stood there that may not be read. -/
  read : (∀ place, before.target path = .ok place → (before.accessAt place).read = true) →
    after.read path = .ok content

private theorem lookup_cons_eq (place other : Location) (entry : Entry)
    (entries : List (Location × Entry)) :
    List.lookup other ((place, entry) :: entries) =
      if other = place then some entry else entries.lookup other := by
  by_cases h : other = place
  · simp [h]
  · have hne : (other == place) = false := by simpa using h
    rw [List.lookup_cons, hne, if_neg h]

/-- Looking up a place after something was put at a place. -/
private theorem lookup_putEntry (place other : Location) (entry : Entry)
    (entries : List (Location × Entry)) :
    (putEntry place entry entries).lookup other =
      if other = place then some entry else entries.lookup other := by
  induction entries with
  | nil => exact lookup_cons_eq place other entry []
  | cons e entries ih =>
    obtain ⟨p, old⟩ := e
    unfold putEntry
    split
    · next hp =>
      subst p
      rw [lookup_cons_eq, lookup_cons_eq]
      split <;> rfl
    · next hp =>
      rw [lookup_cons_eq, lookup_cons_eq, ih]
      by_cases hother : other = p
      · have hne : other ≠ place := fun he => hp (hother.symm.trans he)
        rw [if_pos hother, if_neg hne, if_pos hother]
      · rw [if_neg hother, if_neg hother]

/-- What stands at a place after something was put at a place. -/
theorem get?_put (fs : FileSystem) (place other : Location) (entry : Entry) :
    (fs.put place entry).get? other = if other = place then some entry else fs.get? other :=
  lookup_putEntry place other entry fs.entries

/-- A path can be read that leads to a file which may be read. -/
theorem read_eq_ok_iff {fs : FileSystem} {path : Path} {content : Bytes} :
    fs.read path = .ok content ↔
      ∃ modified access, fs.find path = .ok (.file content modified access) ∧
        access.read = true := by
  constructor
  · intro h
    unfold read at h
    cases hfind : fs.find path with
    | error f => simp [hfind, bind, Except.bind] at h
    | ok entry =>
      cases entry with
      | directory => simp [hfind, contentOf, refuse, bind, Except.bind] at h
      | file old modified access =>
        cases hread : access.read with
        | false => simp [hfind, contentOf, hread, refuse, bind, Except.bind] at h
        | true =>
          obtain rfl : old = content := by
            simpa [hfind, contentOf, hread, refuse, bind, Except.bind] using h
          exact ⟨modified, access, rfl, hread⟩
  · rintro ⟨modified, access, hfind, hread⟩
    simp [read, hfind, contentOf, hread, refuse, bind, Except.bind]

/-- The operating system never refuses a path because of a null character. -/
theorem refuse_ne_nullByte {α : Type} (path : Path) (result : Except OsError α) :
    refuse path result ≠ .error .nullByte := by
  cases result <;> simp [refuse]

/-- A null character is found before anything is read. -/
theorem find_eq_nullByte_of_read {fs : FileSystem} {path : Path}
    (h : fs.read path = .error .nullByte) : fs.find path = .error .nullByte := by
  unfold read at h
  cases hfind : fs.find path with
  | error f =>
    obtain rfl : f = .nullByte := by simpa [hfind, bind, Except.bind] using h
    rfl
  | ok entry =>
    simp only [hfind] at h
    exact absurd h (refuse_ne_nullByte _ _)

/-- Storing a file leaves the current directory where it is. -/
theorem current_store (fs : FileSystem) (place : Location) (content : Bytes) :
    (fs.store place content).current = fs.current := by
  unfold store
  dsimp only [put]
  split <;> rfl

/-- What stands at the place of a file that is stored. -/
theorem get?_store_self (fs : FileSystem) (place : Location) (content : Bytes) :
    ∃ modified,
      (fs.store place content).get? place = some (.file content modified (fs.accessAt place)) := by
  unfold store
  exact ⟨_, (get?_put ..).trans (if_pos rfl)⟩

/-- A directory that may be passed through. -/
def Searchable (fs : FileSystem) (place : Location) : Prop :=
  ∃ modified access, fs.get? place = some (.directory modified access) ∧ access.search = true

/-- Storing a file in a directory keeps everything else, apart from the time of the directory. -/
theorem kept_store {fs : FileSystem} {place : Location} (hdir : fs.Searchable place.dropLast)
    (content : Bytes) {other : Location} (hother : other ≠ place) :
    Kept (fs.get? other) ((fs.store place content).get? other) := by
  have hput : ∀ (fs' : FileSystem) (entry : Entry),
      (fs'.put place entry).get? other = fs'.get? other :=
    fun fs' entry => (get?_put ..).trans (if_neg hother)
  unfold store
  change Kept _ (FileSystem.get? (FileSystem.put _ _ _) other)
  rw [hput]
  split
  · exact .same _
  · rw [stampParent, get?_put]
    split
    · next hparent =>
      obtain ⟨modified, access, hentry, -⟩ := hdir
      rw [hparent, accessAt, hentry]
      exact .directory modified fs.clock access
    · exact .same _

/-- A directory that may be passed through still may be after a change elsewhere. -/
theorem Searchable.of_kept {before after : FileSystem} {place : Location}
    (h : before.Searchable place) (hkept : Kept (before.get? place) (after.get? place)) :
    after.Searchable place := by
  obtain ⟨modified, access, hentry, hsearch⟩ := h
  rw [hentry] at hkept
  generalize hafter : after.get? place = entry at hkept
  cases hkept with
  | same => exact ⟨modified, access, hafter, hsearch⟩
  | directory _ modified' => exact ⟨modified', access, hafter, hsearch⟩

/-- Names are followed one stretch after the other. -/
theorem walk_append (fs : FileSystem) (place : Location) (names more : List Text) :
    fs.walk place (names ++ more) =
      fs.walk place names >>= fun middle => fs.walk middle more := by
  induction names generalizing place with
  | nil => rfl
  | cons name names ih =>
    simp only [List.cons_append, walk]
    split
    · rfl
    · rfl
    · split
      · rfl
      split
      · exact ih _
      split
      · exact ih _
      split
      · rfl
      split
      · rfl
      · exact ih _

/-- A name leads from a directory to a place: the directory itself, the one above, or an entry of
the directory. -/
inductive Leads (fs : FileSystem) (place : Location) : Text → Location → Prop
  | here : fs.Searchable place → Leads fs place Path.here place
  | up : fs.Searchable place → Leads fs place Path.up place.dropLast
  | down {name : Text} {entry : Entry} : fs.Searchable place → name ≠ Path.here →
      name ≠ Path.up → (Utf8.encode name).length ≤ nameLimit →
      fs.get? (place ++ [name]) = some entry → Leads fs place name (place ++ [name])

/-- Only a directory that may be passed through leads on. -/
theorem Leads.searchable {fs : FileSystem} {place next : Location} {name : Text}
    (h : fs.Leads place name next) : fs.Searchable place := by
  cases h with
  | here hdir => exact hdir
  | up hdir => exact hdir
  | down hdir => exact hdir

/-- Names lead to a place when the first leads to one from which the others do. -/
theorem walk_cons_eq_ok_iff {fs : FileSystem} {place last : Location} {name : Text}
    {names : List Text} :
    fs.walk place (name :: names) = .ok last ↔
      ∃ next, fs.Leads place name next ∧ fs.walk next names = .ok last := by
  constructor
  · intro h
    simp only [walk] at h
    split at h
    · cases h
    · cases h
    next modified access hentry =>
    split at h
    · cases h
    next hsearch =>
    have hdir : fs.Searchable place := ⟨modified, access, hentry, by simpa using hsearch⟩
    split at h
    · next hhere =>
      subst name
      exact ⟨_, .here hdir, h⟩
    next hhere =>
    split at h
    · next hup =>
      subst name
      exact ⟨_, .up hdir, h⟩
    next hup =>
    split at h
    · cases h
    next hshort =>
    split at h
    · cases h
    next hentry => exact ⟨_, .down hdir hhere hup (Nat.not_lt.mp hshort) hentry, h⟩
  · rintro ⟨next, hleads, h⟩
    obtain ⟨modified, access, hentry, hsearch⟩ := hleads.searchable
    simp only [walk, hentry, hsearch, Bool.not_true, Bool.false_eq_true, if_false]
    cases hleads with
    | here => simpa only [if_true] using h
    | up =>
      have hne : Path.up ≠ Path.here := by decide
      simpa only [if_neg hne, if_true] using h
    | down _ hhere hup hshort hentry =>
      simpa only [if_neg hhere, if_neg hup, if_neg (Nat.not_lt.mpr hshort), hentry] using h

/-- What leads to a directory that may be passed through may be passed through. -/
private theorem searchable_of_walk {fs : FileSystem} {place dir : Location} {names : List Text}
    (hwalk : fs.walk place names = .ok dir) (hdir : fs.Searchable dir) : fs.Searchable place := by
  cases names with
  | nil =>
    obtain rfl := Except.ok.inj hwalk
    exact hdir
  | cons name names =>
    obtain ⟨next, hleads, -⟩ := walk_cons_eq_ok_iff.mp hwalk
    exact hleads.searchable

/-- A way to a directory stays open as long as directories that may be passed through stay so. -/
theorem walk_of_searchable {fs fs' : FileSystem}
    (hkept : ∀ place, fs.Searchable place → fs'.Searchable place) {place dir : Location}
    {names : List Text} (hwalk : fs.walk place names = .ok dir) (hdir : fs.Searchable dir) :
    fs'.walk place names = .ok dir := by
  induction names generalizing place with
  | nil => exact hwalk
  | cons name names ih =>
    obtain ⟨next, hleads, hnext⟩ := walk_cons_eq_ok_iff.mp hwalk
    refine walk_cons_eq_ok_iff.mpr ⟨next, ?_, ih hnext⟩
    have hplace := hkept _ hleads.searchable
    cases hleads with
    | here => exact .here hplace
    | up => exact .up hplace
    | down _ hhere hup hshort _ =>
      obtain ⟨_, _, hentry, -⟩ := hkept _ (searchable_of_walk hnext hdir)
      exact .down hplace hhere hup hshort hentry

/-- The place that a path may write to: a name that is not too long in a directory, where no
directory stands. -/
structure IsTarget (fs : FileSystem) (path : Path) (dir : Location) (name : Text) : Prop where
  /-- The name is the last of the path. -/
  steps : path.steps = path.steps.dropLast ++ [name]
  /-- The other names lead to the directory. -/
  walk : fs.walk (fs.startOf path) path.steps.dropLast = .ok dir
  /-- The directory may be passed through. -/
  searchable : fs.Searchable dir
  /-- The name does not stay in the directory. -/
  ne_here : name ≠ Path.here
  /-- The name does not lead up. -/
  ne_up : name ≠ Path.up
  /-- The name is not too long. -/
  short : (Utf8.encode name).length ≤ nameLimit
  /-- No directory stands at the place. -/
  free : ∀ modified access, fs.get? (dir ++ [name]) ≠ some (.directory modified access)

/-- The place that a path may write to is found by its directory and its name. -/
theorem isTarget_of_target {fs : FileSystem} {path : Path} {place : Location}
    (h : fs.target path = .ok place) :
    ∃ dir name, place = dir ++ [name] ∧ fs.IsTarget path dir name := by
  unfold target at h
  split at h
  · cases h
  next name hlast =>
  obtain ⟨front, hfront⟩ := List.getLast?_eq_some_iff.mp hlast
  have hsteps : path.steps = path.steps.dropLast ++ [name] := by
    rw [hfront, List.dropLast_concat]
  split at h
  · cases hwalk : fs.walk (fs.startOf path) path.steps <;> simp [hwalk, bind, Except.bind] at h
  next hname =>
  obtain ⟨hhere, hup⟩ := not_or.mp hname
  cases hwalk : fs.walk (fs.startOf path) path.steps.dropLast with
  | error e => simp [hwalk, bind, Except.bind] at h
  | ok dir =>
    simp only [hwalk, bind, Except.bind] at h
    split at h
    · cases h
    · cases h
    next modified access hdir =>
    split at h
    · cases h
    next hsearch =>
    split at h
    · cases h
    next hshort =>
    have hplace : (∀ modified access, fs.get? (dir ++ [name]) ≠ some (.directory modified access)) ∧
        dir ++ [name] = place := by
      split at h
      · cases h
      · next hentry =>
        split at h
        · exact ⟨by simp [hentry], Except.ok.inj h⟩
        · cases h
      · next hentry =>
        split at h
        · exact ⟨by simp [hentry], Except.ok.inj h⟩
        · cases h
    obtain ⟨hfree, rfl⟩ := hplace
    exact ⟨dir, name, rfl, hsteps, hwalk, ⟨modified, access, hdir, by simpa using hsearch⟩, hhere,
      hup, Nat.not_lt.mp hshort, hfree⟩

/-- Storing a file at the place of a path keeps everything else. -/
private theorem IsTarget.kept_store {fs : FileSystem} {path : Path} {dir : Location} {name : Text}
    (h : fs.IsTarget path dir name) (content : Bytes) {other : Location}
    (hother : other ≠ dir ++ [name]) :
    Kept (fs.get? other) ((fs.store (dir ++ [name]) content).get? other) := by
  have hdir := h.searchable
  exact FileSystem.kept_store (by rwa [List.dropLast_concat]) content hother

/-- A path leads to the file that was stored at its place. -/
theorem IsTarget.find_store {fs : FileSystem} {path : Path} {dir : Location} {name : Text}
    (h : fs.IsTarget path dir name) (hcheck : checkPath path = .ok ()) (content : Bytes) :
    ∃ modified, (fs.store (dir ++ [name]) content).find path =
      .ok (.file content modified (fs.accessAt (dir ++ [name]))) := by
  have hkept : ∀ place, fs.Searchable place →
      (fs.store (dir ++ [name]) content).Searchable place := by
    intro place hplace
    refine hplace.of_kept (h.kept_store content ?_)
    rintro rfl
    obtain ⟨modified, access, hentry, -⟩ := hplace
    exact h.free modified access hentry
  obtain ⟨modified, hfile⟩ := get?_store_self fs (dir ++ [name]) content
  have hfront := walk_of_searchable hkept h.walk h.searchable
  have hlast : (fs.store (dir ++ [name]) content).walk dir [name] = .ok (dir ++ [name]) :=
    walk_cons_eq_ok_iff.mpr ⟨_, .down (hkept _ h.searchable) h.ne_here h.ne_up h.short hfile, rfl⟩
  have hstart : (fs.store (dir ++ [name]) content).startOf path = fs.startOf path := by
    rw [startOf, current_store, startOf]
  have hwalk : (fs.store (dir ++ [name]) content).walk (fs.startOf path) path.steps =
      .ok (dir ++ [name]) := by
    rw [h.steps, walk_append, hfront]
    exact hlast
  refine ⟨modified, ?_⟩
  simp [find, hcheck, hstart, hwalk, hfile, refuse, bind, Except.bind]

/-- What can be written is there afterwards, to be read unless the file may not be read, and nothing
else has changed. -/
theorem writes_of_write {fs fs' : FileSystem} {path : Path} {content : Bytes}
    (h : fs.write path content = .ok fs') : fs.Writes path content fs' := by
  unfold write at h
  cases hcheck : checkPath path with
  | error f => simp [hcheck, bind, Except.bind] at h
  | ok =>
    cases htarget : fs.target path with
    | error e => simp [hcheck, htarget, refuse, bind, Except.bind] at h
    | ok place =>
      simp only [hcheck, htarget, refuse, bind, Except.bind, pure, Except.pure] at h
      obtain rfl := Except.ok.inj h
      obtain ⟨dir, name, rfl, hplace⟩ := isTarget_of_target htarget
      obtain ⟨modified, hfind⟩ := hplace.find_store hcheck content
      refine ⟨⟨_, htarget, get?_store_self .., fun other => hplace.kept_store content⟩,
        current_store .., ⟨_, _, hfind⟩, fun hread => ?_⟩
      exact read_eq_ok_iff.mpr ⟨_, _, hfind, hread _ htarget⟩

end TagLexer.FileSystem
