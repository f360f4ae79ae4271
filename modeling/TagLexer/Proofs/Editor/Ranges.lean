import Mathlib.Data.List.Forall2
import TagLexer.Proofs.Scan.Concat
import TagLexer.Proofs.Text.Lines
import TagLexer.Workspace

/-!
# What an editor is shown

Whenever an editor opens or changes a document, one list of diagnostics is published for it, and it
depends on the text that the document has by then and on nothing else. It has a diagnostic for each
note of the text, whose range is the one character that the note is about, and the ranges follow
each other in the order of the text. All this holds for every store of documents that gives the
current text of a document after an event (`DocumentStore.handleAll_publishes`), and so for the one
used here (`handleAll_publishes_marks`).
-/

namespace TagLexer

namespace Diagnostic

/-- A place lies in the range of a diagnostic. -/
def Contains (d : Diagnostic) (p : Place) : Prop := ¬ p.Before d.first ∧ p.Before d.last

/-- A diagnostic marks a note of a text: it says what the note says, and its range is the place of
the one visible character that the note is about. -/
structure Marks (s : Text) (note : Note) (d : Diagnostic) : Prop where
  /-- The message is that of the note. -/
  message : d.message = note.message
  /-- The range ends behind the character it starts with, on the same line. -/
  last : d.last = { d.first with character := d.first.character + 1 }
  /-- No other place lies in the range. -/
  contains : ∀ p, d.Contains p ↔ p = d.first
  /-- The range starts at the offset of the note. -/
  offset : s.offsetOf d.first = note.offset
  /-- The character there is the noted one. -/
  char : ∃ c, note.text = [c] ∧ s[note.offset]? = some c ∧ s.charAt? d.first = some c ∧
    isBlank c = false ∧ c ≠ '\n'

end Diagnostic

/-- A visible character ends no line. -/
theorem ne_lineEnd_of_visible {c : Char} (h : isBlank c = false) : c ≠ '\r' ∧ c ≠ '\n' := by
  constructor
  · rintro rfl
    exact absurd h (by decide)
  · rintro rfl
    exact absurd h (by decide)

/-- No place comes before itself. -/
theorem Place.not_before_self (p : Place) : ¬ p.Before p := by
  unfold Before
  omega

/-- The only place from one place on and before the next one on its line is that place. -/
theorem Place.eq_iff_not_before (p q : Place) :
    ¬ p.Before q ∧ p.Before { q with character := q.character + 1 } ↔ p = q := by
  obtain ⟨line, character⟩ := p
  obtain ⟨line', character'⟩ := q
  simp only [Before, Place.mk.injEq]
  omega

namespace Diagnostic

/-- The diagnostic of a note ranges from the place of the noted character to the place behind it. -/
theorem ofNote_eq {front back : Text} {c : Char} {note : Note}
    (hoffset : front.length = note.offset) (htext : note.text = [c]) :
    ofNote (front ++ c :: back) note =
      { first := .behind front, last := .behind (front ++ [c]), message := note.message } := by
  have hlast := Place.of_at_append (front ++ [c]) back
  rw [List.append_assoc, List.singleton_append, List.length_append, List.length_singleton] at hlast
  simp only [ofNote, htext, List.length_singleton, ← hoffset, Place.of_at_append, hlast]

variable {s : Text} {note : Note}

/-- The diagnostic of a note marks it. -/
theorem marks_ofNote (h : note ∈ (Scan.of s).notes) : Marks s note (ofNote s note) := by
  obtain ⟨front, c, back, rfl, hoffset, htext, hvisible⟩ := Scan.exists_visible_of_mem_notes h
  have hc : c ≠ '\n' := (ne_lineEnd_of_visible hvisible).2
  rw [ofNote_eq hoffset htext, Place.behind_concat front hc]
  refine ⟨rfl, rfl, (Place.eq_iff_not_before · _), ?_, c, htext, ?_, ?_, hvisible, hc⟩
  · exact (Place.offsetOf_behind front (c :: back)).trans hoffset
  · simp [← hoffset]
  · exact Place.charAt?_behind front back hc

/-- The range of an earlier note comes before that of a later one. -/
theorem first_before_of_offset_lt {other : Note} (h : note ∈ (Scan.of s).notes)
    (h' : other ∈ (Scan.of s).notes) (hlt : note.offset < other.offset) :
    (ofNote s note).first.Before (ofNote s other).first := by
  obtain ⟨front, c, back, hs, hoffset, htext, -⟩ := Scan.exists_visible_of_mem_notes h
  obtain ⟨front', c', back', hs', hoffset', htext', -⟩ := Scan.exists_visible_of_mem_notes h'
  -- What stands before the later note starts with what stands before the earlier one.
  obtain ⟨between, rfl⟩ : front <+: front' := by
    have hfront : front <+: s := hs ▸ List.prefix_append ..
    have hfront' : front' <+: s := hs' ▸ List.prefix_append ..
    exact List.prefix_of_prefix_length_le hfront hfront' (by omega)
  have hbetween : between ≠ [] := by
    rintro rfl
    simp at hoffset'
    omega
  have hfirst : (ofNote s note).first = .behind front := by rw [hs, ofNote_eq hoffset htext]
  have hfirst' : (ofNote s other).first = .behind (front ++ between) := by
    rw [hs', ofNote_eq hoffset' htext']
  rw [hfirst, hfirst']
  exact Place.before_of_append front hbetween

/-- The ranges of the diagnostics of a text follow each other, so no two of them meet. -/
theorem pairwise_all (s : Text) :
    (all s).Pairwise fun d e => d.first.Before e.first ∧ ∀ p, d.Contains p → ¬ e.Contains p := by
  rw [all, List.pairwise_map]
  refine (Scan.pairwise_offset_notes s).imp_of_mem fun {a b} ha hb hlt => ?_
  have hbefore := first_before_of_offset_lt ha hb hlt
  refine ⟨hbefore, fun p hp hp' => ?_⟩
  have hfirst := ((marks_ofNote ha).contains p).mp hp
  have hfirst' := ((marks_ofNote hb).contains p).mp hp'
  rw [← hfirst, ← hfirst'] at hbefore
  exact p.not_before_self hbefore

/-- Each diagnostic of a text marks the note it is made from. -/
theorem forall₂_marks_all (s : Text) : List.Forall₂ (Marks s) (Scan.of s).notes (all s) := by
  rw [all, List.forall₂_map_right_iff, List.forall₂_same]
  exact fun note hnote => marks_ofNote hnote

end Diagnostic

namespace DocumentStore

variable {State Event Fault : Type} {store : DocumentStore State Event Fault} {start : State}

/-- The states that accepted events lead to. -/
inductive Reaches (store : DocumentStore State Event Fault) (start : State) :
    List Event → State → Prop
  | start : Reaches store start [] start
  | event {events : List Event} {e : Event} {state next : State} :
      Reaches store start events state → store.update state e = .ok next →
      Reaches store start (events ++ [e]) next

/-- After every event, a store gives the current text of the document that the event is about. -/
def KeepsCurrent (store : DocumentStore State Event Fault) (start : State)
    (current : List Event → Text → Text) : Prop :=
  ∀ past e state, store.Reaches start (past ++ [e]) state →
    store.text state (store.uri e) = current (past ++ [e]) (store.uri e)

variable {current : List Event → Text → Text}

/-- Each event publishes once, for its own document, the diagnostics of the text that is current by
then. -/
theorem exists_handleAll (hcurrent : store.KeepsCurrent start current) {past events : List Event}
    {state : State} (hpast : store.Reaches start past state)
    (haccepted : ∀ e ∈ events, ∀ past state, store.Reaches start past state →
      ∃ next, store.update state e = .ok next) :
    ∃ published, store.handleAll state events = .ok published ∧
      published.length = events.length ∧
      ∀ earlier e later, events = earlier ++ e :: later →
        published[earlier.length]? = some [(store.uri e,
          Diagnostic.all (current (past ++ earlier ++ [e]) (store.uri e)))] := by
  induction events generalizing state past with
  | nil => exact ⟨[], rfl, rfl, by simp⟩
  | cons e events ih =>
    obtain ⟨next, hupdate⟩ := haccepted e List.mem_cons_self past state hpast
    have hnext := hpast.event hupdate
    obtain ⟨published, hhandle, hlength, hpublished⟩ :=
      ih hnext fun e' hmem => haccepted e' (List.mem_cons_of_mem e hmem)
    refine ⟨[(store.uri e, Diagnostic.all (store.text next (store.uri e)))] :: published,
      ?_, ?_, ?_⟩
    · simp [handleAll, handle, hupdate, hhandle, bind, Except.bind, pure, Except.pure]
    · rw [List.length_cons, List.length_cons, hlength]
    · intro earlier e' later hsplit
      cases earlier with
      | nil =>
        obtain ⟨rfl, -⟩ := List.cons.inj hsplit
        simp [hcurrent past e next hnext]
      | cons first earlier =>
        obtain ⟨rfl, hrest⟩ := List.cons.inj hsplit
        simpa using hpublished earlier e' later hrest

/-- Take any store of documents that after every event gives the current text of the document, and
events that it accepts. Each of them publishes one list of warnings under the URI it uses, which is
a function of the current text and marks its notes one by one, in strictly increasing ranges. -/
theorem handleAll_publishes (hcurrent : store.KeepsCurrent start current) {events : List Event}
    (haccepted : ∀ e ∈ events, ∀ past state, store.Reaches start past state →
      ∃ next, store.update state e = .ok next) :
    ∃ published, store.handleAll start events = .ok published ∧
      published.length = events.length ∧ Diagnostic.severity = 2 ∧
      ∀ earlier e later, events = earlier ++ e :: later →
        ∃ text diagnostics, text = current (earlier ++ [e]) (store.uri e) ∧
          diagnostics = Diagnostic.all text ∧
          published[earlier.length]? = some [(store.uri e, diagnostics)] ∧
          List.Forall₂ (Diagnostic.Marks text) (Scan.of text).notes diagnostics ∧
          diagnostics.Pairwise fun d d' =>
            d.first.Before d'.first ∧ ∀ p, d.Contains p → ¬ d'.Contains p := by
  obtain ⟨published, hhandle, hlength, hpublished⟩ := exists_handleAll hcurrent .start haccepted
  refine ⟨published, hhandle, hlength, rfl, fun earlier e later hsplit => ?_⟩
  exact ⟨_, _, rfl, rfl, hpublished earlier e later hsplit, Diagnostic.forall₂_marks_all _,
    Diagnostic.pairwise_all _⟩

end DocumentStore

namespace Workspace

/-- The texts that an event gives its document, in order. -/
def Event.texts : Event → List Text
  | opened _ text => [text]
  | changed _ texts => texts

/-- The text that events leave a document with: the latest of those that any event about it gave. -/
def currentText (events : List Event) (uri : Text) : Text :=
  ((events.filter fun e => Uri.decode e.uri = Uri.decode uri).flatMap Event.texts).getLast?.getD []

/-- A further event replaces the text of its own document, unless it gives none. -/
theorem currentText_concat (events : List Event) (e : Event) (uri : Text) :
    currentText (events ++ [e]) uri =
      if Uri.decode e.uri = Uri.decode uri then e.texts.getLast?.getD (currentText events uri)
      else currentText events uri := by
  unfold currentText
  rw [List.filter_append, List.flatMap_append]
  split
  · next h => cases hlast : e.texts.getLast? <;> simp [h, hlast, List.getLast?_append]
  · next h => simp [h]

variable {w w' : Workspace}

theorem text_store (w : Workspace) (uri text other : Text) :
    (w.store uri text).text other =
      if Uri.decode uri = Uri.decode other then text else w.text other := by
  unfold store Workspace.text
  rw [List.lookup_cons]
  by_cases h : Uri.decode uri = Uri.decode other
  · simp [h]
  · have hne : (Uri.decode other == Uri.decode uri) = false := by simpa using Ne.symm h
    simp [h, hne]

/-- Of the texts that replace each other the last one counts. -/
theorem text_foldl_store (w : Workspace) (uri other : Text) (texts : List Text) :
    (texts.foldl (fun w text => w.store uri text) w).text other =
      if Uri.decode uri = Uri.decode other then texts.getLast?.getD (w.text other)
      else w.text other := by
  induction texts generalizing w with
  | nil => simp
  | cons text texts ih =>
    rw [List.foldl_cons, ih, text_store, List.getLast?_cons]
    split <;> rfl

/-- An accepted event brings the documents up to date. -/
theorem text_update {e : Event} (h : w.update e = .ok w') (uri : Text) :
    w'.text uri =
      if Uri.decode e.uri = Uri.decode uri then e.texts.getLast?.getD (w.text uri)
      else w.text uri := by
  cases e with
  | opened name text =>
    cases hcheck : Uri.check name with
    | error f => simp [update, hcheck, bind, Except.bind] at h
    | ok =>
      obtain rfl : w.store name text = w' := by
        simpa [update, hcheck, bind, Except.bind, pure, Except.pure] using h
      exact text_store ..
  | changed name texts =>
    obtain rfl := Except.ok.inj h
    exact text_foldl_store ..

/-- Every event is accepted that opens no document or one whose URI is accepted. -/
theorem exists_update {e : Event}
    (h : ∀ uri text, e = .opened uri text → Uri.check uri = .ok ()) :
    ∃ w', w.update e = .ok w' := by
  cases e with
  | opened uri text =>
    refine ⟨w.store uri text, ?_⟩
    simp [update, h uri text rfl, bind, Except.bind, pure, Except.pure]
  | changed uri texts => exact ⟨_, rfl⟩

/-- After every event, each document has its current text. -/
theorem text_eq_of_reaches {events : List Event} (h : documentStore.Reaches empty events w) :
    ∀ uri, w.text uri = currentText events uri := by
  induction h with
  | start => exact fun _ => rfl
  | event _ hupdate ih =>
    intro uri
    rw [text_update hupdate, currentText_concat, ih]

end Workspace

/-- Take any events whose URIs are accepted where they open a document. Each of them publishes one
list of diagnostics, under the URI it uses, and this list is a function of the text that the
document has after the event. All diagnostics are warnings. There is one for each note of the text,
in order, and it marks the one visible character that the note is about. The ranges are strictly
increasing, and no place lies in two of them. -/
theorem handleAll_publishes_marks {events : List Workspace.Event}
    (haccepted : ∀ uri text, .opened uri text ∈ events → Uri.check uri = .ok ()) :
    ∃ published, Workspace.empty.handleAll events = .ok published ∧
      published.length = events.length ∧ Diagnostic.severity = 2 ∧
      ∀ earlier e later, events = earlier ++ e :: later →
        ∃ text diagnostics, text = Workspace.currentText (earlier ++ [e]) e.uri ∧
          diagnostics = Diagnostic.all text ∧
          published[earlier.length]? = some [(e.uri, diagnostics)] ∧
          List.Forall₂ (Diagnostic.Marks text) (Scan.of text).notes diagnostics ∧
          diagnostics.Pairwise fun d d' =>
            d.first.Before d'.first ∧ ∀ p, d.Contains p → ¬ d'.Contains p := by
  refine DocumentStore.handleAll_publishes (fun past e w h => ?_) fun e hmem _ w _ => ?_
  · exact Workspace.text_eq_of_reaches h e.uri
  · exact Workspace.exists_update fun uri text he => haccepted uri text (he ▸ hmem)

/-- A document is opened and is then changed twice by one event, which spells its URI otherwise. Two
diagnostics are published for its last text: one for the end of the first line and one for the end
of the text. -/
theorem handleAll_publishes_marks_of_change :
    Uri.check "file:///a.tag".toList = .ok () ∧
      ∃ published,
        Workspace.empty.handleAll
            [.opened "file:///a.tag".toList "@".toList,
              .changed "file:///a%2Etag".toList ["~~".toList, "a @\n\t😀".toList]] =
          .ok published ∧
        published.length = 2 ∧
        published[1]? = some [("file:///a%2Etag".toList,
          [{ first := ⟨0, 2⟩, last := ⟨0, 3⟩,
             message := "unrecognized character '@' dropped".toList },
           { first := ⟨1, 1⟩, last := ⟨1, 2⟩,
             message := "unrecognized character '😀' dropped".toList }])] := by
  have hcheck : Uri.check "file:///a.tag".toList = .ok () := rfl
  obtain ⟨published, hhandle, hlength, -, hpublished⟩ := @handleAll_publishes_marks
    [.opened "file:///a.tag".toList "@".toList,
      .changed "file:///a%2Etag".toList ["~~".toList, "a @\n\t😀".toList]] (by
    intro uri text hmem
    obtain ⟨rfl, -⟩ : uri = "file:///a.tag".toList ∧ text = "@".toList := by simpa using hmem
    exact hcheck)
  obtain ⟨text, diagnostics, rfl, rfl, hevent, -⟩ := hpublished [_] _ [] rfl
  exact ⟨hcheck, published, hhandle, hlength, hevent.trans (by decide +kernel)⟩

end TagLexer
