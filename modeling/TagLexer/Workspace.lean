import TagLexer.Diagnostic
import TagLexer.Uri.Authority
import TagLexer.Uri.Percent

/-!
# Documents of an editor

Whenever an editor opens or changes a document, the diagnostics of its current text are published
under the URI that the editor has just used. Which text that is is a matter of the store that keeps
the documents (`DocumentStore`). In the one used here, two URIs name the same document if they
differ only in what is escaped (`Workspace`).
-/

namespace TagLexer

/-- The URI of a document and its diagnostics. -/
abbrev Publication := Text × List Diagnostic

/-- A store of documents: what an event makes of its state, the URI by which an event names its
document, and the text that a state has for a URI. -/
structure DocumentStore (State Event Fault : Type) where
  /-- Bring the documents up to date with an event. -/
  update : State → Event → Except Fault State
  /-- The URI by which an event names its document. -/
  uri : Event → Text
  /-- The current text of a document. -/
  text : State → Text → Text

namespace DocumentStore

variable {State Event Fault : Type}

/-- Handle an event: update the documents and publish the diagnostics of the one it is about. -/
def handle (store : DocumentStore State Event Fault) (state : State) (e : Event) :
    Except Fault (State × List Publication) := do
  let state ← store.update state e
  return (state, [(store.uri e, Diagnostic.all (store.text state (store.uri e)))])

/-- Handle events in order; the publications of each are kept apart. -/
def handleAll (store : DocumentStore State Event Fault) (state : State) :
    List Event → Except Fault (List (List Publication))
  | [] => return []
  | e :: events => do
    let (state, published) ← store.handle state e
    return published :: (← store.handleAll state events)

end DocumentStore

/-- The documents an editor has opened. -/
structure Workspace where
  /-- The decoded URI and the current text of each document, the latest first. -/
  documents : List (Text × Text)
  deriving DecidableEq, Repr

namespace Workspace

/-- The URI of a document for which none is given. -/
def defaultUri : Text := "file:///test.tag".toList

/-- No document is open. -/
def empty : Workspace := ⟨[]⟩

/-- The current text of a document; one that was never opened has none. -/
def text (w : Workspace) (uri : Text) : Text := (w.documents.lookup (Uri.decode uri)).getD []

/-- Give a document a new text. -/
def store (w : Workspace) (uri text : Text) : Workspace := ⟨(Uri.decode uri, text) :: w.documents⟩

/-- What an editor tells: a document was opened, or its text was replaced some number of times. -/
inductive Event where
  | opened (uri text : Text)
  | changed (uri : Text) (texts : List Text)
  deriving DecidableEq, Repr

/-- The URI by which an event names its document. -/
def Event.uri : Event → Text
  | opened uri _ => uri
  | changed uri _ => uri

/-- Bring the documents up to date with an event. Only an accepted URI opens a document. -/
def update (w : Workspace) : Event → Except Uri.Fault Workspace
  | .opened uri text => do
    Uri.check uri
    return w.store uri text
  | .changed uri texts => return texts.foldl (fun w text => w.store uri text) w

/-- The store of these documents. -/
def documentStore : DocumentStore Workspace Event Uri.Fault :=
  { update := update, uri := Event.uri, text := text }

/-- Handle events in order; the publications of each are kept apart. -/
def handleAll (w : Workspace) (events : List Event) :
    Except Uri.Fault (List (List Publication)) :=
  documentStore.handleAll w events

end Workspace

end TagLexer
