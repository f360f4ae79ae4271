import TagLexer.Proofs.Json.Written
import TagLexer.Proofs.Listing.Lines

/-!
# Listings as documents are lossless

A listing in the format of documents is one JSON document and a line feed. A reader of the whole
format gives the tokens back from it: an array with an object for each of them, which has the value
and the name of the kind and nothing else.
-/

namespace TagLexer

open Json (Denotes Value denoted denotedItems_eq_map denotedMembers)

namespace Listing

/-- What a listing says about a token. -/
def entry (token : Token) : Value :=
  .object [("value".toList, .string token.value), ("type".toList, .string token.kind.name)]

theorem denoted_object (token : Token) : (object token).denoted = entry token := by
  simp only [object, denoted, denotedMembers, entry]

/-- A token is known from what a listing says about it. -/
theorem entry_injective : Function.Injective entry := by
  rintro ⟨value, kind⟩ ⟨value', kind'⟩ h
  simp only [entry, Value.object.injEq, List.cons.injEq, Prod.mk.injEq, Value.string.injEq,
    true_and, and_true] at h
  obtain ⟨rfl, hname⟩ := h
  have hkind : some kind = some kind' := by
    rw [← Kind.ofName?_name kind, hname, Kind.ofName?_name]
  rw [Option.some.inj hkind]

/-- The tokens of a listing, without the line feed at its end. -/
def written (tokens : List Token) : Text := (Json.array (tokens.map object)).write 0

theorem renderNamed_json (tokens : List Token) :
    renderNamed tokens "json".toList = .ok (written tokens ++ ['\n']) := rfl

/-- What is written denotes an array of what the listing says about the tokens. -/
theorem denotes_written (tokens : List Token) :
    Denotes (written tokens) (.array (tokens.map entry)) := by
  have hentries : (tokens.map object).map denoted = tokens.map entry := by
    rw [List.map_map]
    exact List.map_congr_left fun token _ => denoted_object token
  have h := Json.denotes_write 0 (.array (tokens.map object))
  rwa [denoted, denotedItems_eq_map, hentries] at h

/-- White space around what is written leaves what it says. -/
theorem read_written (tokens : List Token) :
    Json.read (written tokens ++ ['\n']) = some (.array (tokens.map entry)) := by
  have hspaces : Json.Spaces ['\n'] := List.forall_mem_singleton.mpr (by decide)
  exact Json.read_eq_some_iff.mpr (.mk Json.spaces_nil (denotes_written tokens) hspaces)

end Listing

/-- The listing of any tokens in the format `json` is a document of the grammar and a line feed, and
a reader of the whole format gives the tokens back: an array with an object for each token, whose
members are its value and the name of its kind. So no other tokens have the same listing. Of the
control characters the listing holds the line feed only. -/
theorem renderNamed_json_reads_back (tokens : List Token) :
    ∃ text, Listing.renderNamed tokens "json".toList = .ok (text ++ ['\n']) ∧
      Json.Document text (.array (tokens.map Listing.entry)) ∧
      (∀ s v, Json.read s = some v ↔ Json.Document s v) ∧
      Json.read (text ++ ['\n']) = some (.array (tokens.map Listing.entry)) ∧
      (∀ others, Listing.renderNamed others "json".toList = .ok (text ++ ['\n']) →
        others = tokens) ∧
      ∀ c ∈ text ++ ['\n'], c.toNat < 0x20 → c = '\n' := by
  refine ⟨Listing.written tokens, Listing.renderNamed_json tokens, ?_,
    fun s v => Json.read_eq_some_iff, Listing.read_written tokens, fun others hothers => ?_,
    fun c hc hcontrol => ?_⟩
  · have hdocument :=
      Json.Document.mk Json.spaces_nil (Listing.denotes_written tokens) Json.spaces_nil
    rwa [List.append_nil, List.nil_append] at hdocument
  · have htext : Listing.written others ++ ['\n'] = Listing.written tokens ++ ['\n'] :=
      Except.ok.inj ((Listing.renderNamed_json others).symm.trans hothers)
    have hread := Listing.read_written others
    rw [htext, Listing.read_written tokens, Option.some.injEq, Value.array.injEq] at hread
    exact ((List.map_inj_right fun _ _ h => Listing.entry_injective h).mp hread).symm
  · rcases List.mem_append.mp hc with hc | hc
    · have hall := Json.all_isWritten_write 0 (.array (tokens.map Listing.object))
      have hwritten := List.all_eq_true.mp hall c hc
      simp only [Json.isWritten, Bool.or_eq_true, decide_eq_true_eq, beq_iff_eq] at hwritten
      exact hwritten.resolve_left (Nat.not_le.mpr hcontrol)
    · exact List.mem_singleton.mp hc

end TagLexer
