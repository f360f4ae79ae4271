import TagLexer.Files.FileSystem
import TagLexer.Listing
import TagLexer.Toml.Value

/-!
# Faults

What can go wrong in a run once its command line is understood: a path cannot be used, bytes are no
UTF-8, an integer in a settings file is too long or its values are nested too deep to be read or to
be shown, or a listing is asked for in no format at all.
-/

namespace TagLexer

/-- Something that went wrong in a run. -/
inductive Fault where
  /-- A path cannot be used. -/
  | file (fault : FileFault)
  /-- Bytes are no UTF-8. -/
  | notUtf8 (fault : Utf8.Fault)
  /-- An integer of a settings file has too many digits to be read. -/
  | longInteger (digits : Nat)
  /-- The values of a settings file are nested too deep to be read. -/
  | tooDeep
  /-- A value of a settings file cannot be shown. -/
  | unshown (cause : Toml.Unshown)
  /-- A listing has no format. -/
  | unknownFormat (fault : Listing.UnknownFormat)
  deriving DecidableEq, Repr

namespace Fault

/-- What is said about an integer with too many digits. -/
def digitLimitMessage (detail : Text) : Text :=
  "Exceeds the limit (".toList ++ Text.ofNat Toml.digitLimit ++
    " digits) for integer string conversion".toList ++ detail ++
    "; use sys.set_int_max_str_digits() to increase the limit".toList

/-- What is said about calls that have run out, up to what the last of them was about to do. -/
def depthMessage : Text := "maximum recursion depth exceeded".toList

/-- What is said about a fault. -/
def message : Fault → Text
  | file f => f.message
  | notUtf8 f => f.message
  | longInteger digits =>
    digitLimitMessage (": value has ".toList ++ Text.ofNat digits ++ " digits".toList)
  | tooDeep => depthMessage
  | unshown .longInteger => digitLimitMessage []
  | unshown .tooDeep => depthMessage ++ " while getting the repr of an object".toList
  | unknownFormat e => e.message

/-- Whether the program reports a fault in a file it works on and goes on from there. Refusals of
the operating system and bytes that are no UTF-8 are reported; anything else ends the program. -/
def isReported : Fault → Bool
  | file (.os ..) => true
  | file .nullByte => false
  | notUtf8 _ => true
  | longInteger _ | tooDeep | unshown _ | unknownFormat _ => false

end Fault

end TagLexer
