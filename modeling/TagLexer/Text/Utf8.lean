import TagLexer.Text.Numeral

/-!
# UTF-8

Texts are stored as UTF-8. Bytes fall into pieces, of which each is a character or a faulty
sequence. There are three faults: a byte that starts no character, a sequence that goes on with a
wrong byte, and a sequence that the end cuts off. The second byte of a sequence has a narrower range
where overlong forms, surrogates or values beyond the last code point would begin. Strict decoding
stops at the first fault, lossy decoding puts a replacement character in its place.
-/

namespace TagLexer

/-- The content of a file. -/
abbrev Bytes := List UInt8

namespace Utf8

/-- What is wrong with a sequence of bytes. -/
inductive Reason where
  | startByte | continuationByte | endOfData
  deriving DecidableEq, Repr

/-- Where and why bytes are no UTF-8. -/
structure Fault where
  /-- The offset of the first byte of the faulty sequence. -/
  offset : Nat
  /-- The faulty sequence. -/
  sequence : Bytes
  /-- What is wrong with it. -/
  reason : Reason
  deriving DecidableEq, Repr

/-- What is said about a reason. -/
def Reason.message : Reason → Text
  | startByte => "invalid start byte".toList
  | continuationByte => "invalid continuation byte".toList
  | endOfData => "unexpected end of data".toList

/-- The faulty sequence and where it is: a single byte is shown, several are given by offsets. -/
def Fault.place (f : Fault) : Text :=
  match f.sequence with
  | [b] => "byte 0x".toList ++ Text.hex 2 b.toNat ++ " in position ".toList ++ Text.ofNat f.offset
  | bytes =>
    "bytes in position ".toList ++ Text.ofNat f.offset ++
      '-' :: Text.ofNat (f.offset + bytes.length - 1)

/-- What is said about a fault. -/
def Fault.message (f : Fault) : Text :=
  "'utf-8' codec can't decode ".toList ++ f.place ++ [':', ' '] ++ f.reason.message

/-- An inclusive range of bytes. -/
abbrev ByteRange := Nat × Nat

/-- The range of most bytes after the first of a sequence. -/
def tail : ByteRange := (0x80, 0xBF)

/-- The bits of the code point in the first byte of a sequence of several bytes, and the ranges of
the bytes that have to follow it. -/
def lead? (b : UInt8) : Option (Nat × ByteRange × List ByteRange) :=
  let n := b.toNat
  if 0xC2 ≤ n ∧ n ≤ 0xDF then some (n % 32, tail, [])
  else if n = 0xE0 then some (n % 16, (0xA0, 0xBF), [tail])
  else if n = 0xED then some (n % 16, (0x80, 0x9F), [tail])
  else if 0xE1 ≤ n ∧ n ≤ 0xEF then some (n % 16, tail, [tail])
  else if n = 0xF0 then some (n % 8, (0x90, 0xBF), [tail, tail])
  else if 0xF1 ≤ n ∧ n ≤ 0xF3 then some (n % 8, tail, [tail, tail])
  else if n = 0xF4 then some (n % 8, (0x80, 0x8F), [tail, tail])
  else none

/-- A stretch of bytes: the encoding of a character, or a faulty sequence. -/
inductive Piece where
  /-- A character. -/
  | char (c : Char)
  /-- A sequence that encodes no character. -/
  | faulty (sequence : Bytes) (reason : Reason)
  deriving DecidableEq, Repr

/-- Where a decoder stands between two bytes. -/
inductive State where
  /-- Between two pieces. -/
  | between
  /-- In a sequence: its bytes so far, the bits they give, and the ranges of the bytes it still
  needs. -/
  | inside (taken : Bytes) (bits : Nat) (next : ByteRange) (later : List ByteRange)
  deriving DecidableEq, Repr

/-- The first byte of a piece: the piece, if it is complete, and where the decoder stands then. -/
def startPiece (b : UInt8) : List Piece × State :=
  if b.toNat < 0x80 then ([.char (Char.ofNat b.toNat)], .between)
  else
    match lead? b with
    | none => ([.faulty [b] .startByte], .between)
    | some (bits, next, later) => ([], .inside [b] bits next later)

/-- A byte: the pieces that it completes, and where the decoder stands then. A byte that cannot go
on with a sequence ends it and starts a piece of its own. -/
def State.step : State → UInt8 → List Piece × State
  | between, b => startPiece b
  | inside taken bits next later, b =>
    if next.1 ≤ b.toNat ∧ b.toNat ≤ next.2 then
      let bits := bits * 64 + b.toNat % 64
      match later with
      | [] => ([.char (Char.ofNat bits)], .between)
      | next :: later => ([], .inside (taken ++ [b]) bits next later)
    else
      let (pieces, state) := startPiece b
      (.faulty taken .continuationByte :: pieces, state)

/-- The pieces that bytes complete from a state on. -/
def piecesFrom : State → Bytes → List Piece
  | .between, [] => []
  | .inside taken .., [] => [.faulty taken .endOfData]
  | state, b :: rest =>
    let (pieces, state) := state.step b
    pieces ++ piecesFrom state rest

/-- The pieces of bytes. -/
def pieces (bytes : Bytes) : List Piece := piecesFrom .between bytes

/-- The text of pieces that start at an offset, or the first fault among them. -/
def joinFrom (offset : Nat) : List Piece → Except Fault Text
  | [] => .ok []
  | .char c :: rest => (joinFrom (offset + c.utf8Size) rest).map (c :: ·)
  | .faulty sequence reason :: _ => .error ⟨offset, sequence, reason⟩

/-- The text that bytes encode. -/
def decode (bytes : Bytes) : Except Fault Text := joinFrom 0 (pieces bytes)

/-- The character that stands for a faulty sequence. -/
def replacement : Char := Char.ofNat 0xFFFD

/-- The text of bytes in which every faulty sequence is replaced by one character. -/
def decodeLossy (bytes : Bytes) : Text :=
  (pieces bytes).map fun
    | .char c => c
    | .faulty .. => replacement

/-- The bytes that encode a text. -/
def encode (s : Text) : Bytes := s.flatMap String.utf8EncodeChar

end Utf8

end TagLexer
