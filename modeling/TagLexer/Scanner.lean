import TagLexer.Segment

/-!
# The scanner

A scanner stands at an offset of its source and holds the tokens and notes it has collected so far.
It can pass over blanks, take one segment where it stands, or run to the end of the source. The run
ends because every segment it takes leaves a shorter rest.
-/

namespace TagLexer

/-- A scanner on its way through a source. -/
structure Scanner where
  /-- How many characters of the source have been passed. -/
  offset : Nat
  /-- The characters that are still to be read. -/
  rest : Text
  /-- The tokens found so far, in source order. -/
  tokens : List Token
  /-- The notes taken so far, in source order. -/
  notes : List Note
  deriving DecidableEq, Repr

namespace Scanner

/-- A scanner at the start of a source. -/
def start (source : Text) : Scanner := { offset := 0, rest := source, tokens := [], notes := [] }

/-- Pass over the blanks where the scanner stands. -/
def skipBlanks (sc : Scanner) : Scanner :=
  { sc with
    offset := sc.offset + (sc.rest.takeWhile isBlank).length
    rest := sc.rest.dropWhile isBlank }

/-- Move past a segment and keep its token and its note. -/
def pass (sc : Scanner) (segment : Segment) (rest : Text) : Scanner :=
  { offset := sc.offset + segment.text.length
    rest
    tokens := sc.tokens ++ segment.token?.toList
    notes := sc.notes ++ (segment.note? sc.offset).toList }

/-- Take the segment that starts where the scanner stands, without passing over blanks first. At
the end of the source nothing happens. -/
def step (sc : Scanner) : Scanner :=
  match sc.rest with
  | [] => sc
  | c :: rest => sc.pass (Segment.cut c rest).1 (Segment.cut c rest).2

private theorem length_skipBlanks_le (sc : Scanner) :
    sc.skipBlanks.rest.length ≤ sc.rest.length :=
  (List.dropWhile_suffix isBlank).length_le

private theorem length_step_lt (sc : Scanner) (h : sc.rest ≠ []) :
    sc.step.rest.length < sc.rest.length := by
  unfold step
  split
  · contradiction
  · next c rest hr =>
    have := Segment.length_cut_le c rest
    simp only [pass, hr, List.length_cons]
    omega

/-- Run to the end of the source: pass over blanks and take a segment as long as one is left. -/
def finish (sc : Scanner) : Scanner :=
  if sc.skipBlanks.rest = [] then sc.skipBlanks
  else sc.skipBlanks.step.finish
termination_by sc.rest.length
decreasing_by
  rename_i h
  have hs := length_step_lt sc.skipBlanks h
  have hb := length_skipBlanks_le sc
  omega

/-- What a scanner can be told to do. -/
inductive Move where
  | skipBlanks | step | finish
  deriving DecidableEq, Repr

/-- Do as told. -/
def move (sc : Scanner) : Move → Scanner
  | .skipBlanks => sc.skipBlanks
  | .step => sc.step
  | .finish => sc.finish

/-- Do as told, one thing after another. -/
def moveAll (sc : Scanner) (moves : List Move) : Scanner := moves.foldl move sc

end Scanner

/-- What a scan of a whole source finds. -/
structure Scan where
  /-- The tokens, in source order. -/
  tokens : List Token
  /-- The notes, in source order. -/
  notes : List Note
  deriving DecidableEq, Repr

/-- Scan a whole source. -/
def Scan.of (source : Text) : Scan :=
  let done := (Scanner.start source).finish
  { tokens := done.tokens, notes := done.notes }

end TagLexer
