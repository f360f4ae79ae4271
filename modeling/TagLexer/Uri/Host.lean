import TagLexer.Text.Numeral

/-!
# Hosts in brackets

A host in brackets is an IPv6 address, with or without a zone, or an address of a later version.
An IPv6 address has eight groups of hexadecimal digits. The last two may be written as an IPv4
address, and one stretch of at least one group may be left out with a double colon in its place.
-/

namespace TagLexer.Uri

/-- A number of an IPv4 address: at most 255, without leading zeros. -/
def isOctet (s : Text) : Bool :=
  !s.isEmpty && s.all isAsciiDigit && decide (s.length ≤ 3) &&
    (s == ['0'] || s.head? != some '0') && decide (s.valueIn 10 ≤ 255)

/-- An IPv4 address: four numbers with points between them. -/
def isIpv4 (s : Text) : Bool :=
  let parts := s.splitOn '.'
  parts.length == 4 && parts.all isOctet

/-- A group of an IPv6 address: one to four hexadecimal digits. -/
def isGroup (s : Text) : Bool := !s.isEmpty && decide (s.length ≤ 4) && s.all isHexDigit

/-- The number of groups that parts of an address make up, if all are well formed. The last part may
be an IPv4 address, which makes up two. -/
def countGroups (mayEndInIpv4 : Bool) : List Text → Option Nat
  | [] => some 0
  | [part] =>
    if isGroup part then some 1 else if mayEndInIpv4 && isIpv4 part then some 2 else none
  | part :: parts =>
    if isGroup part then (countGroups mayEndInIpv4 parts).map (· + 1) else none

/-- The number of groups that a stretch of an address makes up; an empty stretch has none. -/
def countStretch (mayEndInIpv4 : Bool) (s : Text) : Option Nat :=
  if s.isEmpty then some 0 else countGroups mayEndInIpv4 (s.splitOn ':')

/-- The parts of a text before and behind its first double colon. -/
def splitDoubleColon : Text → Option (Text × Text)
  | ':' :: ':' :: rest => some ([], rest)
  | c :: rest => (splitDoubleColon rest).map fun (left, right) => (c :: left, right)
  | [] => none

/-- An IPv6 address without a zone. -/
def isIpv6 (s : Text) : Bool :=
  match splitDoubleColon s with
  | none => countStretch true s == some 8
  | some (left, right) =>
    match countStretch false left, countStretch true right with
    | some m, some n => decide (m + n ≤ 7)
    | _, _ => false

/-- An IPv6 address that may have a zone behind a percent sign. -/
def isZonedIpv6 (s : Text) : Bool :=
  match s.dropWhile (· != '%') with
  | [] => isIpv6 s
  | _ :: zone => !zone.isEmpty && !zone.contains '%' && isIpv6 (s.takeWhile (· != '%'))

/-- An address of a later version: `v`, the hexadecimal number of the version, a point and at least
one more character. -/
def isLaterVersion (s : Text) : Bool :=
  match s with
  | 'v' :: rest =>
    !(rest.takeWhile isHexDigit).isEmpty &&
      match rest.dropWhile isHexDigit with
      | '.' :: address => !address.isEmpty
      | _ => false
  | _ => false

end TagLexer.Uri
