import TagLexer.Text.Quoted
import TagLexer.Text.Ranges
import TagLexer.Uri.Host

/-!
# Authorities

The authority of a URI names the host it belongs to. It stands between a double slash behind the
scheme and the next slash, question mark or number sign. A URI is accepted unless its authority is
malformed. Nothing else about a URI is checked.
-/

namespace TagLexer.Uri

/-- Why a URI is not accepted. -/
inductive Fault where
  /-- A square bracket lacks its counterpart, or the brackets do not enclose the host. -/
  | misplacedBracket
  /-- An address of a later version is malformed. -/
  | laterVersion
  /-- An IPv4 address stands in brackets. -/
  | bracketedIpv4
  /-- A host in brackets is no address. -/
  | noAddress (host : Text)
  /-- A character of the authority can be taken for a delimiter. -/
  | lookalike (authority : Text)
  deriving DecidableEq, Repr

/-- What is said about a URI that is not accepted. -/
def Fault.message : Fault → Text
  | misplacedBracket => "Invalid IPv6 URL".toList
  | laterVersion => "IPvFuture address is invalid".toList
  | bracketedIpv4 => "An IPv4 address cannot be in brackets".toList
  | noAddress host => host.quoted ++ " does not appear to be an IPv4 or IPv6 address".toList
  | lookalike authority =>
    "netloc '".toList ++ authority ++
      "' contains invalid characters under NFKC normalization".toList

/-- A URI without the control characters and spaces in front of it and without the tabs and line
ends in it. -/
def tidy (uri : Text) : Text :=
  (uri.dropWhile fun c => decide (c ≤ ' ')).filter fun c => !(c == '\t' || c == '\r' || c == '\n')

/-- A character of a scheme. -/
def isSchemeChar (c : Char) : Bool :=
  isAsciiLetter c || isAsciiDigit c || c == '+' || c == '-' || c == '.'

/-- What stands behind the scheme and its colon; all of a text that has no scheme. -/
def afterScheme (s : Text) : Text :=
  match s.takeWhile (· != ':'), s.dropWhile (· != ':') with
  | c :: scheme, _ :: rest => if isAsciiLetter c && scheme.all isSchemeChar then rest else s
  | _, _ => s

/-- The authority of a URI; empty where there is none. -/
def authority (uri : Text) : Text :=
  match afterScheme (tidy uri) with
  | '/' :: '/' :: rest => rest.takeWhile fun c => !(c == '/' || c == '?' || c == '#')
  | _ => []

/-- Characters whose compatibility form holds one of the delimiters `/`, `?`, `#`, `@` and `:`. -/
def lookalikeRanges : Ranges :=
  [(0x2047, 0x2049), (0x2100, 0x2101), (0x2105, 0x2106), (0x2A74, 0x2A74), (0xFE13, 0xFE13),
   (0xFE16, 0xFE16), (0xFE55, 0xFE56), (0xFE5F, 0xFE5F), (0xFE6B, 0xFE6B), (0xFF03, 0xFF03),
   (0xFF0F, 0xFF0F), (0xFF1A, 0xFF1A), (0xFF1F, 0xFF20)]

/-- Check a host that stands in brackets. -/
def checkHost (host : Text) : Except Fault Unit :=
  if host.head? = some 'v' then if isLaterVersion host then .ok () else .error .laterVersion
  else if isIpv4 host then .error .bracketedIpv4
  else if isZonedIpv6 host then .ok ()
  else .error (.noAddress host)

/-- The host and the port of an authority: what stands behind the last at sign. -/
def hostAndPort (authority : Text) : Text := (authority.reverse.takeWhile (· != '@')).reverse

/-- Check a host and a port where brackets are in use. Nothing may stand before the brackets, and
only a colon and the port behind them; a host outside brackets has to be an address all the
same. -/
def checkBracketed (s : Text) : Except Fault Unit :=
  match s.dropWhile (· != '[') with
  | [] => checkHost (s.takeWhile (· != ':'))
  | _ :: rest =>
    let before := s.takeWhile (· != '[')
    let behind := (rest.dropWhile (· != ']')).drop 1
    if before.isEmpty && (behind.isEmpty || behind.head? == some ':') then
      checkHost (rest.takeWhile (· != ']'))
    else .error .misplacedBracket

/-- Check the brackets of an authority. -/
def checkBrackets (authority : Text) : Except Fault Unit :=
  if authority.contains '[' != authority.contains ']' then .error .misplacedBracket
  else if authority.contains '[' then checkBracketed (hostAndPort authority)
  else .ok ()

/-- Check a URI: its authority is well formed. -/
def check (uri : Text) : Except Fault Unit := do
  checkBrackets (authority uri)
  if (authority uri).any lookalikeRanges.contains then throw (.lookalike (authority uri))

end TagLexer.Uri
