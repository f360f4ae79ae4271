import TagLexer.Text.Utf8

/-!
# Percent escapes

A URI may write any byte as a percent sign and two hexadecimal digits. Decoding resolves these
escapes once and reads the bytes as UTF-8, with a replacement character for what is none.
-/

namespace TagLexer.Uri

/-- The bytes that a text with escapes stands for: an escape is the byte it names, and any other
character is its UTF-8 encoding. A percent sign without two digits behind it stands for itself. -/
def unescape : Text → Bytes
  | [] => []
  | '%' :: high :: low :: rest =>
    if isHexDigit high && isHexDigit low then
      .ofNat (Text.valueIn 16 [high, low]) :: unescape rest
    else String.utf8EncodeChar '%' ++ unescape (high :: low :: rest)
  | c :: rest => String.utf8EncodeChar c ++ unescape rest

/-- The text that a URI stands for. -/
def decode (uri : Text) : Text := Utf8.decodeLossy (unescape uri)

end TagLexer.Uri
