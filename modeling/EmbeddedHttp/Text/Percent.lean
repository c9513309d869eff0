/-
# EmbeddedHttp.Text.Percent -- percent escapes

A percent sign and two hexadecimal digits stand for one octet; anything else
stands for itself.  The octets are then read as text, lossily.
-/
import EmbeddedHttp.Text.Utf8

namespace EmbeddedHttp.Percent

set_option autoImplicit false

/-- The octets that `s` stands for. -/
def unescape : Bytes → Bytes
  | [] => []
  | [a] => [a]
  | [a, b] => [a, b]
  | a :: b :: c :: rest =>
      if a == 37 then
        match Bytes.hexValue? b, Bytes.hexValue? c with
        | some high, some low => (high * 16 + low).toUInt8 :: unescape rest
        | _, _ => a :: unescape (b :: c :: rest)
      else a :: unescape (b :: c :: rest)

/-- The text with its escapes resolved. -/
def decode (s : String) : String :=
  Utf8.decodeLossy (unescape (Bytes.ofText s))

end EmbeddedHttp.Percent
