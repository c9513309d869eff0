/-
# EmbeddedHttp.Text.Quoted -- text in double quotes

How a message shows a text that may hold anything: between double quotes, with
the quote and the backslash escaped, the usual short escapes for NUL, tab and
the line ends, and a braced code point for every other character that cannot be
shown.
-/
import EmbeddedHttp.Text.Printable

namespace EmbeddedHttp.Text

set_option autoImplicit false

/-- One character inside double quotes. -/
def quoteChar (c : Char) : List Char :=
  if c == '"' then ['\\', '"']
  else if c == '\\' then ['\\', '\\']
  else if c == '\n' then ['\\', 'n']
  else if c == '\r' then ['\\', 'r']
  else if c == '\t' then ['\\', 't']
  else if c.toNat == 0 then ['\\', '0']
  else if isPrintable c then [c]
  else ['\\', 'u', '\x7b'] ++ Nat.toDigits 16 c.toNat ++ ['\x7d']

/-- The text between double quotes. -/
def quote (s : String) : String :=
  String.ofList (['"'] ++ s.toList.flatMap quoteChar ++ ['"'])

end EmbeddedHttp.Text
