/-
# EmbeddedHttp.Bytes -- octet strings and their ASCII view

Everything that crosses a socket is a list of octets.  Protocol words, field
names and numerals are ASCII, so this module fixes the few ASCII notions that
the message grammar, the header rules and the response writer share: letter case
(`sameIgnoringCase`), blanks (`trimBlanks`), comma lists (`elements`) and digits.
-/
namespace EmbeddedHttp

set_option autoImplicit false

/-- A string of octets. -/
abbrev Bytes := List UInt8

namespace Bytes

/-! ## Single octets -/

/-- Carriage return. -/
def cr : UInt8 := 13

/-- Line feed. -/
def lf : UInt8 := 10

/-- Space. -/
def space : UInt8 := 32

/-- Horizontal tab. -/
def tab : UInt8 := 9

/-- The ASCII capitals go to their small letters; every other octet stays. -/
def lower (b : UInt8) : UInt8 :=
  if 65 ≤ b ∧ b ≤ 90 then b + 32 else b

/-- A decimal digit. -/
def isDigit (b : UInt8) : Bool :=
  48 ≤ b && b ≤ 57

/-- The octets that ASCII trimming removes: space, tab, line feed, form feed and
carriage return.  The vertical tab is not one of them. -/
def isBlank (b : UInt8) : Bool :=
  b == 32 || b == 9 || b == 10 || b == 12 || b == 13

/-- The value of a hexadecimal digit of either case. -/
def hexValue? (b : UInt8) : Option Nat :=
  if 48 ≤ b ∧ b ≤ 57 then some (b.toNat - 48)
  else if 65 ≤ b ∧ b ≤ 70 then some (b.toNat - 55)
  else if 97 ≤ b ∧ b ≤ 102 then some (b.toNat - 87)
  else none

/-! ## Strings of octets -/

/-- The octets of an ASCII text, one per character. -/
def ofAscii (s : String) : Bytes :=
  s.toList.map fun c => c.toNat.toUInt8

/-- The UTF-8 form of a text. -/
def ofText (s : String) : Bytes :=
  s.toList.flatMap String.utf8EncodeChar

/-- Equality up to the case of ASCII letters. -/
def sameIgnoringCase (a b : Bytes) : Bool :=
  a.map lower == b.map lower

/-- Blanks removed at the front. -/
def trimFront : Bytes → Bytes
  | [] => []
  | b :: rest => if isBlank b then trimFront rest else b :: rest

/-- Blanks removed at both ends. -/
def trimBlanks (s : Bytes) : Bytes :=
  (trimFront (trimFront s).reverse).reverse

/-- The pieces of `s` between its commas; there is always at least one. -/
def pieces : Bytes → List Bytes
  | [] => [[]]
  | b :: rest =>
      if b == 44 then [] :: pieces rest
      else match pieces rest with
        | [] => [[b]]
        | first :: others => (b :: first) :: others

/-- The elements of a comma list: its pieces without the blanks around them, the
empty ones left out. -/
def elements (s : Bytes) : List Bytes :=
  (pieces s).map trimBlanks |>.filter fun piece => !piece.isEmpty

/-- Does the comma list `s` name `token`, in any case of its letters? -/
def hasToken (s token : Bytes) : Bool :=
  (elements s).any fun element => sameIgnoringCase element token

/-- The last element of a comma list, empty when there is none. -/
def lastElement (s : Bytes) : Bytes :=
  (elements s).getLast?.getD []

/-! ## Numerals -/

/-- The number that a string of decimal digits denotes, read from the left. -/
def decimalFrom : Nat → Bytes → Nat
  | value, [] => value
  | value, b :: rest => decimalFrom (value * 10 + (b.toNat - 48)) rest

/-- The decimal digits of a number. -/
def ofNat (n : Nat) : Bytes :=
  ofAscii (toString n)

/-- The lower-case hexadecimal digits of a number. -/
def ofNatHex (n : Nat) : Bytes :=
  (Nat.toDigits 16 n).map fun c => c.toNat.toUInt8

/-- The bound that every 64-bit quantity stays below. -/
def wordBound : Nat := UInt64.size

end Bytes

end EmbeddedHttp
