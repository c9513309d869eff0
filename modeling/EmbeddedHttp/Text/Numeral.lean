/-
# EmbeddedHttp.Text.Numeral -- unsigned numerals in text

A numeral is an optional plus sign and then at least one decimal digit, nothing
else; its value has to stay below a bound given by where it is used.
-/
namespace EmbeddedHttp.Text

set_option autoImplicit false

/-- The value of a string of digits of base `base`, or nothing when a character
is no such digit. -/
def digitsFrom? (base : Nat) : Nat → List Char → Option Nat
  | value, [] => some value
  | value, c :: rest =>
      let digit? :=
        if c.isDigit then some (c.toNat - 48)
        else if 'a' ≤ c ∧ c ≤ 'z' then some (c.toNat - 87)
        else if 'A' ≤ c ∧ c ≤ 'Z' then some (c.toNat - 55)
        else none
      match digit? with
      | some d => if d < base then digitsFrom? base (value * base + d) rest else none
      | none => none

/-- A nonempty string of digits of base `base` whose value is below `bound`. -/
def digits? (base bound : Nat) : List Char → Option Nat
  | [] => none
  | s => (digitsFrom? base 0 s).filter fun value => value < bound

/-- An unsigned decimal numeral below `bound`; a leading plus sign is allowed. -/
def numeral? (bound : Nat) : List Char → Option Nat
  | '+' :: rest => digits? 10 bound rest
  | s => digits? 10 bound s

end EmbeddedHttp.Text
