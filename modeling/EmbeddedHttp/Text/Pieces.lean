/-
# EmbeddedHttp.Text.Pieces -- taking text apart at a character

Paths and addresses are taken apart at every separator, at the last one, or at the
first pair of them.
-/
namespace EmbeddedHttp.Text

set_option autoImplicit false

/-- The pieces between the occurrences of a separator; there is always at least one. -/
def pieces (separator : Char) : List Char → List (List Char)
  | [] => [[]]
  | c :: rest =>
      if c = separator then [] :: pieces separator rest
      else match pieces separator rest with
        | [] => [[c]]
        | piece :: others => (c :: piece) :: others

/-- What is in front of the last occurrence of a separator, and what is behind it. -/
def cutLast? (separator : Char) : List Char → Option (List Char × List Char)
  | [] => none
  | c :: rest =>
      match cutLast? separator rest with
      | some (front, back) => some (c :: front, back)
      | none => if c = separator then some ([], rest) else none

/-- What is in front of the first two separators in a row, and what is behind them. -/
def cutDouble? (separator : Char) : List Char → Option (List Char × List Char)
  | [] => none
  | c :: rest =>
      if c = separator && rest.head? = some separator then some ([], rest.drop 1)
      else (cutDouble? separator rest).map fun (front, back) => (c :: front, back)

end EmbeddedHttp.Text
