/-
# EmbeddedHttp.Server.Address -- socket addresses and their text

A socket address is a host and a port.  The host is a number of version 4, a number
of version 6, perhaps with a zone, or the name of the machine itself.

A number of version 4 is written as one to four parts, each of them decimal, octal
or hexadecimal; the last one fills the places that are left.  One of version 6 is
eight groups of hexadecimal digits, of which one run of zeros may be left out, and
the last two groups may be written as four decimal parts.
-/
import EmbeddedHttp.Text.Pieces
import EmbeddedHttp.Text.Numeral

namespace EmbeddedHttp

set_option autoImplicit false

/-- A host, by its number. -/
inductive HostNumber where
  | four (value : Nat)
  | six (groups : List Nat) (zone : Nat)
  deriving DecidableEq, Repr

/-- A host and a port. -/
structure SocketAddress where
  host : HostNumber
  port : Nat
  deriving DecidableEq, Repr

namespace HostNumber

/-! ## Version 4 -/

/-- How many numbers fit into so many places. -/
def room : Nat → Nat
  | 0 => 1
  | places + 1 => 256 * room places

/-- A part of a number of version 4, with the prefix of its base. -/
def part? : List Char → Option Nat
  | '0' :: c :: rest =>
      if c = 'x' || c = 'X' then Text.digits? 16 UInt32.size rest
      else Text.digits? 8 UInt32.size (c :: rest)
  | digits => Text.digits? 10 UInt32.size digits

/-- The number that parts denote which share so many places: one place for each part but
the last. -/
def join? : Nat → List (List Char) → Option Nat
  | places, [last] => (part? last).filter (· < room places)
  | places + 1, first :: rest => do
      let high ← (part? first).filter (· < 256)
      let low ← join? places rest
      return high * room places + low
  | _, _ => none

/-- The host that a number of version 4 denotes. -/
def four? (text : List Char) : Option HostNumber := (join? 4 (Text.pieces '.' text)).map .four

/-- The four octets of a number of version 4 as text. -/
def dotted (value : Nat) : String :=
  String.intercalate "." ([16777216, 65536, 256, 1].map fun unit => toString (value / unit % 256))

/-! ## Version 6 -/

/-- A group of one to four hexadecimal digits. -/
def group? (digits : List Char) : Option Nat :=
  if digits.length ≤ 4 then Text.digits? 16 65536 digits else none

/-- One of the decimal parts behind the groups: up to three digits, without a needless
zero. -/
def octet? : List Char → Option Nat
  | '0' :: _ :: _ => none
  | digits => if digits.length ≤ 3 then Text.digits? 10 256 digits else none

/-- The two groups that four decimal parts amount to. -/
def lastGroups? (text : List Char) : Option (List Nat) := do
  match ← (Text.pieces '.' text).mapM octet? with
  | [a, b, c, d] => return [256 * a + b, 256 * c + d]
  | _ => none

/-- The groups that pieces denote.  The last piece of an address may be four decimal
parts. -/
def groups? (isLast : Bool) : List (List Char) → Option (List Nat)
  | [] => some []
  | [piece] =>
      if isLast && piece.contains '.' then lastGroups? piece else (group? piece).map ([·])
  | piece :: rest => do return (← group? piece) :: (← groups? isLast rest)

/-- The groups of a stretch of an address, which may be empty. -/
def stretch? (isLast : Bool) (text : List Char) : Option (List Nat) :=
  if text.isEmpty then some [] else groups? isLast (Text.pieces ':' text)

/-- The eight groups that a number of version 6 denotes. -/
def eightGroups? (text : List Char) : Option (List Nat) :=
  match Text.cutDouble? ':' text with
  | none => (stretch? true text).filter (·.length = 8)
  | some (front, back) => do
      let front ← stretch? false front
      let back ← stretch? true back
      let written := front.length + back.length
      if 7 < written then none else return front ++ List.replicate (8 - written) 0 ++ back

/-- The host that a number of version 6 denotes, perhaps with a zone. -/
def six? (text : List Char) : Option HostNumber :=
  match Text.pieces '%' text with
  | [number] => (eightGroups? number).map (.six · 0)
  | [number, zone] => do
      return .six (← eightGroups? number) (← Text.digits? 10 UInt32.size zone)
  | _ => none

/-- The longest run of zeros among groups, the first one of that length: where it
begins, and its length. -/
def longestRun (groups : List Nat) : Nat × Nat :=
  let runs := (List.range groups.length).map fun start =>
    (start, ((groups.drop start).takeWhile (· == 0)).length)
  runs.foldl (fun best run => if best.2 < run.2 then run else best) (0, 0)

/-- Groups as text. -/
def groupsText (groups : List Nat) : String :=
  String.intercalate ":" (groups.map fun group => String.ofList (Nat.toDigits 16 group))

/-- A number of version 6 as text. -/
def sixText (groups : List Nat) : String :=
  match groups with
  | [0, 0, 0, 0, 0, 65535, high, low] => "::ffff:" ++ dotted (65536 * high + low)
  | _ =>
      let run := longestRun groups
      if 1 < run.2 then
        groupsText (groups.take run.1) ++ "::" ++ groupsText (groups.drop (run.1 + run.2))
      else groupsText groups

/-! ## Either version -/

/-- The host that a text names. -/
def ofText? (text : List Char) : Option HostNumber :=
  if text.map Char.toLower = "localhost".toList then some (.four (127 * room 3 + 1))
  else (four? text).or (six? text)

/-- Can a socket be bound to the host?  A machine without a network grants every number
of version 4.  Of version 6 it grants the one that stands for all its addresses, and
those that stand for a number of version 4. -/
def isBindable : HostNumber → Bool
  | .four _ => true
  | .six groups _ =>
      match groups with
      | [0, 0, 0, 0, 0, 65535, _, _] => true
      | _ => groups.all (· == 0)

end HostNumber

namespace SocketAddress

/-- The address that a text names.  A number of version 6 stands between brackets, in
front of a port of digits alone; everything else ends at the last colon. -/
def ofText? (text : String) : Option SocketAddress :=
  let bracketed : Option SocketAddress :=
    match text.toList with
    | '[' :: rest =>
        match Text.pieces ']' rest with
        | [host, ':' :: port] => do
            return ⟨← HostNumber.six? host, ← Text.digits? 10 65536 port⟩
        | _ => none
    | _ => none
  bracketed.or do
    let (host, port) ← Text.cutLast? ':' text.toList
    return ⟨← HostNumber.ofText? host, ← Text.numeral? 65536 port⟩

/-- The address as text. -/
def toText (address : SocketAddress) : String :=
  let host := match address.host with
    | .four value => HostNumber.dotted value
    | .six groups zone =>
        let suffix := if zone = 0 then "" else "%" ++ toString zone
        "[" ++ HostNumber.sixText groups ++ suffix ++ "]"
  host ++ ":" ++ toString address.port

end SocketAddress

end EmbeddedHttp
