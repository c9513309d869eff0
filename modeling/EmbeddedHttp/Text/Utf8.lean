/-
# EmbeddedHttp.Text.Utf8 -- reading octets as text

A machine that takes one octet at a time (RFC 3629): between characters it
accepts a leading octet, inside one it accepts the continuation octets that may
still come.  Two readers drive it.  `decode?` wants well-formed text and gives
nothing otherwise.  `decodeLossy` never fails: every maximal piece that cannot
be part of a character becomes one replacement character, and the octet that
broke it off is looked at again as the start of the next.
-/
import EmbeddedHttp.Bytes

namespace EmbeddedHttp.Utf8

set_option autoImplicit false

/-! ## The machine -/

/-- Where the machine stands between octets. -/
inductive State where
  /-- Between characters. -/
  | start
  /-- Inside a character: the bits so far, how many octets are owed after the
  next one, and the least and greatest octet that may come next. -/
  | within (bits : Nat) (owed : Nat) (low high : UInt8)
  deriving DecidableEq, Repr

/-- What one octet does. -/
inductive Move where
  | char (c : Char)
  | more (next : State)
  | refuse
  deriving DecidableEq, Repr

/-- A leading octet. -/
def lead (b : UInt8) : Move :=
  if b < 0x80 then .char (Char.ofNat b.toNat)
  else if b < 0xC2 then .refuse
  else if b < 0xE0 then .more (.within (b.toNat - 0xC0) 0 0x80 0xBF)
  else if b == 0xE0 then .more (.within 0 1 0xA0 0xBF)
  else if b == 0xED then .more (.within 13 1 0x80 0x9F)
  else if b < 0xF0 then .more (.within (b.toNat - 0xE0) 1 0x80 0xBF)
  else if b == 0xF0 then .more (.within 0 2 0x90 0xBF)
  else if b < 0xF4 then .more (.within (b.toNat - 0xF0) 2 0x80 0xBF)
  else if b == 0xF4 then .more (.within 4 2 0x80 0x8F)
  else .refuse

/-- One octet. -/
def step : State → UInt8 → Move
  | .start, b => lead b
  | .within bits owed low high, b =>
      if low ≤ b ∧ b ≤ high then
        let bits := bits * 64 + (b.toNat - 0x80)
        match owed with
        | 0 => .char (Char.ofNat bits)
        | owed + 1 => .more (.within bits owed 0x80 0xBF)
      else .refuse

/-! ## Readers -/

/-- Strict reading from a state; the characters are gathered in reverse. -/
def decodeFrom : State → List Char → Bytes → Option (List Char)
  | .start, done, [] => some done.reverse
  | .within .., _, [] => none
  | state, done, b :: rest =>
      match step state b with
      | .char c => decodeFrom .start (c :: done) rest
      | .more next => decodeFrom next done rest
      | .refuse => none

/-- The text that `s` is the UTF-8 form of, if there is one. -/
def decode? (s : Bytes) : Option String :=
  (decodeFrom .start [] s).map String.ofList

/-- Well-formed UTF-8. -/
def valid (s : Bytes) : Bool :=
  (decodeFrom .start [] s).isSome

/-- What stands for a piece that is no character. -/
def replacement : Char := Char.ofNat 0xFFFD

/-- Lossy reading from a state; the characters are gathered in reverse. -/
def decodeLossyFrom : State → List Char → Bytes → List Char
  | .start, done, [] => done.reverse
  | .within .., done, [] => (replacement :: done).reverse
  | state, done, b :: rest =>
      match step state b with
      | .char c => decodeLossyFrom .start (c :: done) rest
      | .more next => decodeLossyFrom next done rest
      | .refuse =>
          match state with
          | .start => decodeLossyFrom .start (replacement :: done) rest
          | .within .. =>
              match lead b with
              | .char c => decodeLossyFrom .start (c :: replacement :: done) rest
              | .more next => decodeLossyFrom next (replacement :: done) rest
              | .refuse => decodeLossyFrom .start (replacement :: replacement :: done) rest

/-- The text of `s`, with replacement characters where `s` is not UTF-8. -/
def decodeLossy (s : Bytes) : String :=
  String.ofList (decodeLossyFrom .start [] s)

end EmbeddedHttp.Utf8
