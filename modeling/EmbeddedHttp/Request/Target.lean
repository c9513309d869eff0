/-
# EmbeddedHttp.Request.Target -- the path and the query of a target

A target in absolute form loses its scheme and authority, then any fragment is
dropped, and the first question mark divides the path from the query.
-/
import EmbeddedHttp.Text.Blank

namespace EmbeddedHttp.Target

set_option autoImplicit false

/-- What follows `stem`, when `s` starts with it. -/
def after? : List Char → List Char → Option (List Char)
  | [], s => some s
  | _ :: _, [] => none
  | c :: stem, d :: s => if c == d then after? stem s else none

/-- The target behind the scheme of an absolute form. -/
def afterScheme? (target : List Char) : Option (List Char) :=
  (after? "http://".toList target).or (after? "https://".toList target)

/-- The part of an absolute form that stands behind the authority: it begins at
the first slash, and is a lone slash when there is none. -/
def behindAuthority (s : List Char) : List Char :=
  match s.dropWhile (· != '/') with
  | [] => ['/']
  | path => path

/-- The target in origin form. -/
def origin (target : List Char) : List Char :=
  match afterScheme? target with
  | some rest => behindAuthority rest
  | none => target

/-- The path and the query of a target, as they were sent. -/
def split (target : String) : String × String :=
  let visible := (Text.cut '#' (origin target.toList)).1
  let parts := Text.cut '?' visible
  (String.ofList parts.1, String.ofList (parts.2.getD []))

end EmbeddedHttp.Target
