/-
# EmbeddedHttp.Request.Method -- the methods that are served

The common methods, and those of WebDAV and of version control that servers pass
through.  Method names are compared exactly, letter case included.
-/
import EmbeddedHttp.Bytes

namespace EmbeddedHttp

set_option autoImplicit false

/-- A method of a request. -/
inductive Method where
  | get | post | put | delete | head | options | patch | connect | trace
  | copy | lock | mkcol | move | propfind | proppatch | unlock | report
  | mkactivity | checkout | merge
  deriving DecidableEq, Repr

namespace Method

/-- Every method. -/
def all : List Method :=
  [.get, .post, .put, .delete, .head, .options, .patch, .connect, .trace, .copy, .lock,
    .mkcol, .move, .propfind, .proppatch, .unlock, .report, .mkactivity, .checkout, .merge]

/-- The method as it is written. -/
def name : Method → String
  | .get => "GET"
  | .post => "POST"
  | .put => "PUT"
  | .delete => "DELETE"
  | .head => "HEAD"
  | .options => "OPTIONS"
  | .patch => "PATCH"
  | .connect => "CONNECT"
  | .trace => "TRACE"
  | .copy => "COPY"
  | .lock => "LOCK"
  | .mkcol => "MKCOL"
  | .move => "MOVE"
  | .propfind => "PROPFIND"
  | .proppatch => "PROPPATCH"
  | .unlock => "UNLOCK"
  | .report => "REPORT"
  | .mkactivity => "MKACTIVITY"
  | .checkout => "CHECKOUT"
  | .merge => "MERGE"

/-- The method with the given name, if it is served. -/
def ofBytes? (name : Bytes) : Option Method :=
  all.find? fun method => Bytes.ofAscii method.name == name

/-- Requests with these methods carry a body, so they have to declare its length. -/
def requiresLength : Method → Bool
  | .post | .put | .patch => true
  | _ => false

end Method

end EmbeddedHttp
