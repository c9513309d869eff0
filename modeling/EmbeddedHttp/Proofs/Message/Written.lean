/-
# EmbeddedHttp.Proofs.Message.Written -- requests as a client writes them

The other side of reading: a request as a value (`WrittenRequest`), the octets that
a client may send for it, and what makes it legal.  The form leaves the client every
freedom that the grammar does: either line end, any spacing around a field value, any
numeral for a size with any leading zeros and an extension behind it, a body declared
or cut into chunks, trailers.  Names, values and targets are texts in their UTF-8 form.

Requests of one connection follow each other with any line ends between them
(`Pipeline.octets`).
-/
import EmbeddedHttp.Application.Environ
import EmbeddedHttp.Request.Intake

namespace EmbeddedHttp

set_option autoImplicit false

/-! ## Numerals and lines -/

/-- The number that a string of hexadecimal digits denotes, read from the left. -/
def Bytes.hexFrom : Nat → Bytes → Nat
  | value, [] => value
  | value, b :: rest => hexFrom (value * 16 + (Bytes.hexValue? b).getD 0) rest

/-- The digits denote the number. -/
structure Bytes.DecimalNumeral (digits : Bytes) (n : Nat) : Prop where
  nonempty : digits ≠ []
  digit : ∀ b ∈ digits, Bytes.isDigit b = true
  value : Bytes.decimalFrom 0 digits = n

/-- A line of a head ends in a line feed, with or without a carriage return. -/
inductive LineEnd where
  | full
  | feed
  deriving DecidableEq, Repr

/-- The octets of a line end. -/
def LineEnd.octets : LineEnd → Bytes
  | .full => [Bytes.cr, Bytes.lf]
  | .feed => [Bytes.lf]

/-! ## Fields -/

/-- A field line, with the spacing around its value. -/
structure WrittenField where
  name : String
  value : String
  before : Bytes
  after : Bytes
  ending : LineEnd
  deriving DecidableEq, Repr

namespace WrittenField

/-- The name and the value as octets. -/
def raw (field : WrittenField) : Bytes × Bytes :=
  (Bytes.ofText field.name, Bytes.ofText field.value)

/-- The line. -/
def octets (field : WrittenField) : Bytes :=
  field.raw.1 ++ 58 :: (field.before ++ field.raw.2 ++ field.after ++ field.ending.octets)

/-- The field keeps to the grammar and to the limits on one field. -/
structure Legal (field : WrittenField) : Prop where
  name_nonempty : field.raw.1 ≠ []
  name_token : ∀ b ∈ field.raw.1, Head.isToken b = true
  name_size : field.raw.1.length ≤ Draft.fieldLimit
  value_octet : ∀ b ∈ field.raw.2, Head.isValueOctet b = true
  value_front : ∀ b, field.raw.2.head? = some b → Head.isSpacing b = false
  value_back : ∀ b, field.raw.2.getLast? = some b → Head.isSpacing b = false
  value_size : field.raw.2.length ≤ Draft.fieldLimit
  before_spacing : ∀ b ∈ field.before, Head.isSpacing b = true
  after_spacing : ∀ b ∈ field.after, Head.isSpacing b = true

end WrittenField

/-- The values of the fields with a given name, in any case of its letters. -/
def Head.valuesOf (name : String) (fields : List (Bytes × Bytes)) : List Bytes :=
  (fields.filter fun field => Bytes.sameIgnoringCase field.1 (Bytes.ofAscii name)).map (·.2)

/-! ## Bodies -/

/-- The line in front of a chunk: a numeral and an extension. -/
structure SizeLine where
  numeral : Bytes
  extension : Bytes
  deriving DecidableEq, Repr

namespace SizeLine

/-- The line. -/
def octets (line : SizeLine) : Bytes :=
  line.numeral ++ line.extension ++ [Bytes.cr, Bytes.lf]

/-- The line announces this many octets.  An extension begins with a semicolon or
spacing and holds no carriage return. -/
structure Announces (line : SizeLine) (n : Nat) : Prop where
  nonempty : line.numeral ≠ []
  digit : ∀ b ∈ line.numeral, (Bytes.hexValue? b).isSome = true
  value : Bytes.hexFrom 0 line.numeral = n
  extension_front : ∀ b, line.extension.head? = some b → b = 59 ∨ b = Bytes.space ∨ b = Bytes.tab
  extension_line : ∀ b ∈ line.extension, b ≠ Bytes.cr

end SizeLine

/-- A body as it is sent. -/
inductive WrittenBody where
  /-- Nothing, and nothing announced. -/
  | none
  /-- As many octets as the head declares. -/
  | declared (data : Bytes)
  /-- Chunks, the line that ends them, and trailer lines. -/
  | chunked (chunks : List (SizeLine × Bytes)) (last : SizeLine) (trailers : List Bytes)
  deriving DecidableEq, Repr

namespace WrittenBody

/-- The octets that the body consists of. -/
def data : WrittenBody → Bytes
  | .none => []
  | .declared data => data
  | .chunked chunks _ _ => chunks.flatMap (·.2)

/-- The framing that the head is to announce. -/
def framing : WrittenBody → Framing
  | .none => .none
  | .declared data => .length data.length
  | .chunked _ _ _ => .chunked

/-- A chunk: its size, its data and a line end. -/
def chunkOctets (chunk : SizeLine × Bytes) : Bytes :=
  chunk.1.octets ++ chunk.2 ++ [Bytes.cr, Bytes.lf]

/-- A trailer line. -/
def trailerOctets (line : Bytes) : Bytes := line ++ [Bytes.cr, Bytes.lf]

/-- The octets behind the head. -/
def octets : WrittenBody → Bytes
  | .none => []
  | .declared data => data
  | .chunked chunks last trailers =>
      chunks.flatMap chunkOctets ++ last.octets ++ trailers.flatMap trailerOctets ++
        [Bytes.cr, Bytes.lf]

/-- A chunk announces its size and is not empty. -/
structure ChunkLegal (chunk : SizeLine × Bytes) : Prop where
  nonempty : chunk.2 ≠ []
  announced : chunk.1.Announces chunk.2.length

/-- A trailer line is neither empty nor too long. -/
structure TrailerLegal (line : Bytes) : Prop where
  nonempty : line ≠ []
  inLine : ∀ b ∈ line, b ≠ Bytes.cr
  size : line.length ≤ Chunk.maxTrailerLine

/-- The fields of the head frame the body exactly. -/
def Framed (fields : List (Bytes × Bytes)) : WrittenBody → Prop
  | .none =>
      Head.valuesOf "content-length" fields = [] ∧ Head.valuesOf "transfer-encoding" fields = []
  | .declared data =>
      Head.valuesOf "transfer-encoding" fields = [] ∧
        Head.valuesOf "content-length" fields ≠ [] ∧
        ∀ value ∈ Head.valuesOf "content-length" fields,
          Bytes.DecimalNumeral value data.length
  | .chunked chunks last trailers =>
      Head.valuesOf "content-length" fields = [] ∧
        (∃ value, (Head.valuesOf "transfer-encoding" fields).getLast? = some value ∧
          Bytes.sameIgnoringCase (Bytes.lastElement value) (Bytes.ofAscii "chunked") = true) ∧
        (∀ chunk ∈ chunks, ChunkLegal chunk) ∧ last.Announces 0 ∧
        ∀ line ∈ trailers, TrailerLegal line

end WrittenBody

/-! ## Requests -/

/-- A request as a client writes it. -/
structure WrittenRequest where
  method : Method
  target : String
  version : Version
  startEnd : LineEnd
  fields : List WrittenField
  headEnd : LineEnd
  payload : WrittenBody
  deriving DecidableEq, Repr

namespace WrittenRequest

/-- The fields as octets. -/
def rawFields (request : WrittenRequest) : List (Bytes × Bytes) :=
  request.fields.map WrittenField.raw

/-- The fields as texts. -/
def headers (request : WrittenRequest) : List (String × String) :=
  request.fields.map fun field => (field.name, field.value)

/-- The head as it is to be read. -/
def rawHead (request : WrittenRequest) : Head.Raw :=
  ⟨Bytes.ofAscii request.method.name, Bytes.ofText request.target, request.version,
    request.rawFields⟩

/-- The start line without its end. -/
def startLine (request : WrittenRequest) : Bytes :=
  Bytes.ofAscii request.method.name ++ Bytes.space ::
    (Bytes.ofText request.target ++ Bytes.space :: Bytes.ofAscii request.version.name)

/-- The head, its empty line included. -/
def head (request : WrittenRequest) : Bytes :=
  request.startLine ++ request.startEnd.octets ++
    request.fields.flatMap WrittenField.octets ++ request.headEnd.octets

/-- The request. -/
def octets (request : WrittenRequest) : Bytes := request.head ++ request.payload.octets

/-- What a complete head says about the request when it is no upgrade. -/
def facts (request : WrittenRequest) : HeadFacts :=
  ⟨Bytes.ofAscii request.method.name, request.version, request.payload.framing, false⟩

/-- The request asks for the connection itself. -/
def WantsUpgrade (request : WrittenRequest) : Prop :=
  Head.valuesOf "upgrade" request.rawFields ≠ [] ∧
    ∃ value ∈ Head.valuesOf "connection" request.rawFields,
      Bytes.hasToken value (Bytes.ofAscii "upgrade") = true

/-- The request is well formed, is no upgrade, and keeps to the limits. -/
structure Legal (limits : Limits) (request : WrittenRequest) : Prop where
  served : request.method ≠ .connect
  target_nonempty : Bytes.ofText request.target ≠ []
  target_octet : ∀ b ∈ Bytes.ofText request.target, Head.isTargetOctet b = true
  target_size : (Bytes.ofText request.target).length ≤ Draft.targetLimit
  fields_count : request.fields.length ≤ Request.maxFields
  fields_legal : ∀ field ∈ request.fields, field.Legal
  head_size : request.head.length ≤ Head.maxSize
  noUpgrade : ¬ request.WantsUpgrade
  expectation : request.version = .http11 → ∀ value,
    headerValue? request.headers "expect" = some value →
      Text.sameIgnoringCase value "100-continue" = true
  framed : request.payload.Framed request.rawFields
  length_given : request.payload = .none → request.method.requiresLength = false
  body_size : request.payload.data.length ≤ limits.maxContentLength

/-- There is a place to keep the body: it is empty, or it goes to a file from the
start, or the limit on bodies has a successor in 64 bits. -/
def Storable (limits : Limits) (request : WrittenRequest) : Prop :=
  request.payload.data = [] ∨ limits.maxContentLength + 1 < Bytes.wordBound ∨
    ∃ data, request.payload = .declared data ∧ limits.spoolThreshold < data.length

/-- A queued request is complete, carries no error, and says what was written. -/
structure ReadAs (written : WrittenRequest) (request : Request) : Prop where
  complete : request.complete = true
  sound : request.failure = none
  method : request.method = written.method
  target : request.target = written.target
  version : request.version = written.version
  headers : request.headers = written.headers
  /-- What an application reads of the body. -/
  body : ∀ origin, ((Environ.ofRequest request origin).input.perform .all).1 =
    .bytes written.payload.data

end WrittenRequest

/-! ## Pipelines -/

/-- Requests in order, each behind some line ends. -/
abbrev Pipeline := List (Bytes × WrittenRequest)

namespace Pipeline

/-- Line ends between messages. -/
def IsGap (gap : Bytes) : Prop := ∀ b ∈ gap, b = Bytes.cr ∨ b = Bytes.lf

instance (gap : Bytes) : Decidable (IsGap gap) :=
  inferInstanceAs (Decidable (∀ b ∈ gap, b = Bytes.cr ∨ b = Bytes.lf))

/-- What is sent. -/
def octets (pipeline : Pipeline) : Bytes :=
  pipeline.flatMap fun sent => sent.1 ++ sent.2.octets

end Pipeline

end EmbeddedHttp
