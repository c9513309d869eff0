/-
# EmbeddedHttp.Proofs.Response.HeadLines -- the lines and fields of a head block

A reader takes a head block apart at its line ends (`Bytes.lines`), and each field line at
its first colon (`Bytes.cutColon`).  What an application may give as a header stands on one
line, so the block is read as the status line, the headers as they were given, and the lines
that the server adds (`lines_assembleHead`, `headFields_assembleHead`).  Only the server's
name and the date are not checked for line ends: what those lines amount to is left to the
reader (`HeadContext.closing`).
-/
import EmbeddedHttp.Proofs.Response.Accepting
import EmbeddedHttp.Proofs.Text.Numeral
import EmbeddedHttp.Response.Framing

namespace EmbeddedHttp

set_option autoImplicit false

/-! ## Reading -/

namespace Bytes

/-- The pieces of `s` between its line ends; there is always at least one. -/
def lines : Bytes → List Bytes
  | [] => [[]]
  | [b] => [[b]]
  | a :: b :: rest =>
      if a == cr && b == lf then [] :: lines rest
      else (lines (b :: rest)).modifyHead (a :: ·)

/-- A field line as a name and a value: what is in front of its first colon, and what is
behind it. -/
def cutColon (line : Bytes) : Bytes × Bytes :=
  (line.takeWhile (· != 58), (line.dropWhile (· != 58)).drop 1)

/-- The fields on the lines up to the first empty one. -/
def fields (lines : List Bytes) : List (Bytes × Bytes) :=
  (lines.takeWhile fun line => !line.isEmpty).map cutColon

/-- The fields of a head block, whose first line is the status line. -/
def headFields (block : Bytes) : List (Bytes × Bytes) :=
  fields (lines block).tail

theorem lines_line {line : Bytes} (noReturn : cr ∉ line) (rest : Bytes) :
    lines (line ++ ofAscii "\r\n" ++ rest) = line :: lines rest := by
  induction line with
  | nil => rfl
  | cons a more ih =>
      have other : (a == cr) = false := by
        rw [beq_eq_false_iff_ne]
        rintro rfl
        exact noReturn List.mem_cons_self
      have inner := ih fun member => noReturn (List.mem_cons_of_mem a member)
      obtain ⟨b, tail, behind⟩ : ∃ b tail, more ++ ofAscii "\r\n" ++ rest = b :: tail := by
        cases more with
        | nil => exact ⟨_, _, rfl⟩
        | cons b others => exact ⟨_, _, rfl⟩
      rw [List.cons_append, List.cons_append, behind, lines, other, Bool.false_and, ← behind, inner]
      rfl

end Bytes

/-! ## Header lines -/

/-- A header on its line. -/
def fieldLine (header : Bytes × Bytes) : Bytes :=
  header.1 ++ Bytes.ofAscii ": " ++ header.2

/-- The lines of some headers. -/
def headerLines (headers : List (Bytes × Bytes)) : Bytes :=
  headers.flatMap fun header => headerLine header.1 header.2

theorem headerLines_append (first second : List (Bytes × Bytes)) :
    headerLines (first ++ second) = headerLines first ++ headerLines second :=
  List.flatMap_append

/-- A header whose line has no line end, and whose name ends at the first colon. -/
structure Lined (header : Bytes × Bytes) : Prop where
  colon : (58 : UInt8) ∉ header.1
  name : Bytes.cr ∉ header.1
  value : Bytes.cr ∉ header.2

theorem Lined.line {header : Bytes × Bytes} (lined : Lined header) :
    Bytes.cr ∉ fieldLine header := by
  have between : Bytes.cr ∉ Bytes.ofAscii ": " := by decide
  simp only [fieldLine, List.mem_append, not_or]
  exact ⟨⟨lined.name, between⟩, lined.value⟩

theorem lines_headerLines {headers : List (Bytes × Bytes)}
    (lined : ∀ header ∈ headers, Lined header) (rest : Bytes) :
    Bytes.lines (headerLines headers ++ rest) = headers.map fieldLine ++ Bytes.lines rest := by
  induction headers with
  | nil => rfl
  | cons header others ih =>
      obtain ⟨first, behind⟩ := List.forall_mem_cons.1 lined
      have split : headerLines (header :: others) ++ rest =
          fieldLine header ++ Bytes.ofAscii "\r\n" ++ (headerLines others ++ rest) := by
        simp [headerLines, headerLine, fieldLine]
      rw [split, Bytes.lines_line first.line, ih behind]
      rfl

/-- The value of a field starts with the space behind the colon. -/
def spaced (header : Bytes × Bytes) : Bytes × Bytes :=
  (header.1, Bytes.space :: header.2)

theorem cutColon_fieldLine {header : Bytes × Bytes} (lined : Lined header) :
    Bytes.cutColon (fieldLine header) = spaced header := by
  have front : ∀ b ∈ header.1, (b != 58) = true := by
    intro b member
    rw [bne_iff_ne]
    rintro rfl
    exact lined.colon member
  have line : fieldLine header = header.1 ++ 58 :: Bytes.space :: header.2 := by
    simp [fieldLine, Bytes.ofAscii, Bytes.space]
  rw [line, Bytes.cutColon, List.takeWhile_append_of_pos front,
    List.dropWhile_append_of_pos front]
  simp [spaced]

theorem fields_fieldLines {headers : List (Bytes × Bytes)}
    (lined : ∀ header ∈ headers, Lined header) (rest : List Bytes) :
    Bytes.fields (headers.map fieldLine ++ rest) = headers.map spaced ++ Bytes.fields rest := by
  have inked : ∀ line ∈ headers.map fieldLine, (!line.isEmpty) = true := by
    refine List.forall_mem_map.2 fun header _ => ?_
    simp [fieldLine, Bytes.ofAscii]
  have cut : ∀ header ∈ headers, Bytes.cutColon (fieldLine header) = spaced header :=
    fun header member => cutColon_fieldLine (lined header member)
  rw [Bytes.fields, List.takeWhile_append_of_pos inked, List.map_append, List.map_map,
    Bytes.fields]
  congr 1
  exact List.map_congr_left cut

/-! ## The headers of an application -/

namespace ResponseHead

/-- A header as octets. -/
def octets (header : String × String) : Bytes × Bytes :=
  (Bytes.ofText header.1, Bytes.ofText header.2)

/-- An ASCII octet stands in the form of a text only as the character that it is. -/
theorem notMem_ofText {s : String} {p : Char → Bool} (none : Text.has s p = false) {b : UInt8}
    (ascii : b.toNat < 128) (holds : p (Char.ofNat b.toNat) = true) : b ∉ Bytes.ofText s := by
  intro member
  have some : Text.has s p = true :=
    List.any_eq_true.2 ⟨_, Bytes.ascii_mem_ofText member ascii, holds⟩
  rw [none] at some
  cases some

/-- What is accepted as a header stands on one line. -/
theorem Legal.lined {header : String × String} (legal : Legal header) : Lined (octets header) where
  colon := notMem_ofText legal.name (by decide) (by decide)
  name := notMem_ofText legal.name (by decide) (by decide)
  value := notMem_ofText legal.value (by decide) (by decide)

theorem Built.lined {status : String} {headers : List (String × String)} {head : ResponseHead}
    (built : Built status headers head) : ∀ header ∈ head.headers.map octets, Lined header := by
  refine List.forall_mem_map.2 fun header member => ?_
  rw [built.kept] at member
  exact (built.legal header (List.mem_of_mem_filter member)).lined

end ResponseHead

/-! ## The server's own headers -/

/-- A length that the server announces. -/
def lengthHeader (n : Nat) : Bytes × Bytes :=
  (Bytes.ofAscii "Content-Length", Bytes.ofNat n)

/-- The chunked coding. -/
def codingHeader : Bytes × Bytes :=
  (Bytes.ofAscii "Transfer-Encoding", Bytes.ofAscii "chunked")

/-- What becomes of the connection. -/
def connectionHeader (keepAlive : Bool) : Bytes × Bytes :=
  (Bytes.ofAscii "Connection", Bytes.ofAscii (if keepAlive then "Keep-Alive" else "close"))

/-- The headers that the server adds in front of its name. -/
def ownHeaders (head : ResponseHead) (length : BodyLength) (context : HeadContext) :
    List (Bytes × Bytes) :=
  let framing := ResponseFraming.decide head length context
  (ResponseFraming.inferred? head length).toList.map lengthHeader ++
    (if framing.chunked then [codingHeader] else []) ++
    if head.isSwitching then [] else [connectionHeader framing.keepAlive]

/-- The headers that every head is signed with. -/
def HeadContext.signature (context : HeadContext) : List (Bytes × Bytes) :=
  [(Bytes.ofAscii "Server", Bytes.ofText context.serverName), (Bytes.ofAscii "Date", context.date)]

/-- The end of every head block: the signature and the empty line. -/
def HeadContext.closing (context : HeadContext) : Bytes :=
  headerLines context.signature ++ Bytes.ofAscii "\r\n"

/-- The names of the server's own headers end at the first colon. -/
theorem lined_own {name : String} {value : Bytes}
    (own : name ∈ ["Content-Length", "Transfer-Encoding", "Connection", "Server", "Date"])
    (noReturn : Bytes.cr ∉ value) : Lined (Bytes.ofAscii name, value) := by
  have clean : ∀ name ∈ ["Content-Length", "Transfer-Encoding", "Connection", "Server", "Date"],
      (58 : UInt8) ∉ Bytes.ofAscii name ∧ Bytes.cr ∉ Bytes.ofAscii name := by decide
  exact ⟨(clean name own).1, (clean name own).2, noReturn⟩

theorem cr_notMem_ofNat (n : Nat) : Bytes.cr ∉ Bytes.ofNat n := by
  intro member
  have digit := (Bytes.decimalNumeral_ofNat n).digit _ member
  revert digit
  decide

theorem ownHeaders_lined (head : ResponseHead) (length : BodyLength) (context : HeadContext) :
    ∀ header ∈ ownHeaders head length context, Lined header := by
  intro header member
  simp only [ownHeaders, List.mem_append, List.mem_map] at member
  rcases member with (⟨n, -, rfl⟩ | isCoding) | isConnection
  · exact lined_own (by decide) (cr_notMem_ofNat n)
  · split at isCoding
    · rw [List.mem_singleton.1 isCoding]
      exact lined_own (by decide) (by decide)
    · cases isCoding
  · split at isConnection
    · cases isConnection
    · rw [List.mem_singleton.1 isConnection]
      refine lined_own (by decide) ?_
      split <;> decide

/-- A server name and a date without line ends stand on a line each. -/
theorem HeadContext.signature_lined {context : HeadContext}
    (name : Bytes.cr ∉ Bytes.ofText context.serverName) (date : Bytes.cr ∉ context.date) :
    ∀ header ∈ context.signature, Lined header := by
  rw [signature, List.forall_mem_cons, List.forall_mem_singleton]
  exact ⟨lined_own (by decide) name, lined_own (by decide) date⟩

theorem serverLines_eq (head : ResponseHead) (length : BodyLength) (context : HeadContext) :
    serverLines head length context ++ Bytes.ofAscii "\r\n" =
      headerLines (ownHeaders head length context) ++ context.closing := by
  simp only [serverLines, ownHeaders, HeadContext.closing, HeadContext.signature, headerLines,
    List.flatMap_append]
  cases ResponseFraming.inferred? head length <;>
    cases (ResponseFraming.decide head length context).chunked <;>
    cases head.isSwitching <;>
    cases (ResponseFraming.decide head length context).keepAlive <;>
    simp [lengthHeader, codingHeader, connectionHeader]

/-! ## The block -/

/-- The status line of a response. -/
def statusLine (head : ResponseHead) (context : HeadContext) : Bytes :=
  Bytes.ofAscii context.version.name ++ [Bytes.space] ++ Bytes.ofText head.status

theorem ResponseHead.Built.statusLine {status : String} {headers : List (String × String)}
    {head : ResponseHead} (built : Built status headers head) (context : HeadContext) :
    Bytes.cr ∉ statusLine head context := by
  have version : Bytes.cr ∉ Bytes.ofAscii context.version.name := by
    cases context.version <;> decide
  have space : Bytes.cr ∉ [Bytes.space] := by decide
  simp only [EmbeddedHttp.statusLine, List.mem_append, not_or]
  exact ⟨⟨version, space⟩, notMem_ofText built.line (by decide) (by decide)⟩

/-- **A head block is the status line, the headers of the application and those of the
server, and the empty line.** -/
theorem assembleHead_block (head : ResponseHead) (length : BodyLength) (context : HeadContext) :
    (assembleHead head length context).1 =
      statusLine head context ++ Bytes.ofAscii "\r\n" ++
        (headerLines (head.headers.map ResponseHead.octets ++ ownHeaders head length context) ++
          context.closing) := by
  have block : (assembleHead head length context).1 =
      statusLine head context ++ Bytes.ofAscii "\r\n" ++
        (headerLines (head.headers.map ResponseHead.octets) ++
          (serverLines head length context ++ Bytes.ofAscii "\r\n")) := by
    simp only [assembleHead, statusLine, headerLines, List.flatMap_map, ResponseHead.octets,
      List.append_assoc]
  rw [block, serverLines_eq, headerLines_append, List.append_assoc (headerLines _)]

/-- **The lines of a head block are the status line, those of the application's headers,
and those of the server.** -/
theorem lines_assembleHead {status : String} {headers : List (String × String)}
    {head : ResponseHead} (built : ResponseHead.Built status headers head) (length : BodyLength)
    (context : HeadContext) :
    Bytes.lines (assembleHead head length context).1 =
      statusLine head context :: ((head.headers.map ResponseHead.octets).map fieldLine ++
        ((ownHeaders head length context).map fieldLine ++ Bytes.lines context.closing)) := by
  have lined : ∀ header ∈ head.headers.map ResponseHead.octets ++ ownHeaders head length context,
      Lined header :=
    List.forall_mem_append.2 ⟨built.lined, ownHeaders_lined head length context⟩
  rw [assembleHead_block, Bytes.lines_line (built.statusLine context), lines_headerLines lined,
    List.map_append, List.append_assoc]

/-- **The fields of a head block are the application's headers, the server's own, and what
the server's name and the date amount to.** -/
theorem headFields_assembleHead {status : String} {headers : List (String × String)}
    {head : ResponseHead} (built : ResponseHead.Built status headers head) (length : BodyLength)
    (context : HeadContext) :
    Bytes.headFields (assembleHead head length context).1 =
      (head.headers.map ResponseHead.octets).map spaced ++
        ((ownHeaders head length context).map spaced ++
          Bytes.fields (Bytes.lines context.closing)) := by
  rw [Bytes.headFields, lines_assembleHead built, List.tail_cons, fields_fieldLines built.lined,
    fields_fieldLines (ownHeaders_lined head length context)]

end EmbeddedHttp
