/-
# EmbeddedHttp.Proofs.Response.Unsplit -- an application cannot split a response

The characters that end a line or a name on the wire are barred from everything that an
application may choose.  So a reader who takes a head block apart at its line ends, and each
line at its first colon and space, gets back what was meant: the status line, the headers of
the application but for those that are the server's to set, the server's own headers, and
the empty line, once and at the end (`StartResponse.call_unsplit`).
-/
import EmbeddedHttp.Proofs.Response.OneFraming

namespace EmbeddedHttp

set_option autoImplicit false

/-! ## Reading -/

namespace Bytes

/-- No octet that ends a line, on its own or with another. -/
structure OneLine (s : Bytes) : Prop where
  noReturn : cr ∉ s
  noFeed : lf ∉ s

/-- A header line as a name and a value: what is in front of the first colon that a space
follows, and what is behind the two. -/
def cutHeader? : Bytes → Option (Bytes × Bytes)
  | a :: b :: rest =>
      if a == 58 && b == space then some ([], rest)
      else (cutHeader? (b :: rest)).map fun header => (a :: header.1, header.2)
  | _ => none

/-- The headers on the lines of a head block behind the first. -/
def readHeaders (block : Bytes) : List (Bytes × Bytes) :=
  (lines block).tail.filterMap cutHeader?

theorem OneLine.append {s t : Bytes} (first : OneLine s) (second : OneLine t) :
    OneLine (s ++ t) where
  noReturn := by
    rw [List.mem_append, not_or]
    exact ⟨first.noReturn, second.noReturn⟩
  noFeed := by
    rw [List.mem_append, not_or]
    exact ⟨first.noFeed, second.noFeed⟩

/-- A name without colons ends at the first colon. -/
theorem cutHeader?_name {name : Bytes} (colon : (58 : UInt8) ∉ name) (value : Bytes) :
    cutHeader? (name ++ 58 :: space :: value) = some (name, value) := by
  induction name with
  | nil => rfl
  | cons a more ih =>
      have other : (a == 58) = false := by
        rw [beq_eq_false_iff_ne]
        rintro rfl
        exact colon List.mem_cons_self
      have inner := ih fun member => colon (List.mem_cons_of_mem a member)
      obtain ⟨b, tail, behind⟩ : ∃ b tail, more ++ 58 :: space :: value = b :: tail := by
        cases more with
        | nil => exact ⟨_, _, rfl⟩
        | cons b others => exact ⟨_, _, rfl⟩
      rw [List.cons_append, behind, cutHeader?, other, Bool.false_and, ← behind, inner]
      rfl

end Bytes

open Bytes (OneLine)

theorem cutHeader?_fieldLine {header : Bytes × Bytes} (lined : Lined header) :
    Bytes.cutHeader? (fieldLine header) = some header := by
  have line : fieldLine header = header.1 ++ 58 :: Bytes.space :: header.2 := by
    simp [fieldLine, Bytes.ofAscii, Bytes.space]
  rw [line, Bytes.cutHeader?_name lined.colon]

theorem readHeaders_fieldLines {headers : List (Bytes × Bytes)}
    (lined : ∀ header ∈ headers, Lined header) :
    (headers.map fieldLine ++ [[], []]).filterMap Bytes.cutHeader? = headers := by
  have each : ∀ header ∈ headers,
      (Bytes.cutHeader? ∘ fieldLine) header = some header := fun header member =>
    cutHeader?_fieldLine (lined header member)
  rw [List.filterMap_append, List.filterMap_map, List.filterMap_congr each, List.filterMap_some]
  exact List.append_nil headers

/-! ## Nothing ends a line early -/

theorem oneLine_fieldLine {header : Bytes × Bytes} (name : OneLine header.1)
    (value : OneLine header.2) : OneLine (fieldLine header) :=
  (name.append ⟨by decide, by decide⟩).append value

namespace ResponseHead

/-- What holds no line end as a text holds none as octets. -/
theorem oneLine_ofText {s : String} {p : Char → Bool} (none : Text.has s p = false)
    (bars : ∀ c, Text.isLineEnd c = true → p c = true) : OneLine (Bytes.ofText s) where
  noReturn := notMem_ofText none (by decide) (bars _ (by decide))
  noFeed := notMem_ofText none (by decide) (bars _ (by decide))

theorem Legal.oneLine {header : String × String} (legal : Legal header) :
    OneLine (fieldLine (octets header)) := by
  refine oneLine_fieldLine (oneLine_ofText legal.name fun c ends => ?_)
    (oneLine_ofText legal.value fun _ ends => ends)
  rw [isBarredInName, ends, Bool.or_true]

theorem Built.oneLine {status : String} {headers : List (String × String)} {head : ResponseHead}
    (built : Built status headers head) (context : HeadContext) :
    OneLine (EmbeddedHttp.statusLine head context) := by
  have version : OneLine (Bytes.ofAscii context.version.name) := by
    cases context.version <;> exact ⟨by decide, by decide⟩
  have space : OneLine [Bytes.space] := ⟨by decide, by decide⟩
  exact (version.append space).append (oneLine_ofText built.line fun _ ends => ends)

end ResponseHead

/-- The server's own headers stand on a line each, if their values do. -/
theorem oneLine_own {name : String} {value : Bytes}
    (own : name ∈ ["Content-Length", "Transfer-Encoding", "Connection", "Server", "Date"])
    (clean : OneLine value) : OneLine (fieldLine (Bytes.ofAscii name, value)) := by
  have names : ∀ name ∈ ["Content-Length", "Transfer-Encoding", "Connection", "Server", "Date"],
      Bytes.cr ∉ Bytes.ofAscii name ∧ Bytes.lf ∉ Bytes.ofAscii name := by decide
  exact oneLine_fieldLine ⟨(names name own).1, (names name own).2⟩ clean

theorem oneLine_ofNat (n : Nat) : OneLine (Bytes.ofNat n) where
  noReturn := cr_notMem_ofNat n
  noFeed member := by
    have digit := (Bytes.decimalNumeral_ofNat n).digit _ member
    revert digit
    decide

theorem ownHeaders_oneLine (head : ResponseHead) (length : BodyLength) (context : HeadContext) :
    ∀ header ∈ ownHeaders head length context, OneLine (fieldLine header) := by
  intro header member
  simp only [ownHeaders, List.mem_append, List.mem_map] at member
  rcases member with (⟨n, -, rfl⟩ | isCoding) | isConnection
  · exact oneLine_own (by decide) (oneLine_ofNat n)
  · split at isCoding
    · rw [List.mem_singleton.1 isCoding]
      exact oneLine_own (by decide) ⟨by decide, by decide⟩
    · cases isCoding
  · split at isConnection
    · cases isConnection
    · rw [List.mem_singleton.1 isConnection]
      refine oneLine_own (by decide) ?_
      split <;> exact ⟨by decide, by decide⟩

/-- A server name and a date on one line make lines of their own. -/
theorem HeadContext.signature_oneLine {context : HeadContext}
    (name : OneLine (Bytes.ofText context.serverName)) (date : OneLine context.date) :
    ∀ header ∈ context.signature, OneLine (fieldLine header) := by
  rw [signature, List.forall_mem_cons, List.forall_mem_singleton]
  exact ⟨oneLine_own (by decide) name, oneLine_own (by decide) date⟩

/-! ## Who sets which header -/

/-- The headers of a block in order: those of the application that are not the server's to
set, the server's own, and its name and the date. -/
def blockHeaders (headers : List (String × String)) (head : ResponseHead) (length : BodyLength)
    (context : HeadContext) : List (Bytes × Bytes) :=
  (headers.filter (ResponseHead.stays head.code)).map ResponseHead.octets ++
    (ownHeaders head length context ++ context.signature)

namespace ResponseHead

/-- Headers that are not the application's to set are left out. -/
theorem valuesOf_barred {name : String} {code : Nat}
    (barred : ∀ header : String × String, Text.sameIgnoringCase header.1 name = true →
      stays code header = false)
    (headers : List (String × String)) : valuesOf name (headers.filter (stays code)) = [] := by
  rw [valuesOf, List.filter_filter, List.map_eq_nil_iff, List.filter_eq_nil_iff]
  intro header _ both
  rw [Bool.and_eq_true] at both
  rw [barred header both.1] at both
  cases both.2

/-- In a switch of protocols the application tells what becomes of the connection. -/
theorem valuesOf_connection_switching (headers : List (String × String)) :
    valuesOf "connection" (headers.filter (stays 101)) = valuesOf "connection" headers := by
  rw [valuesOf, List.filter_filter, valuesOf]
  congr 1
  refine List.filter_congr fun header _ => ?_
  cases named : Text.sameIgnoringCase header.1 "connection" with
  | false => rfl
  | true =>
      have other : ∀ own ∈ ["server", "date"], Text.sameIgnoringCase header.1 own = false :=
        fun own member => Text.not_sameIgnoringCase_of_same own (by
          revert own
          decide) named
      simp [stays, other]

end ResponseHead

theorem valuesOf_ownHeaders (head : ResponseHead) (length : BodyLength) (context : HeadContext) :
    Head.valuesOf "server" (ownHeaders head length context) = [] ∧
      Head.valuesOf "date" (ownHeaders head length context) = [] ∧
      Head.valuesOf "connection" (ownHeaders head length context) =
        if head.isSwitching then []
        else [Bytes.ofAscii (if (ResponseFraming.decide head length context).keepAlive
          then "Keep-Alive" else "close")] := by
  simp only [ownHeaders, Head.valuesOf_append]
  cases ResponseFraming.inferred? head length <;>
    cases (ResponseFraming.decide head length context).chunked <;>
    cases head.isSwitching <;>
    exact ⟨rfl, rfl, rfl⟩

/-- Every block is signed once. -/
theorem valuesOf_signature (headers : List (String × String)) (head : ResponseHead)
    (length : BodyLength) (context : HeadContext) :
    Head.valuesOf "server" (blockHeaders headers head length context) =
        [Bytes.ofText context.serverName] ∧
      Head.valuesOf "date" (blockHeaders headers head length context) = [context.date] := by
  obtain ⟨server, date, -⟩ := valuesOf_ownHeaders head length context
  constructor
  · rw [blockHeaders, Head.valuesOf_append, Head.valuesOf_append, server,
      ResponseHead.valuesOf_octets (by decide),
      ResponseHead.valuesOf_barred fun header same => by simp [ResponseHead.stays, same]]
    rfl
  · rw [blockHeaders, Head.valuesOf_append, Head.valuesOf_append, date,
      ResponseHead.valuesOf_octets (by decide),
      ResponseHead.valuesOf_barred fun header same => by simp [ResponseHead.stays, same]]
    rfl

/-- What becomes of the connection is said once by the server, and by the application only in
a switch of protocols. -/
theorem valuesOf_connection (headers : List (String × String)) (head : ResponseHead)
    (length : BodyLength) (context : HeadContext) :
    Head.valuesOf "connection" (blockHeaders headers head length context) =
      if head.code = 101 then (ResponseHead.valuesOf "connection" headers).map Bytes.ofText
      else [Bytes.ofAscii (if (ResponseFraming.decide head length context).keepAlive
        then "Keep-Alive" else "close")] := by
  obtain ⟨-, -, connection⟩ := valuesOf_ownHeaders head length context
  have unsigned : Head.valuesOf "connection" context.signature = [] := rfl
  rw [blockHeaders, Head.valuesOf_append, Head.valuesOf_append, connection, unsigned,
    ResponseHead.valuesOf_octets (by decide), List.append_nil]
  by_cases switching : head.code = 101
  · rw [if_pos switching, switching, ResponseHead.valuesOf_connection_switching,
      if_pos (by simp [ResponseHead.isSwitching, switching]), List.append_nil]
  · have barred : ∀ header : String × String,
        Text.sameIgnoringCase header.1 "connection" = true →
          ResponseHead.stays head.code header = false := fun header same => by
      simp [ResponseHead.stays, same, switching]
    rw [if_neg switching, ResponseHead.valuesOf_barred barred,
      if_neg (by simp [ResponseHead.isSwitching, switching])]
    rfl

/-! ## The block -/

/-- **An application cannot split a response.**  Whatever status and headers are accepted:
with a server name and a date on one line, the lines of the head block are the status line
with the trimmed status, one for each header, and the empty line, which stands at the very
end and nowhere before; no line has the half of a line end in it.  Cut at its first colon
and space, each line gives its header back: those of the application in order, but for the
ones that are the server's to set, and then those of the server.  The server's name and the
date stand in the block once, and so does what becomes of the connection, unless the
protocol is switched. -/
theorem StartResponse.call_unsplit {start started : StartResponse} {status : String}
    {headers : List (String × String)} {excuse : Option AppError}
    (called : start.call status headers excuse = .ok started) :
    ∃ head, started.head = some head ∧
      ∀ (length : BodyLength) (context : HeadContext),
        OneLine (Bytes.ofText context.serverName) → OneLine context.date →
        let block := (assembleHead head length context).1
        let sent := (Bytes.ofAscii context.version.name ++ [Bytes.space] ++
            Bytes.ofText (Text.trim status)) ::
          (blockHeaders headers head length context).map fieldLine
        Bytes.lines block = sent ++ [[], []] ∧
          (∀ line ∈ sent, line ≠ [] ∧ OneLine line) ∧
          Bytes.readHeaders block = blockHeaders headers head length context ∧
          Head.valuesOf "server" (Bytes.readHeaders block) =
            [Bytes.ofText context.serverName] ∧
          Head.valuesOf "date" (Bytes.readHeaders block) = [context.date] ∧
          Head.valuesOf "connection" (Bytes.readHeaders block) =
            if head.code = 101 then
              (ResponseHead.valuesOf "connection" headers).map Bytes.ofText
            else [Bytes.ofAscii (if (assembleHead head length context).2.keepAlive
              then "Keep-Alive" else "close")] := by
  obtain ⟨head, accepted, rfl⟩ := StartResponse.call_ok called
  have built := ResponseHead.build_ok accepted
  refine ⟨head, rfl, fun length context name date => ?_⟩
  intro block sent
  have signed := HeadContext.signature_lined name.noReturn date.noReturn
  have lined : ∀ header ∈ blockHeaders headers head length context, Lined header := by
    intro header member
    rcases List.mem_append.1 member with given | added
    · rw [← built.kept] at given
      exact built.lined header given
    · rcases List.mem_append.1 added with own | signature
      · exact ownHeaders_lined head length context header own
      · exact signed header signature
  have statusIs : statusLine head context = Bytes.ofAscii context.version.name ++ [Bytes.space] ++
      Bytes.ofText (Text.trim status) := by rw [statusLine, built.status]
  -- the server's name and the date are the last headers, and the empty line is behind them
  have closing : Bytes.lines context.closing = context.signature.map fieldLine ++ [[], []] := by
    rw [HeadContext.closing, lines_headerLines signed]
    rfl
  have lines : Bytes.lines block = sent ++ [[], []] := by
    rw [lines_assembleHead built, closing, statusIs, built.kept]
    simp only [sent, blockHeaders, List.map_append, List.append_assoc, List.cons_append]
  have read : Bytes.readHeaders block = blockHeaders headers head length context := by
    rw [Bytes.readHeaders, lines]
    exact readHeaders_fieldLines lined
  obtain ⟨server, dated⟩ := valuesOf_signature headers head length context
  refine ⟨lines, ?_, read, by rw [read, server], by rw [read, dated],
    by rw [read]; exact valuesOf_connection headers head length context⟩
  rw [List.forall_mem_cons, List.forall_mem_map]
  refine ⟨⟨by simp, statusIs ▸ built.oneLine context⟩, fun header member => ⟨?_, ?_⟩⟩
  · simp [fieldLine, Bytes.ofAscii]
  · rcases List.mem_append.1 member with given | added
    · obtain ⟨origin, kept, rfl⟩ := List.mem_map.1 given
      exact (built.legal origin (List.mem_of_mem_filter kept)).oneLine
    · rcases List.mem_append.1 added with own | signature
      · exact ownHeaders_oneLine head length context header own
      · exact HeadContext.signature_oneLine name date header signature

/-- A status with a line end behind it is trimmed, and of four headers two are left out; a
value that looks like another header stays a value. -/
theorem StartResponse.smuggled_header_unsplit :
    let headers := [("Server", "other"), ("X-Note", "a: b"), ("Connection", "close"),
      ("Content-Length", "2")]
    let context : HeadContext :=
      ⟨.http11, false, true, "hearth", Bytes.ofAscii "Thu, 01 Jan 1970 00:00:00 GMT"⟩
    ∃ head, StartResponse.new.call "200 OK\r\n" headers none = .ok ⟨some head, false⟩ ∧
      Bytes.readHeaders (assembleHead head (.known 2) context).1 =
        [(Bytes.ofAscii "X-Note", Bytes.ofAscii "a: b"),
          (Bytes.ofAscii "Content-Length", Bytes.ofAscii "2"),
          (Bytes.ofAscii "Connection", Bytes.ofAscii "close"),
          (Bytes.ofAscii "Server", Bytes.ofAscii "hearth"),
          (Bytes.ofAscii "Date", Bytes.ofAscii "Thu, 01 Jan 1970 00:00:00 GMT")] := by
  intro headers context
  have called : StartResponse.new.call "200 OK\r\n" headers none =
      .ok ⟨some ⟨"200 OK", 200, [("X-Note", "a: b"), ("Content-Length", "2")], some 2, true⟩,
        false⟩ := rfl
  obtain ⟨head, pending, unsplit⟩ := StartResponse.call_unsplit called
  cases pending
  obtain ⟨-, -, read, -⟩ := unsplit (.known 2) context ⟨by decide, by decide⟩ ⟨by decide, by decide⟩
  exact ⟨_, called, read.trans (by decide +kernel)⟩

end EmbeddedHttp
