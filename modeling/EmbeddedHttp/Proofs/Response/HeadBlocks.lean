/-
# EmbeddedHttp.Proofs.Response.HeadBlocks -- what stands in the head of a response

The head of a response is a status line that spells its code, headers on a line each, the
server's name and the date, and the empty line (`HeadBlock`).  Whoever reads the headers learns
from them how the body is framed (`ResponseFraming.ToldBy`): that it comes in chunks, or how
many octets it has.  Of several lengths the last one is meant.

Every head that was built goes out as such a block (`ResponseHead.Built.headBlock`).
-/
import EmbeddedHttp.Proofs.Response.StatusLines

namespace EmbeddedHttp

set_option autoImplicit false

/-! ## Statement -/

namespace Bytes

/-- A value that gives a length: a numeral, behind a plus sign or without one, with white space
around it. -/
def GivesLength (value : Bytes) (n : Nat) : Prop :=
  ∃ front sign digits back, value = Text.octets front ++ (sign ++ digits) ++ Text.octets back ∧
    (∀ c ∈ front ++ back, Text.isBlank c = true) ∧ (sign = [] ∨ sign = [43]) ∧
    DecimalNumeral digits n

end Bytes

/-- The headers tell how the body is framed. -/
structure ResponseFraming.ToldBy (framing : ResponseFraming) (headers : List (Bytes × Bytes)) :
    Prop where
  /-- Chunks are the last coding that is applied, and no length is told. -/
  coding : framing.chunked = true →
    (Head.valuesOf "transfer-encoding" headers).getLast? = some (Bytes.ofAscii "chunked") ∧
      Head.valuesOf "content-length" headers = []
  length : framing.bodyAllowed = true → ∀ n, framing.contentLength = some n →
    ∃ value, (Head.valuesOf "content-length" headers).getLast? = some value ∧
      value.GivesLength n

/-- The octets of a head that answers a request with a code. -/
inductive HeadBlock (request : Request) (serverName : String) (code : Nat)
    (framing : ResponseFraming) : Bytes → Prop where
  | intro {sign line date : Bytes} {k : Nat} {headers : List (Bytes × Bytes)}
      (signed : sign = [] ∨ sign = [43])
      (spells : Bytes.SpellsCode request.version (sign ++ List.replicate k 48) code line)
      (lined : line.OneLine ∧ ∀ header ∈ headers, (fieldLine header).OneLine)
      (told : framing.ToldBy headers)
      (bodiless : framing.bodyAllowed = false ↔
        request.method = .head ∨ code < 200 ∨ code = 204 ∨ code = 304) :
      HeadBlock request serverName code framing
        (line ++ Bytes.ofAscii "\r\n" ++
          headerLines (headers ++ [(Bytes.ofAscii "Server", Bytes.ofText serverName),
            (Bytes.ofAscii "Date", date)]) ++
          Bytes.ofAscii "\r\n")

/-- Of the request only its version and its method matter. -/
theorem HeadBlock.congr {request same : Request} {serverName : String} {code : Nat}
    {framing : ResponseFraming} {block : Bytes}
    (isBlock : HeadBlock same serverName code framing block)
    (version : same.version = request.version) (method : same.method = request.method) :
    HeadBlock request serverName code framing block := by
  cases isBlock with
  | intro signed spells lined told bodiless =>
      rw [version] at spells
      rw [method] at bodiless
      exact .intro signed spells lined told bodiless

/-! ## Lengths -/

namespace Bytes

theorem givesLength_ofNat (n : Nat) : (ofNat n).GivesLength n :=
  ⟨[], [], ofNat n, [], by simp [Text.octets], nofun, .inl rfl, decimalNumeral_ofNat n⟩

end Bytes

/-- A header value that declares a length gives it. -/
theorem ResponseHead.declared?_gives {value : String} {n : Nat}
    (declared : declared? value = some n) : (Bytes.ofText value).GivesLength n := by
  obtain ⟨front, back, split, before, behind⟩ := Text.trimChars_split value.toList
  obtain ⟨sign, digits, spelled, signed, denotes⟩ := Text.numeral?_eq_some declared
  refine ⟨front, sign, digits, back, ?_, List.forall_mem_append.2 ⟨before, behind⟩, signed,
    denotes⟩
  have whole : Bytes.ofText value = Text.octets value.toList := rfl
  rw [whole, split, ← spelled]
  simp only [Text.octets, List.flatMap_append]

namespace ResponseHead.Built

variable {status : String} {headers : List (String × String)} {head : ResponseHead}

/-- A length that is declared is the last one that the headers give. -/
theorem last_length {n : Nat} (built : Built status headers head)
    (declared : head.contentLength = some n) :
    ∃ value, (Head.valuesOf "content-length" (head.headers.map octets)).getLast? = some value ∧
      value.GivesLength n := by
  rw [built.length] at declared
  obtain ⟨value, isLast, gives⟩ := Option.bind_eq_some_iff.1 declared
  refine ⟨Bytes.ofText value, ?_, declared?_gives gives⟩
  rw [built.valuesOf (by decide) (by decide), List.getLast?_map, isLast]
  rfl

/-- **The headers of a head tell how its body is framed.** -/
theorem toldBy (built : Built status headers head) (length : BodyLength) (context : HeadContext) :
    (ResponseFraming.decide head length context).ToldBy
      (head.headers.map octets ++ ownHeaders head length context) where
  coding chunked := by
    have unannounced := unannounced_of_chunked chunked
    rw [announced?, Option.or_eq_none_iff, built.undeclared_iff] at unannounced
    constructor
    · rw [Head.valuesOf_append, valuesOf_coding_ownHeaders, if_pos chunked]
      exact List.getLast?_concat
    · rw [Head.valuesOf_append, built.valuesOf (by decide) (by decide), valuesOf_length_ownHeaders,
        unannounced.1, unannounced.2]
      rfl
  length allowed n bound := by
    rw [Head.valuesOf_append, valuesOf_length_ownHeaders]
    simp only [ResponseFraming.decide] at allowed bound
    rw [allowed, if_pos rfl] at bound
    cases declared : head.contentLength with
    | some m =>
        rw [declared] at bound
        cases bound
        obtain ⟨value, isLast, gives⟩ := built.last_length declared
        exact ⟨value, by simp [ResponseFraming.inferred?, declared, isLast], gives⟩
    | none =>
        -- only a length that the server knows is announced
        rw [declared] at bound
        cases length with
        | unknown => cases bound
        | known m =>
            cases bound
            have inferred : ResponseFraming.inferred? head (.known n) = some n := by
              simp only [allowsBody, Bool.not_eq_true', Bool.or_eq_false_iff] at allowed
              simp [ResponseFraming.inferred?, declared, allowed.2]
            refine ⟨Bytes.ofNat n, ?_, Bytes.givesLength_ofNat n⟩
            rw [inferred]
            exact List.getLast?_concat

/-- **A head that was built goes out as a head block.** -/
theorem headBlock (built : Built status headers head) (length : BodyLength) (request : Request)
    (keepAlive : Bool) (serverName : String) (date : Bytes) :
    let context : HeadContext :=
      ⟨request.version, request.method = .head, keepAlive, serverName, date⟩
    HeadBlock request serverName head.code (assembleHead head length context).2
      (assembleHead head length context).1 := by
  intro context
  obtain ⟨sign, k, rest, spelled, signed, ends, above, below⟩ := code?_eq_some built.code
  have spells := statusLine_spells spelled ends above below context
  have lined : ∀ header ∈ head.headers.map octets ++ ownHeaders head length context,
      (fieldLine header).OneLine := by
    refine List.forall_mem_append.2 ⟨List.forall_mem_map.2 fun header member => ?_,
      ownHeaders_oneLine head length context⟩
    rw [built.kept] at member
    exact (built.legal header (List.mem_of_mem_filter member)).oneLine
  have bodiless : (ResponseFraming.decide head length context).bodyAllowed = false ↔
      request.method = .head ∨ head.code < 200 ∨ head.code = 204 ∨ head.code = 304 := by
    by_cases isHead : request.method = .head
    · simp [ResponseFraming.decide, allowsBody, context, isHead]
    · simp [ResponseFraming.decide, allowsBody, ResponseHead.bodiless, context, isHead, above]
      omega
  have block : (assembleHead head length context).1 =
      EmbeddedHttp.statusLine head context ++ Bytes.ofAscii "\r\n" ++
        headerLines (head.headers.map octets ++ ownHeaders head length context ++
          context.signature) ++ Bytes.ofAscii "\r\n" := by
    rw [assembleHead_block, headerLines_append _ context.signature, HeadContext.closing]
    simp only [List.append_assoc]
  rw [block]
  exact .intro signed spells ⟨built.oneLine context, lined⟩ (built.toldBy length context) bodiless

end ResponseHead.Built

end EmbeddedHttp
