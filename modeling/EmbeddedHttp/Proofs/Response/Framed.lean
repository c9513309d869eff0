/-
# EmbeddedHttp.Proofs.Response.Framed -- a body as its framing has it

What goes out behind a head is a function of the framing and of the pieces that were
handed over, however many they are (`ResponseFraming.body`).  `Progress.pushBody` adds
to it what one more piece makes of it, counts the octets of the body, and says whether
more of it is wanted (`Progress.pushBody_framed`).
-/
import EmbeddedHttp.Connection.Exchange
import EmbeddedHttp.Proofs.Connection.Balance

namespace EmbeddedHttp

set_option autoImplicit false

namespace Outbox

/-- Data framed as one chunk. -/
def chunk (data : Bytes) : Bytes :=
  Bytes.ofNatHex data.length ++ Bytes.ofAscii "\r\n" ++ data ++ Bytes.ofAscii "\r\n"

theorem pushChunk_flatten (outbox : Outbox) (data : Bytes) :
    (outbox.pushChunk data).pending.flatten =
      outbox.pending.flatten ++ if data.isEmpty then [] else chunk data := by
  rw [pushChunk]
  split
  · rw [List.append_nil]
  · rw [push_flatten, push_flatten, push_flatten, chunk]
    simp only [List.append_assoc]

end Outbox

/-! ## Bodies -/

namespace ResponseFraming

variable (framing : ResponseFraming) (pieces : List Bytes) (data : Bytes)

/-- The octets of a body that are sent. -/
def payload : Bytes :=
  if framing.bodyAllowed then
    if framing.chunked then pieces.flatten
    else match framing.contentLength with
      | some limit => pieces.flatten.take limit
      | none => pieces.flatten
  else []

/-- How they go out: in chunks, one for each piece that is not empty, or as they are. -/
def body : Bytes :=
  if framing.bodyAllowed && framing.chunked then
    (pieces.filter (!·.isEmpty)).flatMap Outbox.chunk
  else framing.payload pieces

/-- What goes out behind the last piece. -/
def ending : Bytes := if framing.chunked then Outbox.lastChunk else []

/-- Is more of the body wanted behind these pieces? -/
def flow : Flow :=
  if framing.bodyAllowed then
    match framing.contentLength with
    | some limit =>
        if framing.chunked then .more
        else if limit ≤ pieces.flatten.length then .enough else .more
    | none => .more
  else .enough

/-- How much of a file may follow. -/
def room (file : FileBody) : Nat :=
  if framing.bodyAllowed then
    match framing.contentLength with
    | some limit => min file.length limit
    | none => file.length
  else 0

/-- The response says itself where it ends: no body may follow and none does, or chunks and
the last chunk follow, or as many octets as are announced. -/
inductive Delimits : Bytes → Prop where
  | bodiless (none : framing.bodyAllowed = false) : Delimits []
  | chunks (allowed : framing.bodyAllowed = true) (chunked : framing.chunked = true)
      (pieces : List Bytes) (some : ∀ piece ∈ pieces, piece ≠ []) :
      Delimits (pieces.flatMap Outbox.chunk ++ Outbox.lastChunk)
  | counted (allowed : framing.bodyAllowed = true) (plain : framing.chunked = false)
      (octets : Bytes) (bound : framing.contentLength = some octets.length) : Delimits octets

theorem payload_nil : framing.payload [] = [] := by
  rw [payload]
  split
  · split
    · rfl
    · split
      · exact List.take_nil
      · rfl
  · rfl

theorem body_nil : framing.body [] = [] := by
  rw [body]
  split
  · rfl
  · exact framing.payload_nil

theorem payload_bodiless (none : framing.bodyAllowed = false) : framing.payload pieces = [] := by
  simp only [payload, none, Bool.false_eq_true, if_false]

/-- A body without a bound is sent as a whole. -/
theorem payload_whole (allowed : framing.bodyAllowed = true)
    (unbounded : framing.chunked = true ∨ framing.contentLength = none) :
    framing.payload pieces = pieces.flatten := by
  rcases unbounded with chunked | endless
  · simp only [payload, allowed, chunked, if_true]
  · simp only [payload, allowed, endless, if_true, ite_self]

theorem body_plain (plain : framing.bodyAllowed = false ∨ framing.chunked = false) :
    framing.body pieces = framing.payload pieces := by
  rcases plain with none | plain
  · simp only [body, none, Bool.false_and, Bool.false_eq_true, if_false]
  · simp only [body, plain, Bool.and_false, Bool.false_eq_true, if_false]

/-- One more piece of a body in chunks is one more chunk, unless it is empty. -/
theorem body_chunked (allowed : framing.bodyAllowed = true) (chunked : framing.chunked = true) :
    framing.body (pieces ++ [data]) =
      framing.body pieces ++ if data.isEmpty then [] else Outbox.chunk data := by
  have both : (framing.bodyAllowed && framing.chunked) = true := by rw [allowed, chunked]; rfl
  rw [body, body, if_pos both, if_pos both, List.filter_append, List.flatMap_append]
  by_cases empty : data.isEmpty = true
  · simp [empty]
  · simp [empty]

/-- A body of bounded length is clipped, however it is cut into pieces. -/
theorem payload_bounded {limit : Nat} (allowed : framing.bodyAllowed = true)
    (plain : framing.chunked = false) (bound : framing.contentLength = some limit) :
    framing.payload pieces = pieces.flatten.take limit := by
  simp only [payload, allowed, plain, bound, if_true, Bool.false_eq_true, if_false]

theorem payload_bounded_append {limit : Nat} (allowed : framing.bodyAllowed = true)
    (plain : framing.chunked = false) (bound : framing.contentLength = some limit) :
    framing.payload (pieces ++ [data]) =
      framing.payload pieces ++ data.take (limit - (framing.payload pieces).length) := by
  rw [framing.payload_bounded _ allowed plain bound, framing.payload_bounded _ allowed plain bound,
    List.flatten_append, List.flatten_singleton, List.take_append, List.length_take]
  congr 2
  omega

end ResponseFraming

/-! ## Pieces -/

namespace Progress

variable {progress : Progress} {framing : ResponseFraming} {pieces : List Bytes}

/-- Whether more is wanted is what the framing says of the pieces so far. -/
theorem flow_framed (framed : progress.framing = some framing)
    (count : progress.bodySent = (framing.payload pieces).length) :
    progress.flow = framing.flow pieces := by
  rw [flow, framed, ResponseFraming.flow]
  cases allowed : framing.bodyAllowed with
  | false => simp only [allowed, Bool.not_false, if_true, Bool.false_eq_true, if_false]
  | true =>
      cases bound : framing.contentLength with
      | none => simp only [allowed, bound, Bool.not_true, Bool.false_eq_true, if_false, if_true]
      | some limit =>
          cases chunked : framing.chunked with
          | true => simp [allowed, bound, chunked]
          | false =>
              -- the body is counted as it is clipped, so the count reaches the bound with it
              have reached : limit ≤ progress.bodySent ↔ limit ≤ pieces.flatten.length := by
                rw [count, framing.payload_bounded pieces allowed chunked bound, List.length_take]
                omega
              simp [allowed, bound, chunked, reached]

/-- What is to come of one more piece: it is queued behind what is queued, counted, and
followed by the flow that the pieces come to. -/
structure Adds (progress : Progress) (framing : ResponseFraming) (pieces : List Bytes)
    (outbox : Outbox) (data : Bytes) : Prop where
  queued : ∃ more, (progress.pushBody outbox data).1.pending.flatten =
      outbox.pending.flatten ++ more ∧
    framing.body (pieces ++ [data]) = framing.body pieces ++ more
  counted : (progress.pushBody outbox data).2.1 =
    { progress with bodySent := (framing.payload (pieces ++ [data])).length }
  wanted : (progress.pushBody outbox data).2.2 = framing.flow (pieces ++ [data])

section

variable (framed : progress.framing = some framing)
  (count : progress.bodySent = (framing.payload pieces).length) (outbox : Outbox) (data : Bytes)

include framed count

theorem adds_bodiless (none : framing.bodyAllowed = false) :
    progress.Adds framing pieces outbox data := by
  have pushes : progress.pushBody outbox data = (outbox, progress, .enough) := by
    simp only [pushBody, framed, none, Bool.not_false, if_true]
  have nothing : ∀ pieces, framing.body pieces = [] := by
    intro pieces
    rw [framing.body_plain _ (.inl none), framing.payload_bodiless _ none]
  constructor
  · rw [pushes, nothing, nothing]
    exact ⟨[], (List.append_nil _).symm, rfl⟩
  · rw [framing.payload_bodiless _ none] at count
    rw [pushes, framing.payload_bodiless _ none, ← count]
  · rw [pushes, ResponseFraming.flow, if_neg (by rw [none]; decide)]

theorem adds_chunked (allowed : framing.bodyAllowed = true) (chunked : framing.chunked = true) :
    progress.Adds framing pieces outbox data := by
  have pushes : progress.pushBody outbox data = (outbox.pushChunk data,
      { progress with bodySent := progress.bodySent + data.length }, .more) := by
    simp only [pushBody, framed, allowed, chunked, Bool.not_true, Bool.false_eq_true, if_false,
      if_true]
  have whole := fun pieces => framing.payload_whole pieces allowed (.inl chunked)
  constructor
  · rw [pushes]
    exact ⟨_, Outbox.pushChunk_flatten outbox data,
      framing.body_chunked pieces data allowed chunked⟩
  · rw [pushes, count, whole, whole, List.flatten_append, List.length_append,
      List.flatten_singleton]
  · rw [pushes]
    simp only [ResponseFraming.flow, allowed, chunked, if_true]
    split <;> rfl

theorem adds_counted {limit : Nat} (allowed : framing.bodyAllowed = true)
    (plain : framing.chunked = false) (bound : framing.contentLength = some limit) :
    progress.Adds framing pieces outbox data := by
  have added := framing.payload_bounded_append pieces data allowed plain bound
  rw [← count] at added
  have counted : progress.bodySent + (data.take (limit - progress.bodySent)).length =
      (framing.payload (pieces ++ [data])).length := by
    rw [added, List.length_append, ← count]
  have pushes : progress.pushBody outbox data =
      (outbox.push (data.take (limit - progress.bodySent)),
        { progress with bodySent := (framing.payload (pieces ++ [data])).length },
        flow { progress with bodySent := (framing.payload (pieces ++ [data])).length }) := by
    simp only [pushBody, framed, allowed, plain, bound, Bool.not_true, Bool.false_eq_true,
      if_false, counted]
  constructor
  · rw [pushes, framing.body_plain _ (.inr plain), framing.body_plain _ (.inr plain)]
    exact ⟨_, Outbox.push_flatten outbox _, added⟩
  · rw [pushes]
  · rw [pushes]
    exact flow_framed framed rfl

theorem adds_endless (allowed : framing.bodyAllowed = true) (plain : framing.chunked = false)
    (endless : framing.contentLength = Option.none) : progress.Adds framing pieces outbox data := by
  have pushes : progress.pushBody outbox data = (outbox.push data,
      { progress with bodySent := progress.bodySent + data.length }, .more) := by
    simp only [pushBody, framed, allowed, plain, endless, Bool.not_true, Bool.false_eq_true,
      if_false]
  have whole := fun pieces => framing.payload_whole pieces allowed (.inr endless)
  constructor
  · rw [pushes, framing.body_plain _ (.inr plain), framing.body_plain _ (.inr plain), whole, whole]
    exact ⟨data, Outbox.push_flatten outbox data, by
      rw [List.flatten_append, List.flatten_singleton]⟩
  · rw [pushes, count, whole, whole, List.flatten_append, List.length_append,
      List.flatten_singleton]
  · rw [pushes]
    simp only [ResponseFraming.flow, allowed, endless, if_true]

/-- **One more piece adds to the body what the framing makes of it.** -/
theorem pushBody_framed : progress.Adds framing pieces outbox data := by
  cases allowed : framing.bodyAllowed with
  | false => exact adds_bodiless framed count outbox data allowed
  | true =>
      cases plain : framing.chunked with
      | true => exact adds_chunked framed count outbox data allowed plain
      | false =>
          cases bound : framing.contentLength with
          | some limit => exact adds_counted framed count outbox data allowed plain bound
          | none => exact adds_endless framed count outbox data allowed plain bound

end

/-- The flow of a piece is that of the progress behind it. -/
theorem pushBody_flow (framed : progress.framing = some framing) (outbox : Outbox)
    (data : Bytes) :
    (progress.pushBody outbox data).2.2 = (progress.pushBody outbox data).2.1.flow := by
  simp only [pushBody, framed]
  split
  · rename_i bodiless
    simp [flow, framed, bodiless]
  · rename_i allowed
    split
    · rename_i chunked
      simp only [flow, allowed, chunked, if_false, Bool.not_true, Bool.false_and,
        Bool.false_eq_true]
      split <;> rfl
    · split
      · rfl
      · rename_i endless
        simp [flow, allowed, endless]

theorem fileRoom_framed (framed : progress.framing = some framing) (file : FileBody) :
    progress.fileRoom file = framing.room file := by
  cases allowed : framing.bodyAllowed with
  | false => simp [fileRoom, ResponseFraming.room, framed, allowed]
  | true =>
      cases bound : framing.contentLength <;>
        simp [fileRoom, ResponseFraming.room, framed, allowed, bound]

/-- A body is too short when fewer octets came than the head announced. -/
theorem isShort_framed (framed : progress.framing = some framing)
    (count : progress.bodySent = (framing.payload pieces).length)
    (bounded : framing.chunked = true → framing.contentLength = Option.none) :
    progress.isShort = true ↔ framing.bodyAllowed = true ∧
      ∃ limit, framing.contentLength = some limit ∧ pieces.flatten.length < limit := by
  rw [isShort, framed, Bool.and_eq_true]
  refine and_congr_right fun allowed => ?_
  cases bound : framing.contentLength with
  | none => simp
  | some limit =>
      have plain : framing.chunked = false := by
        refine Bool.eq_false_iff.2 fun chunked => ?_
        rw [bounded chunked] at bound
        cases bound
      rw [framing.payload_bounded pieces allowed plain bound, List.length_take] at count
      simp only [Option.any_some, decide_eq_true_eq, Option.some.injEq, exists_eq_left']
      omega

end Progress

/-! ## What a head decides -/

namespace ResponseFraming

variable {head : ResponseHead} {length : BodyLength} {context : HeadContext}

/-- A body in chunks is one that is allowed and has no bound. -/
theorem decide_chunked (chunked : (decide head length context).chunked = true) :
    (decide head length context).bodyAllowed = true ∧
      (decide head length context).contentLength = none := by
  simp only [decide, isUnbounded, Bool.and_eq_true, Option.isNone_iff_eq_none,
    beq_iff_eq] at chunked
  obtain ⟨⟨⟨declared, unknown⟩, allowed⟩, -⟩ := chunked
  simp only [decide, allowed, declared, unknown, if_true, and_self]

/-- A body of known length has a bound. -/
theorem decide_known (n : Nat) :
    (decide head (.known n) context).chunked = false ∧
      ∃ limit, (decide head (.known n) context).contentLength = some limit := by
  constructor
  · simp [decide, isUnbounded]
  · simp only [decide]
    split
    · cases head.contentLength <;> exact ⟨_, rfl⟩
    · exact ⟨0, rfl⟩

/-- A body that is neither bounded nor in chunks ends with the connection. -/
theorem decide_endless (allowed : (decide head length context).bodyAllowed = true)
    (plain : (decide head length context).chunked = false)
    (endless : (decide head length context).contentLength = none) :
    (decide head length context).keepAlive = false := by
  have may : head.allowsBody context.headRequest = true := allowed
  have unbounded : isUnbounded head length context = true := by
    simp only [decide, may, if_true] at endless
    cases declared : head.contentLength with
    | some n =>
        rw [declared] at endless
        cases endless
    | none =>
        cases length with
        | known n =>
            rw [declared] at endless
            cases endless
        | unknown => simp [isUnbounded, declared, may]
  cases version : context.version with
  | http11 => simp [decide, unbounded, version] at plain
  | http10 => simp [decide, unbounded, version]

/-- Where no body is allowed its length is nothing. -/
theorem decide_bodiless (bodiless : (decide head length context).bodyAllowed = false) :
    (decide head length context).contentLength = some 0 := by
  have none : head.allowsBody context.headRequest = false := bodiless
  simp [decide, none]

end ResponseFraming

end EmbeddedHttp
