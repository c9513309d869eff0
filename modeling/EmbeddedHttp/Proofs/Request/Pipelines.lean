/-
# EmbeddedHttp.Proofs.Request.Pipelines -- what is written in a row is queued in order

Requests written one behind another, with line ends between them, arrive in whatever
pieces a socket delivers.  The events that reading tells are those of the requests, up
to how their bodies are cut (`Event.split_eq_request`), and each request is built from
its own.  So the queue ends with the requests as they were written and the parser
between messages -- exactly when every body has a place to be kept
(`Intake.feedAll_pipeline`).
-/
import Mathlib.Data.List.Forall2
import EmbeddedHttp.Proofs.Request.Building

namespace EmbeddedHttp

set_option autoImplicit false

/-! ## Putting pieces of body together again -/

namespace Event

theorem eq_nil_of_split {events : List Event} (proper : ∀ e ∈ events, e ≠ .body [])
    (read : split events = []) : events = [] := by
  cases events with
  | nil => rfl
  | cons event rest =>
      have isProper := proper event List.mem_cons_self
      rw [split_cons] at read
      obtain ⟨nothing, -⟩ := List.append_eq_nil_iff.1 read
      cases event with
      | body data =>
          cases data with
          | nil => exact absurd rfl isProper
          | cons b more => simp [octets] at nothing
      | _ => simp [octets] at nothing

theorem split_eq_cons {events rest : List Event} {event : Event}
    (proper : ∀ e ∈ events, e ≠ .body []) (noBody : event.isBody = false)
    (read : split events = event :: rest) : ∃ others, events = event :: others ∧
      split others = rest := by
  cases events with
  | nil => simp at read
  | cons first others =>
      have isProper := proper first List.mem_cons_self
      rw [split_cons] at read
      cases first with
      | body data =>
          cases data with
          | nil => exact absurd rfl isProper
          | cons b more =>
              rw [octets, pieces_cons, List.cons_append] at read
              rw [← (List.cons.inj read).1] at noBody
              cases noBody
      | _ =>
          rw [octets_of_noBody rfl, List.singleton_append] at read
          obtain ⟨rfl, same⟩ := List.cons.inj read
          exact ⟨others, rfl, same⟩

/-- Events that are no pieces of body stand as they were told. -/
theorem split_eq_append {events front rest : List Event}
    (proper : ∀ e ∈ events, e ≠ .body []) (noBody : ∀ e ∈ front, e.isBody = false)
    (read : split events = front ++ rest) : ∃ others, events = front ++ others ∧
      split others = rest := by
  induction front generalizing events with
  | nil => exact ⟨events, rfl, read⟩
  | cons event more ih =>
      obtain ⟨others, rfl, same⟩ := split_eq_cons proper (noBody event List.mem_cons_self) read
      obtain ⟨last, rfl, done⟩ := ih (fun e member => proper e (List.mem_cons_of_mem _ member))
        (fun e member => noBody e (List.mem_cons_of_mem _ member)) same
      exact ⟨last, rfl, done⟩

/-- Single octets of a body come from fragments that make it up. -/
theorem split_eq_pieces {events rest : List Event} {event : Event} {data : Bytes}
    (proper : ∀ e ∈ events, e ≠ .body []) (noBody : event.isBody = false)
    (read : split events = pieces data ++ event :: rest) :
    ∃ (fragments : List Bytes) (others : List Event),
      events = fragments.map .body ++ event :: others ∧ fragments.flatten = data ∧
        (∀ fragment ∈ fragments, fragment ≠ []) ∧ split others = rest := by
  induction events generalizing data with
  | nil => simp at read
  | cons first more ih =>
      cases data with
      | nil =>
          obtain ⟨others, same, done⟩ := split_eq_cons proper noBody read
          exact ⟨[], others, same, rfl, by simp, done⟩
      | cons b tail =>
          have isProper := proper first List.mem_cons_self
          rw [split_cons, pieces_cons, List.cons_append] at read
          cases first with
          | body fragment =>
              -- the fragment is a prefix of the data: its octets are told before the event
              have front : ∀ (part whole : Bytes), pieces part ++ split more =
                  pieces whole ++ event :: rest →
                  ∃ last, whole = part ++ last ∧ split more = pieces last ++ event :: rest := by
                intro part
                induction part with
                | nil => exact fun whole same => ⟨whole, rfl, same⟩
                | cons c part inner =>
                    intro whole same
                    cases whole with
                    | nil =>
                        rw [pieces_cons, List.cons_append, pieces_nil, List.nil_append] at same
                        rw [← (List.cons.inj same).1] at noBody
                        cases noBody
                    | cons d whole =>
                        simp only [pieces_cons, List.cons_append, List.cons.injEq, body.injEq,
                          and_true] at same
                        obtain ⟨rfl, same⟩ := same
                        obtain ⟨last, rfl, done⟩ := inner whole same
                        exact ⟨last, rfl, done⟩
              obtain ⟨last, whole, done⟩ := front fragment (b :: tail) read
              obtain ⟨fragments, others, rfl, joined, nonempty, ended⟩ :=
                ih (fun e member => proper e (List.mem_cons_of_mem _ member)) done
              refine ⟨fragment :: fragments, others, rfl, ?_, ?_, ended⟩
              · rw [List.flatten_cons, joined, whole]
              · intro f member
                rcases List.mem_cons.1 member with rfl | later
                · exact fun empty => isProper (by rw [empty])
                · exact nonempty f later
          | _ =>
              rw [octets_of_noBody rfl, List.singleton_append] at read
              cases (List.cons.inj read).1

/-- **What is told of a written request is its head, fragments of its body, and its end.** -/
theorem split_eq_request {request : WrittenRequest} {events rest : List Event}
    (proper : ∀ e ∈ events, e ≠ .body [])
    (read : split events = request.events ++ rest) :
    ∃ (fragments : List Bytes) (others : List Event),
      events = .begin :: request.headEvents ++ (fragments.map .body ++ .complete :: others) ∧
        fragments.flatten = request.payload.data ∧ (∀ fragment ∈ fragments, fragment ≠ []) ∧
        split others = rest := by
  have noBody : ∀ e ∈ .begin :: request.headEvents, e.isBody = false := by
    intro e member
    simp only [WrittenRequest.headEvents, Head.fieldEvents, List.cons_append, List.mem_cons,
      List.mem_append, List.mem_flatMap, List.not_mem_nil, or_false] at member
    rcases member with rfl | rfl | ⟨field, -, rfl | rfl⟩ | rfl <;> rfl
  have grouped : request.events ++ rest = (.begin :: request.headEvents) ++
      (pieces request.payload.data ++ .complete :: rest) := by
    simp [WrittenRequest.events]
  rw [grouped] at read
  obtain ⟨behind, rfl, body⟩ := split_eq_append proper noBody read
  obtain ⟨fragments, others, rfl, whole, nonempty, ended⟩ :=
    split_eq_pieces (fun e member => proper e (List.mem_append_right _ member)) rfl body
  exact ⟨fragments, others, rfl, whole, nonempty, ended⟩

end Event

/-! ## Requests in a row -/

namespace Assembly

variable {limits : Limits}

/-- Requests that have a place for their bodies are queued one after the other. -/
theorem deliver_pipeline (word : limits.maxContentLength < Bytes.wordBound)
    {pipeline : Pipeline} (legal : ∀ sent ∈ pipeline, sent.2.Legal limits)
    (storable : ∀ sent ∈ pipeline, sent.2.Storable limits) {events : List Event}
    (proper : ∀ e ∈ events, e ≠ .body [])
    (read : Event.split events = pipeline.flatMap fun sent => sent.2.events)
    (queue : RequestQueue) :
    ∃ requests, deliver (listener limits) events queue = (none, ⟨queue.items ++ requests⟩) ∧
      List.Forall₂ WrittenRequest.ReadAs (pipeline.map (·.2)) requests := by
  induction pipeline generalizing events queue with
  | nil =>
      rw [Event.eq_nil_of_split proper read]
      exact ⟨[], by simp [deliver], .nil⟩
  | cons sent rest ih =>
      rw [List.flatMap_cons] at read
      obtain ⟨fragments, others, rfl, whole, nonempty, further⟩ :=
        Event.split_eq_request proper read
      obtain ⟨request, told, readAs⟩ := deliver_request (legal sent List.mem_cons_self) word
        (storable sent List.mem_cons_self) whole nonempty queue
      obtain ⟨requests, done, all⟩ := ih (fun s member => legal s (List.mem_cons_of_mem _ member))
        (fun s member => storable s (List.mem_cons_of_mem _ member))
        (fun e member => proper e (by simp [member])) further (queue.push request)
      refine ⟨request :: requests, ?_, .cons readAs all⟩
      have grouped : .begin :: sent.2.headEvents ++ (fragments.map .body ++ .complete :: others) =
          (.begin :: sent.2.headEvents ++ (fragments.map .body ++ [.complete])) ++ others := by
        simp
      rw [grouped, Parser.deliver_append, told]
      simp only [done]
      simp [RequestQueue.push]

/-- One request without a place for its body overflows the whole pipeline. -/
theorem deliver_pipeline_overflows (word : limits.maxContentLength < Bytes.wordBound)
    {pipeline : Pipeline} (legal : ∀ sent ∈ pipeline, sent.2.Legal limits)
    {sent : Bytes × WrittenRequest} (member : sent ∈ pipeline)
    (homeless : ¬ sent.2.Storable limits) {events : List Event}
    (proper : ∀ e ∈ events, e ≠ .body [])
    (read : Event.split events = pipeline.flatMap fun sent => sent.2.events)
    (queue : RequestQueue) :
    (deliver (listener limits) events queue).1 = some .overflow := by
  induction pipeline generalizing events queue with
  | nil => simp at member
  | cons first rest ih =>
      rw [List.flatMap_cons] at read
      obtain ⟨fragments, others, rfl, whole, nonempty, further⟩ :=
        Event.split_eq_request proper read
      -- a request with a place is queued like any other; the first without one overflows
      by_cases placed : first.2.Storable limits
      · have inRest : sent ∈ rest := by
          rcases List.mem_cons.1 member with rfl | later
          · exact absurd placed homeless
          · exact later
        obtain ⟨request, told, -⟩ := deliver_request (legal first List.mem_cons_self) word placed
          whole nonempty queue
        have grouped : .begin :: first.2.headEvents ++
            (fragments.map .body ++ .complete :: others) =
            (.begin :: first.2.headEvents ++ (fragments.map .body ++ [.complete])) ++ others := by
          simp
        rw [grouped, Parser.deliver_append, told]
        exact ih (fun s member => legal s (List.mem_cons_of_mem _ member)) inRest
          (fun e member => proper e (by simp [member])) further (queue.push request)
      · exact deliver_request_overflows (legal first List.mem_cons_self) placed whole nonempty
          queue _

end Assembly

namespace Intake

/-- **What is written in a row is queued in order, exactly when every body has a place.**
However a pipeline of well-formed requests is cut into pieces, all of it is taken, the
parser ends between messages and the queue holds the requests as they were written, unless
some body would have to be held in memory under the greatest limit there is. -/
theorem feedAll_pipeline (limits : Limits) (word : limits.maxContentLength < Bytes.wordBound)
    (pipeline : Pipeline)
    (legal : ∀ sent ∈ pipeline, Pipeline.IsGap sent.1 ∧ sent.2.Legal limits)
    (gap : Bytes) (isGap : Pipeline.IsGap gap) (pieces : List Bytes)
    (cut : pieces.flatten = Pipeline.octets pipeline ++ gap) :
    let fed := Intake.empty.feedAll limits pieces
    (fed.result = .ok pieces.flatten.length ∧ fed.intake.parser = .idle ∧
      List.Forall₂ WrittenRequest.ReadAs (pipeline.map (·.2)) fed.intake.queue.items) ↔
        ∀ sent ∈ pipeline, sent.2.Storable limits := by
  have octets := Parser.octets_pipeline word legal isGap
  rw [← cut, Parser.octets_flatten, Prod.mk.injEq] at octets
  obtain ⟨read, ended⟩ := octets
  have proper := Parser.runAll_proper pieces .idle
  have written : ∀ sent ∈ pipeline, sent.2.Legal limits := fun s member => (legal s member).2
  simp only [feedAll, Parser.executeAll_eq, Parser.tell, Intake.empty, Nat.zero_add]
  constructor
  · intro taken sent member
    refine Classical.byContradiction fun homeless => ?_
    have overflows := Assembly.deliver_pipeline_overflows word written member homeless proper read
      RequestQueue.empty
    revert taken
    generalize deliver (Assembly.listener limits) (Parser.runAll pieces Parser.idle).1
      RequestQueue.empty = told at overflows ⊢
    obtain ⟨refusal, queue⟩ := told
    subst overflows
    simp
  · intro storable
    obtain ⟨requests, told, all⟩ := Assembly.deliver_pipeline word written storable proper read
      RequestQueue.empty
    simp only [told, ended]
    exact ⟨trivial, trivial, all⟩

/-- An upload in one chunk with an extension and a trailer. -/
def sampleUpload : WrittenRequest :=
  { method := .post, target := "/a", version := .http11, startEnd := .full
    fields := [⟨"Transfer-Encoding", "chunked", [Bytes.space], [], .full⟩], headEnd := .full
    payload := .chunked [(⟨Bytes.ofAscii "05", Bytes.ofAscii ";x=1"⟩, Bytes.ofAscii "hello")]
      ⟨Bytes.ofAscii "0", []⟩ [Bytes.ofAscii "T: 1"] }

/-- A request without fields, with bare line feeds. -/
def sampleLookup : WrittenRequest :=
  { method := .get, target := "/é", version := .http10, startEnd := .feed, fields := []
    headEnd := .feed, payload := .none }

theorem sampleUpload_legal : sampleUpload.Legal ⟨1024, 3, true⟩ where
  served := by decide
  target_nonempty := by decide
  target_octet := by decide +kernel
  target_size := by decide
  fields_count := by decide
  fields_legal := by
    intro field member
    rw [sampleUpload, List.mem_singleton] at member
    subst member
    exact
      { name_nonempty := by decide +kernel
        name_token := by decide +kernel
        name_size := by decide +kernel
        value_octet := by decide +kernel
        value_front := by intro b first; cases first; decide
        value_back := by intro b last; cases last; decide
        value_size := by decide
        before_spacing := by decide +kernel
        after_spacing := by decide +kernel }
  head_size := by decide
  noUpgrade := fun wanted => wanted.1 (by decide)
  expectation := by
    intro _ value expected
    cases expected
  framed := by
    refine ⟨by decide, ⟨Bytes.ofAscii "chunked", by decide, by decide⟩, ?_, ?_, ?_⟩
    · intro chunk member
      rw [List.mem_singleton] at member
      subst member
      refine ⟨by decide, by decide, by decide +kernel, by decide, ?_, by decide +kernel⟩
      intro b first
      cases first
      decide
    · refine ⟨by decide +kernel, by decide +kernel, by decide +kernel, ?_, by decide +kernel⟩
      intro b first
      cases first
    · intro line member
      rw [List.mem_singleton] at member
      subst member
      exact ⟨by decide +kernel, by decide +kernel, by decide +kernel⟩
  length_given := by intro absent; cases absent
  body_size := by decide

theorem sampleLookup_legal : sampleLookup.Legal ⟨1024, 3, true⟩ where
  served := by decide
  target_nonempty := by decide
  target_octet := by decide +kernel
  target_size := by decide +kernel
  fields_count := by decide
  fields_legal := by intro field member; cases member
  head_size := by decide
  noUpgrade := fun wanted => wanted.1 rfl
  expectation := by intro http11; cases http11
  framed := ⟨rfl, rfl⟩
  length_given := by decide
  body_size := by decide

/-- The two in a row, cut after every third octet. -/
theorem feedAll_samples :
    let pipeline : Pipeline := [([], sampleUpload), ([Bytes.cr, Bytes.lf], sampleLookup)]
    let pieces := Bytes.cutEvery 3 (Pipeline.octets pipeline ++ [Bytes.lf])
    let fed := Intake.empty.feedAll ⟨1024, 3, true⟩ pieces
    fed.result = .ok pieces.flatten.length ∧ fed.intake.parser = .idle ∧
      List.Forall₂ WrittenRequest.ReadAs [sampleUpload, sampleLookup] fed.intake.queue.items := by
  refine (feedAll_pipeline ⟨1024, 3, true⟩ (by decide)
    [([], sampleUpload), ([Bytes.cr, Bytes.lf], sampleLookup)] ?_ [Bytes.lf] (by decide +kernel) _
    (by decide +kernel)).2 ?_
  · intro sent member
    simp only [List.mem_cons, List.not_mem_nil, or_false] at member
    rcases member with rfl | rfl
    · exact ⟨by decide +kernel, sampleUpload_legal⟩
    · exact ⟨by decide +kernel, sampleLookup_legal⟩
  · intro sent _
    exact .inr (.inl (by decide))

end Intake

end EmbeddedHttp
