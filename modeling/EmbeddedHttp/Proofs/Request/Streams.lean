/-
# EmbeddedHttp.Proofs.Request.Streams -- the stream behind what was heard

Reading gives a stream in pieces, and now and then nothing.  As long as the parser has not
failed it read the whole stream, octet by octet (`Intake.hearAll_octets`), so where it stands
follows from the stream alone.
-/
import EmbeddedHttp.Proofs.Message.Octets
import EmbeddedHttp.Proofs.Request.Blame
import Mathlib.Data.List.Induction

namespace EmbeddedHttp

set_option autoImplicit false

namespace Received

/-- The octets that came. -/
def octets : Received → Bytes
  | .data bytes => bytes
  | _ => []

/-- All octets that came, in order. -/
def stream (heard : List Received) : Bytes := heard.flatMap octets

theorem stream_append (heard : List Received) (received : Received) :
    stream (heard ++ [received]) = stream heard ++ received.octets := by
  simp [stream]

end Received

namespace Intake

variable {limits : Limits} {intake : Intake}

theorem parser_of_cutShort (intake : Intake) (status : Status) :
    (intake.cutShort status).parser = intake.parser := by
  rw [cutShort]
  split <;> rfl

/-- Fed octets that leave the parser sound were read without a fault. -/
theorem feed_octets {data : Bytes} (some : data ≠ [])
    (sound : (intake.feed limits data).intake.parser ≠ .failed) :
    intake.parser ≠ .failed ∧ ∃ events,
      intake.parser.octets data = (events, .ok (intake.feed limits data).intake.parser) := by
  have failed : intake.parser = .failed → (intake.feed limits data).intake.parser = .failed := by
    intro failed
    obtain ⟨b, rest, rfl⟩ := List.exists_cons_of_ne_nil some
    rw [feed_eq, failed, Parser.run_cons]
    rfl
  refine ⟨fun isFailed => sound (failed isFailed), ?_⟩
  rw [feed_eq] at sound ⊢
  rw [Parser.octets_eq_run]
  rcases told : deliver (Assembly.listener limits) (intake.parser.run data).1 intake.queue with
    ⟨refusal, queue⟩
  rw [told] at sound
  cases refusal with
  | some refusal => exact (sound rfl).elim
  | none =>
      cases outcome : (intake.parser.run data).2 with
      | error fault =>
          rw [outcome] at sound
          exact (sound rfl).elim
      | ok parser => exact ⟨_, rfl⟩

/-- **A parser that has not failed read the whole stream.** -/
theorem hearAll_octets (limits : Limits) (heard : List Received)
    (sound : (hearAll limits heard).parser ≠ .failed) :
    ∃ events, Parser.idle.octets (Received.stream heard) =
      (events, .ok (hearAll limits heard).parser) := by
  induction heard using List.reverseRecOn with
  | nil => exact ⟨[], rfl⟩
  | append_singleton before received ih =>
      rw [hearAll_append] at sound ⊢
      rw [Received.stream_append]
      -- without octets the parser stays where it is
      have quiet : ∀ status, (hearAll limits before).cutShort status =
          hear limits (hearAll limits before) received → received.octets = [] →
          ∃ events, Parser.idle.octets (Received.stream before ++ received.octets) =
            (events, .ok (hear limits (hearAll limits before) received).parser) := by
        intro status hears none
        rw [← hears, parser_of_cutShort] at sound ⊢
        rw [none, List.append_nil]
        exact ih sound
      cases received with
      | timedOut | failed fault => exact quiet _ rfl rfl
      | data bytes =>
          cases bytes with
          | nil => exact quiet _ rfl rfl
          | cons b rest =>
              obtain ⟨soundBefore, more, read⟩ := feed_octets (List.cons_ne_nil b rest) sound
              obtain ⟨events, earlier⟩ := ih soundBefore
              refine ⟨events ++ more, ?_⟩
              rw [Parser.octets_append_ok earlier, Received.octets, read]
              rfl

end Intake

end EmbeddedHttp
