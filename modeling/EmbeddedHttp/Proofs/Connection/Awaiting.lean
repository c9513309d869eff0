/-
# EmbeddedHttp.Proofs.Connection.Awaiting -- what a connection reads for

A connection reads only while the first request of its queue is still on its way, and it does
not read before that request was told to go on, if it asked to be
(`Connection.Run.awaits`).
-/
import EmbeddedHttp.Proofs.Connection.InStep

namespace EmbeddedHttp

set_option autoImplicit false

/-- The first request, if there is one, is still on its way and does not wait to be told to
go on. -/
def RequestQueue.FirstAwaited (queue : RequestQueue) : Prop :=
  ∀ request rest, queue.items = request :: rest →
    request.isReady = false ∧ request.expectContinue = false

variable {Call : Type} {Answer : Call → Type} {service : Service Call Answer} {peer : Peer}
  {connection after : Connection Call Answer} {deed : Deed} {deeds : List Deed}

namespace Connection

/-- Whoever looks at the queue reads on only for a request that is still on its way. -/
theorem look_awaits (service : Service Call Answer) (connection : Connection Call Answer)
    (reads : (connection.look service).isReading = true) :
    (connection.look service).intake.queue.FirstAwaited := by
  cases items : connection.intake.queue.items with
  | nil =>
      simp only [look, items] at reads ⊢
      split
      · rename_i closed
        rw [if_pos closed] at reads
        cases reads
      · intro request rest same
        rw [show connection.awaitMore.intake.queue.items = [] from items] at same
        cases same
  | cons first others =>
      simp only [look, items] at reads ⊢
      split at reads
      · -- a request that is taken up is answered first
        exfalso
        rw [dispatch] at reads
        split at reads
        · cases reads
        · split at reads <;> cases reads
      · rename_i unready
        rw [if_neg unready]
        split at reads
        · cases reads
        · rename_i goesOn
          rw [if_neg goesOn]
          split
          · intro request rest same
            cases same
            exact ⟨Bool.eq_false_iff.2 unready, rfl⟩
          · rename_i plain
            intro request rest same
            rw [show connection.awaitMore.intake.queue.items = first :: others from items] at same
            cases same
            exact ⟨Bool.eq_false_iff.2 unready, Bool.eq_false_iff.2 plain⟩

theorem awaits_cutShort {status : Status} {idle : Bool}
    (reads : (if idle then connection.leave
      else (connection.closeReading status).look service).isReading = true) :
    (if idle then connection.leave
      else (connection.closeReading status).look service).intake.queue.FirstAwaited := by
  split at reads
  · cases reads
  · rename_i inside
    rw [if_neg inside]
    exact look_awaits service _ reads

theorem awaits_received {idle : Bool} {received : Received}
    (awaits : connection.intake.queue.FirstAwaited)
    (reads : (connection.afterReceive service idle received).isReading = true) :
    (connection.afterReceive service idle received).intake.queue.FirstAwaited := by
  cases received with
  | timedOut => exact awaits_cutShort reads
  | failed fault =>
      simp only [afterReceive] at reads ⊢
      split at reads
      · rename_i reset
        rw [if_pos reset]
        exact awaits_cutShort reads
      · rename_i other
        rw [if_neg other]
        exact awaits
  | data bytes =>
      cases bytes with
      | nil =>
          simp only [afterReceive] at reads ⊢
          split at reads
          · rename_i between
            rw [if_pos between]
            exact look_awaits service _ reads
          · rename_i inside
            rw [if_neg inside]
            exact look_awaits service _ reads
      | cons b rest =>
          simp only [afterReceive, absorb] at reads ⊢
          split at reads
          · cases reads
          · exact look_awaits service _ reads

/-- **A connection reads for a request that is still on its way.**  In every run, while the
connection reads the first request of the queue is not ready, and is not waiting to be told
to go on. -/
theorem Run.awaits (run : Run service peer deeds connection) (reads : connection.isReading = true) :
    connection.intake.queue.FirstAwaited := by
  induction run with
  | opened =>
      intro request rest items
      cases items
  | @step deeds connection after deed before moved ih =>
      by_cases receiving : ∃ idle, connection.phase = .receiving idle
      · obtain ⟨idle, phase⟩ := receiving
        obtain ⟨received, -, rfl⟩ := moves_receiving phase moved
        exact awaits_received (ih (by rw [isReading, phase])) reads
      · cases recorded : connection.isRecorded with
        | true =>
            obtain ⟨-, leads⟩ := moves_quiet (fun idle phase => receiving ⟨idle, phase⟩) recorded moved
            cases leads with
            | same intake closed still kept =>
                rw [intake]
                exact ih (kept reads)
            | looks other intake closed looks =>
                subst looks
                exact look_awaits service other reads
        | false =>
            cases phase : connection.phase with
            | tellingReadFault fault idle =>
                obtain ⟨-, rfl⟩ := moves_tellingReadFault phase moved
                exact awaits_cutShort reads
            | _ => simp [isRecorded, phase] at recorded

end Connection

end EmbeddedHttp
