/-
# EmbeddedHttp.Proofs.Response.Cursor -- what stands behind the cursor of an outbox

The segments of an outbox are one string of octets.  Its cursor cuts that string behind the
octets that are out: what is pending is the rest (`Outbox.pending_flatten`), a further segment
goes to the end of it (`Outbox.push_flatten`), and what went out leaves its front
(`Outbox.advance_flatten`).
-/
import EmbeddedHttp.Response.Outbox

namespace EmbeddedHttp

set_option autoImplicit false

namespace Outbox

@[simp] theorem empty_pending : empty.pending = [] := rfl

/-- **What is pending is the string behind the octets that are out.** -/
theorem pending_flatten (outbox : Outbox) :
    outbox.pending.flatten = outbox.segments.flatten.drop outbox.sent := by
  have whole : outbox.segments.flatten = (outbox.segments.take outbox.index).flatten ++
      (outbox.segments.drop outbox.index).flatten := by
    rw [← List.flatten_append, List.take_append_drop]
  have before := outbox.inside.2
  rw [whole, outbox.reached, List.drop_length_add_append, pending]
  cases behind : outbox.segments.drop outbox.index with
  | nil => rw [List.flatten_nil, List.drop_nil]
  | cons segment rest =>
      rw [behind] at before
      rw [List.flatten_cons, List.flatten_cons, List.drop_append_of_le_length (Nat.le_of_lt before)]

theorem remaining_eq (outbox : Outbox) : outbox.remaining = outbox.pending.flatten.length := by
  rw [pending_flatten, List.length_drop, ← outbox.counted, remaining]

theorem sent_le (outbox : Outbox) : outbox.sent ≤ outbox.total := by
  have reached := outbox.behind_length
  have before := outbox.inside.2
  have place := outbox.reached
  have whole : outbox.total = (outbox.segments.take outbox.index).flatten.length +
      (outbox.segments.drop outbox.index).flatten.length := by
    rw [outbox.counted, ← List.length_append, ← List.flatten_append, List.take_append_drop]
  omega

theorem isDrained_iff (outbox : Outbox) :
    outbox.isDrained = true ↔ outbox.pending.flatten = [] := by
  have bounded := outbox.sent_le
  rw [← List.length_eq_zero_iff, ← remaining_eq, isDrained, beq_iff_eq, remaining]
  omega

/-! ## Queueing -/

theorem push_segments (outbox : Outbox) (segment : Bytes) :
    (outbox.push segment).segments.flatten = outbox.segments.flatten ++ segment := by
  rw [push, List.flatten_append, queued_flatten]

theorem push_sends_nothing (outbox : Outbox) (segment : Bytes) :
    (outbox.push segment).sent = outbox.sent := rfl

theorem pushChunk_sends_nothing (outbox : Outbox) (data : Bytes) :
    (outbox.pushChunk data).sent = outbox.sent := by
  rw [pushChunk]
  split
  · rfl
  · rw [push_sends_nothing, push_sends_nothing, push_sends_nothing]

theorem push_flatten (outbox : Outbox) (segment : Bytes) :
    (outbox.push segment).pending.flatten = outbox.pending.flatten ++ segment := by
  have bounded := outbox.sent_le
  rw [outbox.counted] at bounded
  rw [pending_flatten, pending_flatten, push_segments, push_sends_nothing,
    List.drop_append_of_le_length bounded]

/-! ## Moving on -/

theorem advance_sent (outbox : Outbox) (n : Nat) :
    (outbox.advance n).sent = outbox.sent + min n outbox.remaining := rfl

/-- **What went out leaves the front of what is pending.** -/
theorem advance_flatten (outbox : Outbox) (n : Nat) :
    (outbox.advance n).pending.flatten = outbox.pending.flatten.drop n := by
  have all : outbox.remaining = outbox.segments.flatten.length - outbox.sent := by
    rw [remaining, outbox.counted]
  have same : (outbox.advance n).segments = outbox.segments := rfl
  rw [pending_flatten, pending_flatten, same, advance_sent, List.drop_drop]
  by_cases within : n ≤ outbox.remaining
  · rw [Nat.min_eq_left within]
  · rw [Nat.min_eq_right (by omega), List.drop_eq_nil_of_le (by omega),
      List.drop_eq_nil_of_le (by omega)]

/-! ## What is offered -/

/-- What is offered is the front of what is pending. -/
theorem slices_prefix (outbox : Outbox) :
    outbox.slices.flatten <+: outbox.pending.flatten := by
  refine ⟨(outbox.pending.drop maxSlices).flatten, ?_⟩
  rw [slices, ← List.flatten_append, List.take_append_drop]

/-- No slice is empty. -/
theorem slices_proper (outbox : Outbox) : ∀ slice ∈ outbox.slices, slice ≠ [] := by
  intro slice member
  have waiting := List.mem_of_mem_take member
  have before := outbox.inside.2
  rw [pending] at waiting
  cases behind : outbox.segments.drop outbox.index with
  | nil =>
      rw [behind] at waiting
      cases waiting
  | cons segment rest =>
      rw [behind] at waiting before
      rcases List.mem_cons.1 waiting with rfl | later
      · exact fun none => absurd (List.drop_eq_nil_iff.1 none) (Nat.not_le.2 before)
      · refine outbox.proper slice (List.mem_of_mem_drop (i := outbox.index) ?_)
        rw [behind]
        exact List.mem_cons_of_mem _ later

/-- Something is offered as long as something is pending. -/
theorem slices_eq_nil (outbox : Outbox) : outbox.slices = [] ↔ outbox.isDrained = true := by
  rw [isDrained_iff]
  constructor
  · intro none
    have nothing : outbox.pending = [] := (List.take_eq_nil_iff.1 none).resolve_left (by decide)
    rw [nothing, List.flatten_nil]
  · intro drained
    cases offered : outbox.slices with
    | nil => rfl
    | cons slice rest =>
        have within := outbox.slices_prefix
        rw [drained, List.prefix_nil, offered, List.flatten_cons] at within
        have some_octets := outbox.slices_proper slice (by rw [offered]; exact List.mem_cons_self)
        exact absurd (List.append_eq_nil_iff.1 within).1 some_octets

/-- What a socket took leaves the front of the outbox. -/
theorem advance_taken {outbox : Outbox} {n : Nat}
    (offered : n ≤ outbox.slices.flatten.length) :
    outbox.slices.flatten.take n ++ (outbox.advance n).pending.flatten =
        outbox.pending.flatten ∧
      (outbox.advance n).sent = outbox.sent + n := by
  obtain ⟨others, whole⟩ := outbox.slices_prefix
  have front : outbox.slices.flatten.take n = outbox.pending.flatten.take n := by
    rw [← whole, List.take_append_of_le_length offered]
  have bounded : n ≤ outbox.remaining := by
    rw [remaining_eq, ← whole, List.length_append]
    omega
  rw [front, advance_flatten, List.take_append_drop, advance_sent, Nat.min_eq_left bounded]
  exact ⟨rfl, rfl⟩

end Outbox

end EmbeddedHttp
