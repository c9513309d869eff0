/-
# EmbeddedHttp.Proofs.Connection.Balance -- an exchange and its account agree

A connection keeps an exchange for the request that it answers; the ledger keeps an
account of what was due and what went out.  While an outbox is drained the two agree up
to the octets of it that went out, of which the exchange learns at the end
(`Agrees`).  After a failed write only the account counts (`GivenUp`), and once a task
is over the exchange says rightly whether the connection may be kept (`Finished`).
-/
import EmbeddedHttp.Proofs.Connection.Ledger
import EmbeddedHttp.Proofs.Task.Unwinding

namespace EmbeddedHttp

set_option autoImplicit false

/-! ## Progress -/

namespace Progress

@[simp] theorem noteFlushed_zero (progress : Progress) : progress.noteFlushed 0 = progress := by
  simp [noteFlushed]

@[simp] theorem noteFlushed_noteFlushed (progress : Progress) (first second : Nat) :
    (progress.noteFlushed first).noteFlushed second = progress.noteFlushed (first + second) := by
  have either : (decide (0 < first) || decide (0 < second)) = decide (0 < first + second) := by
    rw [Bool.eq_iff_iff]
    simp only [Bool.or_eq_true, decide_eq_true_eq]
    omega
  simp only [noteFlushed, Bool.or_assoc, either]

/-- A piece of a body changes nothing about what reached the socket, and sends nothing
itself. -/
theorem pushBody_sends_nothing (progress : Progress) (outbox : Outbox) (data : Bytes) :
    (progress.pushBody outbox data).2.1.flushed = progress.flushed ∧
      (progress.pushBody outbox data).1.sent = outbox.sent := by
  rw [pushBody]
  split
  · exact ⟨rfl, rfl⟩
  split
  · exact ⟨rfl, rfl⟩
  split
  · exact ⟨rfl, outbox.pushChunk_sends_nothing data⟩
  · split
    · exact ⟨rfl, outbox.push_sends_nothing _⟩
    · exact ⟨rfl, outbox.push_sends_nothing _⟩

end Progress

namespace Outbox

@[simp] theorem push_pending (segment : Bytes) :
    (Outbox.empty.push segment).pending.flatten = segment := by
  rw [push_flatten]
  rfl

@[simp] theorem push_sent (segment : Bytes) : (Outbox.empty.push segment).sent = 0 :=
  push_sends_nothing Outbox.empty segment

end Outbox

/-! ## Accounts -/

namespace Account

/-- What went out is the front of what was due, behind a whole interim answer or none. -/
structure Sound (account : Account) : Prop where
  interim : account.interim = [] ∨ account.interim = Status.interim
  within : account.octets <+: account.due

theorem oweHead_other (account : Account) (serverName : String) (request : Request) (emit : Emit)
    (date : Bytes) :
    (account.oweHead serverName request emit date).start = account.start ∧
      (account.oweHead serverName request emit date).interim = account.interim ∧
      (account.oweHead serverName request emit date).octets = account.octets := by
  rw [oweHead]
  split
  · exact ⟨rfl, rfl, rfl⟩
  · cases emit with
    | chunk data => exact ⟨rfl, rfl, rfl⟩
    | file head body => exact ⟨rfl, rfl, rfl⟩
    | head head data length => cases data <;> exact ⟨rfl, rfl, rfl⟩

/-- A deed changes neither the start of an answer nor its interim answer, and what goes
out comes behind what went out. -/
theorem enter_other (account : Account) (serverName : String) (deed : Deed) :
    (account.enter serverName deed).start = account.start ∧
      (account.enter serverName deed).interim = account.interim ∧
      (account.enter serverName deed).octets = account.octets ++ deed.octets := by
  have same : (account.start = account.start ∧ account.interim = account.interim ∧
      account.octets = account.octets ++ []) := ⟨rfl, rfl, (List.append_nil _).symm⟩
  cases deed with
  | wrote share octets => exact ⟨rfl, rfl, rfl⟩
  | sent octets => exact ⟨rfl, rfl, rfl⟩
  | broke share => cases share <;> exact same
  | heard _ | called _ | unstarted _ | waited _ | fileEnded | other => exact same
  | dated date =>
      simp only [enter, Deed.octets, List.append_nil]
      split
      · exact oweHead_other _ _ _ _ _
      · exact ⟨rfl, rfl, rfl⟩
  | switched step =>
      simp only [Deed.octets, List.append_nil]
      cases step with
      | suspended wait => exact ⟨rfl, rfl, rfl⟩
      | yielded emit => cases emit <;> exact ⟨rfl, rfl, rfl⟩
      | completed =>
          simp only [enter, complete]
          split <;> exact ⟨rfl, rfl, rfl⟩
      | failed error =>
          simp only [enter, fail]
          split <;> exact ⟨rfl, rfl, rfl⟩

theorem pay_nil (account : Account) : account.pay [] = account := by
  simp [pay]

/-- The connection may be kept as far as the request, the waits and, at the end of the
task, the head tell. -/
def hopes (account : Account) : Bool :=
  match account.start with
  | .refused _ => false
  | .called request =>
      request.keepAlive && !account.timedOut &&
        (account.ending == .running || account.progress.framing.all (·.keepAlive))

end Account

/-! ## Exchanges -/

variable {Call : Type} {Answer : Call → Type} {account : Account}
  {exchange : Exchange Call Answer} {sent : Nat} {pending : Bytes}

/-- An exchange and its account, while `pending` is due and `sent` octets went out of which
the exchange does not know yet. -/
structure Agrees (account : Account) (exchange : Exchange Call Answer) (sent : Nat)
    (pending : Bytes) : Prop where
  called : ∃ request, account.start = .called request ∧ exchange.facts = Facts.ofRequest request
  keepAlive : exchange.keepAlive = account.hopes
  progress : account.progress = exchange.progress.noteFlushed sent
  flushed : account.progress.flushed = !account.octets.isEmpty
  due : account.octets ++ pending = account.due
  whole : account.broken = false
  unbroken : exchange.broken = false

/-- A write failed. -/
structure GivenUp (account : Account) (exchange : Exchange Call Answer) : Prop where
  entered : account.broken = true
  known : exchange.broken = true
  within : account.octets <+: account.due

/-- The task is over, and the exchange says whether the connection may be kept. -/
structure Finished (account : Account) (exchange : Exchange Call Answer) : Prop where
  within : account.octets <+: account.due
  kept : account.kept = (!exchange.broken && exchange.keepAlive)
  whole : exchange.broken = false → account.octets = account.due

/-- The task failed; a page is due if nothing of the answer went out. -/
structure Failed (serverName : String) (account : Account) (exchange : Exchange Call Answer) :
    Prop where
  within : account.octets <+: account.due
  page : exchange.progress.flushed = false → exchange.broken = false →
    account.octets = [] ∧ account.due = Status.internalServerError.errorPage serverName

namespace Agrees

theorem within (agrees : Agrees account exchange sent pending) :
    account.octets <+: account.due := ⟨pending, agrees.due⟩

/-- Octets of the outbox go out. -/
theorem pay {octets : Bytes} (agrees : Agrees account exchange sent (octets ++ pending)) :
    Agrees (account.pay octets) exchange (sent + octets.length) pending where
  called := agrees.called
  keepAlive := agrees.keepAlive
  progress := by
    rw [Account.pay]
    simp only [agrees.progress, Progress.noteFlushed_noteFlushed]
  flushed := by
    have before := agrees.flushed
    cases octets with
    | nil => simpa [Account.pay] using before
    | cons b rest => simp [Account.pay, Progress.noteFlushed]
  due := by
    have due := agrees.due
    rw [← List.append_assoc] at due
    exact due
  whole := agrees.whole
  unbroken := agrees.unbroken

/-- A turn at an outbox, behind which `more` is to go out. -/
theorem turn {flush later : Flush} {octets more : Bytes}
    (agrees : Agrees account exchange flush.outbox.sent (flush.outbox.pending.flatten ++ more))
    (whole : octets ++ later.outbox.pending.flatten = flush.outbox.pending.flatten)
    (count : later.outbox.sent = flush.outbox.sent + octets.length) :
    Agrees (account.pay octets) exchange later.outbox.sent
      (later.outbox.pending.flatten ++ more) := by
  rw [← whole, List.append_assoc] at agrees
  rw [count]
  exact agrees.pay

/-- Octets of a file go out. -/
theorem sentFile {octets : Bytes} (agrees : Agrees account exchange sent (octets ++ pending))
    (serverName : String) :
    Agrees (account.enter serverName (.sent octets))
      { exchange with progress := { exchange.progress with
          bodySent := exchange.progress.bodySent + octets.length } }
      (sent + octets.length) pending := by
  have paid := agrees.pay
  refine ⟨paid.called, paid.keepAlive, ?_, paid.flushed, paid.due, paid.whole, paid.unbroken⟩
  have progress := paid.progress
  simp only [Account.enter, progress]
  rfl

/-- The file gave nothing more. -/
theorem fileEnded (agrees : Agrees account exchange sent pending) (serverName : String) :
    Agrees (account.enter serverName .fileEnded) exchange sent [] where
  called := agrees.called
  keepAlive := agrees.keepAlive
  progress := agrees.progress
  flushed := agrees.flushed
  due := List.append_nil _
  whole := agrees.whole
  unbroken := agrees.unbroken

/-- The exchange learns what went out. -/
theorem note (agrees : Agrees account exchange sent pending) :
    Agrees account { exchange with progress := exchange.progress.noteFlushed sent } 0 pending where
  called := agrees.called
  keepAlive := agrees.keepAlive
  progress := by rw [Progress.noteFlushed_zero, agrees.progress]
  flushed := agrees.flushed
  due := agrees.due
  whole := agrees.whole
  unbroken := agrees.unbroken

/-- A write failed, whatever the exchange has learned. -/
theorem giveUp (agrees : Agrees account exchange sent pending) (serverName : String)
    {other : Exchange Call Answer} (broken : other.broken = true) :
    GivenUp (account.enter serverName (.broke .answer)) other :=
  ⟨rfl, broken, agrees.within⟩

/-- The task handed something over that makes more due. -/
theorem owe (agrees : Agrees account exchange 0 []) (running : account.ending = .running)
    {progress : Progress} (flushed : progress.flushed = exchange.progress.flushed)
    (octets : Bytes) :
    Agrees { account.owe octets with progress := progress }
      { exchange with progress := progress } 0 octets where
  called := agrees.called
  keepAlive := by
    rw [agrees.keepAlive]
    simp only [Account.hopes, Account.owe, running]
    rfl
  progress := by simp
  flushed := by
    have before := agrees.flushed
    rw [agrees.progress, Progress.noteFlushed_zero] at before
    exact flushed.trans before
  due := by
    have before := agrees.due
    rw [List.append_nil] at before
    exact congrArg (· ++ octets) before
  whole := agrees.whole
  unbroken := agrees.unbroken

/-- A wait of the task ended. -/
theorem waited (agrees : Agrees account exchange 0 []) (serverName : String)
    (outcome : WaitOutcome) :
    Agrees (account.enter serverName (.waited outcome))
      { exchange with keepAlive := exchange.keepAlive && !outcome.timedOut } 0 [] where
  called := agrees.called
  keepAlive := by
    obtain ⟨request, start, -⟩ := agrees.called
    simp only [agrees.keepAlive, Account.hopes, Account.enter, start]
    cases request.keepAlive <;> cases account.timedOut <;> cases outcome.timedOut <;> simp
  progress := agrees.progress
  flushed := agrees.flushed
  due := agrees.due
  whole := agrees.whole
  unbroken := agrees.unbroken

/-- The task is over without a failure. -/
theorem complete (agrees : Agrees account exchange 0 []) (running : account.ending = .running) :
    Agrees account.complete (Connection.heed exchange) 0
        (if exchange.progress.isChunked then Outbox.lastChunk else []) ∧
      account.complete.ending = .completed := by
  obtain ⟨request, start, facts⟩ := agrees.called
  have progress : account.progress = exchange.progress := by
    rw [agrees.progress, Progress.noteFlushed_zero]
  have due := agrees.due
  rw [List.append_nil] at due
  have keepAlive : ∀ other : Account, other.start = account.start →
      other.timedOut = account.timedOut → other.progress = account.progress →
      other.ending = .completed → (Connection.heed exchange).keepAlive = other.hopes := by
    intro other starts times goes ends
    have unlike : (Ending.completed == Ending.running) = false := rfl
    simp only [Connection.heed, agrees.keepAlive, Account.hopes, starts, times, goes, ends, start,
      running, progress, unlike]
    simp
  -- only a body in chunks owes something at its end
  by_cases chunked : exchange.progress.isChunked = true
  · have more : account.complete =
        { account with ending := .completed }.owe Outbox.lastChunk := by
      simp [Account.complete, progress, agrees.whole, chunked]
    rw [more, if_pos chunked]
    exact ⟨⟨⟨request, start, facts⟩, keepAlive _ rfl rfl rfl rfl, agrees.progress, agrees.flushed,
      congrArg (· ++ Outbox.lastChunk) due, agrees.whole, agrees.unbroken⟩, rfl⟩
  · have nothing : account.complete = { account with ending := .completed } := by
      simp [Account.complete, progress, agrees.whole, chunked]
    rw [nothing, if_neg chunked]
    exact ⟨⟨⟨request, start, facts⟩, keepAlive _ rfl rfl rfl rfl, agrees.progress, agrees.flushed,
      agrees.due, agrees.whole, agrees.unbroken⟩, rfl⟩

/-- The task failed. -/
theorem fail (agrees : Agrees account exchange 0 []) (serverName : String) :
    Failed serverName (account.fail serverName) (Connection.heed exchange) := by
  have flushed := agrees.flushed
  rw [agrees.progress, Progress.noteFlushed_zero] at flushed
  -- the page replaces what was due, which is sound only while nothing is out
  by_cases nothing : account.octets = []
  · have page : account.fail serverName = { account with
        ending := .failed, due := Status.internalServerError.errorPage serverName } := by
      simp [Account.fail, nothing, agrees.whole]
    rw [page]
    exact ⟨by rw [nothing]; exact List.nil_prefix, fun _ _ => ⟨nothing, rfl⟩⟩
  · have same : account.fail serverName = { account with ending := .failed } := by
      simp [Account.fail, nothing]
    rw [same]
    refine ⟨agrees.within, fun unflushed => ?_⟩
    have out : exchange.progress.flushed = false := unflushed
    rw [flushed, Bool.not_eq_false', List.isEmpty_iff] at out
    exact absurd out nothing

/-- The answer is out. -/
theorem settle (agrees : Agrees account exchange 0 []) (completed : account.ending = .completed) :
    Finished account
      { exchange with keepAlive := exchange.keepAlive && !exchange.progress.isShort } := by
  obtain ⟨request, start, -⟩ := agrees.called
  have due := agrees.due
  rw [List.append_nil] at due
  refine ⟨agrees.within, ?_, fun _ => due⟩
  have progress : account.progress = exchange.progress := by
    rw [agrees.progress, Progress.noteFlushed_zero]
  have unlike : (Ending.completed == Ending.running) = false := rfl
  simp only [Account.kept, start, agrees.keepAlive, Account.hopes, agrees.whole, agrees.unbroken,
    completed, progress, unlike]
  simp

end Agrees

namespace GivenUp

theorem finished (givenUp : GivenUp account exchange) : Finished account exchange where
  within := givenUp.within
  kept := by
    rw [givenUp.known, Account.kept, givenUp.entered]
    cases account.start <;> simp
  whole unbroken := by
    rw [givenUp.known] at unbroken
    cases unbroken

theorem complete (givenUp : GivenUp account exchange) :
    GivenUp account.complete (Connection.heed exchange) := by
  have nothing : account.complete = { account with ending := .completed } := by
    simp [Account.complete, givenUp.entered]
  rw [nothing]
  exact ⟨givenUp.entered, givenUp.known, givenUp.within⟩

theorem fail (givenUp : GivenUp account exchange) (serverName : String) :
    Failed serverName (account.fail serverName) (Connection.heed exchange) := by
  have nothing : account.fail serverName = { account with ending := .failed } := by
    simp [Account.fail, givenUp.entered]
  rw [nothing]
  refine ⟨givenUp.within, fun _ unbroken => ?_⟩
  have broken : exchange.broken = false := unbroken
  rw [givenUp.known] at broken
  cases broken

end GivenUp

theorem Finished.settled (finished : Finished account exchange)
    (kept : (exchange.broken || !exchange.keepAlive) = false) : account.Settled := by
  simp only [Bool.or_eq_false_iff, Bool.not_eq_false'] at kept
  exact ⟨finished.whole kept.1, by rw [finished.kept, kept.1, kept.2]; rfl⟩

end EmbeddedHttp
