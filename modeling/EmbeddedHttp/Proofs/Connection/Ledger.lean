/-
# EmbeddedHttp.Proofs.Connection.Ledger -- what each answer was due, and what went out

The deeds of a run are entered in a ledger, answer by answer.  An answer begins with a
call of the application or with the page for a request that carries an error.  What is
due for it follows from what its task hands over: a head, the pieces of the body framed
as the head says, a part of a file, what ends a chunked body, or a page in place of all
that when the task could not be made or fails before any of it went out.  What went out is
entered as it goes.

The ledger is kept from the deeds alone; it never looks at the connection.
-/
import EmbeddedHttp.Proofs.Connection.Run
import EmbeddedHttp.Proofs.Request.Inner

namespace EmbeddedHttp

set_option autoImplicit false

/-- How the answer to a request begins. -/
inductive Start where
  /-- The application is called for the request, or was to be. -/
  | called (request : Request)
  /-- The request is refused for the error that it carries. -/
  | refused (status : Status)
  deriving DecidableEq, Repr

/-- How a request that arrived is to be answered. -/
def Start.of (request : Request) : Start :=
  match request.failure with
  | some status => .refused status
  | none => .called request.settled

@[simp] theorem Start.of_settled (request : Request) :
    Start.of request.settled = Start.of request := by
  cases failure : request.failure <;> simp [Start.of, Request.settled, failure]

/-- How far the task of an answer has come. -/
inductive Ending where
  | running
  | completed
  | failed
  deriving DecidableEq, Repr

/-- One answer. -/
structure Account where
  start : Start
  /-- What went out of an interim answer before it. -/
  interim : Bytes
  /-- What is to go out for it, so far. -/
  due : Bytes
  /-- What went out. -/
  octets : Bytes
  progress : Progress
  /-- The head, while it waits for its date. -/
  emit : Option Emit
  /-- Some wait of its task timed out. -/
  timedOut : Bool
  /-- A write failed. -/
  broken : Bool
  ending : Ending

namespace Account

/-- Nothing of the answer is due or out. -/
def opened (start : Start) (interim : Bytes) : Account :=
  ⟨start, interim, [], [], Progress.none, none, false, false, .running⟩

/-- More is due. -/
def owe (account : Account) (octets : Bytes) : Account :=
  { account with due := account.due ++ octets }

/-- More went out. -/
def pay (account : Account) (octets : Bytes) : Account :=
  { account with
    octets := account.octets ++ octets
    progress := account.progress.noteFlushed octets.length }

/-- The head of an answer to a request is due once its date is known, with what came along
with it. -/
def oweHead (account : Account) (serverName : String) (request : Request) (emit : Emit)
    (date : Bytes) : Account :=
  match Connection.headOf emit with
  | none => account
  | some (head, length) =>
      let assembled := assembleHead head length
        { version := request.version
          headRequest := request.method = .head
          keepAlive := request.keepAlive && !account.timedOut
          serverName := serverName
          date := date }
      let progress :=
        { account.progress with framing := some assembled.2, status := head.code }
      let outbox := Outbox.empty.push assembled.1
      match emit with
      | .head _ (some data) _ =>
          let pushed := progress.pushBody outbox data
          { account.owe pushed.1.pending.flatten with progress := pushed.2.1 }
      | .file _ body =>
          { account.owe (outbox.pending.flatten ++
              (body.content.drop body.position).take (progress.fileRoom body)) with
            progress := progress }
      | _ => { account.owe outbox.pending.flatten with progress := progress }

/-- The task is over: what ends a chunked body is due, unless a write failed. -/
def complete (account : Account) : Account :=
  let ended := { account with ending := .completed }
  if account.progress.isChunked && !account.broken then ended.owe Outbox.lastChunk else ended

/-- The task failed: a page is due in place of the answer, if none of it went out. -/
def fail (account : Account) (serverName : String) : Account :=
  let failed := { account with ending := .failed }
  if account.octets.isEmpty && !account.broken then
    { failed with due := Status.internalServerError.errorPage serverName }
  else failed

/-- Enter a deed that concerns the answer at hand. -/
def enter (account : Account) (serverName : String) : Deed → Account
  | .switched (.yielded (.chunk data)) =>
      let pushed := account.progress.pushBody Outbox.empty data
      { account.owe pushed.1.pending.flatten with progress := pushed.2.1 }
  | .switched (.yielded emit) => { account with emit := some emit }
  | .switched .completed => account.complete
  | .switched (.failed _) => account.fail serverName
  | .waited outcome => { account with timedOut := account.timedOut || outcome.timedOut }
  | .dated date =>
      match account.start, account.emit with
      | .called request, some emit => account.oweHead serverName request emit date
      | _, _ => account
  | .wrote _ octets => account.pay octets
  | .sent octets =>
      let paid := account.pay octets
      { paid with progress :=
        { paid.progress with bodySent := paid.progress.bodySent + octets.length } }
  | .fileEnded => { account with due := account.octets }
  | .broke .answer => { account with broken := true }
  | _ => account

/-- The connection may be kept after the answer: the request and the head allow it, no wait
of the task timed out, no write failed, and the body has its full length. -/
def kept (account : Account) : Bool :=
  match account.start with
  | .refused _ => false
  | .called request =>
      request.keepAlive && !account.timedOut && !account.broken &&
        account.ending == .completed && account.progress.framing.all (·.keepAlive) &&
        !account.progress.isShort

/-- The answer is out as a whole, and another may follow. -/
structure Settled (account : Account) : Prop where
  whole : account.octets = account.due
  kept : account.kept = true

end Account

/-- The answers in order, and what went out of an interim answer to the next request. -/
structure Ledger where
  answers : List Account
  ahead : Bytes

namespace Ledger

/-- Nothing answered. -/
def empty : Ledger := ⟨[], []⟩

/-- Begin an answer. -/
def start (ledger : Ledger) (account : Account) : Ledger :=
  ⟨ledger.answers ++ [account], []⟩

/-- Change the last answer. -/
def change (ledger : Ledger) (change : Account → Account) : Ledger :=
  match ledger.answers.getLast? with
  | some account => { ledger with answers := ledger.answers.dropLast ++ [change account] }
  | none => ledger

/-- Is a request being refused? -/
def isRefusing (ledger : Ledger) : Bool :=
  ledger.answers.getLast?.any fun account =>
    match account.start with
    | .refused _ => true
    | .called _ => false

/-- Enter a deed. -/
def enter (serverName : String) (ledger : Ledger) (deed : Deed) : Ledger :=
  match deed with
  | .called request => ledger.start (Account.opened (.called request) ledger.ahead)
  | .unstarted request =>
      ledger.start ((Account.opened (.called request) ledger.ahead).fail serverName)
  | .wrote .interim octets => { ledger with ahead := ledger.ahead ++ octets }
  | .wrote (.refusal status) octets =>
      if ledger.isRefusing then ledger.change (·.pay octets)
      else
        ledger.start (((Account.opened (.refused status) ledger.ahead).owe
          (status.errorPage serverName)).pay octets)
  | deed => ledger.change (·.enter serverName deed)

/-- The ledger of some deeds. -/
def of (serverName : String) (deeds : List Deed) : Ledger :=
  deeds.foldl (enter serverName) empty

theorem of_append (serverName : String) (deeds : List Deed) (deed : Deed) :
    of serverName (deeds ++ [deed]) = (of serverName deeds).enter serverName deed := by
  simp [of]

/-- All that was entered as going out. -/
def octets (ledger : Ledger) : Bytes :=
  (ledger.answers.flatMap fun account => account.interim ++ account.octets) ++ ledger.ahead

/-- No answer is taken back. -/
theorem enter_longer (serverName : String) (ledger : Ledger) (deed : Deed) :
    ledger.answers.length ≤ (ledger.enter serverName deed).answers.length := by
  have changed : ∀ f : Account → Account,
      ledger.answers.length ≤ (ledger.change f).answers.length := by
    intro f
    rw [change]
    split
    · rename_i account last
      have some : ledger.answers ≠ [] := by
        rintro none
        rw [none] at last
        cases last
      have positive := List.length_pos_iff.2 some
      simp
      omega
    · exact Nat.le_refl _
  cases deed with
  | called request | unstarted request => simp [enter, start]
  | wrote share octets =>
      cases share with
      | interim => exact Nat.le_refl _
      | refusal status =>
          simp only [enter]
          split
          · exact changed _
          · simp [start]
      | _ => exact changed _
  | _ => exact changed _

theorem of_longer (serverName : String) (first rest : List Deed) :
    (of serverName first).answers.length ≤ (of serverName (first ++ rest)).answers.length := by
  induction rest using List.reverseRecOn with
  | nil => exact Nat.le_of_eq (by rw [List.append_nil])
  | append_singleton before deed ih =>
      rw [← List.append_assoc, of_append]
      exact Nat.le_trans ih (enter_longer serverName _ deed)

end Ledger

end EmbeddedHttp
