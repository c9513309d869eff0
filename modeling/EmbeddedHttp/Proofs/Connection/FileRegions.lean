/-
# EmbeddedHttp.Proofs.Connection.FileRegions -- the files that a connection sends

A task hands a file over with its head.  The head is written first, and its framing says how
much of the file may follow (`Progress.fileRoom`).  From the deeds alone it can be told which
file is on its way: the one handed over when the task was last given control
(`Deed.Since`).  Every step keeps that, and that what went out of the file is a run of a
transfer which wants no more than the framing allows (`Phase.Bears`).
-/
import EmbeddedHttp.Proofs.Connection.Course
import EmbeddedHttp.Proofs.Response.Sending

namespace EmbeddedHttp

set_option autoImplicit false

/-! ## What was handed over last -/

namespace Deed

/-- The task gave control back. -/
def isSwitch : Deed → Bool
  | .switched _ => true
  | _ => false

/-- What went out of a file. -/
def fromFile : Deed → Bytes
  | .sent octets => octets
  | _ => []

/-- All that went out of files, in order. -/
def ofFiles (deeds : List Deed) : Bytes := deeds.flatMap fromFile

/-- The task handed this over when it last had control, and since then these octets of a
file went out. -/
def Since (deeds : List Deed) (emit : Emit) (octets : Bytes) : Prop :=
  ∃ earlier since, deeds = earlier ++ .switched (.yielded emit) :: since ∧
    (∀ deed ∈ since, deed.isSwitch = false) ∧ ofFiles since = octets

variable {deeds : List Deed} {deed : Deed} {emit : Emit} {octets : Bytes}

theorem Since.now (deeds : List Deed) (emit : Emit) :
    Since (deeds ++ [.switched (.yielded emit)]) emit [] :=
  ⟨deeds, [], rfl, fun _ member => (nomatch member), rfl⟩

theorem Since.concat (since : Since deeds emit octets) (quiet : deed.isSwitch = false) :
    Since (deeds ++ [deed]) emit (octets ++ deed.fromFile) := by
  obtain ⟨earlier, later, rfl, none, rfl⟩ := since
  refine ⟨earlier, later ++ [deed], by simp, fun told member => ?_, by simp [ofFiles]⟩
  rcases List.mem_append.1 member with before | last
  · exact none told before
  · rw [List.mem_singleton.1 last]
    exact quiet

/-- A deed that is not about a file changes nothing. -/
theorem Since.quiet (since : Since deeds emit octets) (quiet : deed.isSwitch = false)
    (other : deed.fromFile = []) : Since (deeds ++ [deed]) emit octets := by
  have further := since.concat quiet
  rwa [other, List.append_nil] at further

end Deed

variable {Call : Type} {Answer : Call → Type} {service : Service Call Answer} {peer : Peer}
  {connection after : Connection Call Answer} {deeds : List Deed} {deed : Deed}
  {exchange : Exchange Call Answer} {transfer : Transfer}

/-! ## Files in the phases of a connection -/

/-- The head of a file was framed for the request that is answered, with the length of the
file announced. -/
def Exchange.Frames (exchange : Exchange Call Answer) (serverName : String) (head : ResponseHead)
    (body : FileBody) : Prop :=
  ∃ keepAlive date, exchange.progress.framing = some
    (ResponseFraming.decide head (.known body.length)
      { version := exchange.facts.version
        headRequest := exchange.facts.method = .head
        keepAlive := keepAlive
        serverName := serverName
        date := date })

/-- The file that is on its way in a phase: it was handed over last, nothing of it is out
while its head is, and then as much as its transfer sent. -/
def Phase.Bears (service : Service Call Answer) (deeds : List Deed) : Phase Call Answer → Prop
  | .corking _ emit | .dating _ emit => Deed.Since deeds emit []
  | .writing _ (.fileHead exchange body) => ∃ head,
      Deed.Since deeds (.file head body) [] ∧ exchange.Frames service.serverName head body
  | .sendingFile exchange transfer => ∃ head body acts,
      Deed.Since deeds (.file head body) (Transfer.out acts) ∧
        exchange.Frames service.serverName head body ∧ exchange.progress.fileRoom body ≠ 0 ∧
        transfer.isDone = false ∧
        Runs Transfer.Step (.sending (Transfer.start body.content body.position
          (exchange.progress.fileRoom body) service.writeTimeout)) acts (.sending transfer)
  | _ => True

/-- No file is on its way when the answer is not begun. -/
theorem Phase.Bears.of_begins {phase : Phase Call Answer} (begins : phase.isOfTask = false) :
    phase.Bears service deeds := by
  cases phase with
  | writing flush purpose =>
      cases purpose with
      | fileHead exchange body => cases begins
      | _ => trivial
  | corking _ _ | dating _ _ | sendingFile _ _ => cases begins
  | _ => trivial

theorem Phase.Bears.of_last {phase : Phase Call Answer} (last : phase.isLast = true) :
    phase.Bears service deeds := by
  cases phase with
  | writing _ _ | corking _ _ | dating _ _ | sendingFile _ _ => cases last
  | _ => trivial

namespace Connection

/-- What reading gives begins no answer. -/
theorem afterReceive_begins (service : Service Call Answer) (connection : Connection Call Answer)
    (idle : Bool) (received : Received) :
    (connection.afterReceive service idle received).phase.isOfTask = false := by
  cases received with
  | timedOut =>
      rw [afterReceive]
      split
      · rfl
      · exact look_begins _ _
  | data bytes =>
      cases bytes with
      | nil =>
          rw [afterReceive]
          split <;> exact look_begins _ _
      | cons byte bytes =>
          simp only [afterReceive, absorb]
          split
          · rfl
          · exact look_begins _ _
  | failed fault =>
      rw [afterReceive]
      split
      · split
        · rfl
        · exact look_begins _ _
      · rfl

theorem afterAnswer_begins (service : Service Call Answer) (connection : Connection Call Answer)
    (exchange : Exchange Call Answer) :
    (connection.afterAnswer service exchange).phase.isOfTask = false := by
  rw [afterAnswer]
  split
  · rfl
  · exact look_begins _ _

theorem takeEmit_bears (service : Service Call Answer) (connection : Connection Call Answer)
    (exchange : Exchange Call Answer) (emit : Emit) (since : Deed.Since deeds emit []) :
    (connection.takeEmit service exchange emit).phase.Bears service deeds := by
  cases emit with
  | chunk data =>
      simp only [takeEmit, drain]
      split <;> trivial
  | head _ _ _ | file _ _ => exact since

/-- The head of a file is framed with the length of the file. -/
theorem writeHead_bears (service : Service Call Answer) (connection : Connection Call Answer)
    (exchange : Exchange Call Answer) (emit : Emit) (date : Bytes)
    (since : Deed.Since deeds emit []) :
    (connection.writeHead service exchange emit date).phase.Bears service deeds := by
  cases emit with
  | chunk data => exact takeEmit_bears service connection exchange _ since
  | head head first length => cases first <;> trivial
  | file head body => exact ⟨head, since, exchange.keepAlive, date, rfl⟩

/-- A file is sent only if there is room for some of it. -/
theorem sendFile_bears {head : ResponseHead} {body : FileBody}
    (since : Deed.Since deeds (.file head body) [])
    (frames : exchange.Frames service.serverName head body) :
    (connection.sendFile service exchange body).phase.Bears service deeds := by
  simp only [sendFile]
  split
  · trivial
  · rename_i room
    exact ⟨head, body, [], since, frames, room,
      Transfer.undone_iff.2 ⟨Nat.pos_of_ne_zero room, rfl⟩, .here⟩

/-! ## Turns at a file -/

/-- What the outside answers about a file is what is seen of it. -/
theorem Answered.atFile {ask : WireAsk} {next : WireAnswer → Connection Call Answer}
    (answered : Answered connection (.wire ask next) deed after)
    (ofFile : ∀ slices, ask ≠ .write slices) :
    ∃ answer, ask.Supplies answer ∧ deed.fromFile = ask.octets answer ∧
      deed.isSwitch = false ∧ after = next answer := by
  cases answered with
  | wrote | tookNothing | writeAgain | writeFailed => exact absurd rfl (ofFile _)
  | writable n => exact ⟨.ok n, trivial, rfl, rfl, rfl⟩
  | notWritable fault => exact ⟨.error fault, trivial, rfl, rfl, rfl⟩
  | @sent _ _ _ _ n some_octets asked present =>
      exact ⟨.ok n, ⟨asked, present⟩, rfl, rfl, rfl⟩
  | fileEnded => exact ⟨.ok 0, ⟨Nat.zero_le _, Nat.zero_le _⟩, rfl, rfl, rfl⟩
  | sendAgain passing => exact ⟨.error _, trivial, rfl, rfl, rfl⟩
  | sendFailed final => exact ⟨.error _, trivial, rfl, rfl, rfl⟩

/-- A turn of the connection is a turn of its transfer. -/
theorem afterFileTurn_heard (connection : Connection Call Answer)
    (exchange : Exchange Call Answer) (transfer : Transfer) (answer : WireAnswer) :
    connection.afterFileTurn exchange transfer answer =
      match (Transfer.heard transfer answer).2 with
      | .sending later =>
          if later.isDone then connection.afterFile exchange later.sent
          else connection.goto (.sendingFile exchange later)
      | .finished _ _ => connection.breakOff exchange := by
  rw [afterFileTurn, Transfer.heard_use]
  rcases transfer.take answer with ⟨later, none | fault⟩ <;> rfl

/-- One more turn at a file, with what it adds to what is out. -/
theorem moves_turn {emit : Emit} {acts : List Transfer.Act}
    (phase : connection.phase = .sendingFile exchange transfer)
    (since : Deed.Since deeds emit (Transfer.out acts)) (undone : transfer.isDone = false)
    (moved : connection.Moves service peer deed after) :
    ∃ act use, Transfer.Step (.sending transfer) act use ∧
      Deed.Since (deeds ++ [deed]) emit (Transfer.out (acts ++ [act])) ∧
      after = match use with
        | .sending later =>
            if later.isDone then connection.afterFile exchange later.sent
            else connection.goto (.sendingFile exchange later)
        | .finished _ _ => connection.breakOff exchange := by
  simp only [Moves, next, phase] at moved
  have ofFile : ∀ slices, transfer.ask ≠ .write slices := by
    intro slices
    rw [Transfer.ask]
    split <;> rintro ⟨⟩
  obtain ⟨answer, supplied, octets, quiet, rfl⟩ := moved.atFile ofFile
  refine ⟨_, _, .turn undone supplied, ?_, afterFileTurn_heard connection exchange transfer answer⟩
  rw [Transfer.out_concat, Transfer.heard_octets, ← octets]
  exact since.concat quiet

theorem sendingFile_bears (phase : connection.phase = .sendingFile exchange transfer)
    (bears : Phase.Bears service deeds (.sendingFile exchange transfer))
    (moved : connection.Moves service peer deed after) :
    after.phase.Bears service (deeds ++ [deed]) := by
  obtain ⟨head, body, acts, since, frames, room, undone, run⟩ := bears
  obtain ⟨act, use, turn, further, rfl⟩ := moves_turn phase since undone moved
  cases use with
  | sending later =>
      simp only
      split
      · trivial
      · rename_i goesOn
        exact ⟨head, body, _, further, frames, room, Bool.eq_false_iff.2 goesOn, run.next turn⟩
  | finished later result => trivial

/-! ## Every step keeps the file in view -/

theorem fileHead_bears {flush : Flush} {body : FileBody}
    (phase : connection.phase = .writing flush (.fileHead exchange body))
    (bears : Phase.Bears service deeds (.writing flush (.fileHead exchange body)))
    (moved : connection.Moves service peer deed after) :
    after.phase.Bears service (deeds ++ [deed]) := by
  obtain ⟨head, since, frames⟩ := bears
  rcases moves_writing phase moved with ⟨later, octets, turn, -, -, rfl⟩ | ⟨fault, rfl, rfl⟩
  · have further : Deed.Since (deeds ++ [deed]) (.file head body) [] := by
      rcases turn with ⟨rfl, -⟩ | ⟨rfl, -⟩ <;> exact since.quiet rfl rfl
    split
    · exact sendFile_bears further frames
    · exact ⟨head, further, frames⟩
  · trivial

theorem writing_bears {flush : Flush} {purpose : Purpose Call Answer}
    (phase : connection.phase = .writing flush purpose)
    (bears : Phase.Bears service deeds (.writing flush purpose))
    (moved : connection.Moves service peer deed after) :
    after.phase.Bears service (deeds ++ [deed]) := by
  cases purpose with
  | fileHead exchange body => exact fileHead_bears phase bears moved
  | _ =>
      rcases moves_writing phase moved with ⟨later, octets, -, -, -, rfl⟩ | ⟨fault, -, rfl⟩
      · split <;> trivial
      · trivial

theorem switching_bears {resume : Resume}
    (phase : connection.phase = .switching exchange resume)
    (moved : connection.Moves service peer deed after) :
    after.phase.Bears service (deeds ++ [deed]) := by
  obtain ⟨σ, host, before, later, step, task, ran, rfl, rfl⟩ := moves_switching phase moved
  cases step with
  | yielded emit => exact takeEmit_bears service connection _ emit (.now deeds emit)
  | completed =>
      simp only [afterSwitch, finishBody]
      split
      · trivial
      · split <;> trivial
  | _ => trivial

theorem step_bears (bears : connection.phase.Bears service deeds)
    (moved : connection.Moves service peer deed after) :
    after.phase.Bears service (deeds ++ [deed]) := by
  cases phase : connection.phase with
  | receiving idle =>
      obtain ⟨received, rfl, rfl⟩ := moves_receiving phase moved
      exact .of_begins (afterReceive_begins _ _ _ _)
  | tellingReadFault fault idle =>
      obtain ⟨rfl, rfl⟩ := moves_tellingReadFault phase moved
      split
      · trivial
      · exact .of_begins (look_begins _ _)
  | writing flush purpose =>
      rw [phase] at bears
      exact writing_bears phase bears moved
  | spawning request =>
      rcases moves_spawning phase moved with ⟨rfl, id, rfl⟩ | ⟨rfl, fault, rfl⟩
      · trivial
      · trivial
  | tellingUnstarted facts fault =>
      obtain ⟨rfl, rfl⟩ := moves_tellingUnstarted phase moved
      trivial
  | switching exchange resume => exact switching_bears phase moved
  | waiting exchange wait =>
      obtain ⟨outcome, rfl, rfl⟩ := moves_waiting phase moved
      trivial
  | corking exchange emit =>
      rw [phase] at bears
      obtain ⟨rfl, rfl⟩ := moves_corking phase moved
      exact Deed.Since.quiet bears rfl rfl
  | dating exchange emit =>
      rw [phase] at bears
      obtain ⟨date, rfl, rfl⟩ := moves_dating phase moved
      exact writeHead_bears _ _ _ _ _ (Deed.Since.quiet bears rfl rfl)
  | sendingFile exchange transfer =>
      rw [phase] at bears
      exact sendingFile_bears phase bears moved
  | uncorking exchange =>
      obtain ⟨rfl, rfl⟩ := moves_uncorking phase moved
      split
      · trivial
      · exact .of_begins (afterAnswer_begins _ _ _)
  | tellingAccess exchange =>
      obtain ⟨rfl, rfl⟩ := moves_tellingAccess phase moved
      exact .of_begins (afterAnswer_begins _ _ _)
  | tellingFailure exchange error =>
      obtain ⟨rfl, rfl⟩ := moves_tellingFailure phase moved
      rw [afterFailure]
      split <;> trivial
  | uncorkingPage _ _ _ | tellingPage _ | leaving | hurrying | closed | broken _ | overflowed =>
      obtain ⟨rfl, last⟩ := moves_last (by rw [phase]; rfl) moved
      exact .of_last last

theorem Run.bears (run : Run service peer deeds connection) :
    connection.phase.Bears service deeds := by
  induction run with
  | opened => trivial
  | step before moved ih => exact step_bears ih moved

/-! ## The region of a file -/

/-- Room for a file is there only behind a head that allows a body, and it is bounded by the
file and by the framing. -/
theorem fileRoom_within {progress : Progress} {body : FileBody}
    (room : progress.fileRoom body ≠ 0) :
    ∃ framing, progress.framing = some framing ∧ framing.bodyAllowed = true ∧
      progress.fileRoom body ≤ body.length ∧
      ∀ limit, framing.contentLength = some limit → progress.fileRoom body ≤ limit := by
  cases framed : progress.framing with
  | none => simp [Progress.fileRoom, framed] at room
  | some framing =>
      cases allowed : framing.bodyAllowed with
      | false => simp [Progress.fileRoom, framed, allowed] at room
      | true =>
          refine ⟨framing, rfl, allowed, ?_, fun limit bound => ?_⟩
          · simp only [Progress.fileRoom, framed, allowed]
            cases framing.contentLength with
            | none => exact Nat.le_refl _
            | some limit => exact Nat.min_le_left _ _
          · simp only [Progress.fileRoom, framed, allowed, bound]
            exact Nat.min_le_right _ _

/-- A file on its way: it was handed over last, its head allows a body, no more of it is wanted
than the file and the framing have, and what went out since is the front of its region; that
is so before a step and behind it. -/
structure SendsFile (service : Service Call Answer) (peer : Peer) (deeds : List Deed)
    (connection : Connection Call Answer) (exchange : Exchange Call Answer) (transfer : Transfer)
    (head : ResponseHead) (body : FileBody) (framing : ResponseFraming) : Prop where
  framed : exchange.progress.framing = some framing
  ofHead : exchange.Frames service.serverName head body
  allowed : framing.bodyAllowed = true
  within : transfer.wanted ≤ body.length
  limited : ∀ limit, framing.contentLength = some limit → transfer.wanted ≤ limit
  out : ∃ acts, Deed.Since deeds (.file head body) (Transfer.out acts) ∧
    Transfer.Region body.content body.position transfer.wanted acts (.sending transfer)
  goesOn : ∀ deed after, connection.Moves service peer deed after →
    ∃ acts use, Deed.Since (deeds ++ [deed]) (.file head body) (Transfer.out acts) ∧
      Transfer.Region body.content body.position transfer.wanted acts use

theorem Run.sendsFile (run : Run service peer deeds connection)
    (phase : connection.phase = .sendingFile exchange transfer) :
    ∃ head body framing,
      SendsFile service peer deeds connection exchange transfer head body framing := by
  have bears := run.bears
  rw [phase] at bears
  obtain ⟨head, body, acts, since, frames, room, undone, turns⟩ := bears
  have wanted : transfer.wanted = exchange.progress.fileRoom body :=
    (Transfer.runs_follow turns).aim
  obtain ⟨framing, framed, allowed, within, limited⟩ := fileRoom_within room
  rw [← wanted] at within limited turns
  refine ⟨head, body, framing, framed, frames, allowed, within, limited,
    ⟨acts, since, Transfer.region turns⟩, fun deed after moved => ?_⟩
  obtain ⟨act, use, turn, further, -⟩ := moves_turn phase since undone moved
  exact ⟨acts ++ [act], use, further, Transfer.region (turns.next turn)⟩

/-- Octets of a file go out only while one is sent. -/
theorem moves_fromFile (moved : connection.Moves service peer deed after)
    (some_octets : deed.fromFile ≠ []) :
    ∃ exchange transfer, connection.phase = .sendingFile exchange transfer := by
  cases phase : connection.phase with
  | sendingFile exchange transfer => exact ⟨exchange, transfer, rfl⟩
  | writing flush purpose =>
      rcases moves_writing phase moved with
        ⟨later, octets, ⟨rfl, -⟩ | ⟨rfl, -⟩, -, -, -⟩ | ⟨fault, rfl, -⟩ <;>
        exact absurd rfl some_octets
  | _ =>
      simp only [Moves, next, phase] at moved
      cases moved <;> exact absurd rfl some_octets

/-- **Files go out as one contiguous region.**  However the calls of a transfer and its waits
come out, what is out at every moment is the file from the first position on, never more than
is wanted, and the next call goes on right behind it; a transfer that returns a number sent as
many octets, fewer than wanted just when a call gave nothing.  A connection sends nothing of a
file but in such a transfer, of the file that was handed over last, wanting no more than the
framing of its head announces, and only if that head allows a body. -/
theorem file_regions :
    (∀ content position wanted timeout acts use,
      Runs Transfer.Step (.sending (Transfer.start content position wanted timeout)) acts use →
      Transfer.Region content position wanted acts use) ∧
    ∀ (Call : Type) (Answer : Call → Type) (service : Service Call Answer) (peer : Peer)
      (deeds : List Deed) (connection : Connection Call Answer),
      Run service peer deeds connection →
      (∀ exchange transfer, connection.phase = .sendingFile exchange transfer →
        ∃ head body framing,
          SendsFile service peer deeds connection exchange transfer head body framing) ∧
      ∀ deed after, connection.Moves service peer deed after → deed.fromFile ≠ [] →
        ∃ exchange transfer, connection.phase = .sendingFile exchange transfer := by
  refine ⟨fun content position wanted timeout acts use turns => Transfer.region turns, ?_⟩
  intro Call Answer service peer deeds connection run
  exact ⟨fun exchange transfer phase => run.sendsFile phase,
    fun deed after moved some_octets => moves_fromFile moved some_octets⟩

/-- A service that offers six octets of a file and announces four of them. -/
def offering : Service NoCall NoAnswer :=
  { greeting with
    application := fun _ => .start "200 OK" [("Content-Length", "4")] none fun _ =>
      .done (.file ⟨Bytes.ofAscii "0123456789", 2, 6⟩) }

/-- What the offering service came to after some steps. -/
def offered (steps : Nat) : Session :=
  serve offering Peer.unix steps (Session.start [.data (Bytes.ofAscii "GET / HTTP/1.1\r\n\r\n")])

/-- Three octets go out, the socket is full, a call is interrupted, five more go out, and the
file gives nothing more of the twenty that were wanted. -/
def cutShort : List Transfer.Act :=
  [.gave [50, 51, 52], .paused, .paused, .paused, .gave [53, 54, 55, 56, 57], .gave [],
    .returned (.ok 8)]

theorem file_regions_cutShort :
    (∃ last, Runs Transfer.Step (.sending (Transfer.start (Bytes.ofAscii "0123456789") 2 20 9))
        cutShort (.finished last (.ok 8)) ∧
      Transfer.Region (Bytes.ofAscii "0123456789") 2 20 cutShort (.finished last (.ok 8))) ∧
    ∃ exchange transfer head body framing,
      (offered 6).connection.phase = .sendingFile exchange transfer ∧
      SendsFile offering Peer.unix (offered 6).deeds (offered 6).connection exchange transfer head
        body framing := by
  let file := Bytes.ofAscii "0123456789"
  have turns : Runs Transfer.Step (.sending (Transfer.start file 2 20 9)) cutShort
      (.finished ⟨file, 10, 20, 8, 9, false, true⟩ (.ok 8)) :=
    .cons (@Transfer.Step.turn ⟨file, 2, 20, 0, 9, false, false⟩ (.ok 3) (by decide)
      (show 3 ≤ 20 ∧ 3 ≤ 8 by decide)) <|
    .cons (@Transfer.Step.turn ⟨file, 5, 20, 3, 9, false, false⟩ (.error .wouldBlock) (by decide)
      trivial) <|
    .cons (@Transfer.Step.turn ⟨file, 5, 20, 3, 9, true, false⟩ (.ok 0) (by decide) trivial) <|
    .cons (@Transfer.Step.turn ⟨file, 5, 20, 3, 9, false, false⟩ (.error .interrupted) (by decide)
      trivial) <|
    .cons (@Transfer.Step.turn ⟨file, 5, 20, 3, 9, false, false⟩ (.ok 5) (by decide)
      (show 5 ≤ 17 ∧ 5 ≤ 5 by decide)) <|
    .cons (@Transfer.Step.turn ⟨file, 10, 20, 8, 9, false, false⟩ (.ok 0) (by decide)
      (show 0 ≤ 12 ∧ 0 ≤ 0 by decide)) <|
    .single (@Transfer.Step.done ⟨file, 10, 20, 8, 9, false, true⟩ (by decide))
  refine ⟨⟨_, turns, file_regions.1 _ _ _ _ _ _ turns⟩, ?_⟩
  have sends : (match (offered 6).connection.phase with
      | .sendingFile _ _ => true
      | _ => false) = true := by
    decide +kernel
  cases phase : (offered 6).connection.phase with
  | sendingFile exchange transfer =>
      have run : Run offering Peer.unix (offered 6).deeds (offered 6).connection :=
        serve_run 6 .opened
      obtain ⟨head, body, framing, out⟩ :=
        (file_regions.2 _ _ _ _ _ _ run).1 exchange transfer phase
      exact ⟨exchange, transfer, head, body, framing, rfl, out⟩
  | _ =>
      rw [phase] at sends
      cases sends

end Connection

end EmbeddedHttp
