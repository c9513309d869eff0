/-
# EmbeddedHttp.Connection.Machine -- how a connection moves on

Requests are read until the first one can be answered; then it is answered and the
next one looked at, so answers leave in the order in which requests came.  A
request that carries an error is answered with a page, and the connection ends.
Otherwise a task answers it, and afterwards the connection is kept only if the
request and the head that was written both allow it, no wait of the task timed
out, no write failed, the body has its full length, and there was no upgrade.

A client that waits for an interim answer gets it once its request is the first
and none of its body has come.  A task that cannot be made, or fails before any of its
answer reached the socket, is answered for with a page; later than that the connection
just ends.
-/
import EmbeddedHttp.Connection.Basic

namespace EmbeddedHttp.Connection

set_option autoImplicit false

variable {Call : Type} {Answer : Call → Type}

/-! ## Ending -/

/-- Begin to leave. -/
def leave (connection : Connection Call Answer) : Connection Call Answer :=
  connection.goto .leaving

/-- Go on behind the page of a failed request: it is told of, unless the request just
came too slowly and no task was involved. -/
def afterPage (connection : Connection Call Answer) (service : Service Call Answer)
    (remote : String) (status : Status) (facts : Option Facts) (size : Nat) :
    Connection Call Answer :=
  match facts with
  | some facts =>
      if service.accessLog then
        connection.goto (.tellingPage (.access remote facts status.code size))
      else connection.leave
  | none =>
      if status = .requestTimeout then connection.leave
      else connection.goto (.tellingPage (.rejected status))

/-- Begin to write the page of a failed request. -/
def writePage (connection : Connection Call Answer) (service : Service Call Answer)
    (status : Status) (facts : Option Facts) : Connection Call Answer :=
  let outbox := Outbox.empty.push (status.errorPage service.serverName)
  connection.goto (.writing (Flush.start outbox service.writeTimeout) (.errorPage status facts))

/-! ## Reading and dispatching -/

/-- Begin to write an interim answer. -/
def writeInterim (connection : Connection Call Answer) (service : Service Call Answer)
    (purpose : Purpose Call Answer) : Connection Call Answer :=
  connection.goto
    (.writing (Flush.start (Outbox.empty.push Status.interim) service.writeTimeout) purpose)

/-- Wait for more. -/
def awaitMore (connection : Connection Call Answer) : Connection Call Answer :=
  connection.goto (.receiving connection.isIdle)

/-- Take up the first request, which can be answered. -/
def dispatch (connection : Connection Call Answer) (service : Service Call Answer)
    (request : Request) (queue : RequestQueue) : Connection Call Answer :=
  let connection :=
    { connection with intake := { connection.intake with queue := queue } }
  match request.failure with
  | some status => connection.writePage service status none
  | none =>
      if request.expectContinue then
        connection.writeInterim service
          (.interimBefore { request with expectContinue := false })
      else connection.goto (.spawning request)

/-- Look at the queue: answer the first request if it can be answered, leave if no
more will be read, and otherwise read on, after the interim answer that the first
request may be owed. -/
def look (connection : Connection Call Answer) (service : Service Call Answer) :
    Connection Call Answer :=
  match connection.intake.queue.items with
  | [] => if connection.readClosed then connection.leave else connection.awaitMore
  | request :: rest =>
      if request.isReady then connection.dispatch service request ⟨rest⟩
      else if connection.readClosed then connection.leave
      else if request.expectContinue then
        let queue := ⟨{ request with expectContinue := false } :: rest⟩
        { connection with intake := { connection.intake with queue := queue } }.writeInterim
          service .interimWhileReading
      else connection.awaitMore

/-- Read no more, with an error for the request being received. -/
def closeReading (connection : Connection Call Answer) (status : Status) :
    Connection Call Answer :=
  { connection with
    intake := { connection.intake with queue := connection.intake.queue.recordFailure status }
    readClosed := true }

/-- Build requests from what was read. -/
def absorb (connection : Connection Call Answer) (service : Service Call Answer) (data : Bytes) :
    Connection Call Answer :=
  let fed := connection.intake.feed service.limits data
  let failed := match fed.result with
    | .ok _ => false
    | .error _ => true
  let connection :=
    { connection with
      intake := fed.intake
      readClosed := connection.readClosed || failed || fed.intake.parser.isUpgraded }
  match fed.result with
  | .error (.refused .overflow) => connection.goto .overflowed
  | _ => connection.look service

/-- Take what reading gave. -/
def afterReceive (connection : Connection Call Answer) (service : Service Call Answer)
    (idle : Bool) (received : Received) : Connection Call Answer :=
  match received with
  | .timedOut =>
      if idle then connection.leave
      else (connection.closeReading .requestTimeout).look service
  | .data [] =>
      if idle then { connection with readClosed := true }.look service
      else (connection.closeReading .serviceUnavailable).look service
  | .data bytes => connection.absorb service bytes
  | .failed fault =>
      if fault.kind = .connectionReset then
        if idle then connection.leave
        else (connection.closeReading .internalServerError).look service
      else connection.goto (.tellingReadFault fault idle)

/-- How long to wait for octets: between requests the keep-alive time counts. -/
def patience (connection : Connection Call Answer) (service : Service Call Answer)
    (idle : Bool) : Nat :=
  if idle && 0 < connection.served then service.keepAliveTimeout else service.readTimeout

/-! ## Answering -/

/-- Start the task of a request. -/
def startTask (connection : Connection Call Answer) (service : Service Call Answer)
    (origin : Origin) (request : Request) (id : TaskId) : Connection Call Answer :=
  let exchange : Exchange Call Answer :=
    { facts := Facts.ofRequest request
      id := id
      task := .fresh (service.application.respond (Environ.ofRequest request origin))
      progress := Progress.none
      keepAlive := request.keepAlive
      broken := false }
  connection.goto (.switching exchange .start)

/-- Take the new task of a request; when there is none, that is told of, and a page is
written in place of the answer. -/
def afterSpawn (connection : Connection Call Answer) (service : Service Call Answer)
    (origin : Origin) (request : Request) (spawned : Except IoFault TaskId) :
    Connection Call Answer :=
  match spawned with
  | .ok id => connection.startTask service origin request id
  | .error fault => connection.goto (.tellingUnstarted (Facts.ofRequest request) fault)

/-- Drain an outbox, or go on at once when there is nothing in it. -/
def drain (connection : Connection Call Answer) (service : Service Call Answer) (outbox : Outbox)
    (purpose : Purpose Call Answer)
    (after : Connection Call Answer → Connection Call Answer) : Connection Call Answer :=
  if outbox.isDrained then after connection
  else connection.goto (.writing (Flush.start outbox service.writeTimeout) purpose)

/-- What the task is told when the connection took something from it. -/
def reply (flow : Flow) : Resume :=
  match flow with
  | .more => .value none
  | .enough => .error .cancelled

/-- Take something that the task handed over. -/
def takeEmit (connection : Connection Call Answer) (service : Service Call Answer)
    (exchange : Exchange Call Answer) (emit : Emit) : Connection Call Answer :=
  match emit with
  | .chunk data =>
      let pushed := exchange.progress.pushBody Outbox.empty data
      let exchange := { exchange with progress := pushed.2.1 }
      connection.drain service pushed.1 (.piece exchange pushed.2.2)
        (·.goto (.switching exchange (reply pushed.2.2)))
  | emit => connection.goto (.corking exchange emit)

/-- The head of an emit, and the length it announces. -/
def headOf : Emit → Option (ResponseHead × BodyLength)
  | .head head _ length => some (head, length)
  | .file head body => some (head, .known body.length)
  | .chunk _ => none

/-- Write the head that the task handed over, with what came along. -/
def writeHead (connection : Connection Call Answer) (service : Service Call Answer)
    (exchange : Exchange Call Answer) (emit : Emit) (date : Bytes) : Connection Call Answer :=
  match headOf emit with
  | none => connection.takeEmit service exchange emit
  | some (head, length) =>
      let assembled := assembleHead head length
        { version := exchange.facts.version
          headRequest := exchange.facts.method = .head
          keepAlive := exchange.keepAlive
          serverName := service.serverName
          date := date }
      let progress :=
        { exchange.progress with framing := some assembled.2, status := head.code }
      let outbox := Outbox.empty.push assembled.1
      match emit with
      | .head _ (some data) _ =>
          let pushed := progress.pushBody outbox data
          let exchange := { exchange with progress := pushed.2.1 }
          connection.goto (.writing (Flush.start pushed.1 service.writeTimeout)
            (.piece exchange pushed.2.2))
      | .file _ body =>
          let exchange := { exchange with progress := progress }
          connection.goto (.writing (Flush.start outbox service.writeTimeout)
            (.fileHead exchange body))
      | _ =>
          let exchange := { exchange with progress := progress }
          connection.goto (.writing (Flush.start outbox service.writeTimeout)
            (.piece exchange progress.flow))

/-- A write failed: the task is given up. -/
def breakOff (connection : Connection Call Answer) (exchange : Exchange Call Answer) :
    Connection Call Answer :=
  connection.goto (.switching { exchange with broken := true } .cancel)

/-- Send a file behind its head, if anything of it may be sent. -/
def sendFile (connection : Connection Call Answer) (service : Service Call Answer)
    (exchange : Exchange Call Answer) (body : FileBody) : Connection Call Answer :=
  let room := exchange.progress.fileRoom body
  if room = 0 then connection.goto (.switching exchange (reply .enough))
  else
    connection.goto (.sendingFile exchange
      (Transfer.start body.content body.position room service.writeTimeout))

/-- Go on behind an answer: read on if the connection is kept. -/
def afterAnswer (connection : Connection Call Answer) (service : Service Call Answer)
    (exchange : Exchange Call Answer) : Connection Call Answer :=
  if exchange.broken || !exchange.keepAlive || connection.intake.parser.isUpgraded then
    connection.leave
  else connection.look service

/-- A body that is shorter than announced makes the connection useless. -/
def settleBody (connection : Connection Call Answer) (exchange : Exchange Call Answer) :
    Connection Call Answer :=
  connection.goto (.uncorking
    { exchange with keepAlive := exchange.keepAlive && !exchange.progress.isShort })

/-- The task is over without a failure: end the body. -/
def finishBody (connection : Connection Call Answer) (service : Service Call Answer)
    (exchange : Exchange Call Answer) : Connection Call Answer :=
  if exchange.broken then connection.goto (.uncorking exchange)
  else if exchange.progress.isChunked then
    connection.goto (.writing (Flush.start (Outbox.empty.push Outbox.lastChunk)
      service.writeTimeout) (.lastChunk exchange))
  else connection.settleBody exchange

/-- What the written head says about keeping the connection counts too. -/
def heed (exchange : Exchange Call Answer) : Exchange Call Answer :=
  { exchange with
    keepAlive := exchange.keepAlive && exchange.progress.framing.all (·.keepAlive) }

/-- Take what the task said when it gave control back. -/
def afterSwitch (connection : Connection Call Answer) (service : Service Call Answer)
    (exchange : Exchange Call Answer) (step : Step Emit) (task : Task Emit Call Answer) :
    Connection Call Answer :=
  let exchange := { exchange with task := task }
  match step with
  | .suspended wait => connection.goto (.waiting exchange wait)
  | .yielded emit => connection.takeEmit service exchange emit
  | .completed => connection.finishBody service (heed exchange)
  | .failed error => connection.goto (.tellingFailure (heed exchange) error)

/-- Take how the wait of the task ended. -/
def afterWait (connection : Connection Call Answer) (exchange : Exchange Call Answer)
    (outcome : WaitOutcome) : Connection Call Answer :=
  connection.goto (.switching
    { exchange with keepAlive := exchange.keepAlive && !outcome.timedOut } outcome.resume)

/-- Go on behind the failure of a task. -/
def afterFailure (connection : Connection Call Answer) (service : Service Call Answer)
    (exchange : Exchange Call Answer) : Connection Call Answer :=
  if !exchange.progress.flushed && !exchange.broken then
    connection.writePage service .internalServerError (some exchange.facts)
  else connection.leave

/-! ## Writing -/

/-- Go on behind an outbox that was drained, or could not be because of a fault;
`sent` octets of it reached the socket. -/
def afterWriting (connection : Connection Call Answer) (service : Service Call Answer)
    (sent : Nat) (purpose : Purpose Call Answer) (fault : Option IoFault) :
    Connection Call Answer :=
  let note := fun exchange : Exchange Call Answer =>
    { exchange with progress := exchange.progress.noteFlushed sent }
  match purpose, fault with
  | .interimWhileReading, none => connection.awaitMore
  | .interimWhileReading, some fault => connection.goto (.broken fault)
  | .interimBefore request, none => connection.goto (.spawning request)
  | .interimBefore _, some _ => connection.leave
  | .piece exchange flow, none => connection.goto (.switching (note exchange) (reply flow))
  | .piece exchange _, some _ => connection.breakOff (note exchange)
  | .fileHead exchange body, none => connection.sendFile service (note exchange) body
  | .fileHead exchange _, some _ => connection.breakOff (note exchange)
  | .lastChunk exchange, none => connection.settleBody (note exchange)
  | .lastChunk exchange, some _ =>
      connection.goto (.uncorking { note exchange with broken := true })
  | .errorPage status facts, _ =>
      connection.goto (.uncorkingPage status facts (status.errorPage service.serverName).length)

/-- Take the answer of the socket to a turn at an outbox. -/
def afterTurn (connection : Connection Call Answer) (service : Service Call Answer)
    (flush : Flush) (purpose : Purpose Call Answer) (answer : WireAnswer) :
    Connection Call Answer :=
  match flush.take answer with
  | (flush, some fault) => connection.afterWriting service flush.outbox.sent purpose (some fault)
  | (flush, none) =>
      if flush.isDone then connection.afterWriting service flush.outbox.sent purpose none
      else connection.goto (.writing flush purpose)

/-- Go on behind a file that was sent. -/
def afterFile (connection : Connection Call Answer) (exchange : Exchange Call Answer)
    (sent : Nat) : Connection Call Answer :=
  let progress :=
    { exchange.progress.noteFlushed sent with bodySent := exchange.progress.bodySent + sent }
  connection.goto (.switching { exchange with progress := progress } (reply .enough))

/-- Take the answer of the socket to a turn at a file. -/
def afterFileTurn (connection : Connection Call Answer) (exchange : Exchange Call Answer)
    (transfer : Transfer) (answer : WireAnswer) : Connection Call Answer :=
  match transfer.take answer with
  | (_, some _) => connection.breakOff exchange
  | (transfer, none) =>
      if transfer.isDone then connection.afterFile exchange transfer.sent
      else connection.goto (.sendingFile exchange transfer)

/-! ## The machine -/

/-- What the connection asks for now, and what each answer leads to. -/
def next (service : Service Call Answer) (peer : Peer) (connection : Connection Call Answer) :
    Action Emit Call Answer (Connection Call Answer) :=
  match connection.phase with
  | .receiving idle =>
      .receive (connection.patience service idle) (connection.afterReceive service idle)
  | .tellingReadFault fault idle =>
      .tell (.readFailed fault)
        (if idle then connection.leave
         else (connection.closeReading .internalServerError).look service)
  | .writing flush purpose => .wire flush.ask (connection.afterTurn service flush purpose)
  | .spawning request =>
      .spawn (connection.afterSpawn service ⟨peer, service.serverName, service.serverPort⟩ request)
  | .tellingUnstarted facts fault =>
      .tell (.taskNotStarted fault)
        (connection.writePage service .internalServerError (some facts))
  | .switching exchange resume =>
      .switch exchange.id exchange.task resume (connection.afterSwitch service exchange)
  | .waiting exchange wait => .wait exchange.id wait (connection.afterWait exchange)
  | .corking exchange emit => .cork true (connection.goto (.dating exchange emit))
  | .dating exchange emit => .date (connection.writeHead service exchange emit)
  | .sendingFile exchange transfer =>
      .wire transfer.ask (connection.afterFileTurn exchange transfer)
  | .uncorking exchange =>
      let connection := { connection with served := connection.served + 1 }
      .cork false
        (if service.accessLog then connection.goto (.tellingAccess exchange)
         else connection.afterAnswer service exchange)
  | .tellingAccess exchange =>
      .tell (.access peer.address exchange.facts exchange.progress.status
          exchange.progress.bodySent)
        (connection.afterAnswer service exchange)
  | .tellingFailure exchange error =>
      .tell (.applicationFailed error exchange.facts.path)
        (connection.afterFailure service exchange)
  | .uncorkingPage status facts size =>
      .cork false (connection.afterPage service peer.address status facts size)
  | .tellingPage notice => .tell notice connection.leave
  | .leaving => .cork false (connection.goto .hurrying)
  | .hurrying => .nodelay (connection.goto .closed)
  | .closed | .broken _ | .overflowed => .stop

/-- A connection of which nothing was read. -/
def opened : Connection Call Answer := ⟨Intake.empty, false, 0, .receiving true⟩

/-- Has the connection ended? -/
def isOver (connection : Connection Call Answer) : Bool :=
  match connection.phase with
  | .closed | .broken _ | .overflowed => true
  | _ => false

/-- The task that a connection holds, in whatever phase it is. -/
def taskInHand? (connection : Connection Call Answer) :
    Option (TaskId × Task Emit Call Answer) :=
  let ofPurpose : Purpose Call Answer → Option (Exchange Call Answer)
    | .piece exchange _ | .fileHead exchange _ | .lastChunk exchange => some exchange
    | _ => none
  let exchange? := match connection.phase with
    | .writing _ purpose => ofPurpose purpose
    | .switching exchange _ | .waiting exchange _ | .corking exchange _ | .dating exchange _
    | .sendingFile exchange _ => some exchange
    | _ => none
  exchange?.map fun exchange => (exchange.id, exchange.task)

end EmbeddedHttp.Connection
