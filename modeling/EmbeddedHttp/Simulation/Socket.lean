/-
# EmbeddedHttp.Simulation.Socket -- simulated sockets

Two kinds of socket stand in for real ones.  A scripted socket answers reads and
writes as two lists say, item by item, and records every use.  A pipe joins the
server to a simulated client: what the client sends can be read, and what is
written collects for the client.

A use that cannot be answered now is pending, until an instant if one is known
(`Poll`).
-/
import EmbeddedHttp.Simulation.Entry
import EmbeddedHttp.Reactor.Action

namespace EmbeddedHttp.Simulation

set_option autoImplicit false

/-- The answer to something, or until when it is pending at most. -/
inductive Poll (α : Type) where
  | ready (value : α)
  | pending (wake : Option Nat)

/-- The earlier of two instants that may be missing. -/
def earlier : Option Nat → Option Nat → Option Nat
  | none, other => other
  | instant, none => instant
  | some a, some b => some (min a b)

/-! ## Scripted sockets -/

/-- What a scripted socket has in store for reads. -/
inductive ReadItem where
  | data (bytes : Bytes)
  | fault (fault : IoFault)
  /-- Not readable until so long after readability was first awaited; never, without
  a time. -/
  | wait (time : Option Nat)

/-- What a scripted socket has in store for one write. -/
inductive WriteItem where
  /-- Accept at most so many octets. -/
  | accept (limit : Nat)
  | fault (fault : IoFault)
  /-- Accept nothing, and be writable again after a time; never, without one. -/
  | block (time : Option Nat)

/-- A scripted socket. -/
structure ScriptedSocket where
  reads : List ReadItem
  writes : List WriteItem
  /-- Since when readability is awaited with a wait in front. -/
  awaited : Option Nat
  /-- From when on it is writable; never, without an instant. -/
  writableAt : Option Nat
  /-- How many octets it accepted. -/
  accepted : Nat

namespace ScriptedSocket

/-- A socket nothing was done with. -/
def new (reads : List ReadItem) (writes : List WriteItem) : ScriptedSocket :=
  ⟨reads, writes, none, some 0, 0⟩

/-- Pass over the waits in front that are over: the items left, since when the wait
in front is awaited, and whether reading is possible. -/
def passWaits (now : Nat) :
    List ReadItem → Option Nat → List ReadItem × Option Nat × Poll Unit
  | .wait (some time) :: rest, awaited =>
      let since := awaited.getD now
      if since + time ≤ now then passWaits now rest none
      else (.wait (some time) :: rest, some since, .pending (some (since + time)))
  | .wait none :: rest, awaited => (.wait none :: rest, some (awaited.getD now), .pending none)
  | items, _ => (items, none, .ready ())

/-- Is it readable? -/
def awaitReadable (socket : ScriptedSocket) (now : Nat) : Poll Unit × ScriptedSocket :=
  let passed := passWaits now socket.reads socket.awaited
  (passed.2.2, { socket with reads := passed.1, awaited := passed.2.1 })

/-- Is it writable? -/
def awaitWritable (socket : ScriptedSocket) (now : Nat) : Poll Unit :=
  match socket.writableAt with
  | some instant => if instant ≤ now then .ready () else .pending (some instant)
  | none => .pending none

/-- Read at most `size` octets from items, past the faults that are worth another
try: what was recorded, the answer, and the items left. -/
def readItems (now size : Nat) :
    List ReadItem → Option Nat → List Entry × Poll Received × List ReadItem × Option Nat
  | [], _ => ([.read 0], .ready (.data []), [], none)
  | .data bytes :: rest, _ =>
      let taken := bytes.take size
      let left := bytes.drop size
      ([.read taken.length], .ready (.data taken),
        if left.isEmpty then rest else .data left :: rest, none)
  | .fault fault :: rest, _ =>
      if fault.isWouldBlock || fault.isInterrupted then
        let more := readItems now size rest none
        (.readFault fault :: more.1, more.2)
      else ([.readFault fault], .ready (.failed fault), rest, none)
  | .wait (some time) :: rest, awaited =>
      let since := awaited.getD now
      if since + time ≤ now then readItems now size rest none
      else ([], .pending (some (since + time)), .wait (some time) :: rest, some since)
  | .wait none :: rest, awaited =>
      ([], .pending none, .wait none :: rest, some (awaited.getD now))

/-- Read at most `size` octets. -/
def receive (socket : ScriptedSocket) (now size : Nat) :
    List Entry × Poll Received × ScriptedSocket :=
  let got := readItems now size socket.reads socket.awaited
  (got.1, got.2.1, { socket with reads := got.2.2.1, awaited := got.2.2.2 })

/-- What a write meets: the next item, which is used up.  Behind the last one
everything is accepted. -/
def meet (socket : ScriptedSocket) (now : Nat) :
    List Entry × Except IoFault (Option Nat) × ScriptedSocket :=
  match socket.writes with
  | [] => ([], .ok none, socket)
  | .accept limit :: rest => ([], .ok (some limit), { socket with writes := rest })
  | .fault fault :: rest =>
      ([.writeFault fault], .error fault, { socket with writes := rest })
  | .block time :: rest =>
      ([.blocked], .error .wouldBlock,
        { socket with writes := rest, writableAt := time.map (now + ·) })

/-- Offer slices to be written. -/
def write (socket : ScriptedSocket) (now : Nat) (slices : List Bytes) :
    List Entry × WireAnswer × ScriptedSocket :=
  match socket.meet now with
  | (entries, .error fault, socket) => (entries, .error fault, socket)
  | (entries, .ok limit, socket) =>
      let offered := slices.flatten
      let taken := match limit with
        | some n => offered.take n
        | none => offered
      (entries ++ [.wrote slices.length taken], .ok taken.length,
        { socket with accepted := socket.accepted + taken.length })

/-- Copy part of a file; all that is asked for is taken. -/
def transfer (socket : ScriptedSocket) (now : Nat) (content : Bytes) (offset count : Nat) :
    List Entry × WireAnswer × ScriptedSocket :=
  match socket.meet now with
  | (entries, .error fault, socket) => (entries, .error fault, socket)
  | (entries, .ok _, socket) =>
      let taken := (content.drop offset).take count
      (entries ++ (if taken.isEmpty then [] else [.sentFile taken]), .ok taken.length,
        { socket with accepted := socket.accepted + taken.length })

/-- Is it ready for one of the directions of interest? -/
def awaitReady (socket : ScriptedSocket) (now : Nat) (interest : Interest) :
    Poll Unit × ScriptedSocket :=
  let reading : Poll Unit × ScriptedSocket :=
    if interest.includesRead then socket.awaitReadable now else (.pending none, socket)
  let writing : Poll Unit :=
    if interest.includesWrite then socket.awaitWritable now else .pending none
  match reading.1, writing with
  | .pending a, .pending b => (.pending (earlier a b), reading.2)
  | _, _ => (.ready (), reading.2)

/-- Wait until it is ready for one of the directions of interest.  Readiness to
write is confirmed by a check, which meets an item as a write does; a check that is
refused waits on.  The fuel bounds the number of checks; one more than the items
left suffices. -/
def confirmReadyAux (now : Nat) (interest : Interest) :
    Nat → ScriptedSocket → List Entry × Poll (Except IoFault Unit) × ScriptedSocket
  | 0, socket => ([], .ready (.ok ()), socket)
  | fuel + 1, socket =>
      match socket.awaitReady now interest with
      | (.pending wake, socket) => ([], .pending wake, socket)
      | (.ready (), socket) =>
          if interest.includesWrite then
            match socket.meet now with
            | (entries, .ok _, socket) => (entries, .ready (.ok ()), socket)
            | (entries, .error fault, socket) =>
                if fault.isWouldBlock then
                  let more := confirmReadyAux now interest fuel socket
                  (entries ++ more.1, more.2)
                else (entries, .ready (.error fault), socket)
          else ([], .ready (.ok ()), socket)

/-- Wait until it is ready for one of the directions of interest. -/
def confirmReady (socket : ScriptedSocket) (now : Nat) (interest : Interest) :
    List Entry × Poll (Except IoFault Unit) × ScriptedSocket :=
  confirmReadyAux now interest (socket.writes.length + 1) socket

end ScriptedSocket

/-! ## Pipes -/

/-- The server's end of a stream to a simulated client. -/
structure Pipe where
  /-- Sent by the client and not read yet. -/
  inbound : Bytes
  /-- The client sends no more. -/
  inboundEnded : Bool
  /-- The client went away with something unread, which the next read that finds
  nothing else tells. -/
  isReset : Bool
  /-- Written and not taken by the client yet. -/
  outbound : Bytes
  /-- The client takes no more. -/
  clientGone : Bool
  /-- The server closed its end. -/
  outboundEnded : Bool

namespace Pipe

/-- A stream just opened. -/
def new : Pipe := ⟨[], false, false, [], false, false⟩

/-- Is there something to read, or an end to be seen? -/
def isReadable (pipe : Pipe) : Bool :=
  !pipe.inbound.isEmpty || pipe.isReset || pipe.inboundEnded

/-- Read at most `size` octets. -/
def receive (pipe : Pipe) (size : Nat) : Poll Received × Pipe :=
  if !pipe.inbound.isEmpty then
    (.ready (.data (pipe.inbound.take size)), { pipe with inbound := pipe.inbound.drop size })
  else if pipe.isReset then (.ready (.failed .reset), { pipe with isReset := false })
  else if pipe.inboundEnded then (.ready (.data []), pipe)
  else (.pending none, pipe)

/-- Write octets; all are taken unless the client went away. -/
def write (pipe : Pipe) (data : Bytes) : WireAnswer × Pipe :=
  if pipe.clientGone then (.error .brokenPipe, pipe)
  else (.ok data.length, { pipe with outbound := pipe.outbound ++ data })

/-- How many octets the stream holds that the server has not read. -/
def capacity : Nat := 6 * 36544

/-- How many octets the client may send now. -/
def clientRoom (pipe : Pipe) : Nat := capacity - pipe.inbound.length

/-- The client sends something. -/
def clientSend (pipe : Pipe) (data : Bytes) : Pipe :=
  { pipe with inbound := pipe.inbound ++ data }

/-- The client sends no more. -/
def clientShut (pipe : Pipe) : Pipe := { pipe with inboundEnded := true }

/-- The client goes away. -/
def clientClose (pipe : Pipe) : Pipe :=
  { pipe with
    inboundEnded := true
    clientGone := true
    isReset := !pipe.outbound.isEmpty
    outbound := [] }

/-- The client takes what has come. -/
def clientTake (pipe : Pipe) : Bytes × Pipe := (pipe.outbound, { pipe with outbound := [] })

/-- The server closes its end. -/
def close (pipe : Pipe) : Pipe := { pipe with outboundEnded := true }

end Pipe

/-! ## Either kind -/

/-- A simulated socket. -/
inductive Socket where
  | scripted (socket : ScriptedSocket)
  | piped (pipe : Pipe)

namespace Socket

/-- Read at most `size` octets. -/
def receive (now size : Nat) : Socket → List Entry × Poll Received × Socket
  | .scripted socket =>
      let got := socket.receive now size
      (got.1, got.2.1, .scripted got.2.2)
  | .piped pipe =>
      let got := pipe.receive size
      ([], got.1, .piped got.2)

/-- Do what is asked of the socket, which has been asked since an instant. -/
def wire (now since : Nat) (ask : WireAsk) : Socket → List Entry × Poll WireAnswer × Socket
  | .scripted socket =>
      match ask with
      | .write slices =>
          let done := socket.write now slices
          (done.1, .ready done.2.1, .scripted done.2.2)
      | .transfer content offset count =>
          let done := socket.transfer now content offset count
          (done.1, .ready done.2.1, .scripted done.2.2)
      | .awaitWritable timeout =>
          match socket.awaitWritable now with
          | .ready () => ([], .ready (.ok 0), .scripted socket)
          | .pending wake =>
              if since + timeout ≤ now then ([], .ready (.error .writeTimedOut), .scripted socket)
              else ([], .pending (earlier wake (some (since + timeout))), .scripted socket)
  | .piped pipe =>
      let put := fun data : Bytes =>
        let done := pipe.write data
        (([] : List Entry), Poll.ready done.1, Socket.piped done.2)
      match ask with
      | .write slices => put slices.flatten
      | .transfer content offset count => put ((content.drop offset).take count)
      | .awaitWritable _ => ([], .ready (.ok 0), .piped pipe)

/-- Wait until the socket is ready for one of the directions of interest. -/
def confirmReady (now : Nat) (interest : Interest) :
    Socket → List Entry × Poll (Except IoFault Unit) × Socket
  | .scripted socket =>
      let done := socket.confirmReady now interest
      (done.1, done.2.1, .scripted done.2.2)
  | .piped pipe =>
      if (interest.includesRead && pipe.isReadable) || interest.includesWrite then
        ([], .ready (.ok ()), .piped pipe)
      else ([], .pending none, .piped pipe)

/-- The entry for a use that only a scripted socket records. -/
def recorded (entry : Entry) : Socket → List Entry
  | .scripted _ => [entry]
  | .piped _ => []

/-- The server closes the socket. -/
def close : Socket → Socket
  | .scripted socket => .scripted socket
  | .piped pipe => .piped pipe.close

end Socket

end EmbeddedHttp.Simulation
