/-
# EmbeddedHttp.Proofs.Connection.FramedBody -- a body goes out as its framing has it

For every head, every sequence of pieces behind it and every way in which the socket takes
them, what is written is the head and the body that its framing makes of the pieces
(`Connection.Course.body_framed`).
-/
import EmbeddedHttp.Proofs.Connection.Carrying

namespace EmbeddedHttp

set_option autoImplicit false

/-- What is owed for a head with pieces. -/
theorem Owes.ofPieces {serverName : String} {request : Request} {account : Account} {rest : Nat}
    {head : ResponseHead} {first : Option Bytes} {length : BodyLength} {chunks : List Bytes}
    (owes : Owes serverName request account rest
      (.head head first length :: chunks.map .chunk)) :
    ∃ block framing tail, OwesPieces serverName request account head length
      (first.toList ++ chunks) block framing tail := by
  generalize same : Emit.head head first length :: chunks.map .chunk = emits at owes
  cases owes with
  | nothing due framing count => cases same
  | file owes => cases same
  | @pieces head' first' length' chunks' block tail framing owes =>
      obtain ⟨heads, bodies⟩ := List.cons.inj same
      cases heads
      have alike : ∀ one other, Emit.chunk one = .chunk other → one = other :=
        fun _ _ same => Emit.chunk.inj same
      rw [(List.map_inj_right alike).1 bodies]
      exact ⟨block, framing, tail, owes⟩
  | astray astray =>
      rw [← same, Stage.of_pieces] at astray
      cases astray

namespace Connection

variable {Call : Type} {Answer : Call → Type} {service : Service Call Answer} {peer : Peer}
  {connection here : Connection Call Answer} {request : Request} {deeds : List Deed}

/-- **The body of a response goes out as its framing has it.**  Whatever task answers a
request, let it have handed over a head, perhaps with a first piece, and then pieces, with no
write failed.  Whenever the task is given control again, the head was written and behind it
the body that the framing makes of the pieces so far, as many octets of it were counted, and
the task was told whether more is wanted.  When the answer is over, what ends the body stands
behind it, and the connection may be kept just if the request, every wait and the head allow
it and the body is not shorter than announced.  Nothing follows a head that allows no body,
and a body whose length is neither announced nor told by chunks ends with the connection. -/
theorem Course.body_framed {id : TaskId} {task : Task Emit Call Answer} {head : ResponseHead}
    {first : Option Bytes} {length : BodyLength} {chunks : List Bytes}
    (course : Course service peer (connection.begin request id task) deeds here)
    (told : Deed.handed deeds = .head head first length :: chunks.map .chunk)
    (unbroken : Share.answer ∉ Deed.failures deeds) :
    let pieces := first.toList ++ chunks
    (∀ exchange resume, here.phase = .switching exchange resume →
      ∃ block framing, Heads service.serverName request head length block framing ∧
        Deed.written deeds = block ++ framing.body pieces ∧
        exchange.progress.bodySent = (framing.payload pieces).length ∧
        ((∀ outcome, deeds.getLast? ≠ some (.waited outcome)) →
          resume = reply (framing.flow pieces))) ∧
      ∀ exchange, here.phase = .uncorking exchange →
        ∃ block framing, Heads service.serverName request head length block framing ∧
          Deed.written deeds = block ++ framing.body pieces ++ framing.ending ∧
          exchange.progress.bodySent = (framing.payload pieces).length ∧
          (exchange.keepAlive = true ↔ request.keepAlive = true ∧
            (∀ outcome ∈ Deed.outcomes deeds, outcome.timedOut = false) ∧
            framing.keepAlive = true ∧
            ∀ limit, framing.contentLength = some limit → limit ≤ pieces.flatten.length) ∧
          (framing.bodyAllowed = false → framing.body pieces ++ framing.ending = []) ∧
          (framing.bodyAllowed = true → framing.chunked = false →
            framing.contentLength = none → framing.keepAlive = false) := by
  intro pieces
  have tallies := course.tallies
  have whole : (Account.along service.serverName request deeds).broken = false := by
    rw [Account.along_broken]
    simpa using unbroken
  constructor
  · intro exchange resume phase
    obtain ⟨progress, out⟩ := tallies.resumed phase whole
    have carries := tallies.carries
    rw [phase] at carries
    obtain ⟨owes, running, replies⟩ := carries
    rw [told] at owes replies
    obtain ⟨block, framing, tail, owes⟩ := owes.ofPieces
    have none : tail = [] := owes.ended.before (by rw [running]; decide)
    refine ⟨block, framing, owes.heads, ?_, ?_, fun noWait => ?_⟩
    · rw [out, owes.due, none, List.append_nil]
    · rw [progress, owes.count]
    · rw [replies (Stage.of_pieces _ _ _ _) whole noWait, progress,
        Progress.flow_framed owes.framed owes.count]
  · intro exchange phase
    obtain ⟨owes, completed, broken, progress, finished⟩ := tallies.ended (.inl phase)
    rw [told] at owes
    obtain ⟨block, framing, tail, owes⟩ := owes.ofPieces
    have out := finished.whole (broken.trans whole)
    rw [Account.along_octets, owes.due, owes.ended.behind completed whole] at out
    refine ⟨block, framing, owes.heads, out, ?_, ?_, fun bodiless => ?_, owes.heads.endless⟩
    · rw [progress whole, owes.count]
    · rw [tallies.keepAlive (.inl phase) whole owes.framed,
        owes.heads.isShort owes.framed owes.count]
    · exact owes.heads.nothing bodiless pieces

/-- A task that hands over more than its head announces. -/
def overlong : Task Emit NoCall NoAnswer :=
  .fresh (.emit (.head ⟨"200 OK", 200, [], none, false⟩ (some (Bytes.ofAscii "hel")) (.known 5))
    fun _ => .emit (.chunk (Bytes.ofAscii "lo world")) fun _ => .finish (.ok ()))

/-- Five octets are announced and eleven handed over: five go out behind the head. -/
theorem overlong_cut :
    let session := serveAnswer greeting Peer.unix 20
      ⟨[], opened.begin plainRequest 0 overlong, []⟩
    ∃ exchange block, session.connection.phase = .uncorking exchange ∧
      Deed.written session.deeds = block ++ Bytes.ofAscii "hello" ∧
      exchange.progress.bodySent = 5 := by
  intro session
  have told : Deed.handed session.deeds =
      .head ⟨"200 OK", 200, [], none, false⟩ (some (Bytes.ofAscii "hel")) (.known 5) ::
        [Bytes.ofAscii "lo world"].map .chunk := by
    decide +kernel
  have unbroken : Share.answer ∉ Deed.failures session.deeds := by decide +kernel
  have ends : (match session.connection.phase with
      | .uncorking _ => true
      | _ => false) = true := by
    decide +kernel
  obtain ⟨-, last⟩ := Course.body_framed (serveAnswer_course 20 .begun) told unbroken
  cases phase : session.connection.phase with
  | uncorking exchange =>
      obtain ⟨block, framing, ⟨keepAlive, date, assembled⟩, written, sent, -⟩ :=
        last exchange phase
      obtain ⟨rfl, rfl⟩ := Prod.mk.inj assembled
      rw [List.append_assoc] at written
      exact ⟨exchange, _, rfl, written, sent⟩
  | _ =>
      rw [phase] at ends
      cases ends

end Connection

end EmbeddedHttp
