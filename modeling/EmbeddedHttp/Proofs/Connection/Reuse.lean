/-
# EmbeddedHttp.Proofs.Connection.Reuse -- when a connection is used again

Behind an answer a connection looks for the next request only if the answer is out as a
whole and says itself where it ends, and request, waits and writes all allow it; otherwise
it leaves (`Connection.Course.reused`).  Whatever answers, there is no third way.

That an answer says where it ends is said of its octets: the head is a status line and
headers that tell how the body is framed (`HeadBlock`), and the body behind it is framed
like that (`ResponseFraming.Delimits`).
-/
import EmbeddedHttp.Proofs.Connection.FramedBody
import EmbeddedHttp.Proofs.Connection.TakenUp
import EmbeddedHttp.Proofs.Response.HeadBlocks

namespace EmbeddedHttp

set_option autoImplicit false

variable {Call : Type} {Answer : Call → Type} {service : Service Call Answer} {peer : Peer}
  {connection here after : Connection Call Answer} {request same : Request} {deeds : List Deed}
  {deed : Deed} {queue : RequestQueue} {exchange : Exchange Call Answer}

theorem Heads.like {serverName : String} {head : ResponseHead} {length : BodyLength}
    {block : Bytes} {framing : ResponseFraming}
    (heads : Heads serverName same head length block framing)
    (like : same = request ∨ same = request.settled) :
    Heads serverName request head length block framing := by
  rcases like with rfl | rfl
  · exact heads
  · exact heads

/-- The head of an answer is a head block, if it was built. -/
theorem Heads.headBlock {serverName : String} {head : ResponseHead} {length : BodyLength}
    {block : Bytes} {framing : ResponseFraming}
    (heads : Heads serverName request head length block framing)
    (built : ∃ status headers, ResponseHead.Built status headers head) :
    HeadBlock request serverName head.code framing block := by
  obtain ⟨keepAlive, date, assembled⟩ := heads
  obtain ⟨rfl, rfl⟩ := Prod.mk.inj assembled
  obtain ⟨status, headers, built⟩ := built
  exact built.headBlock length request keepAlive serverName date

/-- A request is being answered, or about to be. -/
def Phase.isOfAnswer (phase : Phase Call Answer) : Bool :=
  match phase with
  | .spawning _ | .writing _ (.interimBefore _) | .tellingUnstarted _ _ => true
  | _ => phase.isOfTask

namespace Connection

theorem TakenUp.isOfAnswer (takenUp : TakenUp service peer request deeds here) :
    here.phase.isOfAnswer = true ∨ here.phase.isLast = true := by
  cases takenUp with
  | announced flush phase =>
      rw [phase]
      exact .inl rfl
  | spawning same like phase =>
      rw [phase]
      exact .inl rfl
  | left last => exact .inr last
  | unstarted noTask =>
      cases noTask with
      | telling facts fault phase =>
          rw [phase]
          exact .inl rfl
      | paging flush facts phase =>
          rw [phase]
          exact .inl rfl
      | ended last => exact .inr last
  | answering byTask =>
      obtain ⟨same, like, before, later, told, whole, unbroken, preamble, begun, id, course⟩ :=
        byTask
      refine course.tallies.carries.isOfTask.imp_left fun isTask => ?_
      unfold Phase.isOfAnswer
      split
      · rfl
      · rfl
      · rfl
      · exact isTask

/-- What a task wrote whose answer is over, when its exchange would have the connection kept:
a head that was built, and behind it a body that says where it ends. -/
theorem Tallies.delimited {stage : Stage} (tallies : here.Tallies service request deeds)
    (onCourse : OnCourse (Account.along service.serverName request deeds) deeds here.phase stage)
    (phase : here.phase = .uncorking exchange ∨ here.phase = .tellingAccess exchange)
    (unbroken : exchange.broken = false) (keeps : exchange.keepAlive = true) :
    request.keepAlive = true ∧
      (∀ outcome ∈ Deed.outcomes deeds, outcome.timedOut = false) ∧
      ∃ head length block framing body,
        (∃ status headers, ResponseHead.Built status headers head) ∧
        Heads service.serverName request head length block framing ∧
        Deed.written deeds = block ++ body ∧ framing.Delimits body := by
  obtain ⟨owes, completed, broken, progress, finished⟩ := tallies.ended phase
  have whole := broken.symm.trans unbroken
  have begun := onCourse.begun completed whole
  have inOrder := onCourse.inOrder
  have built := onCourse.built
  have out := finished.whole unbroken
  rw [Account.along_octets] at out
  generalize told : Deed.handed deeds = emits at owes inOrder built
  cases owes with
  | nothing due framing count => exact absurd (Option.some.inj inOrder).symm begun
  | astray astray =>
      rw [astray] at inOrder
      cases inOrder
  | @pieces head first length chunks block tail framing owes =>
      obtain ⟨asked, waits, allows, long⟩ := (tallies.keepAlive phase whole owes.framed).1 keeps
      have full := (owes.heads.isShort owes.framed owes.count).1 long
      refine ⟨asked, waits, head, length, block, framing, _, built _ List.mem_cons_self,
        owes.heads, ?_, owes.heads.delimits allows full⟩
      rw [out, owes.due, owes.ended.behind completed whole, List.append_assoc]
  | @file head body block content framing owes =>
      obtain ⟨asked, waits, allows, long⟩ := (tallies.keepAlive phase whole owes.framed).1 keeps
      have size := owes.count whole
      refine ⟨asked, waits, head, .known body.length, block, framing, content,
        built _ List.mem_cons_self, owes.heads, out.trans owes.due,
        owes.heads.delimits_file ?_ fun allowed limit bound => ?_⟩
      · have within := owes.within.length_le
        rw [List.length_take] at within
        omega
      · -- as many octets of the file were sent as were announced
        rw [Progress.isShort, owes.framed] at long
        simp only [allowed, bound, Bool.true_and, Option.any_some, decide_eq_false_iff_not] at long
        omega

/-- **A connection is used again only behind a whole answer that says where it ends.**  From
where a request that carries no error is taken up, whatever the application, the socket and
the waits of the task do, as long as no wait gives the task up, which none does
(`Simulation.World.awaitTask_goesOn`): the connection answers the request or is on its way
out, and once it is on its way out it stays so.  At the end of the answer it either leaves,
or it looks for the next request, and then the request asked for it, no wait timed out, no
write failed, the parser has not seen an upgrade, and what was written for the request is
its interim answer, if it was promised one, and a head with a body that the head delimits:
its headers tell that chunks come, or how many octets, or its code or the method allows no
body. -/
theorem Course.reused (harmless : request.failure = none)
    (course : Course service peer (connection.dispatch service request queue) deeds here)
    (waits : ∀ outcome ∈ Deed.outcomes deeds, Task.cancels outcome.resume = false) :
    (here.phase.isOfAnswer = true ∨ here.phase.isLast = true) ∧
      (∀ deed after, here.Moves service peer deed after →
        here.phase.isLast = true → after.phase.isLast = true) ∧
      ∀ deed after, here.Moves service peer deed after → here.endsAnswer service = true →
        ∃ served, after = { here with served := served }.leave ∨
          after = { here with served := served }.look service ∧
            request.keepAlive = true ∧
            (∀ outcome ∈ Deed.outcomes deeds, outcome.timedOut = false) ∧
            Deed.failures deeds = [] ∧ here.intake.parser.isUpgraded = false ∧
            ∃ head length block framing body,
              Heads service.serverName request head length block framing ∧
              HeadBlock request service.serverName head.code framing block ∧
              Deed.written deeds = request.promised ++ block ++ body ∧
              framing.Delimits body := by
  have takenUp := course.takenUp harmless
  refine ⟨takenUp.isOfAnswer, fun deed after moved last => (moves_last last moved).2, ?_⟩
  intro deed after moved ends
  obtain ⟨exchange, served, phase, rfl⟩ := moves_endsAnswer ends moved
  have goesOn := isClosing_of_endsAnswer ends
  refine ⟨served, ?_⟩
  rw [afterAnswer]
  split
  · exact .inl rfl
  · rename_i stays
    simp only [Bool.not_eq_true, Bool.or_eq_false_iff, Bool.not_eq_false'] at stays
    obtain ⟨⟨unbroken, keeps⟩, plain⟩ := stays
    obtain ⟨same, like, before, later, rfl, whole, noFailure, preamble, begun, id, answer⟩ :=
      takenUp.byTask (isOfTask_of_endsAnswer ends) goesOn
    obtain ⟨-, outcomes, -, -⟩ := Deed.behind_preamble preamble
    rw [outcomes] at waits ⊢
    obtain ⟨stage, onCourse⟩ := answer.onCourse (Task.respond_orderly _ _) waits
    obtain ⟨asked, inTime, head, length, block, framing, body, built, heads, written, delimits⟩ :=
      answer.tallies.delimited onCourse phase unbroken keeps
    have known := (answer.tallies.ended phase).2.2.1
    have failures : Deed.failures later = [] :=
      (answer.ofAnswer goesOn).1.2 (known.symm.trans unbroken)
    refine .inr ⟨rfl, ?_, inTime, ?_, plain, head, length, block, framing, body,
      heads.like like, (heads.like like).headBlock built, ?_, delimits⟩
    · rcases like with rfl | rfl <;> exact asked
    · rw [Deed.failures_append, noFailure]
      exact failures
    · rw [Deed.written_append, whole, List.append_assoc, ← written]
      rfl

/-- Behind its greeting a connection looks for the next request, with a head and a body
written that the head delimits. -/
theorem greeting_reused :
    let session := answering greeting 20
    ∃ deed after, session.connection.Moves greeting Peer.unix deed after ∧
      (∃ served, after = { session.connection with served := served }.look greeting) ∧
      ∃ head length block framing body, Heads "greeting" plainRequest head length block framing ∧
        HeadBlock plainRequest "greeting" head.code framing block ∧
        Deed.written session.deeds = block ++ body ∧ framing.Delimits body := by
  intro session
  have waits : ∀ outcome ∈ Deed.outcomes session.deeds,
      Task.cancels outcome.resume = false := by
    decide +kernel
  obtain ⟨after, obliged⟩ := Option.isSome_iff_exists.1
    (show (oblige greeting Peer.unix session).isSome = true by decide +kernel)
  obtain ⟨deed, -, moved⟩ := oblige_moves obliged
  obtain ⟨-, -, ends⟩ := Course.reused rfl (answering_course greeting 20) waits
  obtain ⟨served, leaves | ⟨looks, -, -, -, -, whole⟩⟩ :=
    ends deed after.connection moved (by decide +kernel)
  · have stays : (oblige greeting Peer.unix session).all (!·.connection.phase.isLast) = true := by
      decide +kernel
    rw [obliged, Option.all_some, leaves] at stays
    cases stays
  · exact ⟨deed, after.connection, moved, ⟨served, looks⟩, whole⟩

end Connection

end EmbeddedHttp
