/-
# EmbeddedHttp.Proofs.Connection.Owing -- what is due is what was handed over

An account tells which octets are due for an answer; a task hands over heads, pieces and
files.  `Owes` ties the two: behind a head with some pieces, what is due is the head and
the body that its framing makes of them, and behind a file it is the head and a part of
the file.  What a task hands over out of order binds nothing.

Each deed that changes what is due keeps the tie.
-/
import EmbeddedHttp.Proofs.Connection.Course
import EmbeddedHttp.Proofs.Response.Framed

namespace EmbeddedHttp

set_option autoImplicit false

/-! ## Heads -/

/-- The block and the framing of a head that answers a request. -/
def Heads (serverName : String) (request : Request) (head : ResponseHead) (length : BodyLength)
    (block : Bytes) (framing : ResponseFraming) : Prop :=
  ∃ (keepAlive : Bool) (date : Bytes), assembleHead head length
    { version := request.version
      headRequest := request.method = .head
      keepAlive := keepAlive
      serverName := serverName
      date := date } = (block, framing)

namespace Heads

variable {serverName : String} {request : Request} {head : ResponseHead} {length : BodyLength}
  {block : Bytes} {framing : ResponseFraming}

theorem chunked (heads : Heads serverName request head length block framing)
    (chunked : framing.chunked = true) :
    framing.bodyAllowed = true ∧ framing.contentLength = none := by
  obtain ⟨keepAlive, date, assembled⟩ := heads
  obtain ⟨rfl, rfl⟩ := Prod.mk.inj assembled
  exact ResponseFraming.decide_chunked chunked

theorem endless (heads : Heads serverName request head length block framing)
    (allowed : framing.bodyAllowed = true) (plain : framing.chunked = false)
    (endless : framing.contentLength = none) : framing.keepAlive = false := by
  obtain ⟨keepAlive, date, assembled⟩ := heads
  obtain ⟨rfl, rfl⟩ := Prod.mk.inj assembled
  exact ResponseFraming.decide_endless allowed plain endless

theorem bodiless (heads : Heads serverName request head length block framing)
    (bodiless : framing.bodyAllowed = false) : framing.contentLength = some 0 := by
  obtain ⟨keepAlive, date, assembled⟩ := heads
  obtain ⟨rfl, rfl⟩ := Prod.mk.inj assembled
  exact ResponseFraming.decide_bodiless bodiless

theorem known {n : Nat} (heads : Heads serverName request head (.known n) block framing) :
    framing.chunked = false ∧ ∃ limit, framing.contentLength = some limit := by
  obtain ⟨keepAlive, date, assembled⟩ := heads
  obtain ⟨rfl, rfl⟩ := Prod.mk.inj assembled
  exact ResponseFraming.decide_known n

/-- Nothing follows a head that allows no body. -/
theorem nothing (heads : Heads serverName request head length block framing)
    (bodiless : framing.bodyAllowed = false) (pieces : List Bytes) :
    framing.body pieces ++ framing.ending = [] := by
  have plain : framing.chunked = false := by
    refine Bool.eq_false_iff.2 fun chunked => ?_
    rw [(heads.chunked chunked).1] at bodiless
    cases bodiless
  rw [framing.body_plain _ (.inl bodiless), framing.payload_bodiless _ bodiless,
    ResponseFraming.ending, plain]
  rfl

/-- A body is short when fewer octets came than the head announced. -/
theorem isShort (heads : Heads serverName request head length block framing)
    {progress : Progress} {pieces : List Bytes} (framed : progress.framing = some framing)
    (count : progress.bodySent = (framing.payload pieces).length) :
    progress.isShort = false ↔
      ∀ limit, framing.contentLength = some limit → limit ≤ pieces.flatten.length := by
  rw [← Bool.not_eq_true, Progress.isShort_framed framed count
    fun chunked => (heads.chunked chunked).2]
  constructor
  · intro enough limit bound
    cases allowed : framing.bodyAllowed with
    | true =>
        refine Nat.le_of_not_lt fun short => ?_
        exact enough ⟨allowed, limit, bound, short⟩
    | false =>
        rw [heads.bodiless allowed] at bound
        cases bound
        exact Nat.zero_le _
  · rintro enough ⟨-, limit, bound, short⟩
    have most := enough limit bound
    omega

/-- A whole body behind a head that lets the connection be kept says where it ends. -/
theorem delimits (heads : Heads serverName request head length block framing)
    (keeps : framing.keepAlive = true) {pieces : List Bytes}
    (full : ∀ limit, framing.contentLength = some limit → limit ≤ pieces.flatten.length) :
    framing.Delimits (framing.body pieces ++ framing.ending) := by
  cases allowed : framing.bodyAllowed with
  | false =>
      rw [heads.nothing allowed]
      exact .bodiless allowed
  | true =>
      cases chunked : framing.chunked with
      | true =>
          have spelled : framing.body pieces ++ framing.ending =
              (pieces.filter (!·.isEmpty)).flatMap Outbox.chunk ++ Outbox.lastChunk := by
            simp [ResponseFraming.body, ResponseFraming.ending, allowed, chunked]
          rw [spelled]
          refine .chunks allowed chunked _ fun piece member => ?_
          rintro rfl
          cases (List.mem_filter.1 member).2
      | false =>
          cases bound : framing.contentLength with
          | none =>
              rw [heads.endless allowed chunked bound] at keeps
              cases keeps
          | some limit =>
              have spelled : framing.body pieces ++ framing.ending = pieces.flatten.take limit := by
                rw [← framing.payload_bounded pieces allowed chunked bound]
                simp [ResponseFraming.body, ResponseFraming.ending, chunked]
              rw [spelled]
              refine .counted allowed chunked _ ?_
              have enough := full limit bound
              rw [bound, List.length_take, Nat.min_eq_left enough]

/-- So does a file that is out as far as it was announced. -/
theorem delimits_file {file : FileBody} {content : Bytes}
    (heads : Heads serverName request head (.known file.length) block framing)
    (within : content.length ≤ framing.room file)
    (full : framing.bodyAllowed = true →
      ∀ limit, framing.contentLength = some limit → limit ≤ content.length) :
    framing.Delimits content := by
  obtain ⟨plain, limit, bound⟩ := heads.known
  cases allowed : framing.bodyAllowed with
  | false =>
      simp only [ResponseFraming.room, allowed, Bool.false_eq_true, if_false] at within
      rw [List.length_eq_zero_iff.1 (Nat.le_zero.1 within)]
      exact .bodiless allowed
  | true =>
      simp only [ResponseFraming.room, allowed, bound, if_true] at within
      have enough := full allowed limit bound
      refine .counted allowed plain _ ?_
      rw [bound, Option.some_inj]
      omega

end Heads

/-! ## Owing -/

/-- What goes out behind the last piece: nothing before the task is over, and all of it
behind a task that completed, unless a write failed. -/
structure Account.Tail (account : Account) (framing : ResponseFraming) (tail : Bytes) : Prop where
  either : tail = [] ∨ tail = framing.ending
  before : account.ending ≠ .completed → tail = []
  behind : account.ending = .completed → account.broken = false → tail = framing.ending

theorem Account.Tail.none {account : Account} {framing : ResponseFraming}
    (before : account.ending ≠ .completed) : account.Tail framing [] :=
  ⟨.inl rfl, fun _ => rfl, fun completed => absurd completed before⟩

/-- A head is due, and the body that its framing makes of the pieces. -/
structure OwesPieces (serverName : String) (request : Request) (account : Account)
    (head : ResponseHead) (length : BodyLength) (pieces : List Bytes) (block : Bytes)
    (framing : ResponseFraming) (tail : Bytes) : Prop where
  heads : Heads serverName request head length block framing
  framed : account.progress.framing = some framing
  count : account.progress.bodySent = (framing.payload pieces).length
  due : account.due = block ++ framing.body pieces ++ tail
  ended : account.Tail framing tail

/-- A head is due, and some of a file, of which `rest` octets are still to be sent. -/
structure OwesFile (serverName : String) (request : Request) (account : Account)
    (head : ResponseHead) (body : FileBody) (block : Bytes) (framing : ResponseFraming)
    (content : Bytes) (rest : Nat) : Prop where
  heads : Heads serverName request head (.known body.length) block framing
  framed : account.progress.framing = some framing
  within : content <+: (body.content.drop body.position).take (framing.room body)
  due : account.due = block ++ content
  count : account.broken = false → content.length = account.progress.bodySent + rest

/-- What was handed over is due, and `rest` octets of a file are still to be sent. -/
inductive Owes (serverName : String) (request : Request) (account : Account) (rest : Nat) :
    List Emit → Prop where
  | nothing (due : account.due = []) (framing : account.progress.framing = none)
      (count : account.progress.bodySent = 0) : Owes serverName request account rest []
  | pieces {head : ResponseHead} {first : Option Bytes} {length : BodyLength}
      {chunks : List Bytes} {block tail : Bytes} {framing : ResponseFraming}
      (owes : OwesPieces serverName request account head length (first.toList ++ chunks) block
        framing tail) :
      Owes serverName request account rest (.head head first length :: chunks.map .chunk)
  | file {head : ResponseHead} {body : FileBody} {block content : Bytes}
      {framing : ResponseFraming}
      (owes : OwesFile serverName request account head body block framing content rest) :
      Owes serverName request account rest [.file head body]
  | astray {emits : List Emit} (astray : Stage.of emits = none) :
      Owes serverName request account rest emits

variable {serverName : String} {request : Request} {account other : Account} {rest : Nat}
  {emits : List Emit}

namespace Owes

/-- What does not concern the body keeps what is owed. -/
theorem congr (owes : Owes serverName request account rest emits) (due : other.due = account.due)
    (framing : other.progress.framing = account.progress.framing)
    (count : other.progress.bodySent = account.progress.bodySent)
    (ending : other.ending = account.ending)
    (broken : other.broken = false → account.broken = false) :
    Owes serverName request other rest emits := by
  cases owes with
  | nothing none unframed zero =>
      exact .nothing (due.trans none) (framing.trans unframed) (count.trans zero)
  | pieces owes =>
      refine .pieces ⟨owes.heads, framing.trans owes.framed, count.trans owes.count,
        due.trans owes.due, owes.ended.either, ?_, ?_⟩
      · rw [ending]
        exact owes.ended.before
      · rw [ending]
        exact fun completed unbroken => owes.ended.behind completed (broken unbroken)
  | file owes =>
      refine .file ⟨owes.heads, framing.trans owes.framed, owes.within, due.trans owes.due, ?_⟩
      intro unbroken
      rw [count]
      exact owes.count (broken unbroken)
  | astray astray => exact .astray astray

/-- Once a write failed, what is missing of a file does not matter. -/
theorem giveUp (owes : Owes serverName request account rest emits)
    (broken : account.broken = true) (more : Nat) :
    Owes serverName request account more emits := by
  cases owes with
  | nothing due framing count => exact .nothing due framing count
  | pieces owes => exact .pieces owes
  | file owes =>
      refine .file ⟨owes.heads, owes.framed, owes.within, owes.due, fun unbroken => ?_⟩
      rw [broken] at unbroken
      cases unbroken
  | astray astray => exact .astray astray

/-- Octets that go out change nothing of what is owed. -/
theorem pay (owes : Owes serverName request account rest emits) (octets : Bytes) :
    Owes serverName request (account.pay octets) rest emits :=
  owes.congr rfl rfl rfl rfl id

theorem waited (owes : Owes serverName request account rest emits) (outcome : WaitOutcome) :
    Owes serverName request (account.enter serverName (.waited outcome)) rest emits :=
  owes.congr rfl rfl rfl rfl id

theorem broke (owes : Owes serverName request account rest emits) (more : Nat) :
    Owes serverName request (account.enter serverName (.broke .answer)) more emits := by
  have kept : Owes serverName request (account.enter serverName (.broke .answer)) rest emits :=
    owes.congr rfl rfl rfl rfl (fun unbroken => by cases unbroken)
  exact kept.giveUp rfl more

/-! ## Pieces -/

/-- One more piece. -/
theorem chunk (owes : Owes serverName request account rest emits)
    (running : account.ending = .running) (data : Bytes) :
    Owes serverName request (account.enter serverName (.switched (.yielded (.chunk data)))) rest
      (emits ++ [.chunk data]) := by
  cases owes with
  | nothing due framing count => exact .astray rfl
  | file owes => exact .astray rfl
  | astray astray =>
      refine .astray ?_
      rw [Stage.of_append, astray]
      rfl
  | @pieces head first length chunks block tail framing owes =>
      obtain ⟨⟨more, pushed, body⟩, progress, -⟩ :=
        Progress.pushBody_framed owes.framed owes.count Outbox.empty data
      have notCompleted : account.ending ≠ .completed := by rw [running]; decide
      have none : tail = [] := owes.ended.before notCompleted
      have further : OwesPieces serverName request
          (account.enter serverName (.switched (.yielded (.chunk data)))) head length
          (first.toList ++ chunks ++ [data]) block framing [] := by
        refine ⟨owes.heads, ?_, ?_, ?_, .none notCompleted⟩
        · simp only [Account.enter, progress]
          exact owes.framed
        · simp only [Account.enter, progress]
        · simp only [Account.enter, Account.owe, owes.due, none, pushed, body]
          simp
      rw [List.append_assoc] at further
      have spelled : Emit.head head first length :: chunks.map .chunk ++ [.chunk data] =
          .head head first length :: (chunks ++ [data]).map .chunk := by simp
      rw [spelled]
      exact .pieces further

/-! ## Heads -/

/-- A head binds only as the first thing that is handed over. -/
theorem behind {emit : Emit} (hasHead : (Connection.headOf emit).isSome = true)
    (owes : Owes serverName request account rest emits) :
    account.due = [] ∧ account.progress.framing = none ∧ account.progress.bodySent = 0 ∧
        emits = [] ∨ Stage.of (emits ++ [emit]) = none := by
  have late : ∀ stage, Stage.of emits = some stage → stage ≠ .start →
      Stage.of (emits ++ [emit]) = none := by
    intro stage here begun
    rw [Stage.of_append, here]
    cases stage with
    | start => exact absurd rfl begun
    | _ =>
        cases emit with
        | chunk data => cases hasHead
        | _ => rfl
  cases owes with
  | nothing due framing count => exact .inl ⟨due, framing, count, rfl⟩
  | pieces owes => exact .inr (late .pieces (Stage.of_pieces _ _ _ _) (by decide))
  | file owes => exact .inr (late .over rfl (by decide))
  | astray astray =>
      refine .inr ?_
      rw [Stage.of_append, astray]
      rfl

/-- A head, with what came along. -/
theorem head (owes : Owes serverName request account rest emits)
    (running : account.ending = .running) (head : ResponseHead) (first : Option Bytes)
    (length : BodyLength) (date : Bytes) :
    Owes serverName request
      (account.oweHead serverName request (.head head first length) date) rest
      (emits ++ [.head head first length]) := by
  have hasHead : (Connection.headOf (.head head first length)).isSome = true := rfl
  rcases owes.behind hasHead with ⟨due, -, count, rfl⟩ | late
  · have notCompleted : account.ending ≠ .completed := by rw [running]; decide
    obtain ⟨block, framing, assembled⟩ : ∃ block framing, assembleHead head length
        { version := request.version
          headRequest := request.method = .head
          keepAlive := request.keepAlive && !account.timedOut
          serverName := serverName
          date := date } = (block, framing) := ⟨_, _, rfl⟩
    have heads : Heads serverName request head length block framing := ⟨_, date, assembled⟩
    have begun : OwesPieces serverName request
        (account.oweHead serverName request (.head head first length) date) head length
        (first.toList ++ []) block framing [] := by
      rw [List.append_nil]
      have unsent : account.progress.bodySent = (framing.payload []).length := by
        rw [count, framing.payload_nil]
        rfl
      cases first with
      | none =>
          refine ⟨heads, ?_, unsent, ?_, .none notCompleted⟩
          · simp only [Account.oweHead, Connection.headOf, assembled]
          · simp only [Account.oweHead, Connection.headOf, Account.owe, assembled, due]
            simp [framing.body_nil]
      | some data =>
          have framed : ({ account.progress with
              framing := some framing, status := head.code } : Progress).framing =
                some framing := rfl
          obtain ⟨⟨more, pushed, body⟩, progress, -⟩ :=
            Progress.pushBody_framed framed unsent (Outbox.empty.push block) data
          refine ⟨heads, ?_, ?_, ?_, .none notCompleted⟩
          · simp only [Account.oweHead, Connection.headOf, assembled, progress]
          · simp only [Account.oweHead, Connection.headOf, assembled, progress]
            rfl
          · rw [List.nil_append, framing.body_nil, List.nil_append] at body
            simp only [Account.oweHead, Connection.headOf, Account.owe, assembled, due, pushed]
            simp [body]
    exact .pieces begun
  · exact .astray late

/-- The head of a file, with the part of the file that may follow. -/
theorem fileHead (owes : Owes serverName request account rest emits) (head : ResponseHead)
    (body : FileBody) (date : Bytes) :
    Owes serverName request (account.oweHead serverName request (.file head body) date)
      ((body.content.drop body.position).take ((account.oweHead serverName request
        (.file head body) date).progress.fileRoom body)).length
      (emits ++ [.file head body]) := by
  have hasHead : (Connection.headOf (.file head body)).isSome = true := rfl
  rcases owes.behind hasHead with ⟨due, -, count, rfl⟩ | late
  · obtain ⟨block, framing, assembled⟩ : ∃ block framing, assembleHead head (.known body.length)
        { version := request.version
          headRequest := request.method = .head
          keepAlive := request.keepAlive && !account.timedOut
          serverName := serverName
          date := date } = (block, framing) := ⟨_, _, rfl⟩
    have framed : (account.oweHead serverName request (.file head body) date).progress.framing =
        some framing := by
      simp only [Account.oweHead, Connection.headOf, assembled]
    have room := Progress.fileRoom_framed framed body
    have begun : OwesFile serverName request
        (account.oweHead serverName request (.file head body) date) head body block framing
        ((body.content.drop body.position).take (framing.room body))
        ((body.content.drop body.position).take (framing.room body)).length := by
      refine ⟨⟨_, date, assembled⟩, framed, List.prefix_rfl, ?_, fun _ => ?_⟩
      · rw [← room]
        simp only [Account.oweHead, Connection.headOf, Account.owe, assembled, due]
        simp
      · simp only [Account.oweHead, Connection.headOf, assembled, count, Nat.zero_add]
    rw [room]
    exact .file begun
  · exact .astray late

/-! ## Files -/

/-- A file is sent only behind its own head. -/
def IsFile (emits : List Emit) : Prop := ∀ stage, Stage.of emits = some stage → stage = .over

/-- Octets of a file go out. -/
theorem sent (isFile : IsFile emits) {octets : Bytes}
    (owes : Owes serverName request account (octets.length + rest) emits) :
    Owes serverName request (account.enter serverName (.sent octets)) rest emits := by
  cases owes with
  | nothing due framing count => cases isFile .start rfl
  | pieces owes => cases isFile .pieces (Stage.of_pieces _ _ _ _)
  | file owes =>
      refine .file ⟨owes.heads, owes.framed, owes.within, owes.due, fun unbroken => ?_⟩
      rw [owes.count unbroken, ← Nat.add_assoc]
      rfl
  | astray astray => exact .astray astray

/-- The file gave nothing more: what is out of it is what is due. -/
theorem fileEnded (isFile : IsFile emits) {missing : Bytes}
    (owes : Owes serverName request account missing.length emits)
    (due : account.octets ++ missing = account.due) (unbroken : account.broken = false) :
    Owes serverName request (account.enter serverName .fileEnded) 0 emits := by
  cases owes with
  | nothing due framing count => cases isFile .start rfl
  | pieces owes => cases isFile .pieces (Stage.of_pieces _ _ _ _)
  | astray astray => exact .astray astray
  | @file head body block content framing owes =>
      have count := owes.count unbroken
      -- what is missing is the end of the content, so what is out is the rest of it
      obtain ⟨sent, rfl⟩ : ∃ sent, content = sent ++ missing := by
        refine ⟨content.take account.progress.bodySent, ?_⟩
        have spelled : account.octets ++ missing =
            (block ++ content.take account.progress.bodySent) ++
              content.drop account.progress.bodySent := by
          rw [due, owes.due, List.append_assoc, List.take_append_drop]
        have sizes : missing.length = (content.drop account.progress.bodySent).length := by
          rw [List.length_drop]
          omega
        rw [(List.append_inj' spelled sizes).2, List.take_append_drop]
      have ended : OwesFile serverName request (account.enter serverName .fileEnded) head body
          block framing sent 0 := by
        refine ⟨owes.heads, owes.framed, ?_, ?_, fun _ => ?_⟩
        · exact (List.prefix_append sent missing).trans owes.within
        · have spelled := due.trans owes.due
          rw [← List.append_assoc] at spelled
          exact (List.append_inj' spelled rfl).1
        · rw [List.length_append] at count
          exact Nat.add_right_cancel count
      exact .file ended

/-! ## The end -/

/-- The task completed. -/
theorem complete (owes : Owes serverName request account rest emits)
    (running : account.ending = .running) :
    Owes serverName request account.complete rest emits := by
  have keeps : account.progress.isChunked = false →
      account.complete = { account with ending := .completed } := by
    intro plain
    simp [Account.complete, plain]
  cases owes with
  | nothing due framing count =>
      rw [keeps (by simp [Progress.isChunked, framing])]
      exact .nothing due framing count
  | astray astray => exact .astray astray
  | file owes =>
      rw [keeps (by simp [Progress.isChunked, owes.framed, owes.heads.known.1])]
      exact .file ⟨owes.heads, owes.framed, owes.within, owes.due, owes.count⟩
  | @pieces head first length chunks block tail framing owes =>
      have none : tail = [] := owes.ended.before (by rw [running]; decide)
      have due := owes.due
      rw [none] at due
      by_cases asks : (framing.chunked && !account.broken) = true
      · have asked := asks
        rw [Bool.and_eq_true] at asked
        have more : account.complete =
            { account with ending := .completed }.owe Outbox.lastChunk := by
          simp [Account.complete, Progress.isChunked, owes.framed, asks]
        have ending : framing.ending = Outbox.lastChunk := if_pos asked.1
        have whole : OwesPieces serverName request
            (Account.owe { account with ending := .completed } Outbox.lastChunk) head length
            (first.toList ++ chunks) block framing framing.ending := by
          refine ⟨owes.heads, owes.framed, owes.count, ?_, .inr rfl, ?_, fun _ _ => rfl⟩
          · rw [ending]
            simp only [Account.owe, due, List.append_nil]
          · exact fun other => absurd rfl other
        rw [more]
        exact .pieces whole
      · have same : account.complete = { account with ending := .completed } := by
          simp [Account.complete, Progress.isChunked, owes.framed, asks]
        have whole : OwesPieces serverName request { account with ending := .completed } head
            length (first.toList ++ chunks) block framing [] := by
          refine ⟨owes.heads, owes.framed, owes.count, due, .inl rfl, fun _ => rfl, ?_⟩
          intro _ unbroken
          have unbroken : account.broken = false := unbroken
          rw [unbroken, Bool.not_false, Bool.and_true] at asks
          exact (if_neg asks).symm
        rw [same]
        exact .pieces whole

/-- The task failed: a page is due in place of the answer, or what was due before. -/
theorem fail (owes : Owes serverName request account rest emits)
    (running : account.ending = .running) :
    Owes serverName request (account.fail serverName) rest emits ∨
      (account.fail serverName).due = Status.internalServerError.errorPage serverName := by
  rw [Account.fail]
  split
  · exact .inr rfl
  · refine .inl ?_
    cases owes with
    | nothing due framing count => exact .nothing due framing count
    | astray astray => exact .astray astray
    | file owes => exact .file ⟨owes.heads, owes.framed, owes.within, owes.due, owes.count⟩
    | pieces owes =>
        refine .pieces ⟨owes.heads, owes.framed, owes.count, owes.due, owes.ended.either,
          fun _ => ?_, fun completed => by cases completed⟩
        exact owes.ended.before (by rw [running]; decide)

end Owes

end EmbeddedHttp
