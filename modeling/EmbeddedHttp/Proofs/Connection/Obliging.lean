/-
# EmbeddedHttp.Proofs.Connection.Obliging -- runs against an obliging outside

An outside that obliges takes whatever it is offered, lets every notice pass and runs
tasks that call nothing; only what is read is given to it.  Against it a connection can
be run by evaluation (`Connection.serve`), and what comes of that is a run
(`Connection.serve_run`).
-/
import EmbeddedHttp.Proofs.Connection.Run

namespace EmbeddedHttp

set_option autoImplicit false

/-- Nothing can be called. -/
abbrev NoCall : Type := Empty

/-- There is nothing to answer. -/
abbrev NoAnswer : NoCall → Type := fun _ => Empty

namespace Connection

/-- The host of tasks that call nothing: it keeps their state words. -/
def obligingHost : Host NoCall NoAnswer TaskState where
  answer request _ := nomatch request
  state word := word
  setState word _ := word

/-- A connection with the deeds so far and what is still to be read. -/
structure Session where
  deeds : List Deed
  connection : Connection NoCall NoAnswer
  reads : List Received

/-- What is seen of one step against an obliging outside, and the session after it. -/
def oblige (service : Service NoCall NoAnswer) (peer : Peer) (session : Session) :
    Option Session :=
  let connection := session.connection
  let after := fun deed next reads => some ⟨session.deeds ++ [deed], next, reads⟩
  match connection.next service peer with
  | .receive _ next =>
      match session.reads with
      | [] => none
      | received :: rest => after (.heard received) (next received) rest
  | .wire (.write slices) next =>
      let n := slices.flatten.length
      if 0 < n then
        after (.wrote connection.share (slices.flatten.take n)) (next (.ok n)) session.reads
      else none
  | .wire (.transfer content offset count) next =>
      let n := min count (content.drop offset).length
      if 0 < n then
        after (.sent ((content.drop offset).take n)) (next (.ok n)) session.reads
      else after .fileEnded (next (.ok 0)) session.reads
  | .wire (.awaitWritable _) next => after .other (next (.ok 0)) session.reads
  | .cork _ next | .nodelay next | .tell _ next => after .other next session.reads
  | .date next => after (.dated []) (next []) session.reads
  | .spawn next =>
      match connection.phase with
      | .spawning request => after (.called request) (next (.ok 0)) session.reads
      | _ => none
  | .switch _ task resume next =>
      let ran := task.switch obligingHost resume .running
      after (.switched ran.1) (next ran.1 ran.2.1) session.reads
  | .wait _ _ _ | .stop => none

/-- What an obliging outside answers may be answered. -/
theorem oblige_moves {service : Service NoCall NoAnswer} {peer : Peer} {session after : Session}
    (obliged : oblige service peer session = some after) :
    ∃ deed, after.deeds = session.deeds ++ [deed] ∧
      session.connection.Moves service peer deed after.connection := by
  unfold Moves
  rw [oblige] at obliged
  cases asks : session.connection.next service peer with
  | receive timeout next =>
      simp only [asks] at obliged
      split at obliged
      · cases obliged
      · cases obliged
        exact ⟨_, rfl, .heard _⟩
  | wire ask next =>
      cases ask with
      | write slices =>
          simp only [asks] at obliged
          split at obliged
          · rename_i some_octets
            cases obliged
            exact ⟨_, rfl, .wrote some_octets (Nat.le_refl _)⟩
          · cases obliged
      | awaitWritable timeout =>
          simp only [asks] at obliged
          cases obliged
          exact ⟨_, rfl, .writable 0⟩
      | transfer content offset count =>
          simp only [asks] at obliged
          split at obliged
          · rename_i some_octets
            cases obliged
            exact ⟨_, rfl, .sent some_octets (Nat.min_le_left _ _) (Nat.min_le_right _ _)⟩
          · cases obliged
            exact ⟨_, rfl, .fileEnded⟩
  | cork on next =>
      simp only [asks] at obliged
      cases obliged
      exact ⟨_, rfl, .corked⟩
  | nodelay next =>
      simp only [asks] at obliged
      cases obliged
      exact ⟨_, rfl, .nodelay⟩
  | tell notice next =>
      simp only [asks] at obliged
      cases obliged
      exact ⟨_, rfl, .told⟩
  | date next =>
      simp only [asks] at obliged
      cases obliged
      exact ⟨_, rfl, .dated []⟩
  | spawn next =>
      simp only [asks] at obliged
      split at obliged
      · rename_i phase
        cases obliged
        exact ⟨_, rfl, .called phase 0⟩
      · cases obliged
  | switch id task resume next =>
      simp only [asks] at obliged
      cases obliged
      exact ⟨_, rfl, .switched rfl⟩
  | wait id wait next =>
      simp only [asks] at obliged
      cases obliged
  | stop =>
      simp only [asks] at obliged
      cases obliged

/-- At most so many steps against an obliging outside. -/
def serve (service : Service NoCall NoAnswer) (peer : Peer) : Nat → Session → Session
  | 0, session => session
  | steps + 1, session =>
      match oblige service peer session with
      | none => session
      | some after => serve service peer steps after

/-- **Whatever an obliging outside leads to is a run.** -/
theorem serve_run {service : Service NoCall NoAnswer} {peer : Peer} (steps : Nat)
    {session : Session} (run : Run service peer session.deeds session.connection) :
    Run service peer (serve service peer steps session).deeds
      (serve service peer steps session).connection := by
  induction steps generalizing session with
  | zero => exact run
  | succ steps ih =>
      rw [serve]
      split
      · exact run
      · rename_i after obliged
        obtain ⟨deed, told, moved⟩ := oblige_moves obliged
        exact ih (by rw [told]; exact .step run moved)

/-- A session in which nothing happened yet. -/
def Session.start (reads : List Received) : Session := ⟨[], opened, reads⟩

/-- A service that greets whoever asks. -/
def greeting : Service NoCall NoAnswer where
  application _ := .start "200 OK" [] none fun _ => .done (.full (Bytes.ofAscii "hello"))
  limits := ⟨1024, 256, true⟩
  keepAliveTimeout := 5000
  readTimeout := 5000
  writeTimeout := 5000
  serverName := "greeting"
  serverPort := 80
  accessLog := false

/-- What the greeting service came to after some steps of reading some octets. -/
def greeted (steps : Nat) (octets : String) : Session :=
  serve greeting Peer.unix steps (Session.start [.data (Bytes.ofAscii octets)])

theorem greeted_run (steps : Nat) (octets : String) :
    Run greeting Peer.unix (greeted steps octets).deeds (greeted steps octets).connection :=
  serve_run steps .opened

end Connection

end EmbeddedHttp
