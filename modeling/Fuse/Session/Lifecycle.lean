-- How the life of a session goes: what the file system makes of the kernel's
-- proposal and when the handshake fails, how a run comes to its end, and which
-- deeds may follow which. The laws of the life cycle compare the session with
-- these.
import Fuse.Session.History

namespace Fuse

variable {σ : Type}

/-! ## The handshake -/

/-- What the file system makes of the kernel's proposal: the parameters as it set
them, or the error with which it refuses. A panic counts as an input/output error,
and so does an error number that the kernel does not know. -/
def Server.opinion (srv : Server σ) (user : σ) (init : Kernel.InitIn) : Except Errno Config :=
  let config := Config.ofInit init (min init.minor protocolMinor)
  match srv.table.onInit with
  | none => .ok config
  | some handler =>
    let greeting := handler user .initializing config
    match greeting.verdict with
    | .accept => .ok (config.applyAll greeting.settings)
    | .refuse e => .error (if e.valid then e else .eio)
    | .panic _ => .error .eio

/-- Why the handshake fails, if it does: the kernel is too old, the file system
refuses, or it wants what the kernel does not offer. -/
def Server.refusal? (srv : Server σ) (user : σ) (init : Kernel.InitIn) : Option SessionError :=
  if init.major < protocolMajor then some (.unsupportedProtocol init.major init.minor)
  else if protocolMajor < init.major then none
  else
    match srv.opinion user init with
    | .error e => some (.initRejected e)
    | .ok config =>
      if config.capable.contains config.want then none
      else some (.capability (config.want.diff config.capable))

/-- The error number that tells the kernel why the handshake failed. -/
def SessionError.told : SessionError → Errno
  | .initRejected e => e
  | _ => .eproto

namespace Receipt

/-- The proposal in the frame, if the session takes it up. -/
def proposal? (x : Receipt σ) : Option Kernel.InitIn :=
  match x.message? with
  | some (.init init) => if x.session.hub.state = .created then some init else none
  | _ => none

/-- Why the handshake that the frame opens fails, if it does. -/
def failure? (srv : Server σ) (x : Receipt σ) : Option SessionError :=
  x.proposal?.bind (srv.refusal? x.session.user)

end Receipt

/-! ## The end -/

namespace Session

/-- Whether an input ends a session that is under way, with this result of the
run. Only a frame can make the handshake fail. -/
def Concludes (srv : Server σ) (s : Session σ) (input : Input) :
    Except SessionError Unit → Prop
  | .ok () =>
    (∃ x ∈ s.received srv input, x.message? = some .destroy ∧ x.session.hub.state = .running) ∨
    (input = .shutdown ∧ s.handleHeld = true) ∨
    ((input = .close ∨ input = .hangUp) ∧ s.hub.state = .running)
  | .error .closedBeforeInit => (input = .close ∨ input = .hangUp) ∧ s.hub.state ≠ .running
  | .error (.io e) => input = .failReceive e
  | .error e => ∃ x ∈ s.received srv input, x.failure? srv = some e

end Session

/-! ## The order of deeds -/

/-- The steps from state to state. -/
inductive State.Step : State → State → Prop
  | opening : Step .created .initializing
  | tryingAgain : Step .initializing .created
  | opened : Step .initializing .running
  | ending {s : State} (h : s = .created ∨ s = .initializing ∨ s = .running) : Step s .destroying
  | ended : Step .destroying .terminated

/-- The state that a session is in after some deeds. -/
def State.after (deeds : List Deed) : State := (deeds.filterMap Deed.state?).getLast?.getD .created

/-- Whether a session that received these frames may do a deed after the deeds
before. It waits for another proposal only after one that is too new, and it runs
only after it agreed to a proposal and told the kernel so. Operations are handed on
while it runs. -/
def Lawful (xs : List (Receipt σ)) (before : List Deed) : Deed → Prop
  | .entered state => (State.after before).Step state ∧
      match state with
      | .created => ∃ x ∈ xs, ∃ init f, x.proposal? = some init ∧ protocolMajor < init.major ∧
          before = x.session.hub.journal ++ [.entered .initializing, .sent f]
      | .running => ∃ x ∈ xs, ∃ init unique, x.proposal? = some init ∧
          init.major = protocolMajor ∧ x.unique? = some unique ∧
          ∃ (connection : Connection) (between : List Deed),
            before = x.session.hub.journal ++ .entered .initializing :: between ++
              [.sent (.ofInit unique connection.initOut connection.minor)]
      | _ => True
  | .greeted _ => State.after before = .initializing
  | .called .. => State.after before = .running
  | .dismissed => State.after before = .destroying
  | .sent _ | .noted _ => True

/-- Each deed is lawful after those before it. -/
def Orderly (xs : List (Receipt σ)) (deeds : List Deed) : Prop :=
  ∀ before d after, deeds = before ++ d :: after → Lawful xs before d

end Fuse
