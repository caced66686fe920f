-- The history of a run: the frames that a session received, each with the session
-- as it was at that moment, the requests that someone still holds, and the moment
-- in which the end begins.
import Fuse.Reply.Form
import Fuse.Session.Run

namespace Fuse

/-! ## Frames that were received -/

/-- A frame that a session received, and the session as it was then. -/
structure Receipt (σ : Type) where
  session : Session σ
  frame : Bytes

namespace Receipt

variable {σ : Type}

/-- The header of the frame, if the frame holds a whole one. -/
def header? (x : Receipt σ) : Option Kernel.InHeader := (decodeHeader x.frame).toOption

/-- The number of the request, if the frame holds one. -/
def unique? (x : Receipt σ) : Option UInt64 := x.header?.map (·.unique)

/-- The message in the frame, if it can be read. -/
def message? (x : Receipt σ) : Option Message :=
  x.header?.bind fun header =>
    (decodeMessage header x.frame x.session.hub.minor).toOption

/-- The operation that the session hands to its handler, if it does so. -/
def operation? (x : Receipt σ) : Option Operation :=
  match x.message? with
  | some (.operation op) => if x.session.hub.state = .running then some op else none
  | _ => none

/-- Whether the frame interrupts a request that is pending. -/
def interrupts (x : Receipt σ) : Bool :=
  match x.message? with
  | some (.interrupt target) =>
    x.session.hub.state == .running && (x.session.hub.pending.get? target).isSome
  | _ => false

/-- Whether the frame only forgets, by its opcode. -/
def forgets (x : Receipt σ) : Bool :=
  match x.header? with
  | some header => Session.silentOpcode header.opcode
  | none => false

/-- How many answers the kernel waits for. -/
def due (x : Receipt σ) : Nat := if x.unique?.isNone || x.forgets || x.interrupts then 0 else 1

/-- Whether a frame is a well-formed answer to this one. An operation is answered in
the form that it takes on the connection. Everything else is refused, but for the
two messages that open and end the session. -/
def Admits (x : Receipt σ) (f : Frame) : Prop :=
  x.unique? = some f.unique ∧ x.due = 1 ∧
    match x.operation? with
    | some op => ∃ c, x.session.hub.connection = some c ∧ op.Admits c.minor f
    | none => f.Refuses ∨
        (∃ init, x.message? = some (.init init)) ∧ (∃ out minor, f = .ofInit f.unique out minor) ∨
        x.message? = some .destroy ∧ f = .success f.unique

end Receipt

namespace Session

variable {σ : Type}

/-- The requests that someone still holds: those in their places, and those that
tasks wait with. -/
def held (s : Session σ) : List Request := s.kept.filterMap id ++ s.tasks.map (·.request)

/-- The frames of a list that the session comes to. -/
def receiptsOf (srv : Server σ) (s : Session σ) : List Bytes → List (Receipt σ)
  | [] => []
  | frame :: frames =>
    ⟨s, frame⟩ ::
      match s.handleFrame srv frame with
      | (s, none) => s.receiptsOf srv frames
      | (_, some _) => []

/-- The frames that the session receives with an input. -/
def received (srv : Server σ) (s : Session σ) : Input → List (Receipt σ)
  | .frames frames => if s.ended then [] else s.receiptsOf srv frames
  | _ => []

/-- The frames that the session receives in a run. -/
def receipts (srv : Server σ) (s : Session σ) : List Input → List (Receipt σ)
  | [] => []
  | input :: inputs => s.received srv input ++ (s.step srv input).1.receipts srv inputs

/-! ## The moment of the end -/

/-- The answer that the kernel still gets when everything else is settled. -/
def lastAnswer : Ending → List Frame
  | .ok (.destroy unique) => [.success unique]
  | _ => []

/-- The session at the moment in which an input ends it, and how it ends. -/
def endedBy (srv : Server σ) (s : Session σ) (input : Input) : Option (Session σ × Ending) :=
  if s.ended then none
  else
    match (s.outside srv input).1.serve srv input with
    | (s, some ending) => some (s, ending)
    | (_, none) => none

/-- The session at the moment in which a run ends it, and how it ends. -/
def endOf (srv : Server σ) (s : Session σ) : List Input → Option (Session σ × Ending)
  | [] => none
  | input :: inputs => (s.endedBy srv input).or ((s.step srv input).1.endOf srv inputs)

end Session

end Fuse
