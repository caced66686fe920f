-- What it means that the handshake takes effect once. One frame at most opens the
-- connection. From then on messages are read, and answers are laid out, in the version
-- that the kernel was told; a proposal that is too new only learns our version.
import Fuse.Session.Comparison
import Fuse.Session.Lifecycle

namespace Fuse

variable {σ : Type}

/-! ## Asking the file system -/

/-- The parameters that the file system was asked about. -/
def Deed.greeting? : Deed → Option Config
  | greeted config => some config
  | _ => none

/-- The calls of the handler for the handshake, in order. -/
def Hub.greetings (h : Hub) : List Config := h.journal.filterMap Deed.greeting?

/-! ## The version of the connection -/

/-- The version that the answer to a proposal tells. -/
def Frame.version? (f : Frame) : Option (UInt32 × UInt32) :=
  ((Layout.seq .u32 [.u32]).decode f.payload).map (·.1)

namespace Receipt

/-- The message in the frame, read in a version. -/
def messageAt (x : Receipt σ) (minor : UInt32) : Option Message :=
  x.header?.bind fun header => (decodeMessage header x.frame minor).toOption

/-- The frame says that it is a proposal. -/
def IsInit (x : Receipt σ) : Prop :=
  ∃ header, x.header? = some header ∧ header.opcode = Opcode.init.code

/-- The frame opens a connection with these parameters. -/
structure Opens (srv : Server σ) (x : Receipt σ) (c : Connection) : Prop where
  before : x.session.hub.connection = none
  after : (x.session.handleFrame srv x.frame).1.hub.connection = some c

/-- The frame is an answer to this one, laid out in a version. What answers no operation
is a header alone. -/
def Lays (x : Receipt σ) (minor : UInt32) (f : Frame) : Prop :=
  x.unique? = some f.unique ∧
    match x.operation? with
    | some op => ∃ reply : Reply, op.kind.accepts reply.shape = true ∧
        reply.frame? f.unique minor = some f
    | none => f.payload = []

end Receipt

/-- The frame opened the connection, the frames before it came when there was none, and
those after it came with it. The kernel was told the version, and since then everything
is read and laid out in this version. -/
structure Opening (srv : Server σ) (user : σ) (inputs : List Session.Input)
    (xs : List (Receipt σ)) (x : Receipt σ) (ys : List (Receipt σ)) (c : Connection) : Prop where
  before : ∀ y ∈ xs, y.session.hub.connection = none
  after : ∀ y ∈ ys, y.session.hub.connection = some c ∧ y.message? = y.messageAt c.minor
  stays : ((Session.start user).run srv inputs).hub.connection = some c
  answers : ∃ f later, ((Session.start user).run srv inputs).hub.queue =
      x.session.hub.queue ++ f :: later ∧
    x.unique? = some f.unique ∧ f.error = 0 ∧ f.version? = some (protocolMajor, c.minor) ∧
    ∀ g ∈ later, ∃ y ∈ xs ++ x :: ys, y.Lays c.minor g

/-! ## Proposals that are too new -/

/-- The number of the frame, if it proposes a version that is too new. -/
def overture? (frame : Bytes) : Option UInt64 :=
  match decodeHeader frame with
  | .error _ => none
  | .ok header =>
    match decodeMessage header frame protocolMinor with
    | .ok (.init init) => if protocolMajor < init.major then some header.unique else none
    | _ => none

/-- The answer that tells our version, 7.31, and nothing else. -/
def Frame.versionOnly (unique : UInt64) : Frame where
  unique
  error := 0
  payload := Bytes.ofNat 4 7 ++ Bytes.ofNat 4 31 ++ List.replicate 56 0

/-- What a session does with a proposal that is too new. -/
def retrial (unique : UInt64) : List Deed :=
  [.entered .initializing, .sent (.versionOnly unique), .entered .created]

/-- The second session received proposals that were too new, and the first did not. Each
of them was told our version, and nothing that came later differs, and nothing that is
left. -/
structure Retried (uniques : List UInt64) (before s s' : Session σ) : Prop where
  acts : ∃ later, s.hub.acts = before.hub.acts ++ later ∧
    s'.hub.acts = before.hub.acts ++ uniques.flatMap retrial ++ later
  queue : ∃ later, s.hub.queue = before.hub.queue ++ later ∧
    s'.hub.queue = before.hub.queue ++ uniques.map .versionOnly ++ later
  states : ∃ later, s.hub.states = before.hub.states ++ later ∧
    s'.hub.states =
      before.hub.states ++ uniques.flatMap (fun _ => [.initializing, .created]) ++ later
  greetings : s'.hub.greetings = s.hub.greetings
  calls : s'.hub.calls = s.hub.calls
  state : s'.hub.state = s.hub.state
  connection : s'.hub.connection = s.hub.connection
  pending : s'.hub.pending = s.hub.pending
  slots : s'.hub.slots = s.hub.slots
  kept : s'.kept = s.kept
  tasks : s'.tasks = s.tasks
  user : s'.user = s.user
  result : s'.result = s.result

end Fuse
