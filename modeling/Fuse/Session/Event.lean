-- What a session does, what it writes to its log, how it ends, and the states
-- that it passes through.
import Fuse.Connection
import Fuse.IoError
import Fuse.Operation.Message
import Fuse.Session.Request

namespace Fuse

/-! ## States -/

/-- The states of a session, in the order in which it passes through them. -/
inductive State where
  | created
  | initializing
  | running
  | destroying
  | terminated
deriving DecidableEq, Repr

def State.name : State → String
  | .created => "Created"
  | .initializing => "Initializing"
  | .running => "Running"
  | .destroying => "Destroying"
  | .terminated => "Terminated"

/-! ## Ends -/

/-- Why a session ended before its time. -/
inductive SessionError where
  | io (error : IoError)
  | unsupportedProtocol (major minor : UInt32)
  | capability (unsupported : Capabilities)
  | initRejected (errno : Errno)
  | closedBeforeInit
deriving DecidableEq, Repr

def SessionError.message : SessionError → String
  | .io e => s!"transport failed: {e.message}"
  | .unsupportedProtocol major minor =>
    s!"kernel speaks unsupported protocol {major.toNat}.{minor.toNat}"
  | .capability unsupported =>
    s!"filesystem wants capabilities the kernel does not offer: {unsupported.debugText}"
  | .initRejected e => s!"init handler rejected the connection: {e.message}"
  | .closedBeforeInit => "transport closed before the init handshake completed"

/-- How a session came to its end in due course. -/
inductive Exit where
  | unmounted
  | shutdown
  | destroy (unique : UInt64)
deriving DecidableEq, Repr

/-- How a session came to its end, in due course or before its time. -/
abbrev Ending := Except SessionError Exit

/-! ## The log -/

/-- An entry of the log. Only warnings and errors are kept. -/
inductive Event where
  | malformedHeader (error : DecodeError)
  | malformedRequest (unique : UInt64) (opcode : UInt32) (error : DecodeError)
  | unexpectedInit (unique : UInt64)
  | requestBeforeInit (unique : UInt64) (opcode : UInt32)
  | unsupportedVersion (major minor : UInt32)
  | initPanicked (panic : Panic)
  | initRefused (errno : Errno)
  | handshakeFailed (error : SessionError)
  | handlerPanicked (unique : UInt64) (kind : OpKind) (panic : Panic)
  | destroyPanicked (panic : Panic)
  | violation (unique : UInt64) (kind : OpKind) (violation : Violation)
  | answeredTwice (unique : UInt64) (kind : OpKind)
  | dropped (unique : UInt64) (kind : OpKind)
  | misrouted (operation handler : OpKind)
  | sendFailed (error : IoError)
deriving DecidableEq, Repr

namespace Event

/-- Whether the entry is only a warning. -/
def isWarning : Event → Bool
  | malformedHeader _ | malformedRequest .. | unexpectedInit _ | requestBeforeInit .. => true
  | dropped .. => true
  | _ => false

def message : Event → String
  | malformedHeader e => s!"dropping malformed message: {e.message}"
  | malformedRequest _ _ e => s!"malformed request: {e.message}"
  | unexpectedInit _ => "unexpected INIT"
  | requestBeforeInit .. => "request before INIT"
  | unsupportedVersion .. => "unsupported protocol version"
  | initPanicked p => s!"init handler panicked: {p.message}"
  | initRefused e => s!"init handler refused the connection: {e.message}"
  | handshakeFailed e => e.message
  | handlerPanicked _ _ p => s!"handler panicked: {p.message}"
  | destroyPanicked p => s!"destroy handler panicked: {p.message}"
  | violation _ _ v => v.message
  | answeredTwice .. => "request completed twice"
  | dropped .. => "request dropped without reply, answering EIO"
  | misrouted operation handler =>
    s!"{operation.name} request routed to the {handler.name} handler"
  | sendFailed e => s!"send reply failed: {e.message}"

/-- The request that the entry is about. -/
def unique? : Event → Option UInt64
  | malformedRequest unique .. | unexpectedInit unique | requestBeforeInit unique _ => some unique
  | handlerPanicked unique .. | violation unique .. | answeredTwice unique _ => some unique
  | dropped unique _ => some unique
  | _ => none

/-- The kind of the request that the entry is about. -/
def kind? : Event → Option OpKind
  | handlerPanicked _ kind _ | violation _ kind _ | answeredTwice _ kind | dropped _ kind =>
    some kind
  | _ => none

/-- The opcode of the message that the entry is about. -/
def opcode? : Event → Option UInt32
  | malformedRequest _ opcode _ | requestBeforeInit _ opcode => some opcode
  | _ => none

/-- The protocol version that the entry is about. -/
def version? : Event → Option (UInt32 × UInt32)
  | unsupportedVersion major minor => some (major, minor)
  | _ => none

end Event

/-! ## The journal -/

/-- One thing that a session did: it entered a state, asked the file system
about the parameters of the connection, handed it an operation, told it about
the end, put a frame into the queue, or wrote to the log. -/
inductive Deed where
  | entered (state : State)
  | greeted (config : Config)
  | called (request : Request) (operation : Operation)
  | dismissed
  | sent (frame : Frame)
  | noted (event : Event)
deriving DecidableEq, Repr

namespace Deed

/-- The state that was entered. -/
def state? : Deed → Option State
  | entered s => some s
  | _ => none

/-- The call of a handler of an operation. -/
def call? : Deed → Option (Request × Operation)
  | called r op => some (r, op)
  | _ => none

/-- The frame that was put into the queue. -/
def frame? : Deed → Option Frame
  | sent f => some f
  | _ => none

/-- The entry that was written to the log. -/
def event? : Deed → Option Event
  | noted e => some e
  | _ => none

end Deed

end Fuse
