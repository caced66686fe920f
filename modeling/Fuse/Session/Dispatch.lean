-- What a session does with a frame. A connection opens with a handshake. Then
-- each operation goes to the handler of its kind, in the order of the frames,
-- and everything else is answered by the session itself.
import Fuse.Session.Basic

namespace Fuse.Session

variable {σ : Type}

/-! ## Operations -/

/-- Do with a request what its handler decided. -/
def use (srv : Server σ) (s : Session σ) (r : Request) : Use → Session σ × Option Panic
  | .answer a => s.answer srv r a
  | .keep => (s.keep r, none)
  | .onInterrupt a =>
    ({ s with tasks := s.tasks ++ [⟨r, a⟩], hub := s.hub.wake (.task r.handle) }, none)

/-- Hand an operation to the handler of its kind. A panic of the handler ends
the call and nothing else. Without a handler the answer is that the operation is
not implemented. -/
def dispatch (srv : Server σ) (s : Session σ) (header : Kernel.InHeader) (op : Operation) :
    Session σ :=
  let (hub, r) := s.hub.enrol header op
  let s := { s with hub }
  match srv.table.resolve op.kind with
  | some handler =>
    let (user, outcome) := handler s.user r op
    let s := outcome.notes.foldl note ({ s with user }.record (.called r op))
    let (s, p) := s.use srv r outcome.use
    match p.or outcome.panic with
    | some p => s.note (.handlerPanicked header.unique op.kind p)
    | none => s
  | none =>
    let reply := if op.kind.expectsReply then .error .enosys else .none
    (s.answer srv r (.reply reply)).1

/-- Interrupt the request that the kernel knows by a number. The answer says
whether it is pending. -/
def interrupt (s : Session σ) (target : UInt64) : Session σ × Bool :=
  match s.hub.pending.get? target with
  | some handle => ({ s with hub := s.hub.interrupt handle }, true)
  | none => (s, false)

/-! ## The handshake -/

/-- Ask the file system about the parameters. -/
def greet (srv : Server σ) (s : Session σ) (config : Config) :
    Session σ × Except Errno Config :=
  match srv.table.onInit with
  | none => (s, .ok config)
  | some handler =>
    let greeting := handler s.user s.hub.state config
    let s := { s with user := greeting.user }.record (.greeted config)
    match greeting.verdict with
    | .accept => (s, .ok (config.applyAll greeting.settings))
    | .refuse e => (s, .error e)
    | .panic p => (s.note (.initPanicked p), .error .eio)

/-- Answer the kernel's proposal. A kernel that is too old is turned away. One
that is too new learns our version and tries again. -/
def handshake (srv : Server σ) (s : Session σ) (unique : UInt64) (init : Kernel.InitIn) :
    Session σ × Option SessionError :=
  let s := s.enter .initializing
  if init.major < protocolMajor then
    let s := s.note (.unsupportedVersion init.major init.minor)
    (s.sendErrno unique .eproto, some (.unsupportedProtocol init.major init.minor))
  else if protocolMajor < init.major then
    let out : Kernel.InitOut :=
      { major := protocolMajor, minor := protocolMinor, maxReadahead := 0, flags := 0,
        maxBackground := 0, congestionThreshold := 0, maxWrite := 0, timeGran := 0,
        maxPages := 0 }
    let s := { s with hub := s.hub.send (.ofInit unique out protocolMinor) }
    (s.enter .created, none)
  else
    let minor := min init.minor protocolMinor
    match s.greet srv (.ofInit init minor) with
    | (s, .error e) =>
      let e := if e.valid then e else .eio
      let s := s.note (.initRefused e)
      (s.sendErrno unique e, some (.initRejected e))
    | (s, .ok config) =>
      match config.finish init.maxReadahead with
      | .error unsupported =>
        let s := s.note (.handshakeFailed (.capability unsupported))
        (s.sendErrno unique .eproto, some (.capability unsupported))
      | .ok connection =>
        let hub := { s.hub with connection := some connection }
        let s := { s with hub := hub.send (.ofInit unique connection.initOut minor) }
        (s.enter .running, none)

/-! ## Frames -/

/-- Handle a message that could be read. The answer says whether, and how, the
session is to end. -/
def handleMessage (srv : Server σ) (s : Session σ) (header : Kernel.InHeader)
    (m : Message) : Session σ × Option Ending :=
  let running := s.hub.state = .running
  match m with
  | .init proposal =>
    if s.hub.state = .created then
      let (s, failed) := s.handshake srv header.unique proposal
      (s, failed.map .error)
    else
      ((s.note (.unexpectedInit header.unique)).sendErrno header.unique .eio, none)
  | .forget items =>
    if running then
      (items.foldl (fun s i => s.dispatch srv header (.forget i.nodeid i.nlookup)) s, none)
    else (s, none)
  | .destroy => if running then (s, some (.ok (.destroy header.unique))) else tooEarly
  | .interrupt target =>
    if running then
      match s.interrupt target with
      | (s, true) => (s, none)
      | (s, false) => (s.sendErrno header.unique .eagain, none)
    else tooEarly
  | .operation op => if running then (s.dispatch srv header op, none) else tooEarly
  | .unsupported _ =>
    if running then (s.sendErrno header.unique .enosys, none) else tooEarly
where
  /-- A request outside of the running state. -/
  tooEarly : Session σ × Option Ending :=
    ((s.note (.requestBeforeInit header.unique header.opcode)).sendErrno header.unique .eio,
      none)

/-- Whether a message with this opcode gets no answer even if it cannot be
read. -/
def silentOpcode (opcode : UInt32) : Bool :=
  match Opcode.ofCode? opcode with
  | some op => op.onlyForgets
  | none => false

/-- Handle a frame. A frame without a whole header is dropped; one that cannot
be read otherwise is answered with an error. -/
def handleFrame (srv : Server σ) (s : Session σ) (frame : Bytes) :
    Session σ × Option Ending :=
  match decodeHeader frame with
  | .error e => (s.note (.malformedHeader e), none)
  | .ok header =>
    match decodeMessage header frame s.hub.minor with
    | .error e =>
      let s := s.note (.malformedRequest header.unique header.opcode e)
      (if silentOpcode header.opcode then s else s.sendErrno header.unique .eio, none)
    | .ok m => s.handleMessage srv header m

end Fuse.Session
