-- How a session comes to its end, and whole runs. A session ends when the kernel
-- says so, when it is told to stop, or when the channel breaks. However it ends,
-- every request that is pending is answered, and the kernel gets the last word
-- that it asked for.
import Fuse.Session.Dispatch

namespace Fuse.Session

variable {σ : Type}

/-! ## The end -/

/-- Let the file system say goodbye, if there was a connection. -/
def farewell (srv : Server σ) (s : Session σ) : Session σ :=
  match s.hub.connection, srv.table.onDestroy with
  | some _, some handler =>
    let goodbye := handler s.user s.hub.state
    let (s, completions) := (s.record .dismissed).answerAllKept srv goodbye.answers
    let s := { s with user := goodbye.user completions }
    match goodbye.panic with
    | some p => s.note (.destroyPanicked p)
    | none => s
  | _, _ => s

/-- Leave the running state: the farewell, the answers to all that still waits,
the kernel's own last answer, and then nothing more. -/
def windDown (srv : Server σ) (s : Session σ) (ending : Ending) : Session σ :=
  let s := (s.enter .destroying).farewell srv
  let hub := s.hub.closePending srv.drain
  let hub :=
    match ending with
    | .ok (.destroy unique) => hub.send (.success unique)
    | _ => hub
  { s with hub := { hub with queueOpen := false } }

/-! ## Tasks and the writer -/

/-- Let the task with a request go on, if there is one: it answers and ends if
the request was interrupted, and waits if not. A panic ends the task and nothing
else. -/
def runTask (srv : Server σ) (s : Session σ) (handle : Nat) : Session σ :=
  match s.tasks.find? (·.request.handle == handle) with
  | some t =>
    if s.hub.isInterrupted t.request then
      let tasks := s.tasks.eraseP (·.request.handle == handle)
      ({ s with tasks }.answer srv t.request t.answer).1
    else s
  | none => s

/-- Carry one frame to the kernel. -/
def carry (s : Session σ) (f : Frame) : Session σ :=
  let s := { s with carried := s.carried + 1 }
  match s.link.carry f with
  | (link, some e) => { s with link }.note (.sendFailed e)
  | (link, none) => { s with link }

/-- Carry all frames in the queue to the kernel. -/
def flush (s : Session σ) : Session σ := (s.hub.queue.drop s.carried).foldl carry s

/-- Let one go on whose turn it is. -/
def takeTurn (srv : Server σ) (s : Session σ) : Runner → Session σ
  | .writer => s.flush
  | .task handle => s.runTask srv handle

def clearTurns (s : Session σ) : Session σ := { s with hub := { s.hub with turns := [] } }

/-- Let everyone go on who was woken, in turn. On the way only the writer can be
woken again, and it comes last. -/
def comeToRest (srv : Server σ) (s : Session σ) : Session σ :=
  (s.hub.turns.foldl (takeTurn srv) s.clearTurns).flush.clearTurns

/-- End the session. -/
def finish (srv : Server σ) (s : Session σ) (ending : Ending) : Session σ :=
  let s := ((s.windDown srv ending).comeToRest srv).enter .terminated
  { s with
    result := some (ending.map fun _ => ())
    hub := { s.hub with reachable := s.handleHeld } }

/-! ## Serving -/

/-- Something that happens to a session. An answer names its request by the
place in which it was kept; the request is answered or dropped. Each of these is one step:
the marking of the request, the removal of its number and the sending of the frame stay
together, and a session that winds down on another thread does so before them or after
them. -/
inductive Input where
  | frames (frames : List Bytes)
  | close
  | hangUp
  | failReceive (error : IoError)
  | failSend (error : IoError)
  | shutdown
  | dropHandle
  | answer (place : Nat) (answer : Answer)

/-- Handle frames in order, until one of them ends the session. The answer says
whether, and how, the session is to end. -/
def receive (srv : Server σ) (s : Session σ) : List Bytes → Session σ × Option Ending
  | [] => (s, none)
  | frame :: frames =>
    match s.handleFrame srv frame with
    | (s, none) => s.receive srv frames
    | (s, some ending) => (s, some ending)

/-- How a session ends when the stream of requests does. -/
def streamEnding (s : Session σ) : Ending :=
  match s.hub.state with
  | .created | .initializing => .error .closedBeforeInit
  | _ => .ok .unmounted

/-- What a session that is under way does with an input, and how it is to end,
if it is. -/
def serve (srv : Server σ) (s : Session σ) : Input → Session σ × Option Ending
  | .frames frames => s.receive srv frames
  | .close | .hangUp => (s, some s.streamEnding)
  | .failReceive e => (s, some (.error (.io e)))
  | .shutdown => (s, if s.handleHeld then some (.ok .shutdown) else none)
  | .failSend _ | .dropHandle | .answer .. => (s, none)

/-- What happens to a session that is under way. -/
def progress (srv : Server σ) (s : Session σ) (input : Input) : Session σ :=
  match s.serve srv input with
  | (s, none) => s
  | (s, some ending) => s.finish srv ending

/-! ## Runs -/

/-- What happens outside of the session: a request is answered, the channel
breaks, or the handle that stops the session is let go. Of an answer it is told
how it went. -/
def outside (srv : Server σ) (s : Session σ) : Input → Session σ × Option Completion
  | .answer place a =>
    let (s, c) := s.answerKept srv place a
    (s, some c)
  | .hangUp => ({ s with link := { s.link with hungUp := true } }, none)
  | .failSend e => ({ s with link := { s.link with failNext := some e } }, none)
  | .dropHandle =>
    ({ s with handleHeld := false, hub := { s.hub with reachable := !s.ended } }, none)
  | .frames _ | .close | .failReceive _ | .shutdown => (s, none)

/-- One thing happens, and then everything goes on until it comes to rest. -/
def step (srv : Server σ) (s : Session σ) (input : Input) : Session σ × Option Completion :=
  let (s, c) := s.outside srv input
  let s := if s.ended then s else s.progress srv input
  (s.comeToRest srv, c)

/-- A whole run. -/
def run (srv : Server σ) (s : Session σ) (inputs : List Input) : Session σ :=
  inputs.foldl (fun s i => (s.step srv i).1) s

/-- Why a session takes no more frames: the kernel is gone, or the session is
over. -/
inductive Refusal where
  | hungUp
  | ended

/-- Why the session takes no more frames, if it takes none. -/
def refusal? (s : Session σ) : Option Refusal :=
  if s.link.hungUp then some .hungUp
  else if s.ended then some .ended
  else none

/-- A text about the handle that stops the session, while it is held. -/
def handleText? (s : Session σ) : Option String :=
  if s.handleHeld then
    some ("ShutdownHandle \x7b state: " ++ s.hub.state.name ++ ", .. \x7d")
  else none

end Fuse.Session
