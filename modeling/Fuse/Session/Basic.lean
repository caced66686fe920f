-- A session: one connection to the kernel, with the file system that serves it
-- and the channel to the kernel. A request can be answered from outside at any
-- time.
import Fuse.Session.Table

namespace Fuse

/-! ## The channel -/

/-- The kernel's end of the channel: the frames that arrived there, a failure
in store for the next one, and whether the kernel is gone altogether. -/
structure Link where
  arrived : List Bytes := []
  failNext : Option IoError := none
  hungUp : Bool := false

/-- Carry one frame over. A frame that fails is lost. -/
def Link.carry (l : Link) (f : Frame) : Link × Option IoError :=
  match l.failNext with
  | some e => ({ l with failNext := none }, some e)
  | none =>
    if l.hungUp then (l, some (.kind .brokenPipe))
    else ({ l with arrived := l.arrived ++ [f.encode] }, none)

/-! ## The session -/

/-- A task that answers its request once the request is interrupted. -/
structure Task where
  request : Request
  answer : Answer

/-- A session. Of the queue of the hub, the first `carried` frames have left.
Requests that handlers kept stand in their places, which they leave when they are
answered. Each task waits for an interrupt of its request. The handle to stop the
session is held outside. -/
structure Session (σ : Type) where
  hub : Hub := {}
  user : σ
  kept : List (Option Request) := []
  tasks : List Task := []
  link : Link := {}
  carried : Nat := 0
  handleHeld : Bool := true
  result : Option (Except SessionError Unit) := none

namespace Session

variable {σ : Type}

def start (user : σ) : Session σ := { user }

def enter (s : Session σ) (state : State) : Session σ := { s with hub := s.hub.enter state }

def record (s : Session σ) (d : Deed) : Session σ := { s with hub := s.hub.record d }

def note (s : Session σ) (e : Event) : Session σ := { s with hub := s.hub.note e }

def sendErrno (s : Session σ) (unique : UInt64) (e : Errno) : Session σ :=
  { s with hub := s.hub.sendErrno unique e }

/-- Whether the session is over. -/
def ended (s : Session σ) : Bool := s.result.isSome

/-! ## Answers -/

/-- Answer a request or let it go. -/
def answer (srv : Server σ) (s : Session σ) (r : Request) (a : Answer) :
    Session σ × Option Panic :=
  let (hub, p) := s.hub.answer srv.profile r a
  ({ s with hub }, p)

/-- Put a request in the next place. -/
def keep (s : Session σ) (r : Request) : Session σ := { s with kept := s.kept ++ [some r] }

/-- The request in a place, if it was not answered from there yet. -/
def kept? (s : Session σ) (place : Nat) : Option Request := (s.kept[place]?).join

/-- Answer the request in a place, which is empty from then on. -/
def answerKept (srv : Server σ) (s : Session σ) (place : Nat) (a : Answer) :
    Session σ × Completion :=
  match s.kept? place with
  | some r =>
    let (s, p) := { s with kept := s.kept.set place none }.answer srv r a
    (s, .ofPanic? p)
  | none => (s, .noSuchRequest)

/-- Answer the requests in several places in turn. -/
def answerAllKept (srv : Server σ) (s : Session σ) :
    List (Nat × Answer) → Session σ × List Completion
  | [] => (s, [])
  | (place, a) :: rest =>
    let (s, c) := s.answerKept srv place a
    let (s, cs) := s.answerAllKept srv rest
    (s, c :: cs)

end Session

end Fuse
