-- The part of a session that requests reach: which of them still wait for an
-- answer, the journal of all that was done, and who runs next. A request may be
-- answered from anywhere and at any time, so nothing here knows the handlers.
import Fuse.KeyedList
import Fuse.Session.Event

namespace Fuse

/-! ## Slots -/

/-- How far a request has come. A closed one was answered by the session when
it ended. -/
inductive Progress where
  | pending
  | answered
  | closed
deriving DecidableEq, Repr

/-- What the session keeps about a request. -/
structure Slot where
  unique : UInt64
  progress : Progress := .pending
  interrupted : Bool := false
deriving DecidableEq, Repr

/-! ## Turns -/

/-- What runs when the session has come to rest: the writer, which carries frames
to the kernel, or the task that waits with a request. -/
inductive Runner where
  | writer
  | task (handle : Nat)
deriving DecidableEq, Repr

/-! ## The order at the end -/

/-- The order in which pending requests come out when all of them are taken at once. A hash
map has none of its own, so it can be any: each entry comes out once, and nothing else is
known. -/
structure Drain where
  order : KeyedList UInt64 Nat → List (UInt64 × Nat)
  perm (pending : KeyedList UInt64 Nat) : (order pending).Perm pending

namespace Drain

/-- The order of the numbers. -/
def ascending : Drain where
  order pending := pending
  perm pending := .refl pending

/-- The order of the numbers, backwards. -/
def descending : Drain where
  order pending := pending.reverse
  perm pending := List.reverse_perm pending

end Drain

/-! ## The hub -/

/-- What requests share. The slots stand in the order of their handles. The
kernel names a pending request by its unique number, and two requests with one
number have one entry between them. The journal goes back to the start. Whoever
was woken runs in turn. A request cannot reach the hub any more once nobody holds
on to it. -/
structure Hub where
  state : State := .created
  connection : Option Connection := none
  slots : List Slot := []
  pending : KeyedList UInt64 Nat := []
  journal : List Deed := []
  turns : List Runner := []
  queueOpen : Bool := true
  reachable : Bool := true

namespace Hub

/-! ## The journal and its views -/

def record (h : Hub) (d : Deed) : Hub := { h with journal := h.journal ++ [d] }

/-- The frames that were put into the queue, in order. -/
def queue (h : Hub) : List Frame := h.journal.filterMap Deed.frame?

/-- The entries of the log, in order. -/
def log (h : Hub) : List Event := h.journal.filterMap Deed.event?

/-- The calls of handlers of operations, in order. -/
def calls (h : Hub) : List (Request × Operation) := h.journal.filterMap Deed.call?

/-- The states that the session passed through, in order. -/
def states (h : Hub) : List State := .created :: h.journal.filterMap Deed.state?

/-! ## Small steps -/

def enter (h : Hub) (state : State) : Hub := { h with state }.record (.entered state)

/-- The minor version in which messages are laid out. -/
def minor (h : Hub) : UInt32 := (h.connection.map (·.minor)).getD protocolMinor

def note (h : Hub) (e : Event) : Hub := h.record (.noted e)

/-- Give someone a turn after all that have one. Nobody has two. -/
def wake (h : Hub) (r : Runner) : Hub :=
  if r ∈ h.turns then h else { h with turns := h.turns ++ [r] }

/-- Send a frame to the kernel, unless the queue is closed. This wakes the
writer. -/
def send (h : Hub) (f : Frame) : Hub :=
  if h.queueOpen then (h.record (.sent f)).wake .writer else h

def sendErrno (h : Hub) (unique : UInt64) (e : Errno) : Hub := h.send (.ofErrno unique e)

def slot? (h : Hub) (handle : Nat) : Option Slot := h.slots[handle]?

def updateSlot (h : Hub) (handle : Nat) (f : Slot → Slot) : Hub :=
  { h with slots := h.slots.modify handle f }

/-- How far a request has come. -/
def progress (h : Hub) (r : Request) : Progress :=
  ((h.slot? r.handle).map (·.progress)).getD .closed

/-- Whether a request was interrupted. -/
def isInterrupted (h : Hub) (r : Request) : Bool :=
  ((h.slot? r.handle).map (·.interrupted)).getD false

/-- The parameters of the connection, as far as requests can see them. -/
def visibleConnection (h : Hub) : Option Connection :=
  if h.reachable then h.connection else none

/-! ## Requests -/

/-- A new request. The kernel can interrupt it if it waits for an answer. -/
def enrol (h : Hub) (header : Kernel.InHeader) (op : Operation) : Hub × Request :=
  let handle := h.slots.length
  let r : Request :=
    { handle
      unique := header.unique
      uid := header.uid
      gid := header.gid
      pid := header.pid
      kind := op.kind
      limit := op.replyLimit }
  ({ h with
      slots := h.slots ++ [{ unique := header.unique }]
      pending :=
        if op.kind.expectsReply then h.pending.insert header.unique handle else h.pending }, r)

/-- Whichever request the kernel knows by this number is no longer pending. -/
def untrack (h : Hub) (unique : UInt64) : Hub := { h with pending := h.pending.erase unique }

/-- Send the answer to a request. Its number is no longer pending. -/
def deliver (h : Hub) (r : Request) (reply : Reply) : Hub :=
  if h.reachable then
    let h := h.untrack r.unique
    match reply.frame? r.unique h.minor with
    | some f => h.send f
    | none => h
  else h

def markAnswered (h : Hub) (r : Request) : Hub :=
  h.updateSlot r.handle fun s => { s with progress := .answered }

/-- Let a request go. If it still waits for an answer, it gets an error. This is one step
like `settle`. -/
def abandon (h : Hub) (r : Request) : Hub :=
  match h.progress r with
  | .pending =>
    let h := h.markAnswered r
    if r.kind.expectsReply then
      (h.note (.dropped r.unique r.kind)).deliver r (.error .eio)
    else h
  | _ => h

/-- Settle a request with an answer that was checked. Only the first answer
counts, and none after the session closed the request. All of it is one step: that a session
winds down on another thread when the request is marked but its number not yet removed, or
the number removed but the frame not yet sent, is not modelled. -/
def settle (profile : Profile) (h : Hub) (r : Request) (reply : Reply) : Hub × Option Panic :=
  match h.progress r with
  | .pending => ((h.markAnswered r).deliver r reply, none)
  | .closed => (h, none)
  | .answered =>
    (h.note (.answeredTwice r.unique r.kind),
      if profile = .dev then some (.answeredTwice r.unique r.kind) else none)

/-- Answer a request. A wrong answer is a panic in the development profile,
and the request is let go as the panic passes; in the release profile an error
takes the place of the answer. -/
def complete (profile : Profile) (h : Hub) (r : Request) (reply : Reply) : Hub × Option Panic :=
  match r.check reply with
  | none => h.settle profile r reply
  | some v =>
    let h := h.note (.violation r.unique r.kind v)
    match profile with
    | .dev => (h.abandon r, some (.violation r.unique r.kind v))
    | .release => h.settle profile r r.substitute

/-- Answer a request or let it go. -/
def answer (profile : Profile) (h : Hub) (r : Request) : Answer → Hub × Option Panic
  | .reply reply => h.complete profile r reply
  | .drop => (h.abandon r, none)

/-! ## Interrupts and the end -/

/-- Interrupt a request. This wakes the task that waits with it, if there is
one. -/
def interrupt (h : Hub) (handle : Nat) : Hub :=
  (h.updateSlot handle fun s => { s with interrupted := true }).wake (.task handle)

/-- Close one request: if it still waits for an answer, the session answers
that the connection is gone, and any later answer is dropped. -/
def closeOne (h : Hub) (handle : Nat) : Hub :=
  match h.slot? handle with
  | some s =>
    if s.progress = .pending then
      let h := h.updateSlot handle fun s => { s with progress := .closed }
      (h.interrupt handle).sendErrno s.unique .enotconn
    else h
  | none => h

/-- Close every request that is pending, in the order in which they come out. -/
def closePending (drain : Drain) (h : Hub) : Hub :=
  (drain.order h.pending).foldl (fun h p => h.closeOne p.2) { h with pending := [] }

end Hub

end Fuse
