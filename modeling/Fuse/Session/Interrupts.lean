-- Who hears of an interrupt: the request that it names, or else the kernel. And how a run
-- would have gone without interrupts.
import Fuse.Session.Tracking

namespace Fuse

variable {σ : Type}

/-! ## Interrupts that arrive -/

namespace Receipt

/-- The number that the frame is to interrupt, if the session comes to that. -/
def target? (x : Receipt σ) : Option UInt64 :=
  match x.message? with
  | some (.interrupt target) => if x.session.hub.state = .running then some target else none
  | _ => none

/-- The frame is to interrupt the request, and the request is unanswered. -/
def Reaches (x : Receipt σ) (r : Request) : Prop :=
  x.target? = some r.unique ∧ x.session.hub.Unanswered r

instance (x : Receipt σ) (r : Request) : Decidable (x.Reaches r) :=
  inferInstanceAs (Decidable (_ ∧ _))

end Receipt

/-- The request learned that it is interrupted, and nobody else learned anything. -/
structure Delivered (r : Request) (s s' : Session σ) : Prop where
  told : s'.hub.isInterrupted r = true
  unanswered : s'.hub.Unanswered r
  others : ∀ i, i ≠ r.handle → s'.hub.slot? i = s.hub.slot? i
  queue : s'.hub.queue = s.hub.queue

/-- The kernel learned that there is nothing to interrupt, and nobody else learned
anything. -/
structure TurnedDown (u : UInt64) (s s' : Session σ) : Prop where
  slots : s'.hub.slots = s.hub.slots
  queue : s'.hub.queue = s.hub.queue ++ [.ofErrno u .eagain]

/-! ## Runs without interrupts -/

/-- No handler leaves its request to a task that waits for an interrupt. -/
def Server.Heedless (srv : Server σ) : Prop :=
  ∀ kind handler, srv.table.resolve kind = some handler →
    ∀ user r op a, (handler user r op).2.use ≠ .onInterrupt a

/-- Whether the frame is to interrupt something, by its opcode. -/
def asksToInterrupt (frame : Bytes) : Bool :=
  (decodeHeader frame).toOption.any fun header => header.opcode == Opcode.interrupt.code

/-- The input with its interrupts taken out. -/
def Session.Input.uninterrupted : Session.Input → Session.Input
  | .frames received => .frames (received.filter fun frame => !asksToInterrupt frame)
  | input => input

/-- The numbers under which interrupts were received. -/
def interrupters (xs : List (Receipt σ)) : List UInt64 :=
  (xs.filter fun x => asksToInterrupt x.frame).filterMap Receipt.unique?

/-- The second session came to the same as the first without hearing of the interrupts
with these numbers, and told the kernel the same about everything else. -/
structure Undisturbed (us : List UInt64) (s s' : Session σ) : Prop where
  queue : s'.hub.queue = s.hub.queue.filter fun f => decide (f.unique ∉ us)
  calls : s'.hub.calls = s.hub.calls
  progress : ∀ r, s'.hub.progress r = s.hub.progress r
  state : s'.hub.state = s.hub.state
  connection : s'.hub.connection = s.hub.connection
  kept : s'.kept = s.kept
  user : s'.user = s.user
  result : s'.result = s.result

end Fuse
