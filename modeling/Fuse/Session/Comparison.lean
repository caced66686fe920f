-- What it means that a frame makes no difference. Two runs are compared of which one
-- received one frame more: they did the same, said the same and came to the same, but
-- for what the kernel hears of that frame.
import Fuse.Session.History

namespace Fuse

variable {σ : Type}

/-- Whether a deed is a line of the log. -/
def Deed.isNote : Deed → Bool
  | .noted _ => true
  | _ => false

/-- All that was done, but for the lines of the log. -/
def Hub.acts (h : Hub) : List Deed := h.journal.filter fun d => !d.isNote

/-- What the kernel hears of a frame that cannot be read: nothing if the frame has no
whole header or only forgets, and otherwise one error. -/
def Receipt.complaint (x : Receipt σ) : List Frame :=
  if x.frame.length < inHeaderSize ∨ x.forgets = true then []
  else (x.unique?.map fun unique => .ofErrno unique .eio).toList

/-- The second session received the frame, and the first did not. Nothing that came
later differs, and nothing that is left. -/
structure Inert (x : Receipt σ) (s s' : Session σ) : Prop where
  acts : ∃ later, s.hub.acts = x.session.hub.acts ++ later ∧
    s'.hub.acts = x.session.hub.acts ++ x.complaint.map .sent ++ later
  queue : ∃ later, s.hub.queue = x.session.hub.queue ++ later ∧
    s'.hub.queue = x.session.hub.queue ++ x.complaint ++ later
  calls : s'.hub.calls = s.hub.calls
  state : s'.hub.state = s.hub.state
  connection : s'.hub.connection = s.hub.connection
  pending : s'.hub.pending = s.hub.pending
  slots : s'.hub.slots = s.hub.slots
  kept : s'.kept = s.kept
  tasks : s'.tasks = s.tasks
  user : s'.user = s.user
  result : s'.result = s.result

end Fuse
