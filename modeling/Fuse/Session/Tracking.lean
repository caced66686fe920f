-- Which requests the session finds by the number that the kernel gave them. A number
-- stands for one request, until the kernel uses it again.
import Fuse.Session.Registration

namespace Fuse

variable {σ : Type}

namespace Hub

/-- The requests that handlers were called with. -/
def called (h : Hub) : List Request := h.calls.map (·.1)

/-- A handler was called with the request, the kernel waits for the answer, and there was
none yet. -/
def Unanswered (h : Hub) (r : Request) : Prop :=
  r ∈ h.called ∧ r.kind.expectsReply = true ∧ h.progress r = .pending

/-- As long as the request is unanswered, its number leads to it. -/
def Tracks (h : Hub) (r : Request) : Prop :=
  h.Unanswered r → h.pending.get? r.unique = some r.handle

/-- Nobody was called with a request of this number that is still to be answered or let
go. -/
def Free (h : Hub) (u : UInt64) : Prop :=
  ∀ r ∈ h.called, r.unique = u → h.progress r ≠ .pending

instance (h : Hub) (r : Request) : Decidable (h.Unanswered r) :=
  inferInstanceAs (Decidable (_ ∧ _ ∧ _))

instance (h : Hub) (r : Request) : Decidable (h.Tracks r) :=
  inferInstanceAs (Decidable (_ → _))

instance (h : Hub) (u : UInt64) : Decidable (h.Free u) :=
  inferInstanceAs (Decidable (∀ r ∈ h.called, _))

end Hub

/-- The frame asks the file system for something, under a number that is not free. -/
def Receipt.Reuses (u : UInt64) (x : Receipt σ) : Prop :=
  x.session.hub.state = .running ∧
    (∃ o ∈ ordersIn x.session.hub.minor x.frame, o.unique = u) ∧ ¬x.session.hub.Free u

instance (u : UInt64) (x : Receipt σ) : Decidable (x.Reuses u) :=
  inferInstanceAs (Decidable (_ ∧ _ ∧ _))

namespace Session

/-- From the call with the request to its answer, its number is not used for another. -/
def KeepsNumber (srv : Server σ) (s : Session σ) (inputs : List Input) (r : Request) : Prop :=
  ∀ x ∈ s.receipts srv inputs,
    (x.session.handleFrame srv x.frame).1.hub.Unanswered r → ¬x.Reuses r.unique

instance (srv : Server σ) (s : Session σ) (inputs : List Input) (r : Request) :
    Decidable (s.KeepsNumber srv inputs r) :=
  inferInstanceAs (Decidable (∀ x ∈ s.receipts srv inputs, _))

end Session

end Fuse
