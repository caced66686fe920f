-- What it means that the profile of the build makes no difference. Two sessions serve
-- the same file system, one in each profile, and the same things happen to both of them.
import Fuse.Session.Comparison

namespace Fuse

variable {σ : Type}

/-- The same file system, served in a profile. -/
abbrev Server.inProfile (srv : Server σ) (profile : Profile) : Server σ := { srv with profile }

/-- Whoever stands outside cannot tell the two sessions apart, now or later: the same
frames arrived, and all that was done is the same but for the lines of the log. What the
file system keeps is the same until the end, where it may learn of panics. -/
structure Session.Indistinct (s s' : Session σ) : Prop where
  arrived : s'.link.arrived = s.link.arrived
  queue : s'.hub.queue = s.hub.queue
  calls : s'.hub.calls = s.hub.calls
  states : s'.hub.states = s.hub.states
  acts : s'.hub.acts = s.hub.acts
  result : s'.result = s.result
  connection : s'.hub.connection = s.hub.connection
  pending : s'.hub.pending = s.hub.pending
  slots : s'.hub.slots = s.hub.slots
  kept : s'.kept = s.kept
  tasks : s'.tasks = s.tasks
  user : s.result = none → s'.user = s.user

end Fuse
