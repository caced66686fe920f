-- What a file system owes to the session that serves it: its handlers answer their requests,
-- with answers that the session takes, and nothing but a request changes what it keeps.
import Fuse.Session.Table

namespace Fuse

/-- The handler answers its request, and there is nothing wrong with the answer. -/
def Outcome.Satisfies (o : Outcome) (r : Request) : Prop :=
  ∃ reply, o = .reply reply ∧ r.check reply = none

/-- The handshake and the farewell go well, and change nothing that the file system keeps. -/
structure Table.Quiet {σ : Type} (t : Table σ) : Prop where
  onInit : ∀ handler, t.onInit = some handler → ∀ user state config,
    (handler user state config).user = user ∧ (handler user state config).verdict = .accept
  onDestroy : ∀ handler, t.onDestroy = some handler → ∀ user state,
    (handler user state).answers = [] ∧ (handler user state).panic = none ∧
      ∀ completions, (handler user state).user completions = user

end Fuse
