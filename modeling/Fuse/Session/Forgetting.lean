-- What a batch of forgets asks for, told by the places in its body. The number of items
-- stands in the first four bytes, and each item takes sixteen bytes behind the first eight.
import Fuse.Proofs.Replaying

namespace Fuse

variable {σ : Type}

/-! ## The batch in a body -/

namespace Batch

/-- How many items the body says that it has. -/
def count (body : Bytes) : Nat := body.numberAt 0 4

/-- The body has its head, and at least as many items as it says. Anything may follow. -/
def Whole (body : Bytes) : Prop := 8 ≤ body.length ∧ 8 + 16 * count body ≤ body.length

instance (body : Bytes) : Decidable (Whole body) := inferInstanceAs (Decidable (_ ∧ _))

/-- The item with a number, counted from zero. -/
def item (body : Bytes) (i : Nat) : Kernel.ForgetOne where
  nodeid := .ofNat (body.numberAt (8 + 16 * i) 8)
  nlookup := .ofNat (body.numberAt (8 + 16 * i + 8) 8)

/-- As many items as the body says that it has, in order. -/
def items (body : Bytes) : List Kernel.ForgetOne := (List.range (count body)).map (item body)

/-- What the file system is asked to do with some items, one after another. -/
def orders (header : Kernel.InHeader) (items : List Kernel.ForgetOne) : List Order :=
  items.map fun i => .ofHeader header (.forget i.nodeid i.nlookup)

end Batch

/-! ## Forgetting -/

/-- Nobody hears of the request: whatever is done with it, at any time, nothing is sent. -/
def Request.Unheard (r : Request) : Prop :=
  ∀ (profile : Profile) (h : Hub) (a : Answer), (h.answer profile r a).1.queue = h.queue

/-- Between two moments the file system was told to forget these items, each once and in
this order, or nothing if it does not serve forgets. What it keeps is what its handler
left, called for one after another. The session goes on, and the kernel hears nothing of
all this, now or later. -/
structure Forgot (srv : Server σ) (header : Kernel.InHeader) (items : List Kernel.ForgetOne)
    (s s' : Session σ) : Prop where
  state : s'.hub.state = s.hub.state
  queue : s'.hub.queue = s.hub.queue
  told : ∃ cs, s'.hub.calls = s.hub.calls ++ cs ∧
    cs.map .ofCall =
      (if (srv.table.resolve .forget).isSome then Batch.orders header items else []) ∧
    s'.user = srv.table.replay s.user cs ∧ ∀ c ∈ cs, c.1.Unheard

end Fuse
