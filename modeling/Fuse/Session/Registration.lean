-- How a table is filled, and what a session then hands to whom: the orders of the
-- kernel in the order of its frames, each to the handler that was installed last for
-- its kind.
import Fuse.Session.History

namespace Fuse

variable {σ : Type}

/-! ## Filling a table -/

/-- Serves the operations of one kind. -/
abbrev TypedHandler (σ : Type) (kind : OpKind) :=
  σ → Request → (op : Operation) → op.kind = kind → σ × Outcome

/-- One thing that is installed. -/
inductive Registration (σ : Type) where
  | register (kind : OpKind) (handler : Handler σ)
  | on (kind : OpKind) (handler : TypedHandler σ kind)
  | onInit (handler : InitHandler σ)
  | onDestroy (handler : DestroyHandler σ)

namespace Table

/-- The table after one more registration. One that panics leaves it as it was. -/
def install (t : Table σ) : Registration σ → Table σ × Option Panic
  | .register kind handler => after (t.register kind handler)
  | .on kind handler => after (t.on kind handler)
  | .onInit handler => ({ t with onInit := some handler }, none)
  | .onDestroy handler => ({ t with onDestroy := some handler }, none)
where
  after : Except Panic (Table σ) → Table σ × Option Panic
    | .ok t => (t, none)
    | .error p => (t, some p)

/-- The table after several registrations. -/
def build (regs : List (Registration σ)) : Table σ :=
  regs.foldl (fun t reg => (t.install reg).1) .empty

end Table

namespace Registration

/-- The handler that is installed for a kind, if one is. -/
def serves (kind : OpKind) : Registration σ → Option (TypedHandler σ kind)
  | .register k handler =>
    if k = kind ∧ kind.carriesRequest = true then some fun user r op _ => handler user r op
    else none
  | .on k handler =>
    if h : k = kind ∧ kind.carriesRequest = true then
      some fun user r op hop => handler user r op (hop.trans h.1.symm)
    else none
  | .onInit _ | .onDestroy _ => none

def onInit? : Registration σ → Option (InitHandler σ)
  | .onInit handler => some handler
  | _ => none

def onDestroy? : Registration σ → Option (DestroyHandler σ)
  | .onDestroy handler => some handler
  | _ => none

/-- The handler that was installed last for a kind. -/
def lastFor (regs : List (Registration σ)) (kind : OpKind) : Option (TypedHandler σ kind) :=
  (regs.filterMap (serves kind)).getLast?

/-- What the file system keeps after a call of the handler that was installed last. -/
def call (regs : List (Registration σ)) (user : σ) (c : Request × Operation) : σ :=
  match lastFor regs c.2.kind with
  | some handler => (handler user c.1 c.2 rfl).1
  | none => user

/-- The second installs the same as the first: for a handler of one kind it may install
any handler that does the same with operations of this kind. -/
inductive Like : Registration σ → Registration σ → Prop where
  | same (reg : Registration σ) : Like reg reg
  | untyped (kind : OpKind) (handler : TypedHandler σ kind) (raw : Handler σ)
      (h : ∀ user r op (hop : op.kind = kind), raw user r op = handler user r op hop) :
      Like (.on kind handler) (.register kind raw)

end Registration

/-- What the table holds for a kind is the handler that was installed. -/
def Table.Holds {kind : OpKind} : Option (Handler σ) → Option (TypedHandler σ kind) → Prop
  | some handler, some installed =>
    ∀ user r op (hop : op.kind = kind), handler user r op = installed user r op hop
  | none, none => True
  | _, _ => False

/-! ## Orders -/

/-- One thing that the kernel asks the file system for, and who wants it. -/
structure Order where
  unique : UInt64
  uid : UInt32
  gid : UInt32
  pid : UInt32
  operation : Operation
deriving DecidableEq, Repr

/-- The order that a handler was called with. -/
def Order.ofCall (c : Request × Operation) : Order :=
  ⟨c.1.unique, c.1.uid, c.1.gid, c.1.pid, c.2⟩

def Order.ofHeader (header : Kernel.InHeader) (op : Operation) : Order :=
  ⟨header.unique, header.uid, header.gid, header.pid, op⟩

/-- The orders in a message. Each lookup that is forgotten is one. -/
def Message.orders (header : Kernel.InHeader) : Message → List Order
  | .operation op => [.ofHeader header op]
  | .forget items => items.map fun i => .ofHeader header (.forget i.nodeid i.nlookup)
  | .init _ | .destroy | .interrupt _ | .unsupported _ => []

/-- The message in a frame, if it can be read. -/
def readFrame? (minor : UInt32) (frame : Bytes) : Option (Kernel.InHeader × Message) :=
  match decodeHeader frame with
  | .ok header => (decodeMessage header frame minor).toOption.map (header, ·)
  | .error _ => none

/-- The orders in a frame. -/
def ordersIn (minor : UInt32) (frame : Bytes) : List Order :=
  match readFrame? minor frame with
  | some (header, m) => m.orders header
  | none => []

/-- Whether the kernel says goodbye with a frame. -/
def isGoodbye (minor : UInt32) (frame : Bytes) : Bool :=
  (readFrame? minor frame).any fun p => p.2 = .destroy

/-- The orders in a row of frames, up to the one that ends the session. -/
def ordersOf (minor : UInt32) (frames : List Bytes) : List Order :=
  (frames.takeWhile fun frame => !isGoodbye minor frame).flatMap (ordersIn minor)

/-- Between two moments handlers were called for these orders, one after the other, and
for none that has no handler. -/
def Routed (regs : List (Registration σ)) (s s' : Session σ) (orders : List Order) : Prop :=
  ∃ cs : List (Request × Operation),
    s'.hub.calls = s.hub.calls ++ cs ∧
    cs.map .ofCall = orders.filter (fun o => (Registration.lastFor regs o.operation.kind).isSome) ∧
    s'.user = cs.foldl (Registration.call regs) s.user

/-! ## Frames without a handler -/

/-- What the kernel hears of a frame that asks for something nobody serves: one error, or
nothing if it only forgets. -/
def Receipt.rebuff? (regs : List (Registration σ)) (x : Receipt σ) : Option (List Frame) :=
  match readFrame? x.session.hub.minor x.frame with
  | some (header, .operation op) =>
    if (Registration.lastFor regs op.kind).isSome then none
    else some [.ofErrno header.unique .enosys]
  | some (_, .forget _) => if (Registration.lastFor regs .forget).isSome then none else some []
  | some (header, .unsupported _) => some [.ofErrno header.unique .enosys]
  | _ => none

/-- The session said these frames, and did nothing else that a handler could notice. -/
structure Rebuffs (s s' : Session σ) (frames : List Frame) : Prop where
  queue : s'.hub.queue = s.hub.queue ++ frames
  calls : s'.hub.calls = s.hub.calls
  user : s'.user = s.user
  kept : s'.kept = s.kept
  tasks : s'.tasks = s.tasks

end Fuse
