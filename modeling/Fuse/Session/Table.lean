-- The operations that a file system serves. A handler is a function: from what
-- the file system keeps, the request and the operation, to what it keeps now and
-- what happens to the request. The table is filled before the session starts.
import Fuse.Session.Hub

namespace Fuse

/-! ## Handlers -/

/-- What a handler does with its request: answer it or let it go, keep it for
later, or leave it to a task that waits until the request is interrupted.
Requests that are kept have places, counted from zero in the order in which they
came. -/
inductive Use where
  | answer (answer : Answer)
  | keep
  | onInterrupt (answer : Answer)
deriving DecidableEq, Repr

/-- What a call of a handler comes to. The notes are written first, then the
request is used, and then the handler may panic. A handler that panics while it
still holds its request lets it go. -/
structure Outcome where
  notes : List Event := []
  use : Use
  panic : Option Panic := none
deriving DecidableEq, Repr

namespace Outcome

def reply (r : Reply) : Outcome := { use := .answer (.reply r) }

def error (e : Errno) : Outcome := reply (.error e)

/-- A panic of a handler that still holds its request. -/
def panicked (p : Panic) : Outcome := { use := .answer .drop, panic := some p }

end Outcome

/-- Serves operations. `σ` is what the file system keeps. -/
abbrev Handler (σ : Type) := σ → Request → Operation → σ × Outcome

/-- What the file system says to the parameters of a connection. -/
inductive Verdict where
  | accept
  | refuse (errno : Errno)
  | panic (panic : Panic)
deriving DecidableEq, Repr

/-- What a call of the handler for the handshake comes to. -/
structure Greeting (σ : Type) where
  user : σ
  settings : List Config.Setting := []
  verdict : Verdict := .accept

/-- Called once, in the handshake. It sees the state of the session. -/
abbrev InitHandler (σ : Type) := σ → State → Config → Greeting σ

/-- What a call of the handler for the end comes to. It may answer requests
that were kept, by their places, and learns how each attempt went. -/
structure Farewell (σ : Type) where
  answers : List (Nat × Answer) := []
  user : List Completion → σ
  panic : Option Panic := none

/-- Called once, when a session that had a connection ends. It sees the state
of the session. -/
abbrev DestroyHandler (σ : Type) := σ → State → Farewell σ

/-! ## The table -/

/-- The operations that a file system serves. The others are answered as not
implemented. -/
structure Table (σ : Type) where
  handler : OpKind → Option (Handler σ)
  onInit : Option (InitHandler σ) := none
  onDestroy : Option (DestroyHandler σ) := none

namespace Table

variable {σ : Type}

def empty : Table σ := { handler := fun _ => none }

/-- Put a handler in the place of the one for its kind. -/
def set (t : Table σ) (kind : OpKind) (handler : Handler σ) : Table σ :=
  { t with handler := fun k => if k = kind then some handler else t.handler k }

/-- Install or replace the handler of a kind. The two kinds without requests
have handlers of their own sort. -/
def register (t : Table σ) (kind : OpKind) (handler : Handler σ) : Except Panic (Table σ) :=
  if kind.carriesRequest then .ok (t.set kind handler) else .error (.noRequest kind)

/-- A handler that only ever sees operations of one kind. An operation of
another kind does not reach it and is answered with an error. -/
def only (kind : OpKind)
    (handler : σ → Request → (op : Operation) → op.kind = kind → σ × Outcome) : Handler σ :=
  fun user r op =>
    if h : op.kind = kind then handler user r op h
    else (user, { Outcome.error .eio with notes := [.misrouted op.kind kind] })

/-- Install or replace the handler of a kind by one that only sees this kind. -/
def on (t : Table σ) (kind : OpKind)
    (handler : σ → Request → (op : Operation) → op.kind = kind → σ × Outcome) :
    Except Panic (Table σ) :=
  t.register kind (only kind handler)

/-- The handler of a kind. -/
def resolve (t : Table σ) (kind : OpKind) : Option (Handler σ) := t.handler kind

def isRegistered (t : Table σ) : OpKind → Bool
  | .init => t.onInit.isSome
  | .destroy => t.onDestroy.isSome
  | kind => (t.handler kind).isSome

/-- A text that names what the table serves. -/
def debugText (t : Table σ) : String :=
  let names := (OpKind.all.filter t.isRegistered).map fun k => "\"" ++ k.name ++ "\""
  "OperationTable \x7b registered: [" ++ ", ".intercalate names ++ "] \x7d"

end Table

/-- A file system ready to be served, the profile in which to serve it, and the order in which
requests come out that are still pending at the end. -/
structure Server (σ : Type) where
  table : Table σ
  profile : Profile := .dev
  drain : Drain := .ascending

end Fuse
