-- A file system that follows a script. It keeps nothing but the record of its
-- calls, so it shows what a session does with handlers of every sort.
import Fuse.Session.Table

namespace Fuse

/-! ## Scripts -/

/-- What a handler does with a call. -/
inductive Script.Action where
  | answer (answer : Answer)
  | park
  | panic (panic : Panic)
  | thenPanic (first : Script.Action) (panic : Panic)
  | onInterrupt (answer : Answer)
  | forward (kind : OpKind)
deriving DecidableEq, Repr

/-- What the handler for the handshake does. A handler that observes writes the
state of the session into its record. -/
structure Script.Init where
  settings : List Config.Setting := []
  verdict : Verdict := .accept
  observe : Bool := false
deriving DecidableEq, Repr

/-- What the handler for the end does: it answers requests that were parked, by
their places, and may panic then. -/
structure Script.Destroy where
  answers : List (Nat × Answer) := []
  panic : Option Panic := none
  observe : Bool := false
deriving DecidableEq, Repr

/-- What the file system does, call by call. A kind without a list has no
handler. The handlers of a typed script only see operations of their kind. -/
structure Script where
  actions : OpKind → Option (List Script.Action)
  typed : Bool := false
  onInit : Option Script.Init := none
  onDestroy : Option Script.Destroy := none

/-- The action for the call that comes after `n` others. The last action is
repeated. -/
def Script.actionAt (actions : List Script.Action) (n : Nat) : Script.Action :=
  (actions[n]?.or actions.getLast?).getD (.answer .drop)

/-! ## Records -/

/-- The record of one call. -/
inductive Call where
  | operation (request : Request) (operation : Operation) (forwarded : Bool)
  | init (before after : Config) (state : Option State)
  | destroy (completed : List Completion) (state : Option State)
deriving DecidableEq, Repr

/-- Whether the record is of a call of this kind that came from the kernel. -/
def Call.isDirect (kind : OpKind) : Call → Bool
  | .operation _ op forwarded => op.kind == kind && !forwarded
  | _ => false

/-! ## The file system -/

/-- What the file system keeps: the record of its calls. -/
structure Scripted where
  calls : List Call := []
deriving DecidableEq, Repr

namespace Scripted

def record (fs : Scripted) (c : Call) : Scripted := { fs with calls := fs.calls ++ [c] }

/-- How many calls of a kind came from the kernel. -/
def callCount (fs : Scripted) (kind : OpKind) : Nat := fs.calls.countP (·.isDirect kind)

/-! ## Forwarding -/

/-- The error of a call that was forwarded and served. -/
def forwardedErrno : Errno := ⟨117⟩

/-- The error of a call that nothing serves where it was forwarded to. -/
def unresolvedErrno : Errno := ⟨118⟩

/-- The handlers that forwarded calls come to. Each only sees its own kind. -/
def relay : Table Scripted where
  handler kind :=
    if kind.carriesRequest then
      some <| Table.only kind fun fs r op _ =>
        (fs.record (.operation r op true),
          .reply (if r.kind.expectsReply then .error forwardedErrno else .none))
    else none

/-! ## The handlers -/

/-- Carry out an action. -/
def perform (fs : Scripted) (r : Request) (op : Operation) : Script.Action → Scripted × Outcome
  | .answer a => (fs, { use := .answer a })
  | .park => (fs, { use := .keep })
  | .panic p => (fs, .panicked p)
  | .thenPanic first p =>
    let (fs, outcome) := fs.perform r op first
    (fs, { outcome with panic := outcome.panic.or (some p) })
  | .onInterrupt a => (fs, { use := .onInterrupt a })
  | .forward kind =>
    match relay.resolve kind with
    | some handler => handler fs r op
    | none => (fs, .error unresolvedErrno)

/-- Serve a call with the next action of its kind. -/
def handle (actions : List Script.Action) : Handler Scripted := fun fs r op =>
  (fs.record (.operation r op false)).perform r op (Script.actionAt actions (fs.callCount op.kind))

/-- Serve the handshake. -/
def greet (script : Script.Init) : InitHandler Scripted := fun fs state config =>
  { user := fs.record
      (.init config (config.applyAll script.settings) (if script.observe then some state else none))
    settings := script.settings
    verdict := script.verdict }

/-- Serve the end. -/
def farewell (script : Script.Destroy) : DestroyHandler Scripted := fun fs state =>
  { answers := script.answers
    user := fun completed =>
      fs.record (.destroy completed (if script.observe then some state else none))
    panic := script.panic }

end Scripted

/-- The handlers of a script. -/
def Script.table (script : Script) : Table Scripted where
  handler kind :=
    (script.actions kind).map fun actions =>
      if script.typed then Table.only kind fun fs r op _ => Scripted.handle actions fs r op
      else Scripted.handle actions
  onInit := script.onInit.map Scripted.greet
  onDestroy := script.onDestroy.map Scripted.farewell

end Fuse
