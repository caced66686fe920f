-- Requests, and what an answer has to look like. A request waits for one
-- answer; an answer of the wrong form, or one that says too much, is a fault of
-- the file system and never reaches the kernel.
import Fuse.Reply.Basic

namespace Fuse

/-- A request that waits for its answer. The handle names it within the
session, whatever the kernel calls it. -/
structure Request where
  handle : Nat
  unique : UInt64
  uid : UInt32
  gid : UInt32
  pid : UInt32
  kind : OpKind
  limit : Option UInt32
deriving DecidableEq, Repr

/-! ## Violations -/

/-- What is wrong with an answer. -/
inductive Violation where
  | shape (shape : Reply.Shape) (kind : OpKind)
  | errno (errno : Int32)
  | tooLong (length : Nat) (limit : UInt32)
  | xattrSize (requested : UInt32)
deriving DecidableEq, Repr

def Violation.message : Violation → String
  | .shape s kind => s!"{s.name} reply is not valid for a {kind.name} request"
  | .errno n => s!"errno {n.toInt} is outside 1..=4095"
  | .tooLong n limit => s!"reply of {n} bytes exceeds the {limit.toNat} allowed"
  | .xattrSize requested =>
    s!"xattr reply does not match the requested size {requested.toNat}"

namespace Request

/-- The most bytes that an answer may hold. -/
def space (r : Request) : UInt32 := r.limit.getD 0xffffffff

/-- What is wrong with a run of bytes as an answer. -/
def checkLength (r : Request) (n : Nat) : Option Violation :=
  if r.space.toNat < n then some (.tooLong n r.space) else none

/-- What is wrong with an answer to this request, if anything. An answer with
the value of an extended attribute needs a space for it, and an answer with only
its size needs that there was none. -/
def check (r : Request) (reply : Reply) : Option Violation :=
  if !r.kind.accepts reply.shape then some (.shape reply.shape r.kind)
  else
    match reply with
    | .error e => if e.valid then none else some (.errno e.raw)
    | .write n => r.checkLength n.toNat
    | .dir l => r.checkLength l.bytes.length
    | .data bs =>
      (r.checkLength bs.length).or
        (if r.kind ≠ .read ∧ r.space = 0 then some (.xattrSize r.space) else none)
    | .xattrSize _ => if r.space ≠ 0 then some (.xattrSize r.space) else none
    | _ => none

/-- The answer that takes the place of a wrong one. -/
def substitute (r : Request) : Reply := if r.kind.expectsReply then .error .eio else .none

end Request

/-! ## Panics -/

/-- Why a handler, or the program itself, stopped halfway. -/
inductive Panic where
  | fault (fault : Fault)
  | violation (unique : UInt64) (kind : OpKind) (violation : Violation)
  | answeredTwice (unique : UInt64) (kind : OpKind)
  | noRequest (kind : OpKind)
  | text (text : String)
  | other
deriving DecidableEq, Repr

/-- The text of a panic. One that carries something else than text has a text
that says so. -/
def Panic.message : Panic → String
  | .fault f => f.message
  | .violation unique kind v => s!"request {unique.toNat} ({kind.name}): {v.message}"
  | .answeredTwice unique kind => s!"request {unique.toNat} ({kind.name}) completed twice"
  | .noRequest kind => s!"{kind.name} carries no request, register it with on_init/on_destroy"
  | .text t => t
  | .other => "non-string panic payload"

/-! ## Answers -/

/-- What can be done with a request: answer it, or let it go unanswered. -/
inductive Answer where
  | reply (reply : Reply)
  | drop
deriving DecidableEq, Repr

/-- How an attempt to answer a request went. -/
inductive Completion where
  | done
  | panicked (panic : Panic)
  | noSuchRequest
deriving DecidableEq, Repr

/-- The completion of an answer that was given. -/
def Completion.ofPanic? : Option Panic → Completion
  | none => .done
  | some p => .panicked p

end Fuse
