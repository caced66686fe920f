-- What the two file systems do with each request: they answer it, and nothing is wrong with
-- the answer. Only the file system in memory stops where a file would get longer than one can
-- be stored.
import Fuse.HelloFs
import Fuse.MemFs.Shape
import Fuse.MemFs.Strict
import Fuse.Session.Duties

namespace Fuse

/-! ## The file system in memory -/

namespace MemFs

namespace Tree

/-- Whether there is a node with the number, and it is not a directory. -/
def isFile (t : Tree) (ino : Inode) : Bool := (t.node? ino).any fun n => !n.isDir

/-- How many bytes there are in all files. -/
def stored (t : Tree) : Nat := t.nodes.foldl (fun total p => total + p.2.data.length) 0

/-- Whether an operation makes a file longer than one can be stored. -/
def tooLong (t : Tree) : Operation → Bool
  | .setattr ino set => t.isFile ino && set.size.any fun size => capacity ≤ size.toNat
  | .write ino offset data _ =>
    let stop := offset.toNat + data.length
    t.isFile ino && decide (capacity ≤ stop ∧ stop < UInt64.size)
  | _ => false

/-- Whether an operation writes to a file past the last place that there is a number for. -/
def tooFar (t : Tree) : Operation → Bool
  | .write ino offset data _ => t.isFile ino && decide (UInt64.size ≤ offset.toNat + data.length)
  | _ => false

end Tree

/-- The contract of the file system in memory for one request. Nothing else than the want of
memory stops it: no number has to fit that does not, and no range is taken that is not
there. For this no directory may have as many subdirectories as there are numbers of links.
All data are in memory at one time, and so there are fewer bytes than addresses. -/
structure Contract (fs : MemFs) (r : Request) (op : Operation) : Prop where
  answers : (fs.handle r op).2.Satisfies r ∨
    (fs.handle r op).2 = .panicked (.fault .capacityOverflow)
  tooLong : (fs.handle r op).2 = .panicked (.fault .capacityOverflow) ↔
    fs.tree.tooLong op = true
  tooFar : fs.tree.tooFar op = true → (fs.handle r op).2 = .error .efbig
  strict : (∀ ino n, fs.tree.node? ino = some n → fs.tree.subdirectories n + 3 < UInt32.size) →
    (op.kind = .statfs → fs.tree.stored < UInt64.size) →
    ∀ trap, fs.handleStrictly trap r op = fs.handle r op

end MemFs

/-! ## The file system with one file -/

namespace HelloFs

/-- Serve an operation, and stop with the fault at the first thing that cannot be done. -/
def replyStrictly (trap : Fault) (fs : HelloFs) : Operation → Except Fault Reply
  | .read _ offset size _ =>
    let start := min offset.toNat fs.content.length
    let stop := start + size.toNat
    if UInt64.size ≤ stop then .error trap
    else
      match slice? fs.content start (min stop fs.content.length) with
      | some part => .ok (.data part)
      | none => .error trap
  | op => .ok (fs.reply op)

/-- The contract of the file system with one file for one request. The content has to be one
that can be stored. -/
structure Contract (fs : HelloFs) (r : Request) (op : Operation) : Prop where
  answers : (Outcome.reply (fs.reply op)).Satisfies r
  strict : fs.content.length < MemFs.capacity → ∀ trap, fs.replyStrictly trap op = .ok (fs.reply op)

end HelloFs

end Fuse
