-- What a request to set attributes asks for, told by the bits of its mask. What the mask
-- does not select stays, but for two times: the attributes change now, and so does the
-- content when the length is set.
import Fuse.Kernel.Arguments
import Fuse.MemFs.Server

namespace Fuse

/-! ## The mask -/

namespace Kernel

/-- What can be selected, and what an attribute is set to if there is a choice. -/
inductive SetattrBit where
  | mode
  | uid
  | gid
  | size
  | atime
  | mtime
  | atimeNow
  | mtimeNow
  | ctime
deriving DecidableEq

/-- The place of a bit in the mask, counted from the lowest. -/
def SetattrBit.place : SetattrBit → Nat
  | .mode => 0
  | .uid => 1
  | .gid => 2
  | .size => 3
  | .atime => 4
  | .mtime => 5
  | .atimeNow => 7
  | .mtimeNow => 8
  | .ctime => 10

namespace SetattrIn

/-- Whether the mask has a bit. -/
def sets (a : SetattrIn) (b : SetattrBit) : Bool := a.valid.toNat.testBit b.place

def givenAtime (a : SetattrIn) : Timestamp := ⟨a.atime.toInt64, a.atimensec⟩

def givenMtime (a : SetattrIn) : Timestamp := ⟨a.mtime.toInt64, a.mtimensec⟩

def givenCtime (a : SetattrIn) : Timestamp := ⟨a.ctime.toInt64, a.ctimensec⟩

end SetattrIn

end Kernel

/-! ## The node -/

namespace MemFs

/-- The second node is what becomes of the first when its attributes are set now. Data that
is cut off is lost, and data that grows is filled up with zeros. -/
structure Node.Resets (a : Kernel.SetattrIn) (now : Timestamp) (n n' : Node) : Prop where
  perm : n'.attr.perm.toNat = if a.sets .mode then a.mode.toNat % 4096 else n.attr.perm.toNat
  uid : n'.attr.uid = if a.sets .uid then a.uid else n.attr.uid
  gid : n'.attr.gid = if a.sets .gid then a.gid else n.attr.gid
  data : n'.data =
    if a.sets .size then (List.range a.size.toNat).map fun i => n.data.getD i 0 else n.data
  size : n'.attr.size = if a.sets .size then a.size else n.attr.size
  blocks : n'.attr.blocks =
    if a.sets .size then .ofNat ((a.size.toNat + 511) / 512) else n.attr.blocks
  atime : n'.attr.atime =
    if a.sets .atimeNow then now else if a.sets .atime then a.givenAtime else n.attr.atime
  mtime : n'.attr.mtime =
    if a.sets .mtimeNow then now
    else if a.sets .mtime then a.givenMtime
    else if a.sets .size then now
    else n.attr.mtime
  ctime : n'.attr.ctime = if a.sets .ctime then a.givenCtime else now
  ino : n'.attr.ino = n.attr.ino
  kind : n'.attr.kind = n.attr.kind
  nlink : n'.attr.nlink = n.attr.nlink
  rdev : n'.attr.rdev = n.attr.rdev
  blksize : n'.attr.blksize = n.attr.blksize
  parent : n'.parent = n.parent
  children : n'.children = n.children

/-- A node can take the length that is asked for: either none is, or it is a file, and the
length can be stored or is none that it grows to. -/
def Node.Takes (n : Node) (a : Kernel.SetattrIn) : Prop :=
  a.sets .size = true →
    n.isDir = false ∧ (a.size.toNat ≤ n.data.length ∨ a.size.toNat < capacity)

/-- One node is set, in place, and nothing else of the tree changes. -/
structure Tree.SetsOne (t : Tree) (ino : Inode) (n' : Node) (t' : Tree) : Prop where
  there : t'.node? ino = some n'
  others : ∀ i, i ≠ ino → t'.node? i = t.node? i
  next : t'.next = t.next

end MemFs

end Fuse
