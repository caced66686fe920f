-- The operations of a file system in memory with nothing taken for granted: a number that
-- does not fit into its word, and a range of bytes that is not there, stop the operation.
import Fuse.MemFs.Failing

namespace Fuse

/-- The bytes from `start` up to `stop`, if there are that many. -/
def slice? (bs : Bytes) (start stop : Nat) : Option Bytes :=
  if start ≤ stop ∧ stop ≤ bs.length then some ((bs.drop start).take (stop - start)) else none

/-- The sum of some words, if it fits into a word. -/
def sum? (words : List UInt64) : Option UInt64 :=
  words.foldlM
    (fun total n => if total.toNat + n.toNat < UInt64.size then some (total + n) else none) 0

namespace MemFs

namespace Tree

-- The fault that stops an operation.
variable (trap : Fault)

/-! ## What may stop an operation -/

/-- Stop unless this holds. -/
def demand (holds : Bool) : Change Unit := if holds then pure () else throw (.fault trap)

/-- The bytes of a range, which has to be there. -/
def range (bs : Bytes) (start stop : Nat) : Change Bytes :=
  match slice? bs start stop with
  | some part => return part
  | none => throw (.fault trap)

/-- Whether one link more can be counted. -/
def roomAbove (links : UInt32) : Bool := decide (links.toNat + 1 < UInt32.size)

/-- Whether one link less can be counted. -/
def roomBelow (links : UInt32) : Bool := decide (0 < links.toNat)

/-- A directory of which a subdirectory is counted anew has to have room for that. -/
def demandRoom (ino : Inode) (dir : Bool) (room : UInt32 → Bool) : Change Unit := do
  let n ← node ino
  demand trap (!dir || room n.attr.nlink)

/-! ## Operations -/

def createStrictly (now : Timestamp) (parent : Inode) (name : Name) (kind : FileType)
    (perm : UInt16) (owner : Owner) : Change Attr := do
  if maxName < name.length then fail .enametoolong
  if (← directory parent).children.has name then fail .eexist
  let ino := (← get).next
  demand trap (ino.toNat + 1 < UInt64.size)
  modify fun t => { t with next := t.next + 1 }
  let attr := freshAttr now ino kind perm owner
  demandRoom trap parent (kind == .directory) roomAbove
  update parent fun d =>
    { d with
      children := d.children.insert name ino
      attr :=
        { touch now d.attr with
          nlink := if kind = .directory then d.attr.nlink + 1 else d.attr.nlink } }
  modify fun t => { t with nodes := t.nodes.insert ino { attr, parent } }
  return attr

def readStrictly (ino : Inode) (offset : UInt64) (size : UInt32) : Change Bytes := do
  let n ← file ino
  let start := min offset.toNat n.data.length
  let saturated := min (start + size.toNat) (UInt64.size - 1)
  range trap n.data start (min saturated n.data.length)

def writeStrictly (now : Timestamp) (ino : Inode) (offset : UInt64) (data : Bytes) :
    Change UInt32 := do
  let n ← file ino
  let start := offset.toNat
  let stop := start + data.length
  if UInt64.size ≤ stop then fail .efbig
  if n.data.length < stop ∧ capacity ≤ stop then throw (.fault .capacityOverflow)
  let grown := if n.data.length < stop then resizeData n.data stop else n.data
  let place ← range trap grown start stop
  demand trap (place.length = data.length)
  update ino fun n =>
    let grown := if n.data.length < stop then resizeData n.data stop else n.data
    let stored := overwrite grown start data
    { n with data := stored, attr := touch now (withSize stored.length n.attr) }
  return .ofNat data.length

def removeStrictly (now : Timestamp) (parent : Inode) (name : Name) (dir : Bool) :
    Change Unit := do
  let ino ← child parent name
  let n ← node ino
  if !dir && n.isDir then fail .eisdir
  if dir && !n.isDir then fail .enotdir
  if dir && !n.children.isEmpty then fail .enotempty
  modify fun t => { t with nodes := t.nodes.erase ino }
  demandRoom trap parent dir roomBelow
  update parent fun d =>
    { d with
      children := d.children.erase name
      attr := { touch now d.attr with nlink := if dir then d.attr.nlink - 1 else d.attr.nlink } }

def makeRoomStrictly (now : Timestamp) (newParent : Inode) (newName : Name) (p : Plan) :
    Change Unit :=
  if p.replaces then removeStrictly trap now newParent newName p.dir else pure ()

def relocateStrictly (now : Timestamp) (parent : Inode) (name : Name) (newParent : Inode)
    (newName : Name) (p : Plan) : Change Unit := do
  demandRoom trap parent p.dir roomBelow
  update parent fun d =>
    { d with
      children := d.children.erase name
      attr := { touch now d.attr with nlink := if p.dir then d.attr.nlink - 1 else d.attr.nlink } }
  demandRoom trap newParent p.dir roomAbove
  update newParent fun d =>
    { d with
      children := d.children.insert newName p.ino
      attr := { touch now d.attr with nlink := if p.dir then d.attr.nlink + 1 else d.attr.nlink } }
  update p.ino fun n => { n with parent := newParent, attr := { n.attr with ctime := now } }

def renameStrictly (now : Timestamp) (parent : Inode) (name : Name) (newParent : Inode)
    (newName : Name) (flags : UInt32) : Change Unit := do
  match ← plan parent name newParent newName flags with
  | none => pure ()
  | some p => do
    makeRoomStrictly trap now newParent newName p
    relocateStrictly trap now parent name newParent newName p

/-- The figures of the file system, if the blocks can be counted. -/
def statfsStrictly (t : Tree) : Except Fault StatFs :=
  match sum? (t.nodes.map fun p => p.2.attr.blocks) with
  | some blocks => .ok { t.statfs with blocks }
  | none => .error trap

end Tree

/-- Serve an operation, and stop with the fault at the first thing that cannot be done. -/
def handleStrictly (trap : Fault) : Handler MemFs := fun fs r op =>
  match op with
  | .mkdir parent name mode umask =>
    fs.answering
      (Tree.createStrictly trap · parent name .directory (permissions mode umask) (ownerOf r))
      (.entry <| entryOf ·)
  | .create parent name mode umask _ =>
    fs.answering
      (Tree.createStrictly trap · parent name .regularFile (permissions mode umask) (ownerOf r))
      fun a => .create (entryOf a) { fh := 0 }
  | .read ino offset size _ =>
    fs.answering (fun _ => Tree.readStrictly trap ino offset size) .data
  | .write ino offset data _ =>
    fs.answering (Tree.writeStrictly trap · ino offset data) .write
  | .unlink parent name =>
    fs.answering (Tree.removeStrictly trap · parent name false) fun _ => .empty
  | .rmdir parent name =>
    fs.answering (Tree.removeStrictly trap · parent name true) fun _ => .empty
  | .rename parent name newParent newName flags =>
    fs.answering (Tree.renameStrictly trap · parent name newParent newName flags) fun _ => .empty
  | .statfs _ =>
    match Tree.statfsStrictly trap fs.tree with
    | .ok st => (fs, .reply (.statfs st))
    | .error f => (fs, .panicked (.fault f))
  -- Nothing is counted, and no range is taken.
  | _ => fs.handle r op

end MemFs

end Fuse
