-- A tree of nodes in memory. Every node but the root is the child of one
-- directory under one name. A change either succeeds, or gives an error number,
-- or fails for want of memory; the tree is threaded through all of it, so that a
-- change that stops halfway shows.
import Fuse.KeyedList
import Fuse.Reply.Basic

namespace Fuse.MemFs

/-! ## Nodes -/

/-- A node: a directory has children, and a file has data. -/
structure Node where
  attr : Attr
  parent : Inode
  data : Bytes := []
  children : KeyedList Name Inode := []
deriving DecidableEq, Repr

def Node.isDir (n : Node) : Bool := n.attr.kind == .directory

/-- All nodes by their numbers. Numbers are given out in turn. -/
structure Tree where
  nodes : KeyedList Inode Node
  next : Inode
deriving DecidableEq, Repr

/-- The owner of a node. -/
structure Owner where
  uid : UInt32
  gid : UInt32
deriving DecidableEq, Repr

/-- The longest name that a node is made with. -/
def maxName : Nat := 255

/-- The size of a block, as the figures of the file system give it. -/
def blockSize : UInt32 := 4096

/-- The length from which on a file cannot be stored. -/
def capacity : Nat := UInt64.size / 2

/-! ## Attributes -/

/-- Set all three times. -/
def stamp (now : Timestamp) (a : Attr) : Attr := { a with atime := now, mtime := now, ctime := now }

/-- Set the times of a change to the content. -/
def touch (now : Timestamp) (a : Attr) : Attr := { a with mtime := now, ctime := now }

/-- Set the size and the number of blocks of 512 bytes. -/
def withSize (size : Nat) (a : Attr) : Attr :=
  { a with size := .ofNat size, blocks := .ofNat ((size + 511) / 512) }

/-- The attributes of a node without content. A directory has a second link,
from itself. -/
def freshAttr (now : Timestamp) (ino : Inode) (kind : FileType) (perm : UInt16) (owner : Owner) :
    Attr :=
  stamp now
    { ino, kind, perm, uid := owner.uid, gid := owner.gid,
      nlink := if kind = .directory then 2 else 1 }

/-- The time that a request wants. -/
def resolve (now : Timestamp) : SetTime → Timestamp
  | .at time => time
  | .now => now

/-- Cut the data off at a length, or fill it up with zeros. -/
def resizeData (data : Bytes) (size : Nat) : Bytes :=
  data.take size ++ List.replicate (size - data.length) 0

/-- Put data in place of the bytes from `start` on. -/
def overwrite (old : Bytes) (start : Nat) (data : Bytes) : Bytes :=
  old.take start ++ data ++ old.drop (start + data.length)

/-! ## Changes -/

/-- Why a change did not succeed. -/
inductive Failure where
  | errno (errno : Errno)
  | fault (fault : Fault)
deriving DecidableEq, Repr

/-- A change of the tree with a result. What was changed before a failure stays
changed. -/
abbrev Change := ExceptT Failure (StateM Tree)

namespace Tree

def fail {α : Type} (e : Errno) : Change α := throw (.errno e)

/-- The tree with nothing but its root. The root is its own parent. -/
def root (now : Timestamp) (owner : Owner) : Tree where
  nodes := [(rootInode,
    { attr := freshAttr now rootInode .directory 0o755 owner, parent := rootInode })]
  next := rootInode + 1

def node? (t : Tree) (ino : Inode) : Option Node := t.nodes.get? ino

/-- A node that has to exist. -/
def node (ino : Inode) : Change Node := do
  match (← get).node? ino with
  | some n => return n
  | none => fail .enoent

/-- A node that has to be a directory. -/
def directory (ino : Inode) : Change Node := do
  let n ← node ino
  if n.isDir then return n else fail .enotdir

/-- A node that must not be a directory. -/
def file (ino : Inode) : Change Node := do
  let n ← node ino
  if n.isDir then fail .eisdir else return n

/-- The number of a child. -/
def child (parent : Inode) (name : Name) : Change Inode := do
  match (← directory parent).children.get? name with
  | some ino => return ino
  | none => fail .enoent

/-- Change a node that has to exist. -/
def update (ino : Inode) (f : Node → Node) : Change Unit := do
  let _ ← node ino
  modify fun t => { t with nodes := t.nodes.modify ino f }

/-! ## Reading -/

def lookup (parent : Inode) (name : Name) : Change Attr := do
  return (← node (← child parent name)).attr

def getattr (ino : Inode) : Change Attr := return (← node ino).attr

/-- The bytes of a file from `offset` on, at most `size` of them. -/
def read (ino : Inode) (offset : UInt64) (size : UInt32) : Change Bytes := do
  return ((← file ino).data.drop offset.toNat).take size.toNat

/-- A directory with itself, its parent and its children, in the order of their
names. -/
def entries (ino : Inode) : Change (List (Inode × FileType × Name)) := do
  let d ← directory ino
  let children ← d.children.mapM fun (name, child) => do
    return (child, (← node child).attr.kind, name)
  return (ino, .directory, [0x2e]) :: (d.parent, .directory, [0x2e, 0x2e]) :: children

/-- The figures of the file system. The blocks are those of the attributes. -/
def statfs (t : Tree) : StatFs where
  blocks := t.nodes.foldl (fun total p => total + p.2.attr.blocks) 0
  files := .ofNat t.nodes.length
  bsize := blockSize
  frsize := blockSize
  namelen := .ofNat maxName

/-! ## Making nodes -/

/-- Make a node without content. -/
def create (now : Timestamp) (parent : Inode) (name : Name) (kind : FileType) (perm : UInt16)
    (owner : Owner) : Change Attr := do
  if maxName < name.length then fail .enametoolong
  if (← directory parent).children.has name then fail .eexist
  let ino := (← get).next
  modify fun t => { t with next := t.next + 1 }
  let attr := freshAttr now ino kind perm owner
  update parent fun d =>
    { d with
      children := d.children.insert name ino
      attr :=
        { touch now d.attr with
          nlink := if kind = .directory then d.attr.nlink + 1 else d.attr.nlink } }
  modify fun t => { t with nodes := t.nodes.insert ino { attr, parent } }
  return attr

/-! ## Changing nodes -/

/-- Give a file a length. -/
def resize (now : Timestamp) (ino : Inode) (size : UInt64) : Change Unit := do
  let n ← file ino
  if n.data.length < size.toNat ∧ capacity ≤ size.toNat then throw (.fault .capacityOverflow)
  update ino fun n =>
    { n with
      data := resizeData n.data size.toNat
      attr := { withSize size.toNat n.attr with mtime := now } }

/-- Set the attributes that a request selects. The time of the change of the
attributes is set in any case. -/
def setattr (now : Timestamp) (ino : Inode) (set : SetAttr) : Change Attr := do
  let _ ← node ino
  match set.size with
  | some size => resize now ino size
  | none => pure ()
  update ino fun n =>
    { n with
      attr :=
        { n.attr with
          perm := (set.mode.map fun mode => (mode &&& 0o7777).toUInt16).getD n.attr.perm
          uid := set.uid.getD n.attr.uid
          gid := set.gid.getD n.attr.gid
          atime := (set.atime.map (resolve now)).getD n.attr.atime
          mtime := (set.mtime.map (resolve now)).getD n.attr.mtime
          ctime := set.ctime.getD now } }
  getattr ino

/-- Empty a file. -/
def truncate (now : Timestamp) (ino : Inode) : Change Unit :=
  update ino fun n => { n with data := [], attr := touch now (withSize 0 n.attr) }

/-- Open a file, and empty it if the flags say so. -/
def openFile (now : Timestamp) (ino : Inode) (truncates : Bool) : Change Unit := do
  let _ ← file ino
  if truncates then truncate now ino

/-- Store data in a file, which grows as far as it has to. -/
def write (now : Timestamp) (ino : Inode) (offset : UInt64) (data : Bytes) : Change UInt32 := do
  let n ← file ino
  let start := offset.toNat
  let stop := start + data.length
  if UInt64.size ≤ stop then fail .efbig
  if n.data.length < stop ∧ capacity ≤ stop then throw (.fault .capacityOverflow)
  update ino fun n =>
    let grown := if n.data.length < stop then resizeData n.data stop else n.data
    let stored := overwrite grown start data
    { n with data := stored, attr := touch now (withSize stored.length n.attr) }
  return .ofNat data.length

/-! ## Removing and moving -/

/-- Remove a child. `dir` says whether it has to be a directory, which must be
empty, or must not be one. -/
def remove (now : Timestamp) (parent : Inode) (name : Name) (dir : Bool) : Change Unit := do
  let ino ← child parent name
  let n ← node ino
  if !dir && n.isDir then fail .eisdir
  if dir && !n.isDir then fail .enotdir
  if dir && !n.children.isEmpty then fail .enotempty
  modify fun t => { t with nodes := t.nodes.erase ino }
  update parent fun d =>
    { d with
      children := d.children.erase name
      attr := { touch now d.attr with nlink := if dir then d.attr.nlink - 1 else d.attr.nlink } }

/-- Climb from a node towards the root, and say whether `ino` is met on the way.
The walk ends without an answer when it takes too many steps. -/
def climb (t : Tree) (ino : Inode) : (steps : Nat) → Inode → Option (Except Errno Bool)
  | 0, _ => none
  | steps + 1, cursor =>
    if cursor = rootInode then some (.ok false)
    else if cursor = ino then some (.ok true)
    else
      match t.node? cursor with
      | some n => climb t ino steps n.parent
      | none => some (.error .enoent)

/-- A directory must not move to a place within itself. -/
def checkOutside (ino newParent : Inode) : Change Unit := do
  let t ← get
  match t.climb ino (t.nodes.length + 1) newParent with
  | some (.ok false) => return
  | some (.ok true) | none => fail .einval
  | some (.error e) => fail e

/-- Rename without replacing. The only flag that is understood. -/
def renameNoreplace : UInt32 := 1

/-- Move a child to a new place and a new name. What stood there is replaced, if
it may be. -/
def rename (now : Timestamp) (parent : Inode) (name : Name) (newParent : Inode) (newName : Name)
    (flags : UInt32) : Change Unit := do
  if flags &&& ~~~renameNoreplace ≠ 0 then fail .einval
  let ino ← child parent name
  let _ ← directory newParent
  let movingDir := (← node ino).isDir
  if movingDir then checkOutside ino newParent
  match (← directory newParent).children.get? newName with
  | some target =>
    if target = ino then return
    if flags &&& renameNoreplace ≠ 0 then fail .eexist
    let targetDir := (← node target).isDir
    if !movingDir && targetDir then fail .eisdir
    if movingDir && !targetDir then fail .enotdir
    remove now newParent newName targetDir
  | none => pure ()
  update parent fun d =>
    { d with
      children := d.children.erase name
      attr :=
        { touch now d.attr with nlink := if movingDir then d.attr.nlink - 1 else d.attr.nlink } }
  update newParent fun d =>
    { d with
      children := d.children.insert newName ino
      attr :=
        { touch now d.attr with nlink := if movingDir then d.attr.nlink + 1 else d.attr.nlink } }
  update ino fun n => { n with parent := newParent, attr := { n.attr with ctime := now } }

end Tree

end Fuse.MemFs
