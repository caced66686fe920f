-- What shape a tree in memory has, whatever was done to it: every node hangs in one
-- place, climbing leads to the root, and the figures that the nodes carry are right.
-- And how a file system is used: one request after another.
import Fuse.MemFs.Server

namespace Fuse.MemFs

namespace Tree

/-! ## The shape of a tree -/

/-- Going from parent to parent leads to the root, and past none of these nodes. -/
inductive Climbs (t : Tree) (past : List Inode) : Inode → Prop
  | root : Climbs t past rootInode
  | up {ino : Inode} {n : Node} (h : t.node? ino = some n) (hp : ino ∉ past)
      (c : Climbs t past n.parent) : Climbs t past ino

/-- The directory has an entry with the name for the node. -/
def HasEntry (t : Tree) (dir : Inode) (name : Name) (ino : Inode) : Prop :=
  ∃ d, t.node? dir = some d ∧ d.children.get? name = some ino

/-- Whether there is a directory with the number. -/
def isDirectory (t : Tree) (ino : Inode) : Bool := (t.node? ino).any Node.isDir

/-- How many children of a node are directories. -/
def subdirectories (t : Tree) (n : Node) : Nat := n.children.countP fun p => t.isDirectory p.2

/-- The nodes form a tree, and each says how many links, bytes and blocks it has. -/
structure WellFormed (t : Tree) : Prop where
  root : ∃ r, t.node? rootInode = some r ∧ r.isDir = true ∧ r.parent = rootInode
  entry : ∀ dir name ino, t.HasEntry dir name ino → ∃ n, t.node? ino = some n ∧ n.parent = dir
  named : ∀ ino n, t.node? ino = some n → ino ≠ rootInode →
    ∃ dir name, t.HasEntry dir name ino ∧
      ∀ dir' name', t.HasEntry dir' name' ino → dir' = dir ∧ name' = name
  unnamed : ∀ dir name, ¬t.HasEntry dir name rootInode
  climbs : ∀ ino n, t.node? ino = some n → t.Climbs [] ino
  childless : ∀ ino n, t.node? ino = some n → n.isDir = false → n.children = []
  links : ∀ ino n, t.node? ino = some n → n.isDir = true →
    t.subdirectories n + 2 < UInt32.size → n.attr.nlink.toNat = t.subdirectories n + 2
  link : ∀ ino n, t.node? ino = some n → n.isDir = false → n.attr.nlink = 1
  size : ∀ ino n, t.node? ino = some n → n.isDir = false →
    n.attr.size.toNat = n.data.length ∧ n.attr.blocks.toNat = (n.data.length + 511) / 512
  number : ∀ ino n, t.node? ino = some n → n.attr.ino = ino

/-- Each number was given out once. These are the numbers of the nodes that were made
beside the root. After the last number there is, the next is zero. -/
structure Numbered (t : Tree) (made : List Inode) : Prop where
  fresh : made.Nodup
  root : rootInode ∉ made
  next : t.next = .ofNat (made.length + 2)
  given : ∀ ino n, t.node? ino = some n → ino.toNat < made.length + 2
  below : made.length + 2 < UInt64.size → ∀ ino n, t.node? ino = some n → ino < t.next

end Tree

/-! ## Using a file system -/

/-- The number of the node that was made, if the answer to an operation gives one. -/
def made? (op : Operation) (o : Outcome) : Option Inode :=
  match op, o.use with
  | .mkdir .., .answer (.reply (.entry e)) => some e.attr.ino
  | .create .., .answer (.reply (.create e _)) => some e.attr.ino
  | _, _ => none

/-- Serve requests one after another. The numbers are those of the nodes that were
made. -/
def serveAll (fs : MemFs) : List (Request × Operation) → MemFs × List Inode
  | [] => (fs, [])
  | (r, op) :: rest =>
    let (fs, outcome) := fs.handle r op
    let (fs, made) := fs.serveAll rest
    (fs, (made? op outcome).toList ++ made)

end Fuse.MemFs
