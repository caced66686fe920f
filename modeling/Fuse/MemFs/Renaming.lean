-- What a rename is: what stands in its way, in the order in which it is told, and what the
-- tree is afterwards.
import Fuse.MemFs.Shape

namespace Fuse.MemFs

/-- The first of these conditions that holds has this error number. -/
inductive First : List (Prop × Errno) → Errno → Prop
  | here {p : Prop} {e : Errno} {rest : List (Prop × Errno)} (h : p) : First ((p, e) :: rest) e
  | later {p : Prop} {e e' : Errno} {rest : List (Prop × Errno)} (h : ¬p) (r : First rest e') :
      First ((p, e) :: rest) e'

namespace Tree

/-- A node is `top`, or it stands somewhere below it. -/
inductive Within (t : Tree) (top : Inode) : Inode → Prop
  | self : Within t top top
  | inner {dir ino : Inode} {name : Name} (h : t.HasEntry dir name ino) (w : Within t top dir) :
      Within t top ino

/-! ## The way up -/

/-- How many directories there are. -/
def directories (t : Tree) : Nat := t.nodes.countP fun p => p.2.isDir

/-- What comes of going up from a node, from parent to parent, in search of another one, and
after how many steps. No number of steps is too many; the walk ends at the root, at the node
that is sought, or at a number that no node has. -/
inductive Walks (t : Tree) (sought : Inode) : Inode → Nat → Except Errno Bool → Prop
  | atRoot : Walks t sought rootInode 0 (.ok false)
  | met (hr : sought ≠ rootInode) : Walks t sought sought 0 (.ok true)
  | lost {cursor : Inode} (hr : cursor ≠ rootInode) (hs : cursor ≠ sought)
      (hn : t.node? cursor = none) : Walks t sought cursor 0 (.error .enoent)
  | up {cursor : Inode} {n : Node} {steps : Nat} {result : Except Errno Bool}
      (hr : cursor ≠ rootInode) (hs : cursor ≠ sought) (hn : t.node? cursor = some n)
      (w : Walks t sought n.parent steps result) : Walks t sought cursor (steps + 1) result

/-! ## What stands in the way -/

/-- What stands in the way of using a directory. -/
def unusable (t : Tree) (dir : Inode) : List (Prop × Errno) := [
  (t.node? dir = none, .enoent),
  (t.isDirectory dir = false, .enotdir)]

/-- What stands in the way of finding a child. -/
def unfound (t : Tree) (parent : Inode) (name : Name) : List (Prop × Errno) :=
  t.unusable parent ++ [(∀ ino, ¬t.HasEntry parent name ino, .enoent)]

/-- The names lead to two nodes. -/
def Clash (t : Tree) (parent : Inode) (name : Name) (newParent : Inode) (newName : Name)
    (ino other : Inode) : Prop :=
  t.HasEntry parent name ino ∧ t.HasEntry newParent newName other ∧ other ≠ ino

/-- What keeps a node from taking the place of another, whatever that one holds. -/
def hindrances (t : Tree) (parent : Inode) (name : Name) (newParent : Inode) (newName : Name)
    (flags : UInt32) : List (Prop × Errno) :=
  let clash := t.Clash parent name newParent newName
  [(∃ ino other, clash ino other ∧ flags = renameNoreplace, .eexist),
    (∃ ino other, clash ino other ∧ t.isDirectory ino = false ∧ t.isDirectory other = true,
      .eisdir),
    (∃ ino other, clash ino other ∧ t.isDirectory ino = true ∧ t.isDirectory other = false,
      .enotdir)]

/-- What stands in the way of a rename: flags that are not understood; what is to be moved or
where to is not there; a directory would get below itself; or what has the new name already
must not be replaced, a directory with entries least of all. -/
def obstacles (t : Tree) (parent : Inode) (name : Name) (newParent : Inode) (newName : Name)
    (flags : UInt32) : List (Prop × Errno) :=
  (flags ≠ 0 ∧ flags ≠ renameNoreplace, .einval) ::
    (t.unfound parent name ++ (t.unusable newParent ++
      (∃ ino, t.HasEntry parent name ino ∧ t.isDirectory ino = true ∧ t.Within ino newParent,
        .einval) ::
      (t.hindrances parent name newParent newName flags ++
        [(∃ ino other, t.Clash parent name newParent newName ino other ∧
          ∃ inner j, t.HasEntry other inner j, .enotempty)])))

/-! ## What comes of it -/

/-- The two nodes differ at most in their place, their children, their links and the times of
the last changes. -/
def Alike (n n' : Node) : Prop :=
  n' = { n with
    parent := n'.parent
    children := n'.children
    attr := { n.attr with nlink := n'.attr.nlink, mtime := n'.attr.mtime, ctime := n'.attr.ctime } }

/-- The second tree is the first with the node in another place, or under another name. -/
structure Renamed (t t' : Tree) (parent : Inode) (name : Name) (newParent : Inode)
    (newName : Name) (ino : Inode) : Prop where
  moved : t'.HasEntry newParent newName ino
  left : ∀ j, ¬t'.HasEntry parent name j
  others : ∀ dir x j, (dir, x) ≠ (parent, name) → (dir, x) ≠ (newParent, newName) →
    (t'.HasEntry dir x j ↔ t.HasEntry dir x j)
  replaced : ∀ other, t.HasEntry newParent newName other → t'.node? other = none
  kept : ∀ i n, t.node? i = some n → ¬t.HasEntry newParent newName i →
    ∃ n', t'.node? i = some n' ∧ Alike n n' ∧
      (i ≠ parent → i ≠ newParent → n'.children = n.children) ∧
      (i ≠ parent → i ≠ newParent → i ≠ ino → n' = n)
  unmade : ∀ i, t.node? i = none → t'.node? i = none

end Tree

end Fuse.MemFs
