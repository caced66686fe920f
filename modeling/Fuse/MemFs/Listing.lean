-- What a listing of a directory in memory has to tell, and when it can go on where it
-- stopped although the directory changed.
import Fuse.MemFs.Shape
import Fuse.Paging

namespace Fuse

/-- The entries of a directory: itself, its parent, and then its children. -/
def withDots (dir parent : Inode) (children : List (Inode × FileType × Name)) :
    List (Inode × FileType × Name) :=
  (dir, .directory, [0x2e]) :: (parent, .directory, [0x2e, 0x2e]) :: children

namespace MemFs

namespace Tree

/-- The type of a node, if it is there. -/
def kindOf (t : Tree) (ino : Inode) : FileType :=
  ((t.node? ino).map (·.attr.kind)).getD .regularFile

/-- The entries of a directory, if it is there. -/
def listing (t : Tree) (dir : Inode) : List (Inode × FileType × Name) :=
  match t.node? dir with
  | some d => withDots dir d.parent (d.children.map fun c => (c.2, t.kindOf c.2, c.1))
  | none => []

/-- This is where the directory hangs, and these are its children in the order of their names,
each with its number and its type. The root hangs in itself. -/
structure ListedBy (t : Tree) (dir parent : Inode)
    (children : List (Inode × FileType × Name)) : Prop where
  hangs : dir = rootInode ∧ parent = rootInode ∨ ∃ name, t.HasEntry parent name dir
  sorted : children.Pairwise fun x y => x.2.2 < y.2.2
  mem : ∀ ino kind name, (ino, kind, name) ∈ children ↔
    t.HasEntry dir name ino ∧ ∃ n, t.node? ino = some n ∧ n.attr.kind = kind

/-- How many children of a directory have a name that does not come after this one. -/
def upTo (t : Tree) (dir : Inode) (name : Name) : Nat :=
  (t.node? dir).elim 0 fun d => d.children.countP fun c => decide (c.1 ≤ name)

end Tree

/-- Between two pages the directory has lost as many names as it has got, up to the name where
the first page ended. Before that page told a child, anything may change. -/
def Steady (dir : Inode) (p q : Page MemFs) : Prop :=
  ∀ e, p.records.getLast? = some e → 2 < e.offset.toNat →
    q.user.tree.upTo dir e.name = p.user.tree.upTo dir e.name

instance (dir : Inode) (p q : Page MemFs) : Decidable (Steady dir p q) :=
  inferInstanceAs (Decidable (∀ e ∈ p.records.getLast?, 2 < e.offset.toNat →
    q.user.tree.upTo dir e.name = p.user.tree.upTo dir e.name))

/-- The page has space for the record of the entry at its offset, if there is one. -/
def Spacious (dir : Inode) (p : Page MemFs) : Prop :=
  ∀ ino kind name, (p.user.tree.listing dir)[p.offset.toNat]? = some (ino, kind, name) →
    align8 (24 + name.length) ≤ p.space.toNat

end MemFs

end Fuse
