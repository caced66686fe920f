-- What the figures of a file system in memory tell: how much space all of its files take.
-- The figures count space in blocks of a size that they give themselves.
import Fuse.MemFs.Tree

namespace Fuse

/-- The bytes in use, going by figures: those of the blocks that are not free. -/
def StatFs.inUse (st : StatFs) : Nat := (st.blocks.toNat - st.bfree.toNat) * st.frsize.toNat

namespace MemFs

/-- The bytes that a node takes. Its attributes count them in blocks of 512. -/
def Node.space (n : Node) : Nat := n.attr.blocks.toNat * 512

namespace Tree

/-- The nodes that are not directories. -/
def files (t : Tree) : List Node := (t.nodes.map (·.2)).filter fun n => !n.isDir

/-- The bytes that all files take. -/
def space (t : Tree) : Nat := t.files.foldl (fun total n => total + n.space) 0

/-- The bytes in use, going by the figures, are those that all files take, and for each file
less than one block of the figures more. -/
def ToldBy (t : Tree) (st : StatFs) : Prop :=
  t.space ≤ st.inUse ∧ st.inUse ≤ t.space + t.files.length * (st.frsize.toNat - 1)

end Tree

end MemFs

end Fuse
