-- The grammar of requests. The body of a message is a structure of a fixed length,
-- then names, then as many bytes as the structure announces. What follows after that
-- belongs to nobody.
import Fuse.Operation.Message

namespace Fuse

/-- A name in a message, with the zero byte that ends it. -/
def Name.terminated (name : Name) : Bytes := name ++ [0]

/-- What the body of a message is made of. The structure may announce, at some place
in it, how many bytes come after the names. -/
structure Grammar where
  fixed : Nat := 0
  names : Nat := 0
  announced : Option Nat := none
deriving DecidableEq, Repr

namespace Grammar

/-- How many bytes a structure announces. -/
def dataLength (g : Grammar) (fixed : Bytes) : Nat :=
  match g.announced with
  | some place => Bytes.toNat ((fixed.drop place).take 4)
  | none => 0

/-- A body that begins with all that the grammar asks for. -/
def Accepts (g : Grammar) (body : Bytes) : Prop :=
  ∃ (fixed : Bytes) (names : List Name) (data rest : Bytes),
    body = fixed ++ names.flatMap Name.terminated ++ data ++ rest ∧
    fixed.length = g.fixed ∧ names.length = g.names ∧ (∀ name ∈ names, 0 ∉ name) ∧
    data.length = g.dataLength fixed

end Grammar

/-- The grammar of the messages that carry operations, by the minor version of the
connection. A long time ago, structures were shorter. -/
def Opcode.grammar? (minor : UInt32) : Opcode → Option Grammar
  | .readlink | .statfs => some {}
  | .lookup | .unlink | .rmdir | .removexattr => some { names := 1 }
  | .symlink => some { names := 2 }
  | .forget | .open | .opendir | .listxattr | .access => some { fixed := 8 }
  | .mkdir | .link | .getxattr => some { fixed := 8, names := 1 }
  | .rename => some { fixed := 8, names := 2 }
  | .rename2 => some { fixed := 16, names := 2 }
  | .fsync | .fsyncdir => some { fixed := 16 }
  | .flush => some { fixed := 24 }
  | .setattr => some { fixed := 88 }
  | .getattr => some { fixed := if 9 ≤ minor then 16 else 0 }
  | .mknod | .create => some { fixed := if 12 ≤ minor then 16 else 8, names := 1 }
  | .read | .readdir => some { fixed := if 9 ≤ minor then 40 else 24 }
  | .write => some { fixed := if 9 ≤ minor then 40 else 24, announced := some 16 }
  | .release | .releasedir => some { fixed := if 8 ≤ minor then 24 else 16 }
  | .setxattr => some { fixed := 8, names := 1, announced := some 0 }
  | .init | .destroy | .interrupt | .batchForget => none

end Fuse
