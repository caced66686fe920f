-- The form that an answer has to have for the kernel, by the operation that it
-- answers and the minor version of the connection.
import Fuse.Reply.Basic

namespace Fuse

/-- The frame is a header that says what went wrong, and nothing follows it. -/
def Frame.Refuses (f : Frame) : Prop :=
  f.payload = [] ∧ ∃ e : Nat, 1 ≤ e ∧ e ≤ 4095 ∧ f.error.toInt = -(e : Int)

/-- The length of an entry. -/
def entrySize (minor : UInt32) : Nat := if minor < 9 then 120 else 128

/-- The length of attributes. -/
def attrSize (minor : UInt32) : Nat := if minor < 9 then 96 else 104

/-- The length of the figures of a file system. -/
def statfsSize (minor : UInt32) : Nat := if minor < 4 then 48 else 80

namespace Operation

/-- The payloads that the operation takes when it went well. A listing and the data
of a file fit into the space that the kernel has, and no more bytes are written than
the kernel sent. Without space for an extended attribute the answer is its size. -/
def Takes (minor : UInt32) (payload : Bytes) : Operation → Prop
  | lookup .. | mknod .. | mkdir .. | symlink .. | link .. => payload.length = entrySize minor
  | create .. => payload.length = entrySize minor + 16
  | getattr .. | setattr .. => payload.length = attrSize minor
  | .open .. | opendir .. => payload.length = 16
  | statfs .. => payload.length = statfsSize minor
  | write _ _ data _ => payload.length = 8 ∧
      ∃ n : UInt32, n.toNat ≤ data.length ∧
        payload = Wire.encode ({ size := n } : Kernel.WriteOut)
  | read _ _ size _ | readdir _ _ size _ => payload.length ≤ size.toNat
  | getxattr _ _ size | listxattr _ size =>
      if size = 0 then payload.length = 8 ∧
        ∃ n : UInt32, payload = Wire.encode ({ size := n } : Kernel.GetxattrOut)
      else payload.length ≤ size.toNat
  | readlink .. => True
  | forget .. => False
  | unlink .. | rmdir .. | rename .. | flush .. | release .. | fsync .. | releasedir ..
  | fsyncdir .. | setxattr .. | removexattr .. | access .. => payload = []

/-- Whether the kernel can take the frame as an answer to the operation. -/
def Admits (op : Operation) (minor : UInt32) (f : Frame) : Prop :=
  op.kind.expectsReply = true ∧ (f.Refuses ∨ f.error = 0 ∧ op.Takes minor f.payload)

end Operation

end Fuse
