-- Lock owners in messages. Some structures tell who holds the locks at stake, and most of them
-- only when a flag announces it; older connections have structures without the owner.
import Fuse.Operation.Message

namespace Fuse

/-- What a structure tells of a lock owner: the place of the flag word and the bits of it that
announce the owner, if it has to be announced, and the place of the owner, if there is one. -/
structure OwnerField where
  announcement : Option (Nat × List Nat) := none
  place : Option Nat
deriving DecidableEq, Repr

namespace OwnerField

/-- Whether a body announces a lock owner. -/
def announced (f : OwnerField) (body : Bytes) : Bool :=
  f.announcement.all fun (word, bits) => bits.any (body.numberAt word 4).testBit

/-- The lock owner that a body tells. -/
def owner? (f : OwnerField) (body : Bytes) : Option UInt64 :=
  if f.announced body then f.place.map fun place => .ofNat (body.numberAt place 8) else none

/-- In the structure of a read or a write. -/
def ofTransfer (minor : UInt32) : OwnerField where
  announcement := some (20, [1])
  place := if 9 ≤ minor then some 24 else none

/-- In the structure of a release. Data that is written out announces the owner, and so do
locks that are dropped. -/
def ofRelease (minor : UInt32) : OwnerField where
  announcement := some (12, [0, 1])
  place := if 8 ≤ minor then some 16 else none

/-- In the structure of a flush, which always has one. -/
def ofFlush : OwnerField := { place := some 16 }

end OwnerField

/-- Which messages tell of lock owners, and where, by the minor version of the connection. -/
def Opcode.ownerField? (minor : UInt32) : Opcode → Option OwnerField
  | .read | .readdir | .write => some (.ofTransfer minor)
  | .release | .releasedir => some (.ofRelease minor)
  | .flush => some .ofFlush
  | _ => none

/-- The open file that an operation names. -/
def Operation.file? : Operation → Option FileInfo
  | .read _ _ _ file | .readdir _ _ _ file | .write _ _ _ file => some file
  | .release _ file | .releasedir _ file | .flush _ file => some file
  | .fsync _ _ file | .fsyncdir _ _ file => some file
  | _ => none

end Fuse
