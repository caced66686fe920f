-- Directory listings. A listing is a run of records; each record starts at a
-- multiple of eight, and the listing never grows past the space that the kernel
-- has for it.
import Fuse.FileType
import Fuse.Kernel.Answers
import Fuse.Operation.Basic

namespace Fuse

/-! ## Alignment -/

/-- The least multiple of eight that is not below `n`. -/
def align8 (n : Nat) : Nat := (n + 7) / 8 * 8

/-- The same in 64 bits, where the sum may not fit. -/
def alignWord8 (n : UInt64) : Except Fault UInt64 :=
  if n.toNat + 7 < UInt64.size then .ok (.ofNat (align8 n.toNat)) else .error .addOverflow

/-! ## Records -/

/-- One entry of a directory. The kernel goes on after this entry by asking for
its offset. -/
structure DirEntry where
  ino : Inode
  offset : UInt64
  kind : FileType
  name : Name
deriving DecidableEq, Repr

namespace DirEntry

/-- The fixed part of the record of an entry. -/
def toKernel (e : DirEntry) : Kernel.Dirent where
  ino := e.ino
  off := e.offset
  namelen := .ofNat e.name.length
  type := e.kind.direntType

/-- The length of the record before it is filled up. -/
def unpadded (e : DirEntry) : Nat := Wire.size Kernel.Dirent + e.name.length

/-- The length of the record. -/
def padded (e : DirEntry) : Nat := align8 e.unpadded

/-- The record: the fixed part, the name, and zeros up to a multiple of eight. -/
def record (e : DirEntry) : Bytes :=
  Wire.encode e.toKernel ++ e.name ++ List.replicate (e.padded - e.unpadded) 0

end DirEntry

/-! ## Listings -/

/-- A listing under way, for a space of `space` bytes. -/
structure Listing where
  space : UInt32
  bytes : Bytes := []
deriving DecidableEq, Repr

namespace Listing

/-- Whether the record of an entry still fits. -/
def fits (l : Listing) (e : DirEntry) : Bool :=
  decide (l.bytes.length + e.padded ≤ l.space.toNat)

/-- Add the record of an entry if it fits. The answer says whether it did. -/
def push (l : Listing) (e : DirEntry) : Listing × Bool :=
  if l.fits e then ({ l with bytes := l.bytes ++ e.record }, true) else (l, false)

/-- Add entries up to the first one that does not fit. -/
def fill (l : Listing) : List DirEntry → Listing
  | [] => l
  | e :: es =>
    match l.push e with
    | (l, true) => l.fill es
    | (l, false) => l

/-- Add every entry that fits, also after one that does not. -/
def pushAll (l : Listing) (es : List DirEntry) : Listing :=
  es.foldl (fun l e => (l.push e).1) l

/-- A page of a directory. The place of an entry in the directory is the offset
before it, so a page that starts at `offset` leaves out that many entries. -/
def page (space : UInt32) (offset : UInt64) (entries : List (Inode × FileType × Name)) :
    Listing :=
  let numbered := entries.zipIdx.map fun ((ino, kind, name), i) =>
    { ino, offset := .ofNat (i + 1), kind, name : DirEntry }
  Listing.fill { space } (numbered.drop offset.toNat)

end Listing

end Fuse
