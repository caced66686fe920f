-- How C lays the kernel's structures out in memory. Each member stands at the first place
-- behind the one before it that its type allows, and a structure is filled up so that
-- another one can follow it.
import Fuse.Kernel.Answers
import Fuse.Kernel.Arguments
import Fuse.Kernel.Header

namespace Fuse.Kernel

/-- A number in so many bytes, the least significant one first. -/
def littleEndian (width n : Nat) : Bytes :=
  (List.range width).map fun i => UInt8.ofNat (n >>> (8 * i))

/-- How far it is from an offset to the next multiple of an alignment. -/
def gap (offset align : Nat) : Nat := (align - offset % align) % align

/-! ## Members -/

/-- A member of a structure: what its offset has to be a multiple of, how many bytes it
takes, and which ones. -/
structure Member (α : Type) where
  align : Nat
  size : Nat
  bytes : α → Bytes

namespace Member

variable {α β : Type}

def u16 (get : α → UInt16) : Member α := ⟨2, 2, fun v => littleEndian 2 (get v).toNat⟩

def u32 (get : α → UInt32) : Member α := ⟨4, 4, fun v => littleEndian 4 (get v).toNat⟩

def u64 (get : α → UInt64) : Member α := ⟨8, 8, fun v => littleEndian 8 (get v).toNat⟩

/-- A number below zero stands there as the one that is larger by 2 to the power of 32. -/
def i32 (get : α → Int32) : Member α :=
  ⟨4, 4, fun v => littleEndian 4 ((get v).toInt % 4294967296).toNat⟩

/-- An array of numbers. -/
def row {count : Nat} (get : α → Vector UInt32 count) : Member α :=
  ⟨4, 4 * count, fun v => (get v).toList.flatMap fun n => littleEndian 4 n.toNat⟩

/-- The largest alignment of some members. -/
def alignment (members : List (Member α)) : Nat := members.foldl (fun a m => max a m.align) 1

/-- The size of a structure that goes on with these members after its first bytes. -/
def extent (align : Nat) : (offset : Nat) → List (Member α) → Nat
  | offset, [] => offset + gap offset align
  | offset, m :: ms => extent align (offset + gap offset m.align + m.size) ms

/-- What stands in such a structure after its first bytes. There are zeros in the gaps. -/
def layOut (align : Nat) (v : α) : (offset : Nat) → List (Member α) → Bytes
  | offset, [] => List.replicate (gap offset align) 0
  | offset, m :: ms =>
    List.replicate (gap offset m.align) 0 ++ m.bytes v ++
      layOut align v (offset + gap offset m.align + m.size) ms

/-- A structure within a structure. -/
def struct (members : List (Member β)) (get : α → β) : Member α where
  align := alignment members
  size := extent (alignment members) 0 members
  bytes v := layOut (alignment members) (get v) 0 members

end Member

/-! ## The structures -/

/-- The structures of the kernel's interface. -/
inductive Structure where
  | inHeader | outHeader | initIn | initOut | interruptIn
  | attr | kstatfs | entryOut | attrOut | openOut | writeOut | statfsOut | getxattrOut
  | dirent
  | forgetIn | forgetOne | batchForgetIn | getattrIn | mknodIn | compatMknodIn | mkdirIn
  | renameIn | rename2In | linkIn | setattrIn | openIn | createIn | compatCreateIn
  | releaseIn | compatReleaseIn | flushIn | readIn | compatReadIn | writeIn | compatWriteIn
  | fsyncIn | setxattrIn | getxattrIn | accessIn
deriving DecidableEq

/-- What the interface says of a structure: its values, how many bytes it takes, and its
members in order. -/
structure Declaration where
  Carrier : Type
  [wire : Wire Carrier]
  size : Nat
  members : List (Member Carrier)

attribute [instance] Declaration.wire

namespace Declaration

def of (α : Type) [Wire α] (size : Nat) (members : List (Member α)) : Declaration :=
  { Carrier := α, size, members }

/-- The structure as it lies in memory. -/
def memory (d : Declaration) : Member d.Carrier := .struct d.members id

end Declaration

namespace Structure

def attrMembers : List (Member Attr) := [
  .u64 (·.ino), .u64 (·.size), .u64 (·.blocks), .u64 (·.atime), .u64 (·.mtime), .u64 (·.ctime),
  .u32 (·.atimensec), .u32 (·.mtimensec), .u32 (·.ctimensec), .u32 (·.mode), .u32 (·.nlink),
  .u32 (·.uid), .u32 (·.gid), .u32 (·.rdev), .u32 (·.blksize), .u32 (·.padding)]

def kstatfsMembers : List (Member Kstatfs) := [
  .u64 (·.blocks), .u64 (·.bfree), .u64 (·.bavail), .u64 (·.files), .u64 (·.ffree), .u32 (·.bsize),
  .u32 (·.namelen), .u32 (·.frsize), .u32 (·.padding), .row (·.spare)]

def declaration : Structure → Declaration
  -- The headers and the handshake.
  | .inHeader => .of InHeader 40 [
      .u32 (·.len), .u32 (·.opcode), .u64 (·.unique), .u64 (·.nodeid), .u32 (·.uid), .u32 (·.gid),
      .u32 (·.pid), .u32 (·.padding)]
  | .outHeader => .of OutHeader 16 [.u32 (·.len), .i32 (·.error), .u64 (·.unique)]
  | .initIn => .of InitIn 16 [.u32 (·.major), .u32 (·.minor), .u32 (·.maxReadahead), .u32 (·.flags)]
  | .initOut => .of InitOut 64 [
      .u32 (·.major), .u32 (·.minor), .u32 (·.maxReadahead), .u32 (·.flags), .u16 (·.maxBackground),
      .u16 (·.congestionThreshold), .u32 (·.maxWrite), .u32 (·.timeGran), .u16 (·.maxPages),
      .u16 (·.mapAlignment), .u32 (·.flags2), .row (·.unused)]
  | .interruptIn => .of InterruptIn 8 [.u64 (·.unique)]
  -- What replies carry.
  | .attr => .of Attr 88 attrMembers
  | .kstatfs => .of Kstatfs 80 kstatfsMembers
  | .entryOut => .of EntryOut 128 [
      .u64 (·.nodeid), .u64 (·.generation), .u64 (·.entryValid), .u64 (·.attrValid),
      .u32 (·.entryValidNsec), .u32 (·.attrValidNsec), .struct attrMembers (·.attr)]
  | .attrOut => .of AttrOut 104 [
      .u64 (·.attrValid), .u32 (·.attrValidNsec), .u32 (·.dummy), .struct attrMembers (·.attr)]
  | .openOut => .of OpenOut 16 [.u64 (·.fh), .u32 (·.openFlags), .u32 (·.padding)]
  | .writeOut => .of WriteOut 8 [.u32 (·.size), .u32 (·.padding)]
  | .statfsOut => .of StatfsOut 80 [.struct kstatfsMembers (·.st)]
  | .getxattrOut => .of GetxattrOut 8 [.u32 (·.size), .u32 (·.padding)]
  | .dirent => .of Dirent 24 [.u64 (·.ino), .u64 (·.off), .u32 (·.namelen), .u32 (·.type)]
  -- What requests carry.
  | .forgetIn => .of ForgetIn 8 [.u64 (·.nlookup)]
  | .forgetOne => .of ForgetOne 16 [.u64 (·.nodeid), .u64 (·.nlookup)]
  | .batchForgetIn => .of BatchForgetIn 8 [.u32 (·.count), .u32 (·.dummy)]
  | .getattrIn => .of GetattrIn 16 [.u32 (·.getattrFlags), .u32 (·.dummy), .u64 (·.fh)]
  | .mknodIn => .of MknodIn 16 [.u32 (·.mode), .u32 (·.rdev), .u32 (·.umask), .u32 (·.padding)]
  | .compatMknodIn => .of CompatMknodIn 8 [.u32 (·.mode), .u32 (·.rdev)]
  | .mkdirIn => .of MkdirIn 8 [.u32 (·.mode), .u32 (·.umask)]
  | .renameIn => .of RenameIn 8 [.u64 (·.newdir)]
  | .rename2In => .of Rename2In 16 [.u64 (·.newdir), .u32 (·.flags), .u32 (·.padding)]
  | .linkIn => .of LinkIn 8 [.u64 (·.oldnodeid)]
  | .setattrIn => .of SetattrIn 88 [
      .u32 (·.valid), .u32 (·.padding), .u64 (·.fh), .u64 (·.size), .u64 (·.lockOwner),
      .u64 (·.atime), .u64 (·.mtime), .u64 (·.ctime), .u32 (·.atimensec), .u32 (·.mtimensec),
      .u32 (·.ctimensec), .u32 (·.mode), .u32 (·.unused4), .u32 (·.uid), .u32 (·.gid),
      .u32 (·.unused5)]
  | .openIn => .of OpenIn 8 [.u32 (·.flags), .u32 (·.unused)]
  | .createIn => .of CreateIn 16 [.u32 (·.flags), .u32 (·.mode), .u32 (·.umask), .u32 (·.padding)]
  | .compatCreateIn => .of CompatCreateIn 8 [.u32 (·.flags), .u32 (·.mode)]
  | .releaseIn => .of ReleaseIn 24 [
      .u64 (·.fh), .u32 (·.flags), .u32 (·.releaseFlags), .u64 (·.lockOwner)]
  | .compatReleaseIn => .of CompatReleaseIn 16 [.u64 (·.fh), .u32 (·.flags), .u32 (·.releaseFlags)]
  | .flushIn => .of FlushIn 24 [.u64 (·.fh), .u32 (·.unused), .u32 (·.padding), .u64 (·.lockOwner)]
  | .readIn => .of ReadIn 40 [
      .u64 (·.fh), .u64 (·.offset), .u32 (·.size), .u32 (·.readFlags), .u64 (·.lockOwner),
      .u32 (·.flags), .u32 (·.padding)]
  | .compatReadIn => .of CompatReadIn 24 [
      .u64 (·.fh), .u64 (·.offset), .u32 (·.size), .u32 (·.readFlags)]
  | .writeIn => .of WriteIn 40 [
      .u64 (·.fh), .u64 (·.offset), .u32 (·.size), .u32 (·.writeFlags), .u64 (·.lockOwner),
      .u32 (·.flags), .u32 (·.padding)]
  | .compatWriteIn => .of CompatWriteIn 24 [
      .u64 (·.fh), .u64 (·.offset), .u32 (·.size), .u32 (·.writeFlags)]
  | .fsyncIn => .of FsyncIn 16 [.u64 (·.fh), .u32 (·.fsyncFlags), .u32 (·.padding)]
  | .setxattrIn => .of SetxattrIn 8 [.u32 (·.size), .u32 (·.flags)]
  | .getxattrIn => .of GetxattrIn 8 [.u32 (·.size), .u32 (·.padding)]
  | .accessIn => .of AccessIn 8 [.u32 (·.mask), .u32 (·.padding)]

end Structure

end Fuse.Kernel
