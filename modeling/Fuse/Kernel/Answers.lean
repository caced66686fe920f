-- The structures that replies carry.
import Fuse.Layout

namespace Fuse.Kernel

/-- The attributes of a node, as the kernel keeps them. -/
structure Attr where
  ino : UInt64
  size : UInt64
  blocks : UInt64
  atime : UInt64
  mtime : UInt64
  ctime : UInt64
  atimensec : UInt32
  mtimensec : UInt32
  ctimensec : UInt32
  mode : UInt32
  nlink : UInt32
  uid : UInt32
  gid : UInt32
  rdev : UInt32
  blksize : UInt32
  padding : UInt32 := 0
deriving DecidableEq

instance : Wire Attr where
  layout := .seq .u64 [.u64, .u64, .u64, .u64, .u64, .u32, .u32, .u32, .u32, .u32, .u32, .u32,
    .u32, .u32, .u32]
  toValue s := (s.ino, s.size, s.blocks, s.atime, s.mtime, s.ctime, s.atimensec, s.mtimensec,
    s.ctimensec, s.mode, s.nlink, s.uid, s.gid, s.rdev, s.blksize, s.padding)
  ofValue := fun (ino, size, blocks, atime, mtime, ctime, atimensec, mtimensec, ctimensec, mode,
    nlink, uid, gid, rdev, blksize, padding) =>
    ⟨ino, size, blocks, atime, mtime, ctime, atimensec, mtimensec, ctimensec, mode, nlink, uid,
    gid, rdev, blksize, padding⟩

/-- The figures of a file system. -/
structure Kstatfs where
  blocks : UInt64
  bfree : UInt64
  bavail : UInt64
  files : UInt64
  ffree : UInt64
  bsize : UInt32
  namelen : UInt32
  frsize : UInt32
  padding : UInt32 := 0
  spare : Vector UInt32 6 := .replicate _ 0
deriving DecidableEq

instance : Wire Kstatfs where
  layout := .seq .u64 [.u64, .u64, .u64, .u64, .u32, .u32, .u32, .u32, .array 6 .u32]
  toValue s := (s.blocks, s.bfree, s.bavail, s.files, s.ffree, s.bsize, s.namelen, s.frsize,
    s.padding, s.spare)
  ofValue := fun (blocks, bfree, bavail, files, ffree, bsize, namelen, frsize, padding,
    spare) =>
    ⟨blocks, bfree, bavail, files, ffree, bsize, namelen, frsize, padding, spare⟩

/-- The answer to a request that names or makes a node. -/
structure EntryOut where
  nodeid : UInt64
  generation : UInt64
  entryValid : UInt64
  attrValid : UInt64
  entryValidNsec : UInt32
  attrValidNsec : UInt32
  attr : Attr
deriving DecidableEq

instance : Wire EntryOut where
  layout := .seq .u64 [.u64, .u64, .u64, .u32, .u32, Wire.layout Attr]
  toValue s := (s.nodeid, s.generation, s.entryValid, s.attrValid, s.entryValidNsec,
    s.attrValidNsec, Wire.toValue s.attr)
  ofValue := fun (nodeid, generation, entryValid, attrValid, entryValidNsec, attrValidNsec,
    attr) =>
    ⟨nodeid, generation, entryValid, attrValid, entryValidNsec, attrValidNsec,
    Wire.ofValue attr⟩
  ofValue_toValue s := by simp only [Wire.ofValue_toValue]
  toValue_ofValue v := by simp only [Wire.toValue_ofValue]

/-- Attributes, and how long they may be kept. -/
structure AttrOut where
  attrValid : UInt64
  attrValidNsec : UInt32
  dummy : UInt32 := 0
  attr : Attr
deriving DecidableEq

instance : Wire AttrOut where
  layout := .seq .u64 [.u32, .u32, Wire.layout Attr]
  toValue s := (s.attrValid, s.attrValidNsec, s.dummy, Wire.toValue s.attr)
  ofValue := fun (attrValid, attrValidNsec, dummy, attr) =>
    ⟨attrValid, attrValidNsec, dummy, Wire.ofValue attr⟩
  ofValue_toValue s := by simp only [Wire.ofValue_toValue]
  toValue_ofValue v := by simp only [Wire.toValue_ofValue]

/-- The handle of an opened file, and how to treat the file. -/
structure OpenOut where
  fh : UInt64
  openFlags : UInt32
  padding : UInt32 := 0
deriving DecidableEq

instance : Wire OpenOut where
  layout := .seq .u64 [.u32, .u32]
  toValue s := (s.fh, s.openFlags, s.padding)
  ofValue := fun (fh, openFlags, padding) =>
    ⟨fh, openFlags, padding⟩

/-- The number of bytes that a write stored. -/
structure WriteOut where
  size : UInt32
  padding : UInt32 := 0
deriving DecidableEq

instance : Wire WriteOut where
  layout := .seq .u32 [.u32]
  toValue s := (s.size, s.padding)
  ofValue := fun (size, padding) =>
    ⟨size, padding⟩

/-- The answer to a question for the figures of the file system. -/
structure StatfsOut where
  st : Kstatfs
deriving DecidableEq

instance : Wire StatfsOut where
  layout := Wire.layout Kstatfs
  toValue s := Wire.toValue s.st
  ofValue st := ⟨Wire.ofValue st⟩
  ofValue_toValue s := by simp only [Wire.ofValue_toValue]
  toValue_ofValue v := by simp only [Wire.toValue_ofValue]

/-- The size of an extended attribute. -/
structure GetxattrOut where
  size : UInt32
  padding : UInt32 := 0
deriving DecidableEq

instance : Wire GetxattrOut where
  layout := .seq .u32 [.u32]
  toValue s := (s.size, s.padding)
  ofValue := fun (size, padding) =>
    ⟨size, padding⟩

/-- The fixed part of a directory record. The name follows it. -/
structure Dirent where
  ino : UInt64
  off : UInt64
  namelen : UInt32
  type : UInt32
deriving DecidableEq

instance : Wire Dirent where
  layout := .seq .u64 [.u64, .u32, .u32]
  toValue s := (s.ino, s.off, s.namelen, s.type)
  ofValue := fun (ino, off, namelen, type) =>
    ⟨ino, off, namelen, type⟩

end Fuse.Kernel
