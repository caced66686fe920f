-- The structures that requests carry. Some of them grew over the years; the
-- shorter ones of older kernels stand beside them.
import Fuse.Layout

namespace Fuse.Kernel

/-- How many lookups of the addressed node the kernel forgets. -/
structure ForgetIn where
  nlookup : UInt64
deriving DecidableEq

instance : Wire ForgetIn where
  layout := .u64
  toValue s := s.nlookup
  ofValue nlookup := ⟨nlookup⟩

/-- One item of a batch of forgotten lookups. -/
structure ForgetOne where
  nodeid : UInt64
  nlookup : UInt64
deriving DecidableEq

instance : Wire ForgetOne where
  layout := .seq .u64 [.u64]
  toValue s := (s.nodeid, s.nlookup)
  ofValue := fun (nodeid, nlookup) =>
    ⟨nodeid, nlookup⟩

/-- The number of items in a batch of forgotten lookups. -/
structure BatchForgetIn where
  count : UInt32
  dummy : UInt32 := 0
deriving DecidableEq

instance : Wire BatchForgetIn where
  layout := .seq .u32 [.u32]
  toValue s := (s.count, s.dummy)
  ofValue := fun (count, dummy) =>
    ⟨count, dummy⟩

/-- Through which open file, if any, attributes are asked for. -/
structure GetattrIn where
  getattrFlags : UInt32
  dummy : UInt32 := 0
  fh : UInt64
deriving DecidableEq

instance : Wire GetattrIn where
  layout := .seq .u32 [.u32, .u64]
  toValue s := (s.getattrFlags, s.dummy, s.fh)
  ofValue := fun (getattrFlags, dummy, fh) =>
    ⟨getattrFlags, dummy, fh⟩

/-- New attributes. Only those that `valid` selects count. -/
structure SetattrIn where
  valid : UInt32
  padding : UInt32 := 0
  fh : UInt64
  size : UInt64
  lockOwner : UInt64
  atime : UInt64
  mtime : UInt64
  ctime : UInt64
  atimensec : UInt32
  mtimensec : UInt32
  ctimensec : UInt32
  mode : UInt32
  unused4 : UInt32 := 0
  uid : UInt32
  gid : UInt32
  unused5 : UInt32 := 0
deriving DecidableEq

instance : Wire SetattrIn where
  layout := .seq .u32 [.u32, .u64, .u64, .u64, .u64, .u64, .u64, .u32, .u32, .u32, .u32, .u32,
    .u32, .u32, .u32]
  toValue s := (s.valid, s.padding, s.fh, s.size, s.lockOwner, s.atime, s.mtime, s.ctime,
    s.atimensec, s.mtimensec, s.ctimensec, s.mode, s.unused4, s.uid, s.gid, s.unused5)
  ofValue := fun (valid, padding, fh, size, lockOwner, atime, mtime, ctime, atimensec,
    mtimensec, ctimensec, mode, unused4, uid, gid, unused5) =>
    ⟨valid, padding, fh, size, lockOwner, atime, mtime, ctime, atimensec, mtimensec, ctimensec,
    mode, unused4, uid, gid, unused5⟩

/-- How to make a node. -/
structure MknodIn where
  mode : UInt32
  rdev : UInt32
  umask : UInt32
  padding : UInt32 := 0
deriving DecidableEq

instance : Wire MknodIn where
  layout := .seq .u32 [.u32, .u32, .u32]
  toValue s := (s.mode, s.rdev, s.umask, s.padding)
  ofValue := fun (mode, rdev, umask, padding) =>
    ⟨mode, rdev, umask, padding⟩

/-- How to make a node, before 7.12. -/
structure CompatMknodIn where
  mode : UInt32
  rdev : UInt32
deriving DecidableEq

instance : Wire CompatMknodIn where
  layout := .seq .u32 [.u32]
  toValue s := (s.mode, s.rdev)
  ofValue := fun (mode, rdev) =>
    ⟨mode, rdev⟩

/-- How to make a directory. -/
structure MkdirIn where
  mode : UInt32
  umask : UInt32
deriving DecidableEq

instance : Wire MkdirIn where
  layout := .seq .u32 [.u32]
  toValue s := (s.mode, s.umask)
  ofValue := fun (mode, umask) =>
    ⟨mode, umask⟩

/-- The directory that a node moves to. -/
structure RenameIn where
  newdir : UInt64
deriving DecidableEq

instance : Wire RenameIn where
  layout := .u64
  toValue s := s.newdir
  ofValue newdir := ⟨newdir⟩

/-- The directory that a node moves to, and how. -/
structure Rename2In where
  newdir : UInt64
  flags : UInt32
  padding : UInt32 := 0
deriving DecidableEq

instance : Wire Rename2In where
  layout := .seq .u64 [.u32, .u32]
  toValue s := (s.newdir, s.flags, s.padding)
  ofValue := fun (newdir, flags, padding) =>
    ⟨newdir, flags, padding⟩

/-- The node that gets another name. -/
structure LinkIn where
  oldnodeid : UInt64
deriving DecidableEq

instance : Wire LinkIn where
  layout := .u64
  toValue s := s.oldnodeid
  ofValue oldnodeid := ⟨oldnodeid⟩

/-- How to open a file or a directory. -/
structure OpenIn where
  flags : UInt32
  unused : UInt32 := 0
deriving DecidableEq

instance : Wire OpenIn where
  layout := .seq .u32 [.u32]
  toValue s := (s.flags, s.unused)
  ofValue := fun (flags, unused) =>
    ⟨flags, unused⟩

/-- How to make and open a file. -/
structure CreateIn where
  flags : UInt32
  mode : UInt32
  umask : UInt32
  padding : UInt32 := 0
deriving DecidableEq

instance : Wire CreateIn where
  layout := .seq .u32 [.u32, .u32, .u32]
  toValue s := (s.flags, s.mode, s.umask, s.padding)
  ofValue := fun (flags, mode, umask, padding) =>
    ⟨flags, mode, umask, padding⟩

/-- How to make and open a file, before 7.12. -/
structure CompatCreateIn where
  flags : UInt32
  mode : UInt32
deriving DecidableEq

instance : Wire CompatCreateIn where
  layout := .seq .u32 [.u32]
  toValue s := (s.flags, s.mode)
  ofValue := fun (flags, mode) =>
    ⟨flags, mode⟩

/-- The range to read. -/
structure ReadIn where
  fh : UInt64
  offset : UInt64
  size : UInt32
  readFlags : UInt32
  lockOwner : UInt64
  flags : UInt32
  padding : UInt32 := 0
deriving DecidableEq

instance : Wire ReadIn where
  layout := .seq .u64 [.u64, .u32, .u32, .u64, .u32, .u32]
  toValue s := (s.fh, s.offset, s.size, s.readFlags, s.lockOwner, s.flags, s.padding)
  ofValue := fun (fh, offset, size, readFlags, lockOwner, flags, padding) =>
    ⟨fh, offset, size, readFlags, lockOwner, flags, padding⟩

/-- The range to read, before 7.9. -/
structure CompatReadIn where
  fh : UInt64
  offset : UInt64
  size : UInt32
  readFlags : UInt32
deriving DecidableEq

instance : Wire CompatReadIn where
  layout := .seq .u64 [.u64, .u32, .u32]
  toValue s := (s.fh, s.offset, s.size, s.readFlags)
  ofValue := fun (fh, offset, size, readFlags) =>
    ⟨fh, offset, size, readFlags⟩

/-- The range to write. The data follows. -/
structure WriteIn where
  fh : UInt64
  offset : UInt64
  size : UInt32
  writeFlags : UInt32
  lockOwner : UInt64
  flags : UInt32
  padding : UInt32 := 0
deriving DecidableEq

instance : Wire WriteIn where
  layout := .seq .u64 [.u64, .u32, .u32, .u64, .u32, .u32]
  toValue s := (s.fh, s.offset, s.size, s.writeFlags, s.lockOwner, s.flags, s.padding)
  ofValue := fun (fh, offset, size, writeFlags, lockOwner, flags, padding) =>
    ⟨fh, offset, size, writeFlags, lockOwner, flags, padding⟩

/-- The range to write, before 7.9. The data follows. -/
structure CompatWriteIn where
  fh : UInt64
  offset : UInt64
  size : UInt32
  writeFlags : UInt32
deriving DecidableEq

instance : Wire CompatWriteIn where
  layout := .seq .u64 [.u64, .u32, .u32]
  toValue s := (s.fh, s.offset, s.size, s.writeFlags)
  ofValue := fun (fh, offset, size, writeFlags) =>
    ⟨fh, offset, size, writeFlags⟩

/-- The handle whose file descriptor was closed. -/
structure FlushIn where
  fh : UInt64
  unused : UInt32 := 0
  padding : UInt32 := 0
  lockOwner : UInt64
deriving DecidableEq

instance : Wire FlushIn where
  layout := .seq .u64 [.u32, .u32, .u64]
  toValue s := (s.fh, s.unused, s.padding, s.lockOwner)
  ofValue := fun (fh, unused, padding, lockOwner) =>
    ⟨fh, unused, padding, lockOwner⟩

/-- The handle that is let go. -/
structure ReleaseIn where
  fh : UInt64
  flags : UInt32
  releaseFlags : UInt32
  lockOwner : UInt64
deriving DecidableEq

instance : Wire ReleaseIn where
  layout := .seq .u64 [.u32, .u32, .u64]
  toValue s := (s.fh, s.flags, s.releaseFlags, s.lockOwner)
  ofValue := fun (fh, flags, releaseFlags, lockOwner) =>
    ⟨fh, flags, releaseFlags, lockOwner⟩

/-- The handle that is let go, before 7.8. -/
structure CompatReleaseIn where
  fh : UInt64
  flags : UInt32
  releaseFlags : UInt32
deriving DecidableEq

instance : Wire CompatReleaseIn where
  layout := .seq .u64 [.u32, .u32]
  toValue s := (s.fh, s.flags, s.releaseFlags)
  ofValue := fun (fh, flags, releaseFlags) =>
    ⟨fh, flags, releaseFlags⟩

/-- The handle whose data must reach the disk. -/
structure FsyncIn where
  fh : UInt64
  fsyncFlags : UInt32
  padding : UInt32 := 0
deriving DecidableEq

instance : Wire FsyncIn where
  layout := .seq .u64 [.u32, .u32]
  toValue s := (s.fh, s.fsyncFlags, s.padding)
  ofValue := fun (fh, fsyncFlags, padding) =>
    ⟨fh, fsyncFlags, padding⟩

/-- The size of the new value. The name and the value follow. -/
structure SetxattrIn where
  size : UInt32
  flags : UInt32
deriving DecidableEq

instance : Wire SetxattrIn where
  layout := .seq .u32 [.u32]
  toValue s := (s.size, s.flags)
  ofValue := fun (size, flags) =>
    ⟨size, flags⟩

/-- The space for the value. The name follows, if there is one. -/
structure GetxattrIn where
  size : UInt32
  padding : UInt32 := 0
deriving DecidableEq

instance : Wire GetxattrIn where
  layout := .seq .u32 [.u32]
  toValue s := (s.size, s.padding)
  ofValue := fun (size, padding) =>
    ⟨size, padding⟩

/-- The access that is asked for. -/
structure AccessIn where
  mask : UInt32
  padding : UInt32 := 0
deriving DecidableEq

instance : Wire AccessIn where
  layout := .seq .u32 [.u32]
  toValue s := (s.mask, s.padding)
  ofValue := fun (mask, padding) =>
    ⟨mask, padding⟩

end Fuse.Kernel
