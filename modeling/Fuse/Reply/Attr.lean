-- What a file system says about a node: its attributes, the entry that leads to
-- it, the handle of an opened file, and the figures of the whole file system.
import Fuse.FileType
import Fuse.Kernel.Answers
import Fuse.Kernel.Flags
import Fuse.Operation.Basic

namespace Fuse

/-! ## Attributes -/

/-- The attributes of a node. Blocks are of 512 bytes. The permissions do not
hold the file type. -/
structure Attr where
  ino : Inode
  kind : FileType
  perm : UInt16
  size : UInt64 := 0
  blocks : UInt64 := 0
  atime : Timestamp := .epoch
  mtime : Timestamp := .epoch
  ctime : Timestamp := .epoch
  nlink : UInt32 := 1
  uid : UInt32 := 0
  gid : UInt32 := 0
  rdev : UInt32 := 0
  blksize : UInt32 := 4096
deriving DecidableEq, Repr

namespace Attr

/-- The mode word: the file type and the permissions. -/
def mode (a : Attr) : UInt32 := a.kind.modeBits ||| (a.perm.toUInt32 &&& 0o7777)

/-- The attributes as a reply carries them. -/
def toKernel (a : Attr) : Kernel.Attr where
  ino := a.ino
  size := a.size
  blocks := a.blocks
  atime := a.atime.sec.toUInt64
  mtime := a.mtime.sec.toUInt64
  ctime := a.ctime.sec.toUInt64
  atimensec := a.atime.nsec
  mtimensec := a.mtime.nsec
  ctimensec := a.ctime.nsec
  mode := a.mode
  nlink := a.nlink
  uid := a.uid
  gid := a.gid
  rdev := a.rdev
  blksize := a.blksize

/-- The attributes and how long the kernel may keep them. -/
def toKernelFor (a : Attr) (ttl : Duration) : Kernel.AttrOut where
  attrValid := ttl.secs
  attrValidNsec := ttl.nanos
  attr := a.toKernel

end Attr

/-! ## Entries -/

/-- A directory entry, as the kernel learns of it. The two times say how long
the kernel may keep the attributes and the name. -/
structure Entry where
  attr : Attr
  generation : UInt64 := 0
  attrTtl : Duration := .ofSecs 1
  entryTtl : Duration := .ofSecs 1
deriving DecidableEq, Repr

namespace Entry

def ino (e : Entry) : Inode := e.attr.ino

/-- The entry as a reply carries it. -/
def toKernel (e : Entry) : Kernel.EntryOut where
  nodeid := e.attr.ino
  generation := e.generation
  entryValid := e.entryTtl.secs
  attrValid := e.attrTtl.secs
  entryValidNsec := e.entryTtl.nanos
  attrValidNsec := e.attrTtl.nanos
  attr := e.attr.toKernel

end Entry

/-! ## Opened files -/

/-- The handle of an opened file, and flags for the kernel. -/
structure Opened where
  fh : UInt64
  flags : UInt32 := 0
deriving DecidableEq, Repr

namespace Opened

/-- Pass the page cache by. -/
def directIo (o : Opened) : Opened := { o with flags := o.flags ||| Kernel.Fopen.directIo }

/-- Keep what the page cache holds of an earlier open. -/
def keepCache (o : Opened) : Opened := { o with flags := o.flags ||| Kernel.Fopen.keepCache }

/-- Seeking makes no sense in this file. -/
def nonseekable (o : Opened) : Opened := { o with flags := o.flags ||| Kernel.Fopen.nonseekable }

/-- The kernel may keep the listing of this directory. -/
def cacheDir (o : Opened) : Opened := { o with flags := o.flags ||| Kernel.Fopen.cacheDir }

/-- The handle as a reply carries it. -/
def toKernel (o : Opened) : Kernel.OpenOut where
  fh := o.fh
  openFlags := o.flags

end Opened

/-! ## The file system -/

/-- The figures of a file system. -/
structure StatFs where
  blocks : UInt64 := 0
  bfree : UInt64 := 0
  bavail : UInt64 := 0
  files : UInt64 := 0
  ffree : UInt64 := 0
  bsize : UInt32 := 0
  namelen : UInt32 := 0
  frsize : UInt32 := 0
deriving DecidableEq, Repr

/-- The figures as a reply carries them. -/
def StatFs.toKernel (s : StatFs) : Kernel.StatfsOut where
  st :=
    { blocks := s.blocks
      bfree := s.bfree
      bavail := s.bavail
      files := s.files
      ffree := s.ffree
      bsize := s.bsize
      namelen := s.namelen
      frsize := s.frsize }

end Fuse
