-- The bits in the flag words of the kernel's structures.
namespace Fuse.Kernel

/-! ## Which attributes a change selects -/

namespace Fattr

def mode : UInt32 := 0x1
def uid : UInt32 := 0x2
def gid : UInt32 := 0x4
def size : UInt32 := 0x8
def atime : UInt32 := 0x10
def mtime : UInt32 := 0x20
def fh : UInt32 := 0x40
def atimeNow : UInt32 := 0x80
def mtimeNow : UInt32 := 0x100
def lockOwner : UInt32 := 0x200
def ctime : UInt32 := 0x400

end Fattr

/-! ## How the kernel should treat an opened file -/

namespace Fopen

def directIo : UInt32 := 0x1
def keepCache : UInt32 := 0x2
def nonseekable : UInt32 := 0x4
def cacheDir : UInt32 := 0x8

end Fopen

/-! ## Flags of single requests -/

/-- Attributes are asked for through an open file. -/
def getattrFh : UInt32 := 0x1

/-- The data of a write comes from the page cache. -/
def writeCache : UInt32 := 0x1

/-- A write carries a lock owner. -/
def writeLockOwner : UInt32 := 0x2

/-- A read carries a lock owner. -/
def readLockOwner : UInt32 := 0x2

/-- The file is flushed before its handle is let go. -/
def releaseFlush : UInt32 := 0x1

/-- The locks of the owner go with the handle. -/
def releaseFlockUnlock : UInt32 := 0x2

/-- Only the data has to reach the disk, not the attributes. -/
def fsyncDataOnly : UInt32 := 0x1

/-- Whether a flag word has one of the given bits. -/
def hasFlag (word bits : UInt32) : Bool := word &&& bits != 0

end Fuse.Kernel
