-- The operations that the kernel asks a file system for, with their arguments.
import Fuse.Name
import Fuse.Operation.Kind
import Fuse.Time

namespace Fuse

/-- The number of a node, as the kernel knows it. -/
abbrev Inode := UInt64

/-- The node at the root of the file system. -/
def rootInode : Inode := 1

/-! ## Parts of arguments -/

/-- An open file, as requests name it. The handle is the number that the file
system gave out when the file was opened. -/
structure FileInfo where
  fh : UInt64
  flags : Int32
  lockOwner : Option UInt64 := none
  flush : Bool := false
  flockRelease : Bool := false
  writepage : Bool := false
deriving DecidableEq, Repr

/-- A time to set: a given one, or the present. -/
inductive SetTime where
  | at (time : Timestamp)
  | now
deriving DecidableEq, Repr

/-- The attributes that a request changes. The others stay as they are. -/
structure SetAttr where
  mode : Option UInt32 := none
  uid : Option UInt32 := none
  gid : Option UInt32 := none
  size : Option UInt64 := none
  lockOwner : Option UInt64 := none
  atime : Option SetTime := none
  mtime : Option SetTime := none
  ctime : Option Timestamp := none
  fh : Option UInt64 := none
deriving DecidableEq, Repr

/-! ## Operations -/

/-- One operation. -/
inductive Operation where
  | lookup (parent : Inode) (name : Name)
  | forget (ino : Inode) (nlookup : UInt64)
  | getattr (ino : Inode) (fh : Option UInt64)
  | setattr (ino : Inode) (attr : SetAttr)
  | readlink (ino : Inode)
  | mknod (parent : Inode) (name : Name) (mode rdev umask : UInt32)
  | mkdir (parent : Inode) (name : Name) (mode umask : UInt32)
  | unlink (parent : Inode) (name : Name)
  | rmdir (parent : Inode) (name : Name)
  | symlink (parent : Inode) (name target : Name)
  | rename (parent : Inode) (name : Name) (newParent : Inode) (newName : Name) (flags : UInt32)
  | link (ino newParent : Inode) (newName : Name)
  | open (ino : Inode) (flags : UInt32)
  | read (ino : Inode) (offset : UInt64) (size : UInt32) (file : FileInfo)
  | write (ino : Inode) (offset : UInt64) (data : Bytes) (file : FileInfo)
  | flush (ino : Inode) (file : FileInfo)
  | release (ino : Inode) (file : FileInfo)
  | fsync (ino : Inode) (datasync : Bool) (file : FileInfo)
  | opendir (ino : Inode) (flags : UInt32)
  | readdir (ino : Inode) (offset : UInt64) (size : UInt32) (file : FileInfo)
  | releasedir (ino : Inode) (file : FileInfo)
  | fsyncdir (ino : Inode) (datasync : Bool) (file : FileInfo)
  | statfs (ino : Inode)
  | setxattr (ino : Inode) (name : Name) (value : Bytes) (flags : UInt32)
  | getxattr (ino : Inode) (name : Name) (size : UInt32)
  | listxattr (ino : Inode) (size : UInt32)
  | removexattr (ino : Inode) (name : Name)
  | access (ino : Inode) (mask : UInt32)
  | create (parent : Inode) (name : Name) (mode umask flags : UInt32)
deriving DecidableEq, Repr

namespace Operation

def kind : Operation → OpKind
  | lookup .. => .lookup
  | forget .. => .forget
  | getattr .. => .getattr
  | setattr .. => .setattr
  | readlink .. => .readlink
  | mknod .. => .mknod
  | mkdir .. => .mkdir
  | unlink .. => .unlink
  | rmdir .. => .rmdir
  | symlink .. => .symlink
  | rename .. => .rename
  | link .. => .link
  | .open .. => .open
  | read .. => .read
  | write .. => .write
  | flush .. => .flush
  | release .. => .release
  | fsync .. => .fsync
  | opendir .. => .opendir
  | readdir .. => .readdir
  | releasedir .. => .releasedir
  | fsyncdir .. => .fsyncdir
  | statfs .. => .statfs
  | setxattr .. => .setxattr
  | getxattr .. => .getxattr
  | listxattr .. => .listxattr
  | removexattr .. => .removexattr
  | access .. => .access
  | create .. => .create

/-- A bound on the size of the answer: the space that the kernel has for it, or
the length of the data it sent. -/
def replyLimit : Operation → Option UInt32
  | read _ _ size _ => some size
  | readdir _ _ size _ => some size
  | getxattr _ _ size => some size
  | listxattr _ size => some size
  | write _ _ data _ => some (.ofNat data.length)
  | _ => none

end Operation

end Fuse
