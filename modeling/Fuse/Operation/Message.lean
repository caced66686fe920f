-- Reading the messages of the kernel. The header says what the message is and
-- for which node; the structures, names and data of the operation follow it.
-- Some structures are shorter on older connections, so the minor version of
-- the connection takes part in reading.
import Fuse.Kernel.Arguments
import Fuse.Kernel.Flags
import Fuse.Kernel.Header
import Fuse.Operation.Basic

namespace Fuse

/-! ## Opcodes -/

/-- What a message asks for. Both ways to rename carry the same operation. -/
inductive Opcode where
  | lookup
  | forget
  | getattr
  | setattr
  | readlink
  | symlink
  | mknod
  | mkdir
  | unlink
  | rmdir
  | rename
  | link
  | open
  | read
  | write
  | statfs
  | release
  | fsync
  | setxattr
  | getxattr
  | listxattr
  | removexattr
  | flush
  | init
  | opendir
  | readdir
  | releasedir
  | fsyncdir
  | access
  | create
  | interrupt
  | destroy
  | batchForget
  | rename2
deriving DecidableEq, Repr

namespace Opcode

def code : Opcode → UInt32
  | .lookup => 1
  | .forget => 2
  | .getattr => 3
  | .setattr => 4
  | .readlink => 5
  | .symlink => 6
  | .mknod => 8
  | .mkdir => 9
  | .unlink => 10
  | .rmdir => 11
  | .rename => 12
  | .link => 13
  | .open => 14
  | .read => 15
  | .write => 16
  | .statfs => 17
  | .release => 18
  | .fsync => 20
  | .setxattr => 21
  | .getxattr => 22
  | .listxattr => 23
  | .removexattr => 24
  | .flush => 25
  | .init => 26
  | .opendir => 27
  | .readdir => 28
  | .releasedir => 29
  | .fsyncdir => 30
  | .access => 34
  | .create => 35
  | .interrupt => 36
  | .destroy => 38
  | .batchForget => 42
  | .rename2 => 45

def all : List Opcode := [
  .lookup, .forget, .getattr, .setattr, .readlink, .symlink, .mknod, .mkdir, .unlink, .rmdir,
  .rename, .link, .open, .read, .write, .statfs, .release, .fsync, .setxattr, .getxattr,
  .listxattr, .removexattr, .flush, .init, .opendir, .readdir, .releasedir, .fsyncdir, .access,
  .create, .interrupt, .destroy, .batchForget, .rename2]

def ofCode? (code : UInt32) : Option Opcode := all.find? (·.code == code)

/-- Messages with this opcode only forget. They get no answer, even when they
cannot be read. -/
def onlyForgets (op : Opcode) : Bool := op == .forget || op == .batchForget

end Opcode

/-! ## Messages -/

/-- A message of the kernel. -/
inductive Message where
  | init (proposal : Kernel.InitIn)
  | destroy
  | interrupt (target : UInt64)
  | forget (items : List Kernel.ForgetOne)
  | operation (op : Operation)
  | unsupported (opcode : UInt32)
deriving DecidableEq

/-- Why a message cannot be read. -/
inductive DecodeError where
  | shortHeader (received : Nat)
  | wrongLength (claimed : UInt32) (received : Nat)
  | name
  | truncated (what : String)
  | layout
deriving DecidableEq, Repr

def DecodeError.message : DecodeError → String
  | .shortHeader received => s!"message of {received} bytes is shorter than the header"
  | .wrongLength claimed received =>
    s!"header claims {claimed.toNat} bytes but {received} arrived"
  | .name => "missing or unterminated name"
  | .truncated what => s!"payload shorter than the {what} it announces"
  | .layout => "bad argument layout: io error: unexpected end of file"

/-! ## Taking arguments off the front of the body -/

/-- Something that reads from the front of a body and leaves the rest. -/
abbrev Take := StateT Bytes (Except DecodeError)

namespace Take

/-- A structure. -/
def struct (α : Type) [Wire α] : Take α := fun body =>
  match Wire.decode? body with
  | some read => .ok read
  | none => .error .layout

/-- A name and the zero byte that ends it. -/
def name : Take Name := fun body =>
  match Name.split? body with
  | some read => .ok read
  | none => .error .name

/-- As many bytes as a structure announced. -/
def bytes (length : UInt32) (what : String) : Take Bytes := fun body =>
  match Bytes.split? length.toNat body with
  | some read => .ok read
  | none => .error (.truncated what)

/-- The same several times in a row. -/
def times {α : Type} (one : Take α) : Nat → Take (List α)
  | 0 => pure []
  | n + 1 => do
    let a ← one
    let rest ← times one n
    return a :: rest

/-! ## Structures that grew -/

/-- How to make a node. Before 7.12 there is no file creation mask. -/
def mknodIn (minor : UInt32) : Take Kernel.MknodIn :=
  if 12 ≤ minor then struct Kernel.MknodIn
  else do
    let old ← struct Kernel.CompatMknodIn
    return { mode := old.mode, rdev := old.rdev, umask := 0 }

/-- How to create a file. Before 7.12 there is no file creation mask. -/
def createIn (minor : UInt32) : Take Kernel.CreateIn :=
  if 12 ≤ minor then struct Kernel.CreateIn
  else do
    let old ← struct Kernel.CompatCreateIn
    return { flags := old.flags, mode := old.mode, umask := 0 }

/-- The range of a read. Before 7.9 the structure ends before the lock owner,
and what is missing reads as zero. -/
def readIn (minor : UInt32) : Take Kernel.ReadIn :=
  if 9 ≤ minor then struct Kernel.ReadIn
  else do
    let old ← struct Kernel.CompatReadIn
    return { fh := old.fh, offset := old.offset, size := old.size, readFlags := old.readFlags,
             lockOwner := 0, flags := 0 }

/-- The range of a write. Before 7.9 the structure ends before the lock owner,
and what is missing reads as zero. -/
def writeIn (minor : UInt32) : Take Kernel.WriteIn :=
  if 9 ≤ minor then struct Kernel.WriteIn
  else do
    let old ← struct Kernel.CompatWriteIn
    return { fh := old.fh, offset := old.offset, size := old.size, writeFlags := old.writeFlags,
             lockOwner := 0, flags := 0 }

/-- The handle that is let go. Before 7.8 the structure ends before the lock
owner, and what is missing reads as zero. -/
def releaseIn (minor : UInt32) : Take Kernel.ReleaseIn :=
  if 8 ≤ minor then struct Kernel.ReleaseIn
  else do
    let old ← struct Kernel.CompatReleaseIn
    return { fh := old.fh, flags := old.flags, releaseFlags := old.releaseFlags, lockOwner := 0 }

end Take

/-! ## From structures to arguments -/

/-- A value that a flag selects. -/
def selected {α : Type} (word bits : UInt32) (a : α) : Option α :=
  if Kernel.hasFlag word bits then some a else none

/-- The open file that a read names. The lock owner counts when its flag is
set. -/
def Kernel.ReadIn.file (r : Kernel.ReadIn) : FileInfo where
  fh := r.fh
  flags := r.flags.toInt32
  lockOwner := selected r.readFlags Kernel.readLockOwner r.lockOwner

/-- The open file that a write names. The lock owner counts when its flag is
set. -/
def Kernel.WriteIn.file (w : Kernel.WriteIn) : FileInfo where
  fh := w.fh
  flags := w.flags.toInt32
  lockOwner := selected w.writeFlags Kernel.writeLockOwner w.lockOwner
  writepage := Kernel.hasFlag w.writeFlags Kernel.writeCache

/-- The open file that a release names. The lock owner counts on connections
that have the field, when locks or data are at stake. -/
def Kernel.ReleaseIn.file (r : Kernel.ReleaseIn) (minor : UInt32) : FileInfo :=
  let flush := Kernel.hasFlag r.releaseFlags Kernel.releaseFlush
  let flockRelease := Kernel.hasFlag r.releaseFlags Kernel.releaseFlockUnlock
  { fh := r.fh
    flags := r.flags.toInt32
    lockOwner := if decide (8 ≤ minor) && (flush || flockRelease) then some r.lockOwner else none
    flush
    flockRelease }

/-- The time that a change selects. The present goes before a given time. -/
def Kernel.SetattrIn.time (s : Kernel.SetattrIn) (now given : UInt32) (sec : UInt64)
    (nsec : UInt32) : Option SetTime :=
  if Kernel.hasFlag s.valid now then some .now
  else selected s.valid given (.at ⟨sec.toInt64, nsec⟩)

/-- The attributes that a change selects. -/
def Kernel.SetattrIn.changes (s : Kernel.SetattrIn) : SetAttr where
  mode := selected s.valid Kernel.Fattr.mode s.mode
  uid := selected s.valid Kernel.Fattr.uid s.uid
  gid := selected s.valid Kernel.Fattr.gid s.gid
  size := selected s.valid Kernel.Fattr.size s.size
  lockOwner := selected s.valid Kernel.Fattr.lockOwner s.lockOwner
  atime := s.time Kernel.Fattr.atimeNow Kernel.Fattr.atime s.atime s.atimensec
  mtime := s.time Kernel.Fattr.mtimeNow Kernel.Fattr.mtime s.mtime s.mtimensec
  ctime := selected s.valid Kernel.Fattr.ctime ⟨s.ctime.toInt64, s.ctimensec⟩
  fh := selected s.valid Kernel.Fattr.fh s.fh

/-! ## Whole messages -/

/-- The length of the header of a message. -/
def inHeaderSize : Nat := 40

/-- Read the header of a message. -/
def decodeHeader (frame : Bytes) : Except DecodeError Kernel.InHeader :=
  if frame.length < inHeaderSize then .error (.shortHeader frame.length)
  else (·.1) <$> Take.struct Kernel.InHeader frame

/-- Read the body of a message with a known opcode, sent for node `ino`. -/
def Opcode.takeMessage (minor : UInt32) (ino : Inode) : Opcode → Take Message
  | .init => return .init (← Take.struct Kernel.InitIn)
  | .destroy => return .destroy
  | .interrupt => return .interrupt (← Take.struct Kernel.InterruptIn).unique
  | .forget => return .forget [⟨ino, (← Take.struct Kernel.ForgetIn).nlookup⟩]
  | .batchForget => do
    let batch ← Take.struct Kernel.BatchForgetIn
    return .forget (← Take.times (Take.struct Kernel.ForgetOne) batch.count.toNat)
  | .lookup => return .operation (.lookup ino (← Take.name))
  | .getattr =>
    if 9 ≤ minor then do
      let a ← Take.struct Kernel.GetattrIn
      return .operation (.getattr ino (selected a.getattrFlags Kernel.getattrFh a.fh))
    else return .operation (.getattr ino none)
  | .setattr => return .operation (.setattr ino (← Take.struct Kernel.SetattrIn).changes)
  | .readlink => return .operation (.readlink ino)
  | .symlink => do
    let name ← Take.name
    let target ← Take.name
    return .operation (.symlink ino name target)
  | .mknod => do
    let a ← Take.mknodIn minor
    return .operation (.mknod ino (← Take.name) a.mode a.rdev a.umask)
  | .mkdir => do
    let a ← Take.struct Kernel.MkdirIn
    return .operation (.mkdir ino (← Take.name) a.mode a.umask)
  | .unlink => return .operation (.unlink ino (← Take.name))
  | .rmdir => return .operation (.rmdir ino (← Take.name))
  | .rename => do
    let a ← Take.struct Kernel.RenameIn
    let name ← Take.name
    let newName ← Take.name
    return .operation (.rename ino name a.newdir newName 0)
  | .rename2 => do
    let a ← Take.struct Kernel.Rename2In
    let name ← Take.name
    let newName ← Take.name
    return .operation (.rename ino name a.newdir newName a.flags)
  | .link => do
    let a ← Take.struct Kernel.LinkIn
    return .operation (.link a.oldnodeid ino (← Take.name))
  | .open => return .operation (.open ino (← Take.struct Kernel.OpenIn).flags)
  | .opendir => return .operation (.opendir ino (← Take.struct Kernel.OpenIn).flags)
  | .read => do
    let a ← Take.readIn minor
    return .operation (.read ino a.offset a.size a.file)
  | .readdir => do
    let a ← Take.readIn minor
    return .operation (.readdir ino a.offset a.size a.file)
  | .write => do
    let a ← Take.writeIn minor
    return .operation (.write ino a.offset (← Take.bytes a.size "write data") a.file)
  | .statfs => return .operation (.statfs ino)
  | .release => return .operation (.release ino ((← Take.releaseIn minor).file minor))
  | .releasedir => return .operation (.releasedir ino ((← Take.releaseIn minor).file minor))
  | .fsync => do
    let a ← Take.struct Kernel.FsyncIn
    return .operation
      (.fsync ino (Kernel.hasFlag a.fsyncFlags Kernel.fsyncDataOnly) { fh := a.fh, flags := 0 })
  | .fsyncdir => do
    let a ← Take.struct Kernel.FsyncIn
    return .operation
      (.fsyncdir ino (Kernel.hasFlag a.fsyncFlags Kernel.fsyncDataOnly) { fh := a.fh, flags := 0 })
  | .flush => do
    let a ← Take.struct Kernel.FlushIn
    return .operation (.flush ino { fh := a.fh, flags := 0, lockOwner := some a.lockOwner })
  | .setxattr => do
    let a ← Take.struct Kernel.SetxattrIn
    let name ← Take.name
    return .operation (.setxattr ino name (← Take.bytes a.size "xattr value") a.flags)
  | .getxattr => do
    let a ← Take.struct Kernel.GetxattrIn
    return .operation (.getxattr ino (← Take.name) a.size)
  | .listxattr => return .operation (.listxattr ino (← Take.struct Kernel.GetxattrIn).size)
  | .removexattr => return .operation (.removexattr ino (← Take.name))
  | .access => return .operation (.access ino (← Take.struct Kernel.AccessIn).mask)
  | .create => do
    let a ← Take.createIn minor
    return .operation (.create ino (← Take.name) a.mode a.umask a.flags)

/-- Read the message that a header opens. Bytes after the last argument are
left alone. -/
def decodeMessage (header : Kernel.InHeader) (frame : Bytes) (minor : UInt32) :
    Except DecodeError Message :=
  if header.len.toNat ≠ frame.length then .error (.wrongLength header.len frame.length)
  else
    match Opcode.ofCode? header.opcode with
    | none => .ok (.unsupported header.opcode)
    | some op => (·.1) <$> op.takeMessage minor header.nodeid (frame.drop inHeaderSize)

end Fuse
