-- Operations as the kernel sends them. Older connections leave out some of the
-- arguments, so not every operation can be sent on every connection.
import Fuse.Operation.Grammar

namespace Fuse

/-! ## Structures -/

/-- Some bits of a flag word, or none. -/
def Kernel.flagIf (set : Bool) (bits : UInt32) : UInt32 := if set then bits else 0

namespace FileInfo

/-- The structure that names an open file in a read. -/
def readIn (minor : UInt32) (file : FileInfo) (offset : UInt64) (size : UInt32) : Bytes :=
  let readFlags := Kernel.flagIf file.lockOwner.isSome Kernel.readLockOwner
  if 9 ≤ minor then
    Wire.encode ({ fh := file.fh, offset, size, readFlags, lockOwner := file.lockOwner.getD 0,
                   flags := file.flags.toUInt32 } : Kernel.ReadIn)
  else Wire.encode ({ fh := file.fh, offset, size, readFlags } : Kernel.CompatReadIn)

/-- The structure that names an open file in a write. -/
def writeIn (minor : UInt32) (file : FileInfo) (offset : UInt64) (size : UInt32) : Bytes :=
  let writeFlags := Kernel.flagIf file.lockOwner.isSome Kernel.writeLockOwner |||
    Kernel.flagIf file.writepage Kernel.writeCache
  if 9 ≤ minor then
    Wire.encode ({ fh := file.fh, offset, size, writeFlags, lockOwner := file.lockOwner.getD 0,
                   flags := file.flags.toUInt32 } : Kernel.WriteIn)
  else Wire.encode ({ fh := file.fh, offset, size, writeFlags } : Kernel.CompatWriteIn)

/-- The structure that lets an open file go. -/
def releaseIn (minor : UInt32) (file : FileInfo) : Bytes :=
  let flags := file.flags.toUInt32
  let releaseFlags := Kernel.flagIf file.flush Kernel.releaseFlush |||
    Kernel.flagIf file.flockRelease Kernel.releaseFlockUnlock
  if 8 ≤ minor then
    Wire.encode ({ fh := file.fh, flags, releaseFlags,
                   lockOwner := file.lockOwner.getD 0 } : Kernel.ReleaseIn)
  else Wire.encode ({ fh := file.fh, flags, releaseFlags } : Kernel.CompatReleaseIn)

/-- All that a read or a write says about its file on an old connection: which handle
it is, and that it may have a lock owner, but not which. -/
def Bare (file : FileInfo) : Prop :=
  file.flags = 0 ∧ (file.lockOwner = none ∨ file.lockOwner = some 0)

end FileInfo

namespace SetTime

/-- The seconds of a time that is given. -/
def seconds : Option SetTime → UInt64
  | some (.at t) => t.sec.toUInt64
  | _ => 0

/-- The nanoseconds of a time that is given. -/
def nanoseconds : Option SetTime → UInt32
  | some (.at t) => t.nsec
  | _ => 0

end SetTime

/-- The structure that selects the attributes to change. -/
def SetAttr.setattrIn (attr : SetAttr) : Kernel.SetattrIn where
  valid :=
    Kernel.flagIf attr.mode.isSome Kernel.Fattr.mode |||
    Kernel.flagIf attr.uid.isSome Kernel.Fattr.uid |||
    Kernel.flagIf attr.gid.isSome Kernel.Fattr.gid |||
    Kernel.flagIf attr.size.isSome Kernel.Fattr.size |||
    Kernel.flagIf attr.atime.isSome Kernel.Fattr.atime |||
    Kernel.flagIf attr.mtime.isSome Kernel.Fattr.mtime |||
    Kernel.flagIf attr.fh.isSome Kernel.Fattr.fh |||
    Kernel.flagIf (attr.atime == some .now) Kernel.Fattr.atimeNow |||
    Kernel.flagIf (attr.mtime == some .now) Kernel.Fattr.mtimeNow |||
    Kernel.flagIf attr.lockOwner.isSome Kernel.Fattr.lockOwner |||
    Kernel.flagIf attr.ctime.isSome Kernel.Fattr.ctime
  fh := attr.fh.getD 0
  size := attr.size.getD 0
  lockOwner := attr.lockOwner.getD 0
  atime := SetTime.seconds attr.atime
  mtime := SetTime.seconds attr.mtime
  ctime := (attr.ctime.map (·.sec.toUInt64)).getD 0
  atimensec := SetTime.nanoseconds attr.atime
  mtimensec := SetTime.nanoseconds attr.mtime
  ctimensec := (attr.ctime.map (·.nsec)).getD 0
  mode := attr.mode.getD 0
  uid := attr.uid.getD 0
  gid := attr.gid.getD 0

/-! ## Operations -/

/-- What a message says about an operation, beside who asks. -/
structure Packet where
  opcode : Opcode
  nodeid : Inode
  body : Bytes := []
deriving DecidableEq, Repr

namespace Operation

/-- How to make a node, by the minor version. -/
def mknodIn (minor mode rdev umask : UInt32) : Bytes :=
  if 12 ≤ minor then Wire.encode ({ mode, rdev, umask } : Kernel.MknodIn)
  else Wire.encode ({ mode, rdev } : Kernel.CompatMknodIn)

/-- How to make and open a file, by the minor version. -/
def createIn (minor flags mode umask : UInt32) : Bytes :=
  if 12 ≤ minor then Wire.encode ({ flags, mode, umask } : Kernel.CreateIn)
  else Wire.encode ({ flags, mode } : Kernel.CompatCreateIn)

/-- The operation as the kernel sends it. It renames in the old way when there are
no flags. -/
def packet (minor : UInt32) : Operation → Packet
  | lookup parent name => ⟨.lookup, parent, name.terminated⟩
  | forget ino nlookup => ⟨.forget, ino, Wire.encode (⟨nlookup⟩ : Kernel.ForgetIn)⟩
  | getattr ino fh =>
    ⟨.getattr, ino,
      if 9 ≤ minor then
        Wire.encode ({ getattrFlags := Kernel.flagIf fh.isSome Kernel.getattrFh,
                       fh := fh.getD 0 } : Kernel.GetattrIn)
      else []⟩
  | setattr ino attr => ⟨.setattr, ino, Wire.encode attr.setattrIn⟩
  | readlink ino => ⟨.readlink, ino, []⟩
  | mknod parent name mode rdev umask =>
    ⟨.mknod, parent, mknodIn minor mode rdev umask ++ name.terminated⟩
  | mkdir parent name mode umask =>
    ⟨.mkdir, parent, Wire.encode (⟨mode, umask⟩ : Kernel.MkdirIn) ++ name.terminated⟩
  | unlink parent name => ⟨.unlink, parent, name.terminated⟩
  | rmdir parent name => ⟨.rmdir, parent, name.terminated⟩
  | symlink parent name target => ⟨.symlink, parent, name.terminated ++ target.terminated⟩
  | rename parent name newdir newName flags =>
    if flags = 0 then
      ⟨.rename, parent,
        Wire.encode (⟨newdir⟩ : Kernel.RenameIn) ++ (name.terminated ++ newName.terminated)⟩
    else
      ⟨.rename2, parent,
        Wire.encode ({ newdir, flags } : Kernel.Rename2In) ++
          (name.terminated ++ newName.terminated)⟩
  | link ino newParent newName =>
    ⟨.link, newParent, Wire.encode (⟨ino⟩ : Kernel.LinkIn) ++ newName.terminated⟩
  | .open ino flags => ⟨.open, ino, Wire.encode ({ flags } : Kernel.OpenIn)⟩
  | read ino offset size file => ⟨.read, ino, file.readIn minor offset size⟩
  | write ino offset data file =>
    ⟨.write, ino, file.writeIn minor offset (.ofNat data.length) ++ data⟩
  | flush ino file =>
    ⟨.flush, ino,
      Wire.encode ({ fh := file.fh, lockOwner := file.lockOwner.getD 0 } : Kernel.FlushIn)⟩
  | release ino file => ⟨.release, ino, file.releaseIn minor⟩
  | fsync ino datasync file =>
    ⟨.fsync, ino,
      Wire.encode ({ fh := file.fh,
                     fsyncFlags := Kernel.flagIf datasync Kernel.fsyncDataOnly } : Kernel.FsyncIn)⟩
  | opendir ino flags => ⟨.opendir, ino, Wire.encode ({ flags } : Kernel.OpenIn)⟩
  | readdir ino offset size file => ⟨.readdir, ino, file.readIn minor offset size⟩
  | releasedir ino file => ⟨.releasedir, ino, file.releaseIn minor⟩
  | fsyncdir ino datasync file =>
    ⟨.fsyncdir, ino,
      Wire.encode ({ fh := file.fh,
                     fsyncFlags := Kernel.flagIf datasync Kernel.fsyncDataOnly } : Kernel.FsyncIn)⟩
  | statfs ino => ⟨.statfs, ino, []⟩
  | setxattr ino name value flags =>
    ⟨.setxattr, ino,
      Wire.encode (⟨.ofNat value.length, flags⟩ : Kernel.SetxattrIn) ++ (name.terminated ++ value)⟩
  | getxattr ino name size =>
    ⟨.getxattr, ino, Wire.encode ({ size } : Kernel.GetxattrIn) ++ name.terminated⟩
  | listxattr ino size => ⟨.listxattr, ino, Wire.encode ({ size } : Kernel.GetxattrIn)⟩
  | removexattr ino name => ⟨.removexattr, ino, name.terminated⟩
  | access ino mask => ⟨.access, ino, Wire.encode ({ mask } : Kernel.AccessIn)⟩
  | create parent name mode umask flags =>
    ⟨.create, parent, createIn minor flags mode umask ++ name.terminated⟩

/-- Whether the operation can be sent on a connection: its names have no zero byte,
its data are not longer than a structure can say, and what the connection has no
place for is absent. -/
def Expressible (minor : UInt32) : Operation → Prop
  | lookup _ name | unlink _ name | rmdir _ name | removexattr _ name => 0 ∉ name
  | mkdir _ name _ _ | getxattr _ name _ | link _ _ name => 0 ∉ name
  | symlink _ name target => 0 ∉ name ∧ 0 ∉ target
  | rename _ name _ newName _ => 0 ∉ name ∧ 0 ∉ newName
  | mknod _ name _ _ umask | create _ name _ umask _ => 0 ∉ name ∧ (12 ≤ minor ∨ umask = 0)
  | getattr _ fh => 9 ≤ minor ∨ fh = none
  | read _ _ _ file | readdir _ _ _ file =>
    file.flush = false ∧ file.flockRelease = false ∧ file.writepage = false ∧
      (9 ≤ minor ∨ file.Bare)
  | write _ _ data file =>
    file.flush = false ∧ file.flockRelease = false ∧ (9 ≤ minor ∨ file.Bare) ∧
      data.length < UInt32.size
  | flush _ file => ∃ owner, file = { fh := file.fh, flags := 0, lockOwner := some owner }
  | release _ file | releasedir _ file =>
    file.writepage = false ∧
      (file.lockOwner.isSome = true ↔
        8 ≤ minor ∧ (file.flush = true ∨ file.flockRelease = true))
  | fsync _ _ file | fsyncdir _ _ file => file = { fh := file.fh, flags := 0 }
  | setxattr _ name value _ => 0 ∉ name ∧ value.length < UInt32.size
  | forget .. | setattr .. | readlink .. | .open .. | opendir .. | statfs .. | listxattr ..
  | access .. => True

/-- The message that carries the operation. A forget needs no answer, so it comes as
a list of its own. -/
def message : Operation → Message
  | forget ino nlookup => .forget [⟨ino, nlookup⟩]
  | op => .operation op

end Operation

/-! ## Frames -/

/-- A frame with this header and body. The header says how long it is. -/
def Kernel.InHeader.frame (header : InHeader) (body : Bytes) : Bytes :=
  Wire.encode { header with len := .ofNat (inHeaderSize + body.length) } ++ body

end Fuse
