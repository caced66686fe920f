-- The headers of messages and replies, and the structures of the handshake.
import Fuse.Layout

namespace Fuse.Kernel

/-- The header of every message from the kernel. -/
structure InHeader where
  len : UInt32
  opcode : UInt32
  unique : UInt64
  nodeid : UInt64
  uid : UInt32
  gid : UInt32
  pid : UInt32
  padding : UInt32 := 0
deriving DecidableEq

instance : Wire InHeader where
  layout := .seq .u32 [.u32, .u64, .u64, .u32, .u32, .u32, .u32]
  toValue s := (s.len, s.opcode, s.unique, s.nodeid, s.uid, s.gid, s.pid, s.padding)
  ofValue := fun (len, opcode, unique, nodeid, uid, gid, pid, padding) =>
    ⟨len, opcode, unique, nodeid, uid, gid, pid, padding⟩

/-- The header of every reply. The error is the negated error number, or zero. -/
structure OutHeader where
  len : UInt32
  error : Int32
  unique : UInt64
deriving DecidableEq

instance : Wire OutHeader where
  layout := .seq .u32 [.i32, .u64]
  toValue s := (s.len, s.error, s.unique)
  ofValue := fun (len, error, unique) =>
    ⟨len, error, unique⟩

/-- What the kernel offers when the connection opens. -/
structure InitIn where
  major : UInt32
  minor : UInt32
  maxReadahead : UInt32
  flags : UInt32
deriving DecidableEq

instance : Wire InitIn where
  layout := .seq .u32 [.u32, .u32, .u32]
  toValue s := (s.major, s.minor, s.maxReadahead, s.flags)
  ofValue := fun (major, minor, maxReadahead, flags) =>
    ⟨major, minor, maxReadahead, flags⟩

/-- What the session settles on. -/
structure InitOut where
  major : UInt32
  minor : UInt32
  maxReadahead : UInt32
  flags : UInt32
  maxBackground : UInt16
  congestionThreshold : UInt16
  maxWrite : UInt32
  timeGran : UInt32
  maxPages : UInt16
  mapAlignment : UInt16 := 0
  flags2 : UInt32 := 0
  unused : Vector UInt32 7 := .replicate _ 0
deriving DecidableEq

instance : Wire InitOut where
  layout := .seq .u32 [.u32, .u32, .u32, .u16, .u16, .u32, .u32, .u16, .u16, .u32,
    .array 7 .u32]
  toValue s := (s.major, s.minor, s.maxReadahead, s.flags, s.maxBackground,
    s.congestionThreshold, s.maxWrite, s.timeGran, s.maxPages, s.mapAlignment, s.flags2,
    s.unused)
  ofValue := fun (major, minor, maxReadahead, flags, maxBackground, congestionThreshold,
    maxWrite, timeGran, maxPages, mapAlignment, flags2, unused) =>
    ⟨major, minor, maxReadahead, flags, maxBackground, congestionThreshold, maxWrite, timeGran,
    maxPages, mapAlignment, flags2, unused⟩

/-- The request that the kernel no longer waits for. -/
structure InterruptIn where
  unique : UInt64
deriving DecidableEq

instance : Wire InterruptIn where
  layout := .u64
  toValue s := s.unique
  ofValue unique := ⟨unique⟩

end Fuse.Kernel
