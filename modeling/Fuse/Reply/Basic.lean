-- Replies, the shape that each kind of operation takes, and the frames in which
-- they travel. A frame is a header and a payload; on older connections some
-- payloads end earlier.
import Fuse.Errno
import Fuse.Kernel.Header
import Fuse.Reply.Attr
import Fuse.Reply.Listing

namespace Fuse

/-- An answer to a request. -/
inductive Reply where
  | error (errno : Errno)
  | none
  | empty
  | entry (entry : Entry)
  | create (entry : Entry) (opened : Opened)
  | attr (attr : Attr) (ttl : Duration)
  | readlink (target : Bytes)
  | open (opened : Opened)
  | write (written : UInt32)
  | data (data : Bytes)
  | dir (listing : Listing)
  | statfs (st : StatFs)
  | xattrSize (size : UInt32)
deriving DecidableEq, Repr

/-! ## Shapes -/

/-- The form of an answer, without its content. -/
inductive Reply.Shape where
  | error
  | none
  | empty
  | entry
  | create
  | attr
  | readlink
  | open
  | write
  | data
  | dir
  | statfs
  | xattrSize
deriving DecidableEq, Repr

namespace Reply.Shape

def all : List Shape := [
  .error, .none, .empty, .entry, .create, .attr, .readlink, .open, .write, .data, .dir, .statfs,
  .xattrSize]

def name : Shape → String
  | .error => "Error"
  | .none => "None"
  | .empty => "Empty"
  | .entry => "Entry"
  | .create => "Create"
  | .attr => "Attr"
  | .readlink => "Readlink"
  | .open => "Open"
  | .write => "Write"
  | .data => "Data"
  | .dir => "Dir"
  | .statfs => "Statfs"
  | .xattrSize => "XattrSize"

end Reply.Shape

/-- The form of an answer. -/
def Reply.shape : Reply → Reply.Shape
  | .error _ => .error
  | .none => .none
  | .empty => .empty
  | .entry _ => .entry
  | .create .. => .create
  | .attr .. => .attr
  | .readlink _ => .readlink
  | .open _ => .open
  | .write _ => .write
  | .data _ => .data
  | .dir _ => .dir
  | .statfs _ => .statfs
  | .xattrSize _ => .xattrSize

/-- Whether a request of this kind can be answered in this form. -/
def OpKind.accepts (k : OpKind) : Reply.Shape → Bool
  | .none => !k.expectsReply
  | .error => k.expectsReply
  | .entry => k ∈ [.lookup, .mknod, .mkdir, .symlink, .link]
  | .create => k == .create
  | .attr => k ∈ [.getattr, .setattr]
  | .readlink => k == .readlink
  | .open => k ∈ [.open, .opendir]
  | .write => k == .write
  | .data => k ∈ [.read, .getxattr, .listxattr]
  | .dir => k == .readdir
  | .statfs => k == .statfs
  | .xattrSize => k ∈ [.getxattr, .listxattr]
  | .empty => k ∈ [
      .unlink, .rmdir, .rename, .flush, .release, .fsync, .releasedir, .fsyncdir, .setxattr,
      .removexattr, .access]

/-! ## Frames -/

/-- One message to the kernel: the request that it answers, an error or zero,
and what goes with it. -/
structure Frame where
  unique : UInt64
  error : Int32 := 0
  payload : Bytes := []
deriving DecidableEq, Repr

namespace Frame

/-- The answer that only says what went wrong. -/
def ofErrno (unique : UInt64) (e : Errno) : Frame := { unique, error := -e.raw }

/-- The answer that only says that it went well. -/
def success (unique : UInt64) : Frame := { unique }

/-- The header of a frame. Its length is that of the whole frame. -/
def header (f : Frame) : Kernel.OutHeader where
  len := .ofNat (Wire.size Kernel.OutHeader + f.payload.length)
  error := f.error
  unique := f.unique

/-- The bytes of a frame. -/
def encode (f : Frame) : Bytes := Wire.encode f.header ++ f.payload

/-- The answer to the handshake. Before 7.5 it ends after the version, and
before 7.23 after the limit on writes. -/
def ofInit (unique : UInt64) (out : Kernel.InitOut) (minor : UInt32) : Frame :=
  let payload := Wire.encode out
  { unique
    payload :=
      if minor < 5 then payload.take 8
      else if minor < 23 then payload.take 24
      else payload }

end Frame

namespace Reply

/-- The payload of an entry. Before 7.9 it ends before the block size. -/
def entryPayload (e : Entry) (minor : UInt32) : Bytes :=
  let payload := Wire.encode e.toKernel
  if minor < 9 then payload.take 120 else payload

/-- The payload of attributes. Before 7.9 it ends before the block size. -/
def attrPayload (a : Attr) (ttl : Duration) (minor : UInt32) : Bytes :=
  let payload := Wire.encode (a.toKernelFor ttl)
  if minor < 9 then payload.take 96 else payload

/-- The payload of the figures of a file system. Before 7.4 it ends before the
fragment size. -/
def statfsPayload (st : StatFs) (minor : UInt32) : Bytes :=
  let payload := Wire.encode st.toKernel
  if minor < 4 then payload.take 48 else payload

/-- The frame that answers request `unique` on a connection of this minor
version. Some answers send nothing. -/
def frame? (unique : UInt64) (minor : UInt32) : Reply → Option Frame
  | .none => .none
  | .error e => some (.ofErrno unique e)
  | .empty => some (.success unique)
  | .entry e => some { unique, payload := entryPayload e minor }
  | .create e o => some { unique, payload := entryPayload e minor ++ Wire.encode o.toKernel }
  | .attr a ttl => some { unique, payload := attrPayload a ttl minor }
  | .open o => some { unique, payload := Wire.encode o.toKernel }
  | .write n => some { unique, payload := Wire.encode ({ size := n } : Kernel.WriteOut) }
  | .readlink bs => some { unique, payload := bs }
  | .data bs => some { unique, payload := bs }
  | .dir l => some { unique, payload := l.bytes }
  | .statfs st => some { unique, payload := statfsPayload st minor }
  | .xattrSize n => some { unique, payload := Wire.encode ({ size := n } : Kernel.GetxattrOut) }

end Reply

end Fuse
