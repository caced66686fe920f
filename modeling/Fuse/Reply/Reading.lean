-- The kernel's side of answers: how it reads a frame, and what it knows of an answer
-- afterwards. On older connections some structures end earlier.
import Fuse.Reply.Basic

namespace Fuse

/-! ## Older structures -/

namespace Kernel

/-- Attributes before 7.9. -/
structure CompatAttr where
  ino : UInt64
  size : UInt64
  blocks : UInt64
  atime : UInt64
  mtime : UInt64
  ctime : UInt64
  atimensec : UInt32
  mtimensec : UInt32
  ctimensec : UInt32
  mode : UInt32
  nlink : UInt32
  uid : UInt32
  gid : UInt32
  rdev : UInt32
deriving DecidableEq

instance : Wire CompatAttr where
  layout := .seq .u64 [.u64, .u64, .u64, .u64, .u64, .u32, .u32, .u32, .u32, .u32, .u32, .u32,
    .u32]
  toValue s := (s.ino, s.size, s.blocks, s.atime, s.mtime, s.ctime, s.atimensec, s.mtimensec,
    s.ctimensec, s.mode, s.nlink, s.uid, s.gid, s.rdev)
  ofValue := fun (ino, size, blocks, atime, mtime, ctime, atimensec, mtimensec, ctimensec, mode,
    nlink, uid, gid, rdev) =>
    ⟨ino, size, blocks, atime, mtime, ctime, atimensec, mtimensec, ctimensec, mode, nlink, uid,
    gid, rdev⟩

/-- The answer to a request that names or makes a node, before 7.9. -/
structure CompatEntryOut where
  nodeid : UInt64
  generation : UInt64
  entryValid : UInt64
  attrValid : UInt64
  entryValidNsec : UInt32
  attrValidNsec : UInt32
  attr : CompatAttr
deriving DecidableEq

instance : Wire CompatEntryOut where
  layout := .seq .u64 [.u64, .u64, .u64, .u32, .u32, Wire.layout CompatAttr]
  toValue s := (s.nodeid, s.generation, s.entryValid, s.attrValid, s.entryValidNsec,
    s.attrValidNsec, Wire.toValue s.attr)
  ofValue := fun (nodeid, generation, entryValid, attrValid, entryValidNsec, attrValidNsec,
    attr) =>
    ⟨nodeid, generation, entryValid, attrValid, entryValidNsec, attrValidNsec,
    Wire.ofValue attr⟩
  ofValue_toValue s := by simp only [Wire.ofValue_toValue]
  toValue_ofValue v := by simp only [Wire.toValue_ofValue]

/-- Attributes and how long they may be kept, before 7.9. -/
structure CompatAttrOut where
  attrValid : UInt64
  attrValidNsec : UInt32
  dummy : UInt32
  attr : CompatAttr
deriving DecidableEq

instance : Wire CompatAttrOut where
  layout := .seq .u64 [.u32, .u32, Wire.layout CompatAttr]
  toValue s := (s.attrValid, s.attrValidNsec, s.dummy, Wire.toValue s.attr)
  ofValue := fun (attrValid, attrValidNsec, dummy, attr) =>
    ⟨attrValid, attrValidNsec, dummy, Wire.ofValue attr⟩
  ofValue_toValue s := by simp only [Wire.ofValue_toValue]
  toValue_ofValue v := by simp only [Wire.toValue_ofValue]

/-- The figures of a file system before 7.4. -/
structure CompatKstatfs where
  blocks : UInt64
  bfree : UInt64
  bavail : UInt64
  files : UInt64
  ffree : UInt64
  bsize : UInt32
  namelen : UInt32
deriving DecidableEq

instance : Wire CompatKstatfs where
  layout := .seq .u64 [.u64, .u64, .u64, .u64, .u32, .u32]
  toValue s := (s.blocks, s.bfree, s.bavail, s.files, s.ffree, s.bsize, s.namelen)
  ofValue := fun (blocks, bfree, bavail, files, ffree, bsize, namelen) =>
    ⟨blocks, bfree, bavail, files, ffree, bsize, namelen⟩

/-! What is missing in an older structure reads as zero. -/

def CompatAttr.widen (a : CompatAttr) : Attr where
  ino := a.ino
  size := a.size
  blocks := a.blocks
  atime := a.atime
  mtime := a.mtime
  ctime := a.ctime
  atimensec := a.atimensec
  mtimensec := a.mtimensec
  ctimensec := a.ctimensec
  mode := a.mode
  nlink := a.nlink
  uid := a.uid
  gid := a.gid
  rdev := a.rdev
  blksize := 0

def CompatEntryOut.widen (e : CompatEntryOut) : EntryOut where
  nodeid := e.nodeid
  generation := e.generation
  entryValid := e.entryValid
  attrValid := e.attrValid
  entryValidNsec := e.entryValidNsec
  attrValidNsec := e.attrValidNsec
  attr := e.attr.widen

def CompatAttrOut.widen (a : CompatAttrOut) : AttrOut where
  attrValid := a.attrValid
  attrValidNsec := a.attrValidNsec
  dummy := a.dummy
  attr := a.attr.widen

def CompatKstatfs.widen (s : CompatKstatfs) : StatfsOut where
  st :=
    { blocks := s.blocks
      bfree := s.bfree
      bavail := s.bavail
      files := s.files
      ffree := s.ffree
      bsize := s.bsize
      namelen := s.namelen
      frsize := 0 }

end Kernel

/-! ## What a structure says

Words that are reserved are zero; there is no answer if one is not. -/

/-- The permissions without the file type. -/
def permMask : UInt16 := 0o7777

/-- The node that the attributes describe. The mode word says what it is. -/
def Attr.ofKernel? (a : Kernel.Attr) : Option Attr :=
  if a.padding = 0 then
    (FileType.ofMode? a.mode).map fun kind =>
      { ino := a.ino
        kind
        perm := a.mode.toUInt16 &&& permMask
        size := a.size
        blocks := a.blocks
        atime := ⟨a.atime.toInt64, a.atimensec⟩
        mtime := ⟨a.mtime.toInt64, a.mtimensec⟩
        ctime := ⟨a.ctime.toInt64, a.ctimensec⟩
        nlink := a.nlink
        uid := a.uid
        gid := a.gid
        rdev := a.rdev
        blksize := a.blksize }
  else none

/-- The attributes, and how long they may be kept. -/
def Attr.ofKernelFor? (a : Kernel.AttrOut) : Option (Attr × Duration) :=
  if a.dummy = 0 then
    (Attr.ofKernel? a.attr).map fun attr => (attr, ⟨a.attrValid, a.attrValidNsec⟩)
  else none

/-- The entry that the kernel learns of. Its node has one number in both places. -/
def Entry.ofKernel? (e : Kernel.EntryOut) : Option Entry :=
  if e.nodeid = e.attr.ino then
    (Attr.ofKernel? e.attr).map fun attr =>
      { attr
        generation := e.generation
        attrTtl := ⟨e.attrValid, e.attrValidNsec⟩
        entryTtl := ⟨e.entryValid, e.entryValidNsec⟩ }
  else none

def Opened.ofKernel? (o : Kernel.OpenOut) : Option Opened :=
  if o.padding = 0 then some { fh := o.fh, flags := o.openFlags } else none

def StatFs.ofKernel? (s : Kernel.StatfsOut) : Option StatFs :=
  if s.st.padding = 0 ∧ s.st.spare = .replicate _ 0 then
    some
      { blocks := s.st.blocks
        bfree := s.st.bfree
        bavail := s.st.bavail
        files := s.st.files
        ffree := s.st.ffree
        bsize := s.st.bsize
        namelen := s.st.namelen
        frsize := s.st.frsize }
  else none

/-! ## Reading an answer -/

/-- A frame off the channel. Its header says how long it is. -/
def Frame.decode? (bs : Bytes) : Option Frame := do
  let (header, payload) ← Wire.decode? (α := Kernel.OutHeader) bs
  if header.len.toNat = bs.length then
    return { unique := header.unique, error := header.error, payload }
  else failure

namespace Reply

/-- Read an entry, laid out for a minor version, and give the bytes after it. -/
def readEntry (minor : UInt32) (bs : Bytes) : Option (Entry × Bytes) := do
  let (out, rest) ←
    if 9 ≤ minor then Wire.decode? (α := Kernel.EntryOut) bs
    else (Wire.decode? (α := Kernel.CompatEntryOut) bs).map fun (out, rest) => (out.widen, rest)
  return (← Entry.ofKernel? out, rest)

/-- Read attributes and how long they may be kept. -/
def readAttr (minor : UInt32) (bs : Bytes) : Option ((Attr × Duration) × Bytes) := do
  let (out, rest) ←
    if 9 ≤ minor then Wire.decode? (α := Kernel.AttrOut) bs
    else (Wire.decode? (α := Kernel.CompatAttrOut) bs).map fun (out, rest) => (out.widen, rest)
  return (← Attr.ofKernelFor? out, rest)

/-- Read the handle of an opened file. -/
def readOpened (bs : Bytes) : Option (Opened × Bytes) := do
  let (out, rest) ← Wire.decode? (α := Kernel.OpenOut) bs
  return (← Opened.ofKernel? out, rest)

/-- Read the figures of a file system. -/
def readStatfs (minor : UInt32) (bs : Bytes) : Option (StatFs × Bytes) := do
  let (out, rest) ←
    if 4 ≤ minor then Wire.decode? (α := Kernel.StatfsOut) bs
    else (Wire.decode? (α := Kernel.CompatKstatfs) bs).map fun (out, rest) => (out.widen, rest)
  return (← StatFs.ofKernel? out, rest)

/-- Read a count of bytes, which a reserved word follows. -/
def readCount (bs : Bytes) : Option (UInt32 × Bytes) := do
  let (out, rest) ← Wire.decode? (α := Kernel.WriteOut) bs
  if out.padding = 0 then return (out.size, rest) else failure

/-- What was read, if nothing is left. -/
def whole {α : Type} : Option (α × Bytes) → Option α
  | some (a, []) => some a
  | _ => Option.none

/-- The answer that a payload carries, by the shape that the kernel expects. Bytes
without a structure are left out. -/
def read? (minor : UInt32) (payload : Bytes) : Shape → Option Reply
  | .entry => whole do
      let (e, rest) ← readEntry minor payload
      return (.entry e, rest)
  | .create => whole do
      let (e, rest) ← readEntry minor payload
      let (o, rest) ← readOpened rest
      return (.create e o, rest)
  | .attr => whole do
      let ((a, ttl), rest) ← readAttr minor payload
      return (.attr a ttl, rest)
  | .open => whole do
      let (o, rest) ← readOpened payload
      return (.open o, rest)
  | .write => whole do
      let (n, rest) ← readCount payload
      return (.write n, rest)
  | .statfs => whole do
      let (st, rest) ← readStatfs minor payload
      return (.statfs st, rest)
  | .xattrSize => whole do
      let (n, rest) ← readCount payload
      return (.xattrSize n, rest)
  | .error | .none | .empty | .readlink | .data | .dir => .none

/-! ## What the kernel knows -/

/-- The shapes whose payload is a structure. -/
def Shape.structured (shape : Shape) : Bool :=
  shape ∈ [.entry, .create, .attr, .open, .write, .statfs, .xattrSize]

/-- The bytes of an answer that is nothing but bytes. -/
def raw? : Reply → Option Bytes
  | .readlink bs | .data bs => some bs
  | .dir l => some l.bytes
  | _ => Option.none

end Reply

/-- What a connection tells of attributes: before 7.9 not the block size. -/
def Attr.told (minor : UInt32) (a : Attr) : Attr :=
  { a with
    perm := a.perm &&& permMask
    blksize := if minor < 9 then 0 else a.blksize }

def Entry.told (minor : UInt32) (e : Entry) : Entry := { e with attr := e.attr.told minor }

/-- What a connection tells of the figures: before 7.4 not the fragment size. -/
def StatFs.told (minor : UInt32) (s : StatFs) : StatFs :=
  { s with frsize := if minor < 4 then 0 else s.frsize }

/-- What a connection tells of an answer. -/
def Reply.told (minor : UInt32) : Reply → Reply
  | .entry e => .entry (e.told minor)
  | .create e o => .create (e.told minor) o
  | .attr a ttl => .attr (a.told minor) ttl
  | .statfs st => .statfs (st.told minor)
  | r => r

end Fuse
