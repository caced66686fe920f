-- Nothing is lost on the way to the kernel. Whatever an answer says, the kernel reads
-- it off the frame, but for the words that its version does not have.
import Fuse.Proofs.ReplyForm
import Fuse.Reply.Reading

namespace Fuse

/-! ## The mode word -/

theorem or_and_uint32 (a b c : UInt32) : (a ||| b) &&& c = (a &&& c) ||| (b &&& c) :=
  UInt32.toBitVec_inj.mp BitVec.and_or_distrib_right

theorem or_and_uint16 (a b c : UInt16) : (a ||| b) &&& c = (a &&& c) ||| (b &&& c) :=
  UInt16.toBitVec_inj.mp BitVec.and_or_distrib_right

/-- The permissions do not reach into the bits of the file type. -/
theorem FileType.modeBits_or_and (t : FileType) (perm : UInt32) :
    (t.modeBits ||| (perm &&& 0o7777)) &&& modeMask = t.modeBits := by
  have hperm : (perm &&& 0o7777) &&& modeMask = 0 := by
    rw [UInt32.and_assoc]
    exact UInt32.and_zero
  rw [or_and_uint32, hperm, UInt32.or_zero]
  cases t <;> rfl

theorem FileType.ofMode?_modeBits_or (t : FileType) (perm : UInt32) :
    ofMode? (t.modeBits ||| (perm &&& 0o7777)) = some t := by
  unfold ofMode?
  rw [modeBits_or_and]
  cases t <;> rfl

/-- The file type does not reach into the bits of the permissions. -/
theorem FileType.toUInt16_or_and (t : FileType) (perm : UInt16) :
    (t.modeBits ||| (perm.toUInt32 &&& 0o7777)).toUInt16 &&& permMask = perm &&& permMask := by
  have htype : t.modeBits.toUInt16 &&& permMask = 0 := by cases t <;> rfl
  have hmask : (0o7777 : UInt32).toUInt16 = permMask := rfl
  rw [UInt32.toUInt16_or, or_and_uint16, htype, UInt16.zero_or, UInt32.toUInt16_and,
    UInt16.toUInt16_toUInt32, hmask, UInt16.and_assoc, UInt16.and_self]

/-! ## What a structure says -/

theorem Attr.ofKernel?_toKernel (a : Attr) :
    ofKernel? a.toKernel = some { a with perm := a.perm &&& permMask } := by
  have hpadding : a.toKernel.padding = 0 := rfl
  unfold ofKernel?
  rw [if_pos hpadding]
  show Option.map _ (FileType.ofMode? a.mode) = _
  rw [show FileType.ofMode? a.mode = some a.kind from FileType.ofMode?_modeBits_or _ _,
    Option.map_some]
  simp only [toKernel, mode, FileType.toUInt16_or_and, Int64.toInt64_toUInt64]

theorem Attr.ofKernelFor?_toKernelFor (a : Attr) (ttl : Duration) :
    ofKernelFor? (a.toKernelFor ttl) = some ({ a with perm := a.perm &&& permMask }, ttl) := by
  have hdummy : (a.toKernelFor ttl).dummy = 0 := rfl
  unfold ofKernelFor?
  rw [if_pos hdummy]
  show Option.map _ (Attr.ofKernel? a.toKernel) = _
  rw [Attr.ofKernel?_toKernel]
  rfl

theorem Entry.ofKernel?_toKernel (e : Entry) :
    ofKernel? e.toKernel =
      some { e with attr := { e.attr with perm := e.attr.perm &&& permMask } } := by
  have hsame : e.toKernel.nodeid = e.toKernel.attr.ino := rfl
  unfold ofKernel?
  rw [if_pos hsame]
  show Option.map _ (Attr.ofKernel? e.attr.toKernel) = _
  rw [Attr.ofKernel?_toKernel]
  rfl

/-! ## Older structures

Each is the front of the newer one, so a payload that is cut short is the older
structure. -/

namespace Kernel

def Attr.older (a : Attr) : CompatAttr where
  ino := a.ino
  size := a.size
  blocks := a.blocks
  atime := a.atime
  mtime := a.mtime
  ctime := a.ctime
  atimensec := a.atimensec
  mtimensec := a.mtimensec
  ctimensec := a.ctimensec
  mode := a.mode
  nlink := a.nlink
  uid := a.uid
  gid := a.gid
  rdev := a.rdev

def EntryOut.older (e : EntryOut) : CompatEntryOut where
  nodeid := e.nodeid
  generation := e.generation
  entryValid := e.entryValid
  attrValid := e.attrValid
  entryValidNsec := e.entryValidNsec
  attrValidNsec := e.attrValidNsec
  attr := e.attr.older

def AttrOut.older (a : AttrOut) : CompatAttrOut where
  attrValid := a.attrValid
  attrValidNsec := a.attrValidNsec
  dummy := a.dummy
  attr := a.attr.older

def Kstatfs.older (s : Kstatfs) : CompatKstatfs where
  blocks := s.blocks
  bfree := s.bfree
  bavail := s.bavail
  files := s.files
  ffree := s.ffree
  bsize := s.bsize
  namelen := s.namelen

theorem encode_entryOut (e : EntryOut) :
    ∃ tail, Wire.encode e = Wire.encode e.older ++ tail :=
  ⟨Layout.encode (.pair .u32 .u32) (e.attr.blksize, e.attr.padding), by
    simp only [Wire.encode, Wire.layout, Wire.toValue, Layout.encode, EntryOut.older, Attr.older,
      List.append_assoc]⟩

theorem encode_attrOut (a : AttrOut) :
    ∃ tail, Wire.encode a = Wire.encode a.older ++ tail :=
  ⟨Layout.encode (.pair .u32 .u32) (a.attr.blksize, a.attr.padding), by
    simp only [Wire.encode, Wire.layout, Wire.toValue, Layout.encode, AttrOut.older, Attr.older,
      List.append_assoc]⟩

theorem encode_statfsOut (s : StatfsOut) :
    ∃ tail, Wire.encode s = Wire.encode s.st.older ++ tail :=
  ⟨Layout.encode (.seq .u32 [.u32, .array 6 .u32]) (s.st.frsize, s.st.padding, s.st.spare), by
    simp only [Wire.encode, Wire.layout, Wire.toValue, Layout.encode, Kstatfs.older,
      List.append_assoc]⟩

end Kernel

/-! ## Reading what was written -/

namespace Reply

theorem readEntry_entryPayload (minor : UInt32) (e : Entry) (rest : Bytes) :
    readEntry minor (entryPayload e minor ++ rest) = some (e.told minor, rest) := by
  unfold readEntry entryPayload
  by_cases h : minor < 9
  · obtain ⟨tail, htail⟩ := Kernel.encode_entryOut e.toKernel
    have htake : (Wire.encode e.toKernel).take 120 = Wire.encode e.toKernel.older :=
      Wire.take_size htail
    have hwiden : e.toKernel.older.widen =
        ({ e with attr := { e.attr with blksize := 0 } } : Entry).toKernel := rfl
    simp only [if_pos h, if_neg (UInt32.not_le.mpr h), htake, Wire.decode?_encode, hwiden,
      Option.map_some, Option.bind_eq_bind, Option.bind_some, Entry.ofKernel?_toKernel,
      Option.pure_def, Entry.told, Attr.told]
  · simp only [if_neg h, if_pos (UInt32.not_lt.mp h), Wire.decode?_encode, Option.bind_eq_bind,
      Option.bind_some, Entry.ofKernel?_toKernel, Option.pure_def, Entry.told, Attr.told]

theorem readAttr_attrPayload (minor : UInt32) (a : Attr) (ttl : Duration) (rest : Bytes) :
    readAttr minor (attrPayload a ttl minor ++ rest) = some ((a.told minor, ttl), rest) := by
  unfold readAttr attrPayload
  by_cases h : minor < 9
  · obtain ⟨tail, htail⟩ := Kernel.encode_attrOut (a.toKernelFor ttl)
    have htake : (Wire.encode (a.toKernelFor ttl)).take 96 =
        Wire.encode (a.toKernelFor ttl).older := Wire.take_size htail
    have hwiden : (a.toKernelFor ttl).older.widen =
        ({ a with blksize := 0 } : Attr).toKernelFor ttl := rfl
    simp only [if_pos h, if_neg (UInt32.not_le.mpr h), htake, Wire.decode?_encode, hwiden,
      Option.map_some, Option.bind_eq_bind, Option.bind_some, Attr.ofKernelFor?_toKernelFor,
      Option.pure_def, Attr.told]
  · simp only [if_neg h, if_pos (UInt32.not_lt.mp h), Wire.decode?_encode, Option.bind_eq_bind,
      Option.bind_some, Attr.ofKernelFor?_toKernelFor, Option.pure_def, Attr.told]

theorem readOpened_encode (o : Opened) (rest : Bytes) :
    readOpened (Wire.encode o.toKernel ++ rest) = some (o, rest) := by
  simp only [readOpened, Wire.decode?_encode, Option.bind_eq_bind, Option.bind_some,
    Opened.ofKernel?, Opened.toKernel, if_true, Option.pure_def]

theorem readStatfs_statfsPayload (minor : UInt32) (st : StatFs) (rest : Bytes) :
    readStatfs minor (statfsPayload st minor ++ rest) = some (st.told minor, rest) := by
  unfold readStatfs statfsPayload
  by_cases h : minor < 4
  · obtain ⟨tail, htail⟩ := Kernel.encode_statfsOut st.toKernel
    have htake : (Wire.encode st.toKernel).take 48 = Wire.encode st.toKernel.st.older :=
      Wire.take_size htail
    simp only [if_pos h, if_neg (UInt32.not_le.mpr h), htake, Wire.decode?_encode,
      Option.map_some, Option.bind_eq_bind, Option.bind_some, StatFs.ofKernel?,
      Kernel.CompatKstatfs.widen, and_self, if_true, Option.pure_def, StatFs.told]
    rfl
  · simp only [if_neg h, if_pos (UInt32.not_lt.mp h), Wire.decode?_encode, Option.bind_eq_bind,
      Option.bind_some, StatFs.ofKernel?, StatFs.toKernel, and_self, if_true, Option.pure_def,
      StatFs.told]

theorem readCount_encode (n : UInt32) (rest : Bytes) :
    readCount (Wire.encode ({ size := n } : Kernel.WriteOut) ++ rest) = some (n, rest) := by
  simp only [readCount, Wire.decode?_encode, Option.bind_eq_bind, Option.bind_some, if_true,
    Option.pure_def]

/-- An answer with a structure has a frame without an error, and the kernel reads the
answer off its payload. -/
theorem read?_frame? (unique : UInt64) (minor : UInt32) {reply : Reply}
    (h : reply.shape.structured = true) :
    ∃ payload, payload.length ≤ 144 ∧ reply.frame? unique minor = some { unique, payload } ∧
      read? minor payload reply.shape = some (reply.told minor) := by
  have hlen : entrySize minor ≤ 128 := by unfold entrySize; split <;> omega
  cases reply with
  | entry e =>
    refine ⟨_, ?_, rfl, ?_⟩
    · rw [length_entryPayload]
      omega
    · have hread := readEntry_entryPayload minor e []
      rw [List.append_nil] at hread
      simp only [read?, shape, hread, Option.bind_eq_bind, Option.bind_some, Option.pure_def, whole,
        told]
  | create e o =>
    refine ⟨_, ?_, rfl, ?_⟩
    · rw [List.length_append, length_entryPayload, Wire.length_encode]
      show entrySize minor + 16 ≤ 144
      omega
    · have hopen := readOpened_encode o []
      rw [List.append_nil] at hopen
      simp only [read?, shape, readEntry_entryPayload, hopen, Option.bind_eq_bind, Option.bind_some,
        Option.pure_def, whole, told]
  | attr a ttl =>
    refine ⟨_, ?_, rfl, ?_⟩
    · rw [length_attrPayload, attrSize]
      split <;> omega
    · have hread := readAttr_attrPayload minor a ttl []
      rw [List.append_nil] at hread
      simp only [read?, shape, hread, Option.bind_eq_bind, Option.bind_some, Option.pure_def, whole,
        told]
  | «open» o =>
    refine ⟨_, ?_, rfl, ?_⟩
    · rw [Wire.length_encode]
      decide
    · have hread := readOpened_encode o []
      rw [List.append_nil] at hread
      simp only [read?, shape, hread, Option.bind_eq_bind, Option.bind_some, Option.pure_def, whole,
        told]
  | write n =>
    refine ⟨_, ?_, rfl, ?_⟩
    · rw [Wire.length_encode]
      decide
    · have hread := readCount_encode n []
      rw [List.append_nil] at hread
      simp only [read?, shape, hread, Option.bind_eq_bind, Option.bind_some, Option.pure_def, whole,
        told]
  | statfs st =>
    refine ⟨_, ?_, rfl, ?_⟩
    · rw [length_statfsPayload, statfsSize]
      split <;> omega
    · have hread := readStatfs_statfsPayload minor st []
      rw [List.append_nil] at hread
      simp only [read?, shape, hread, Option.bind_eq_bind, Option.bind_some, Option.pure_def, whole,
        told]
  | xattrSize n =>
    refine ⟨_, ?_, rfl, ?_⟩
    · rw [Wire.length_encode]
      decide
    · have hread := readCount_encode n []
      rw [List.append_nil] at hread
      have hsame : Wire.encode ({ size := n } : Kernel.GetxattrOut) =
          Wire.encode ({ size := n } : Kernel.WriteOut) := rfl
      simp only [read?, shape, hsame, hread, Option.bind_eq_bind, Option.bind_some, Option.pure_def,
        whole, told]
  | error | none | empty | readlink | data | dir => cases h

end Reply

/-! ## Frames -/

namespace Frame

/-- The bytes of a frame, with the length of all of them in front. -/
theorem encode_eq (f : Frame) :
    f.encode = Bytes.ofNat 4 (UInt32.ofNat (16 + f.payload.length)).toNat ++
      Bytes.ofNat 4 f.error.toUInt32.toNat ++ Bytes.ofNat 8 f.unique.toNat ++ f.payload := by
  show Bytes.ofNat 4 _ ++ (Bytes.ofNat 4 _ ++ Bytes.ofNat 8 _) ++ f.payload = _
  rw [List.append_assoc (Bytes.ofNat 4 _)]
  rfl

theorem length_encode (f : Frame) : f.encode.length = 16 + f.payload.length := by
  rw [encode, List.length_append, Wire.length_encode]
  rfl

theorem decode?_encode {f : Frame} (h : 16 + f.payload.length < UInt32.size) :
    decode? f.encode = some f := by
  have hlen : f.header.len.toNat = f.encode.length := by
    rw [length_encode]
    exact UInt32.toNat_ofNat_of_lt' h
  unfold decode?
  rw [show Wire.decode? f.encode = some (f.header, f.payload) from Wire.decode?_encode _ _]
  simp only [Option.bind_eq_bind, Option.bind_some, hlen, if_true, Option.pure_def]
  rfl

end Frame

/-! ## The answers -/

theorem permMask_and_of_le {perm : UInt16} (h : perm ≤ permMask) : perm &&& permMask = perm := by
  have hle : perm.toNat ≤ 2 ^ 12 - 1 := UInt16.le_iff_toNat_le.mp h
  apply UInt16.toNat_inj.mp
  rw [UInt16.toNat_and]
  show perm.toNat &&& (2 ^ 12 - 1) = perm.toNat
  rw [Nat.and_two_pow_sub_one_eq_mod]
  omega

/-- From minor version 9 on, an entry with nothing but permissions in its permissions is
told as it is. -/
theorem Entry.told_of_le {minor : UInt32} (h : 9 ≤ minor) {e : Entry}
    (hperm : e.attr.perm ≤ permMask) : e.told minor = e := by
  unfold Entry.told Attr.told
  rw [permMask_and_of_le hperm, if_neg (UInt32.not_lt.mpr h)]

namespace Reply

/-- Nothing but bytes: the payload is the bytes. -/
theorem frame?_raw (unique : UInt64) (minor : UInt32) {reply : Reply} {payload : Bytes}
    (h : reply.raw? = some payload) : reply.frame? unique minor = some { unique, payload } := by
  cases reply <;> cases h <;> rfl

/-- The kernel reads back every answer that is sent, whatever the minor version: the frame
is a header of 16 bytes with the length of the whole frame, no error and the number of the
request, and then the payload. A payload with a structure is read in the layout of the
version and gives every field but those that the version does not have. In the answer to a
create the handle follows the entry. Two entries in one frame are one entry. Other payloads
are the bytes that the file system gave. -/
theorem the_kernel_reads_every_answer_back (unique : UInt64) (minor : UInt32) :
    (∀ reply : Reply, reply.shape.structured = true →
      ∃ f, reply.frame? unique minor = some f ∧
        f.encode = Bytes.ofNat 4 f.encode.length ++ Bytes.ofNat 4 0 ++
          Bytes.ofNat 8 unique.toNat ++ f.payload ∧
        Frame.decode? f.encode = some { unique, error := 0, payload := f.payload } ∧
        read? minor f.payload reply.shape = some (reply.told minor)) ∧
    (∀ (reply : Reply) (bs : Bytes), reply.raw? = some bs → bs.length < UInt32.size - 16 →
      ∃ f, reply.frame? unique minor = some f ∧
        f.encode = Bytes.ofNat 4 f.encode.length ++ Bytes.ofNat 4 0 ++
          Bytes.ofNat 8 unique.toNat ++ bs ∧
        Frame.decode? f.encode = some { unique, error := 0, payload := bs }) ∧
    (∀ (e : Entry) (o : Opened), ∃ f, (Reply.create e o).frame? unique minor = some f ∧
      (Reply.entry e).frame? unique minor =
        some { unique, payload := f.payload.take (if minor < 9 then 120 else 128) } ∧
      Wire.decode? (f.payload.drop (if minor < 9 then 120 else 128)) =
        some (({ fh := o.fh, openFlags := o.flags, padding := 0 } : Kernel.OpenOut), [])) ∧
    (9 ≤ minor → ∀ e e' : Entry, e.attr.perm ≤ 0o7777 → e'.attr.perm ≤ 0o7777 →
      ((Reply.entry e).frame? unique minor).map Frame.encode =
        ((Reply.entry e').frame? unique minor).map Frame.encode → e = e') := by
  have hsmall {n : Nat} (h : n ≤ 144) : 16 + n < UInt32.size := by
    unfold UInt32.size
    omega
  have hframe (payload : Bytes) (h : 16 + payload.length < UInt32.size) :
      ({ unique, payload } : Frame).encode =
          Bytes.ofNat 4 ({ unique, payload } : Frame).encode.length ++ Bytes.ofNat 4 0 ++
            Bytes.ofNat 8 unique.toNat ++ payload ∧
        Frame.decode? ({ unique, payload } : Frame).encode =
          some { unique, error := 0, payload } := by
    refine ⟨?_, Frame.decode?_encode h⟩
    have hlen : (UInt32.ofNat (16 + payload.length)).toNat = 16 + payload.length :=
      UInt32.toNat_ofNat_of_lt' h
    rw [Frame.length_encode, Frame.encode_eq, hlen]
    rfl
  refine ⟨fun reply hs => ?_, fun reply bs hraw hlt => ?_, fun e o => ?_,
    fun hminor e e' hperm hperm' hsame => ?_⟩
  · obtain ⟨payload, hle, hf, hread⟩ := read?_frame? unique minor hs
    exact ⟨_, hf, (hframe payload (hsmall hle)).1, (hframe payload (hsmall hle)).2, hread⟩
  · have hlt : 16 + bs.length < UInt32.size := by omega
    exact ⟨_, frame?_raw unique minor hraw, hframe bs hlt⟩
  · have hlen : (entryPayload e minor).length = if minor < 9 then 120 else 128 :=
      length_entryPayload e minor
    refine ⟨_, rfl, ?_, ?_⟩
    · rw [← hlen]
      show some _ = some ({ unique, payload := (entryPayload e minor ++ _).take _ } : Frame)
      rw [List.take_left' rfl]
    · rw [← hlen]
      show Wire.decode? ((entryPayload e minor ++ Wire.encode o.toKernel).drop _) = _
      have hopen := Wire.decode?_encode o.toKernel []
      rw [List.append_nil] at hopen
      rw [List.drop_left' rfl, hopen]
      rfl
  · -- both entries are read off one payload
    have hstructured (e : Entry) : (Reply.entry e).shape.structured = true := rfl
    obtain ⟨payload, hle, hf, hread⟩ := read?_frame? unique minor (hstructured e)
    obtain ⟨payload', hle', hf', hread'⟩ := read?_frame? unique minor (hstructured e')
    rw [hf, hf', Option.map_some, Option.map_some, Option.some.injEq] at hsame
    have hpayload : payload = payload' := by
      have hboth := (hframe payload (hsmall hle)).2
      rw [hsame, (hframe payload' (hsmall hle')).2, Option.some.injEq, Frame.mk.injEq] at hboth
      exact hboth.2.2.symm
    have htold : (Reply.entry e).told minor = (Reply.entry e').told minor := by
      rw [hpayload] at hread
      exact Option.some.inj (hread.symm.trans hread')
    rw [told, told, Entry.told_of_le hminor hperm, Entry.told_of_le hminor hperm'] at htold
    exact Reply.entry.inj htold

/-- A directory that was looked up. -/
def aDirectory : Entry where
  attr :=
    { ino := 77, kind := .directory, perm := 0o644, size := 13, blocks := 1,
      atime := ⟨-1, 5⟩, mtime := ⟨1600000001, 6⟩, ctime := ⟨1600000002, 7⟩, uid := 1000,
      gid := 1000 }
  generation := 0x123456789abcdef0
  attrTtl := ⟨3, 250000000⟩
  entryTtl := ⟨9, 1⟩

theorem the_kernel_reads_a_directory_back :
    (∃ f, (Reply.entry aDirectory).frame? 2 31 = some f ∧
      read? 31 f.payload .entry = some (.entry aDirectory)) ∧
    ∃ f, (Reply.readlink [0x2e]).frame? 2 31 = some f ∧
      Frame.decode? f.encode = some { unique := 2, error := 0, payload := [0x2e] } := by
  obtain ⟨hstructured, hraw, -, -⟩ := the_kernel_reads_every_answer_back 2 31
  obtain ⟨f, hf, -, -, hread⟩ := hstructured (.entry aDirectory) (by decide)
  obtain ⟨g, hg, -, hdecode⟩ := hraw (.readlink [0x2e]) [0x2e] rfl (by decide)
  exact ⟨⟨f, hf, hread⟩, ⟨g, hg, hdecode⟩⟩

end Reply

end Fuse
