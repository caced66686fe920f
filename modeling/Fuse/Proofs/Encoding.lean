-- Reading undoes writing. Each structure says what it was meant to say, with its flags
-- and with what older connections leave out, and so an operation that the kernel sends
-- is read as it was meant, whatever bytes come after it.
import Fuse.Operation.Encoding
import Fuse.Proofs.Layout
import Fuse.Proofs.Taking

namespace Fuse

/-! ## Flags -/

theorem hasFlag_or (a b bits : UInt32) :
    Kernel.hasFlag (a ||| b) bits = (Kernel.hasFlag a bits || Kernel.hasFlag b bits) := by
  have hdistrib : (a ||| b) &&& bits = a &&& bits ||| b &&& bits := by
    apply UInt32.toBitVec_inj.mp
    exact BitVec.and_or_distrib_right
  unfold Kernel.hasFlag
  rw [hdistrib]
  by_cases ha : a &&& bits = 0
  · simp [ha]
  · have hor : ¬(a &&& bits ||| b &&& bits) = 0 := fun h => ha (UInt32.or_eq_zero_iff.mp h).1
    simp only [bne, beq_eq_false_iff_ne.mpr ha, beq_eq_false_iff_ne.mpr hor]
    rfl

theorem hasFlag_flagIf (set : Bool) (a bits : UInt32) :
    Kernel.hasFlag (Kernel.flagIf set a) bits = (set && Kernel.hasFlag a bits) := by
  cases set <;> simp [Kernel.flagIf, Kernel.hasFlag]

/-- One bit of a flag word is set, or the word and the bit have none in common. -/
theorem Kernel.hasFlag_eq_testBit (word : UInt32) {bits : UInt32} {place : Nat}
    (h : bits.toNat = 1 <<< place) : Kernel.hasFlag word bits = word.toNat.testBit place := by
  have hbit (i : Nat) : (word &&& bits).toNat.testBit i =
      (word.toNat.testBit i && decide (place = i)) := by
    rw [UInt32.toNat_and, h, Nat.one_shiftLeft, Nat.testBit_and, Nat.testBit_two_pow]
  unfold Kernel.hasFlag
  cases hset : word.toNat.testBit place with
  | true =>
    have hne : word &&& bits ≠ 0 := by
      intro hzero
      have hself := hbit place
      rw [hzero, hset] at hself
      simp at hself
    simpa using hne
  | false =>
    have hzero : word &&& bits = 0 := by
      apply UInt32.toNat_inj.mp
      apply Nat.eq_of_testBit_eq
      intro i
      rw [hbit]
      by_cases hi : place = i
      · subst hi
        simp [hset]
      · simp [hi]
    simp [hzero]

theorem selected_getD {α : Type} {word bits : UInt32} {o : Option α} (a : α)
    (h : Kernel.hasFlag word bits = o.isSome) : selected word bits (o.getD a) = o := by
  unfold selected
  rw [h]
  cases o <;> simp

/-! ## What a structure says about a file -/

theorem FileInfo.Bare.getD {file : FileInfo} (h : file.Bare) : file.lockOwner.getD 0 = 0 := by
  rcases h.2 with ho | ho <;> simp [ho]

theorem FileInfo.Bare.toUInt32 {file : FileInfo} (h : file.Bare) : file.flags.toUInt32 = 0 := by
  rw [h.1]
  rfl

theorem file_readIn {file : FileInfo} (hf : file.flush = false) (hr : file.flockRelease = false)
    (hw : file.writepage = false) (a : Kernel.ReadIn) (hfh : a.fh = file.fh)
    (hflags : a.flags = file.flags.toUInt32)
    (hread : a.readFlags = Kernel.flagIf file.lockOwner.isSome Kernel.readLockOwner)
    (howner : a.lockOwner = file.lockOwner.getD 0) : a.file = file := by
  have hset : Kernel.hasFlag a.readFlags Kernel.readLockOwner = file.lockOwner.isSome := by
    rw [hread, hasFlag_flagIf, Bool.eq_iff_iff]
    simp +decide
  unfold Kernel.ReadIn.file
  rw [howner, selected_getD 0 hset, hfh, hflags]
  cases file
  simp_all

theorem file_writeIn {file : FileInfo} (hf : file.flush = false) (hr : file.flockRelease = false)
    (a : Kernel.WriteIn) (hfh : a.fh = file.fh) (hflags : a.flags = file.flags.toUInt32)
    (hwrite : a.writeFlags = Kernel.flagIf file.lockOwner.isSome Kernel.writeLockOwner |||
      Kernel.flagIf file.writepage Kernel.writeCache)
    (howner : a.lockOwner = file.lockOwner.getD 0) : a.file = file := by
  have hset : Kernel.hasFlag a.writeFlags Kernel.writeLockOwner = file.lockOwner.isSome := by
    rw [hwrite, hasFlag_or, hasFlag_flagIf, hasFlag_flagIf, Bool.eq_iff_iff]
    simp +decide
  have hcache : Kernel.hasFlag a.writeFlags Kernel.writeCache = file.writepage := by
    rw [hwrite, hasFlag_or, hasFlag_flagIf, hasFlag_flagIf, Bool.eq_iff_iff]
    simp +decide
  unfold Kernel.WriteIn.file
  rw [howner, selected_getD 0 hset, hcache, hfh, hflags]
  cases file
  simp_all

/-- Each bit of the flag word is set just for the attribute that it selects. -/
theorem hasFlag_valid (attr : SetAttr) (bits : UInt32) :
    Kernel.hasFlag attr.setattrIn.valid bits =
      (attr.mode.isSome && Kernel.hasFlag Kernel.Fattr.mode bits ||
        attr.uid.isSome && Kernel.hasFlag Kernel.Fattr.uid bits ||
        attr.gid.isSome && Kernel.hasFlag Kernel.Fattr.gid bits ||
        attr.size.isSome && Kernel.hasFlag Kernel.Fattr.size bits ||
        attr.atime.isSome && Kernel.hasFlag Kernel.Fattr.atime bits ||
        attr.mtime.isSome && Kernel.hasFlag Kernel.Fattr.mtime bits ||
        attr.fh.isSome && Kernel.hasFlag Kernel.Fattr.fh bits ||
        attr.atime == some .now && Kernel.hasFlag Kernel.Fattr.atimeNow bits ||
        attr.mtime == some .now && Kernel.hasFlag Kernel.Fattr.mtimeNow bits ||
        attr.lockOwner.isSome && Kernel.hasFlag Kernel.Fattr.lockOwner bits ||
        attr.ctime.isSome && Kernel.hasFlag Kernel.Fattr.ctime bits) := by
  unfold SetAttr.setattrIn
  simp only [hasFlag_or, hasFlag_flagIf]

theorem time_of_flags {s : Kernel.SetattrIn} {now given : UInt32} {o : Option SetTime}
    (hnow : Kernel.hasFlag s.valid now = (o == some .now))
    (hgiven : Kernel.hasFlag s.valid given = o.isSome) :
    s.time now given (SetTime.seconds o) (SetTime.nanoseconds o) = o := by
  unfold Kernel.SetattrIn.time selected
  rw [hnow, hgiven]
  cases o with
  | none => rfl
  | some t => cases t <;> simp [SetTime.seconds, SetTime.nanoseconds]

theorem file_releaseIn {minor : UInt32} {file : FileInfo} (hw : file.writepage = false)
    (ho : file.lockOwner.isSome = true ↔
      8 ≤ minor ∧ (file.flush = true ∨ file.flockRelease = true))
    (a : Kernel.ReleaseIn) (hfh : a.fh = file.fh) (hflags : a.flags = file.flags.toUInt32)
    (hrelease : a.releaseFlags = Kernel.flagIf file.flush Kernel.releaseFlush |||
      Kernel.flagIf file.flockRelease Kernel.releaseFlockUnlock)
    (howner : a.lockOwner = file.lockOwner.getD 0) : a.file minor = file := by
  have hflush : Kernel.hasFlag a.releaseFlags Kernel.releaseFlush = file.flush := by
    rw [hrelease, hasFlag_or, hasFlag_flagIf, hasFlag_flagIf, Bool.eq_iff_iff]
    simp +decide
  have hflock : Kernel.hasFlag a.releaseFlags Kernel.releaseFlockUnlock = file.flockRelease := by
    rw [hrelease, hasFlag_or, hasFlag_flagIf, hasFlag_flagIf, Bool.eq_iff_iff]
    simp +decide
  have hset : (decide (8 ≤ minor) && (file.flush || file.flockRelease)) =
      file.lockOwner.isSome := by
    rw [Bool.eq_iff_iff, ho]
    simp
  have hsome : (if file.lockOwner.isSome = true then some (file.lockOwner.getD 0) else none) =
      file.lockOwner := by
    cases file.lockOwner <;> rfl
  unfold Kernel.ReleaseIn.file
  dsimp only
  rw [hflush, hflock, hset, howner, hsome, hfh, hflags]
  cases file
  simp_all

attribute [ext] SetAttr

theorem changes_setattrIn (attr : SetAttr) : attr.setattrIn.changes = attr := by
  have hatime : attr.setattrIn.time Kernel.Fattr.atimeNow Kernel.Fattr.atime
      (SetTime.seconds attr.atime) (SetTime.nanoseconds attr.atime) = attr.atime := by
    apply time_of_flags <;> rw [hasFlag_valid, Bool.eq_iff_iff] <;> simp +decide
  have hmtime : attr.setattrIn.time Kernel.Fattr.mtimeNow Kernel.Fattr.mtime
      (SetTime.seconds attr.mtime) (SetTime.nanoseconds attr.mtime) = attr.mtime := by
    apply time_of_flags <;> rw [hasFlag_valid, Bool.eq_iff_iff] <;> simp +decide
  have hctime : selected attr.setattrIn.valid Kernel.Fattr.ctime
      (⟨((attr.ctime.map (Int64.toUInt64 ·.sec)).getD 0).toInt64,
        (attr.ctime.map (·.nsec)).getD 0⟩ : Timestamp) = attr.ctime := by
    have h : Kernel.hasFlag attr.setattrIn.valid Kernel.Fattr.ctime = attr.ctime.isSome := by
      rw [hasFlag_valid, Bool.eq_iff_iff]
      simp +decide
    unfold selected
    rw [h]
    cases attr.ctime <;> simp
  refine SetAttr.ext (selected_getD 0 ?_) (selected_getD 0 ?_) (selected_getD 0 ?_)
    (selected_getD 0 ?_) (selected_getD 0 ?_) hatime hmtime hctime (selected_getD 0 ?_)
  all_goals
    rw [hasFlag_valid, Bool.eq_iff_iff]
    simp +decide

/-! ## Reading what was written -/

namespace Take

variable {α β : Type}

/-- Whatever follows these bytes, just they are taken, and this is what they say. -/
def Gives (t : Take α) (front : Bytes) (a : α) : Prop :=
  ∀ rest, t (front ++ rest) = .ok (a, rest)

theorem gives_pure (a : α) : Gives (pure a) [] a := fun _ => rfl

theorem Gives.bind {t : Take α} {f : α → Take β} {front back : Bytes} {a : α} {b : β}
    (h : Gives t front a) (hf : Gives (f a) back b) : Gives (t >>= f) (front ++ back) b := by
  intro rest
  rw [List.append_assoc]
  exact bind_eq_ok.mpr ⟨a, back ++ rest, h (back ++ rest), hf rest⟩

theorem Gives.map {t : Take α} {front : Bytes} {a : α} (h : Gives t front a) (f : α → β) :
    Gives (do return f (← t)) front (f a) := by
  intro rest
  exact bind_eq_ok.mpr ⟨a, rest, h rest, rfl⟩

theorem gives_struct {α : Type} [Wire α] (a : α) : Gives (struct α) (Wire.encode a) a :=
  fun rest => struct_eq_ok.mpr (Wire.decode?_encode a rest)

theorem gives_name {name : Name} (h : 0 ∉ name) : Gives Take.name name.terminated name := by
  intro rest
  have hbody : name.terminated ++ rest = name ++ 0 :: rest := by simp [Name.terminated]
  rw [hbody]
  exact name_eq_ok.mpr (Name.split?_append name rest h)

theorem gives_bytes {data : Bytes} (h : data.length < UInt32.size) (what : String) :
    Gives (bytes (.ofNat data.length) what) data data := by
  intro rest
  refine bytes_eq_ok.mpr ?_
  rw [UInt32.toNat_ofNat_of_lt' h]
  exact Bytes.split?_append data rest

/-! ## Structures that grew -/

theorem gives_mknodIn {minor umask : UInt32} (h : 12 ≤ minor ∨ umask = 0) (mode rdev : UInt32) :
    Gives (mknodIn minor) (Operation.mknodIn minor mode rdev umask) { mode, rdev, umask } := by
  unfold mknodIn Operation.mknodIn
  split
  · exact gives_struct _
  · rename_i hm
    rw [h.resolve_left hm]
    exact (gives_struct (⟨mode, rdev⟩ : Kernel.CompatMknodIn)).map _

theorem gives_createIn {minor umask : UInt32} (h : 12 ≤ minor ∨ umask = 0)
    (flags mode : UInt32) :
    Gives (createIn minor) (Operation.createIn minor flags mode umask) { flags, mode, umask } := by
  unfold createIn Operation.createIn
  split
  · exact gives_struct _
  · rename_i hm
    rw [h.resolve_left hm]
    exact (gives_struct (⟨flags, mode⟩ : Kernel.CompatCreateIn)).map _

theorem gives_readIn {minor : UInt32} {file : FileInfo} (hf : file.flush = false)
    (hr : file.flockRelease = false) (hw : file.writepage = false) (h : 9 ≤ minor ∨ file.Bare)
    (offset : UInt64) (size : UInt32) :
    ∃ a, Gives (readIn minor) (file.readIn minor offset size) a ∧
      a.offset = offset ∧ a.size = size ∧ a.file = file := by
  unfold readIn FileInfo.readIn
  split
  · exact ⟨_, gives_struct _, rfl, rfl, file_readIn hf hr hw _ rfl rfl rfl rfl⟩
  · rename_i hm
    have hbare := h.resolve_left hm
    refine ⟨_, (gives_struct _).map _, rfl, rfl, file_readIn hf hr hw _ rfl ?_ rfl ?_⟩
    · exact hbare.toUInt32.symm
    · exact hbare.getD.symm

theorem gives_writeIn {minor : UInt32} {file : FileInfo} (hf : file.flush = false)
    (hr : file.flockRelease = false) (h : 9 ≤ minor ∨ file.Bare) (offset : UInt64)
    (size : UInt32) :
    ∃ a, Gives (writeIn minor) (file.writeIn minor offset size) a ∧
      a.offset = offset ∧ a.size = size ∧ a.file = file := by
  unfold writeIn FileInfo.writeIn
  split
  · exact ⟨_, gives_struct _, rfl, rfl, file_writeIn hf hr _ rfl rfl rfl rfl⟩
  · rename_i hm
    have hbare := h.resolve_left hm
    refine ⟨_, (gives_struct _).map _, rfl, rfl, file_writeIn hf hr _ rfl ?_ rfl ?_⟩
    · exact hbare.toUInt32.symm
    · exact hbare.getD.symm

theorem gives_releaseIn {minor : UInt32} {file : FileInfo} (hw : file.writepage = false)
    (ho : file.lockOwner.isSome = true ↔
      8 ≤ minor ∧ (file.flush = true ∨ file.flockRelease = true)) :
    ∃ a, Gives (releaseIn minor) (file.releaseIn minor) a ∧ a.file minor = file := by
  unfold releaseIn FileInfo.releaseIn
  split
  · exact ⟨_, gives_struct _, file_releaseIn hw ho _ rfl rfl rfl rfl⟩
  · rename_i hm
    have hnone : file.lockOwner = none := by
      rw [← Option.not_isSome_iff_eq_none, ho]
      exact fun h => hm h.1
    refine ⟨_, (gives_struct _).map _, file_releaseIn hw ho _ rfl rfl rfl ?_⟩
    simp [hnone]

theorem gives_fsyncIn {file : FileInfo} (h : file = { fh := file.fh, flags := 0 })
    (datasync : Bool) (f : Bool → FileInfo → α) :
    Gives
      (do
        let a ← struct Kernel.FsyncIn
        return f (Kernel.hasFlag a.fsyncFlags Kernel.fsyncDataOnly) { fh := a.fh, flags := 0 })
      (Wire.encode ({ fh := file.fh,
                      fsyncFlags := Kernel.flagIf datasync Kernel.fsyncDataOnly } : Kernel.FsyncIn))
      (f datasync file) := by
  let a : Kernel.FsyncIn :=
    { fh := file.fh, fsyncFlags := Kernel.flagIf datasync Kernel.fsyncDataOnly }
  have hset : Kernel.hasFlag a.fsyncFlags Kernel.fsyncDataOnly = datasync := by
    rw [hasFlag_flagIf, Bool.eq_iff_iff]
    simp +decide
  have hg := (gives_struct a).map fun a =>
    f (Kernel.hasFlag a.fsyncFlags Kernel.fsyncDataOnly) { fh := a.fh, flags := 0 }
  rw [hset, ← h] at hg
  exact hg

end Take

/-! ## Operations -/

open Take in
/-- The body of an operation is taken whole, and says which operation it is. -/
theorem gives_packet {op : Operation} {minor : UInt32} (h : op.Expressible minor) :
    ((op.packet minor).opcode.takeMessage minor (op.packet minor).nodeid).Gives
      (op.packet minor).body op.message := by
  cases op with
  | lookup parent name => exact (gives_name h).map _
  | unlink parent name => exact (gives_name h).map _
  | rmdir parent name => exact (gives_name h).map _
  | removexattr ino name => exact (gives_name h).map _
  | symlink parent name target => exact (gives_name h.1).bind ((gives_name h.2).map _)
  | readlink ino => exact gives_pure _
  | statfs ino => exact gives_pure _
  | forget ino nlookup => exact (gives_struct _).map _
  | «open» ino flags => exact (gives_struct _).map _
  | opendir ino flags => exact (gives_struct _).map _
  | listxattr ino size => exact (gives_struct _).map _
  | access ino mask => exact (gives_struct _).map _
  | mkdir parent name mode umask => exact (gives_struct _).bind ((gives_name h).map _)
  | link ino newParent newName => exact (gives_struct _).bind ((gives_name h).map _)
  | getxattr ino name size => exact (gives_struct _).bind ((gives_name h).map _)
  | mknod parent name mode rdev umask =>
    exact (gives_mknodIn h.2 mode rdev).bind ((gives_name h.1).map _)
  | create parent name mode umask flags =>
    exact (gives_createIn h.2 flags mode).bind ((gives_name h.1).map _)
  | rename parent name newdir newName flags =>
    have hnames {β : Type} (f : Name → Name → β) :
        Gives (do let one ← Take.name; let two ← Take.name; return f one two)
          (name.terminated ++ newName.terminated) (f name newName) :=
      (gives_name h.1).bind ((gives_name h.2).map _)
    unfold Operation.packet
    dsimp only
    split
    · rename_i hflags
      subst hflags
      exact (gives_struct (⟨newdir⟩ : Kernel.RenameIn)).bind (hnames _)
    · exact (gives_struct ({ newdir, flags } : Kernel.Rename2In)).bind (hnames _)
  | setattr ino attr =>
    have hg := (gives_struct attr.setattrIn).map fun a => Message.operation (.setattr ino a.changes)
    rw [changes_setattrIn] at hg
    exact hg
  | getattr ino fh =>
    unfold Operation.packet Opcode.takeMessage
    dsimp only
    split
    · let a : Kernel.GetattrIn :=
        { getattrFlags := Kernel.flagIf fh.isSome Kernel.getattrFh, fh := fh.getD 0 }
      have hset : Kernel.hasFlag a.getattrFlags Kernel.getattrFh = fh.isSome := by
        rw [hasFlag_flagIf, Bool.eq_iff_iff]
        simp +decide
      have hg := (gives_struct a).map fun a =>
        Message.operation (.getattr ino (selected a.getattrFlags Kernel.getattrFh a.fh))
      rw [selected_getD 0 hset] at hg
      exact hg
    · rename_i hm
      rw [h.resolve_left hm]
      exact gives_pure _
  | read ino offset size file =>
    obtain ⟨a, ha, rfl, rfl, rfl⟩ := gives_readIn h.1 h.2.1 h.2.2.1 h.2.2.2 offset size
    exact ha.map fun a => Message.operation (.read ino a.offset a.size a.file)
  | readdir ino offset size file =>
    obtain ⟨a, ha, rfl, rfl, rfl⟩ := gives_readIn h.1 h.2.1 h.2.2.1 h.2.2.2 offset size
    exact ha.map fun a => Message.operation (.readdir ino a.offset a.size a.file)
  | write ino offset data file =>
    obtain ⟨hf, hr, hbare, hlen⟩ := h
    obtain ⟨a, ha, rfl, hsize, rfl⟩ := gives_writeIn hf hr hbare offset (.ofNat data.length)
    refine ha.bind ?_
    rw [hsize]
    exact (gives_bytes hlen _).map _
  | setxattr ino name value flags =>
    exact (gives_struct _).bind ((gives_name h.1).bind ((gives_bytes h.2 _).map _))
  | release ino file =>
    obtain ⟨a, ha, hfile⟩ := gives_releaseIn h.1 h.2
    have hg := ha.map fun a => Message.operation (.release ino (a.file minor))
    rw [hfile] at hg
    exact hg
  | releasedir ino file =>
    obtain ⟨a, ha, hfile⟩ := gives_releaseIn h.1 h.2
    have hg := ha.map fun a => Message.operation (.releasedir ino (a.file minor))
    rw [hfile] at hg
    exact hg
  | fsync ino datasync file =>
    exact gives_fsyncIn h datasync fun datasync file => Message.operation (.fsync ino datasync file)
  | fsyncdir ino datasync file =>
    exact gives_fsyncIn h datasync fun datasync file =>
      Message.operation (.fsyncdir ino datasync file)
  | flush ino file =>
    obtain ⟨owner, hfile⟩ := h
    rw [hfile]
    exact (gives_struct _).map _

end Fuse
