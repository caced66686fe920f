-- A lock owner is what the message tells, if it tells of one. Reads and writes of old
-- connections are the exception: their structures have no owner, and when a flag announces
-- one, it is taken to be zero.
import Fuse.Operation.Owners
import Fuse.Proofs.Decoding

namespace Fuse

/-! ## What a structure tells -/

namespace OwnerField

variable {minor flags bits : UInt32} {owner : UInt64} {body : Bytes}

theorem announced_ofTransfer (hbits : bits.toNat = 1 <<< 1)
    (hflags : body.numberAt 20 4 = flags.toNat) :
    (ofTransfer minor).announced body = Kernel.hasFlag flags bits := by
  rw [Kernel.hasFlag_eq_testBit flags hbits, ← hflags]
  exact Bool.or_false _

theorem announced_ofRelease (hflags : body.numberAt 12 4 = flags.toNat) :
    (ofRelease minor).announced body =
      (Kernel.hasFlag flags Kernel.releaseFlush ||
        Kernel.hasFlag flags Kernel.releaseFlockUnlock) := by
  have hflush : Kernel.hasFlag flags Kernel.releaseFlush = flags.toNat.testBit 0 :=
    Kernel.hasFlag_eq_testBit flags rfl
  have hunlock : Kernel.hasFlag flags Kernel.releaseFlockUnlock = flags.toNat.testBit 1 :=
    Kernel.hasFlag_eq_testBit flags rfl
  rw [hflush, hunlock, ← hflags]
  show (_ || (_ || false)) = _
  rw [Bool.or_false]

/-- What a flag selects from a structure of a read or a write. -/
theorem selected_ofTransfer (hbits : bits.toNat = 1 <<< 1)
    (hflags : body.numberAt 20 4 = flags.toNat)
    (howner : if 9 ≤ minor then body.numberAt 24 8 = owner.toNat else owner = 0) :
    selected flags bits owner =
      if (ofTransfer minor).place = none ∧ (ofTransfer minor).announced body = true then some 0
      else (ofTransfer minor).owner? body := by
  unfold selected owner?
  rw [announced_ofTransfer hbits hflags]
  by_cases hm : 9 ≤ minor
  · have hplace : (ofTransfer minor).place = some 24 := if_pos hm
    rw [if_pos hm] at howner
    have htold : ¬(some 24 = none ∧ Kernel.hasFlag flags bits = true) := fun h => nomatch h.1
    rw [hplace, if_neg htold, Option.map_some, howner, UInt64.ofNat_toNat]
  · have hplace : (ofTransfer minor).place = none := if_neg hm
    rw [if_neg hm] at howner
    rw [hplace, howner]
    by_cases hset : Kernel.hasFlag flags bits = true
    · rw [if_pos hset, if_pos ⟨rfl, hset⟩]
    · rw [if_neg hset, if_neg fun h => hset h.2, if_neg hset]

end OwnerField

/-! ## What is read of a structure -/

namespace Take

open Bytes

variable {α : Type} {minor : UInt32} {body rest : Bytes}

/-- A number of a structure stands in the body where the structure has it. -/
theorem numberAt_struct [Wire α] {a : α} {place width : Nat} (ha : struct α body = .ok (a, rest))
    (h : place + width ≤ Wire.size α) :
    body.numberAt place width = (Wire.encode a).numberAt place width := by
  rw [Wire.eq_append_of_decode? (struct_eq_ok.mp ha)]
  exact numberAt_append (by rwa [Wire.length_encode])

/-- A read or a write of an old connection: a handle, an offset, a length and the flags. -/
theorem flags_of_range [Wire α] {a : α} (fh offset : UInt64) (size flags : UInt32)
    (ha : struct α body = .ok (a, rest)) (hs : Wire.size α = 24)
    (he : Wire.encode a = ofNat 8 fh.toNat ++ (ofNat 8 offset.toNat ++ (ofNat 4 size.toNat ++
      ofNat 4 flags.toNat))) : body.numberAt 20 4 = flags.toNat := by
  rw [numberAt_struct ha (Nat.le_of_eq hs.symm), he]
  exact (numberAt_behind 8 _ _ 12 4).trans <| (numberAt_behind 8 _ _ 4 4).trans <|
    (numberAt_behind 4 _ _ 0 4).trans <| numberAt_whole flags.toNat_lt

/-- A read or a write with a lock owner behind its flags. -/
theorem owner_of_range [Wire α] {a : α} {back : Bytes} (fh offset : UInt64) (size flags : UInt32)
    (owner : UInt64) (ha : struct α body = .ok (a, rest)) (hs : 32 ≤ Wire.size α)
    (he : Wire.encode a = ofNat 8 fh.toNat ++ (ofNat 8 offset.toNat ++ (ofNat 4 size.toNat ++
      (ofNat 4 flags.toNat ++ (ofNat 8 owner.toNat ++ back))))) :
    body.numberAt 20 4 = flags.toNat ∧ body.numberAt 24 8 = owner.toNat := by
  rw [numberAt_struct ha (Nat.le_trans (by decide) hs), numberAt_struct ha hs, he]
  constructor
  · exact (numberAt_behind 8 _ _ 12 4).trans <| (numberAt_behind 8 _ _ 4 4).trans <|
      (numberAt_behind 4 _ _ 0 4).trans <| numberAt_front flags.toNat_lt _
  · exact (numberAt_behind 8 _ _ 16 8).trans <| (numberAt_behind 8 _ _ 8 8).trans <|
      (numberAt_behind 4 _ _ 4 8).trans <| (numberAt_behind 4 _ _ 0 8).trans <|
        numberAt_front owner.toNat_lt _

/-- A release or a flush: a handle, two short numbers, and the lock owner. -/
theorem owner_of_handle [Wire α] {a : α} (fh : UInt64) (first second : UInt32) (owner : UInt64)
    (ha : struct α body = .ok (a, rest)) (hs : Wire.size α = 24)
    (he : Wire.encode a = ofNat 8 fh.toNat ++ (ofNat 4 first.toNat ++ (ofNat 4 second.toNat ++
      ofNat 8 owner.toNat))) :
    body.numberAt 12 4 = second.toNat ∧ body.numberAt 16 8 = owner.toNat := by
  rw [numberAt_struct ha (by rw [hs]; decide), numberAt_struct ha (Nat.le_of_eq hs.symm), he]
  constructor
  · exact (numberAt_behind 8 _ _ 4 4).trans <| (numberAt_behind 4 _ _ 0 4).trans <|
      numberAt_front second.toNat_lt _
  · exact (numberAt_behind 8 _ _ 8 8).trans <| (numberAt_behind 4 _ _ 4 8).trans <|
      (numberAt_behind 4 _ _ 0 8).trans <| numberAt_whole owner.toNat_lt

theorem lockOwner_readIn {a : Kernel.ReadIn} (ha : readIn minor body = .ok (a, rest)) :
    a.file.lockOwner =
      if (OwnerField.ofTransfer minor).place = none ∧
          (OwnerField.ofTransfer minor).announced body = true then some 0
      else (OwnerField.ofTransfer minor).owner? body := by
  unfold readIn at ha
  split at ha
  · rename_i hm
    obtain ⟨hflags, howner⟩ :=
      owner_of_range a.fh a.offset a.size a.readFlags a.lockOwner ha (by decide) rfl
    exact OwnerField.selected_ofTransfer rfl hflags (by rwa [if_pos hm])
  · rename_i hm
    obtain ⟨old, mid, hold, hr⟩ := bind_eq_ok.mp ha
    cases pure_eq_ok.mp hr
    have hflags := flags_of_range old.fh old.offset old.size old.readFlags hold rfl rfl
    exact OwnerField.selected_ofTransfer rfl hflags (by rw [if_neg hm])

theorem lockOwner_writeIn {a : Kernel.WriteIn} (ha : writeIn minor body = .ok (a, rest)) :
    a.file.lockOwner =
      if (OwnerField.ofTransfer minor).place = none ∧
          (OwnerField.ofTransfer minor).announced body = true then some 0
      else (OwnerField.ofTransfer minor).owner? body := by
  unfold writeIn at ha
  split at ha
  · rename_i hm
    obtain ⟨hflags, howner⟩ :=
      owner_of_range a.fh a.offset a.size a.writeFlags a.lockOwner ha (by decide) rfl
    exact OwnerField.selected_ofTransfer rfl hflags (by rwa [if_pos hm])
  · rename_i hm
    obtain ⟨old, mid, hold, hr⟩ := bind_eq_ok.mp ha
    cases pure_eq_ok.mp hr
    have hflags := flags_of_range old.fh old.offset old.size old.writeFlags hold rfl rfl
    exact OwnerField.selected_ofTransfer rfl hflags (by rw [if_neg hm])

theorem lockOwner_of_releaseIn {a : Kernel.ReleaseIn} (ha : releaseIn minor body = .ok (a, rest)) :
    (a.file minor).lockOwner = (OwnerField.ofRelease minor).owner? body := by
  unfold releaseIn at ha
  split at ha
  · rename_i hm
    obtain ⟨hflags, howner⟩ :=
      owner_of_handle a.fh a.flags a.releaseFlags a.lockOwner ha rfl rfl
    have hplace : (OwnerField.ofRelease minor).place = some 16 := if_pos hm
    unfold OwnerField.owner?
    rw [OwnerField.announced_ofRelease hflags, hplace, Option.map_some, howner, UInt64.ofNat_toNat]
    show (if (decide (8 ≤ minor) && _) = true then _ else _) = _
    rw [decide_eq_true hm, Bool.true_and]
  · rename_i hm
    have hplace : (OwnerField.ofRelease minor).place = none := if_neg hm
    unfold OwnerField.owner?
    rw [hplace, Option.map_none, ite_self]
    show (if (decide (8 ≤ minor) && _) = true then _ else _) = _
    rw [decide_eq_false hm, Bool.false_and]
    rfl

theorem lockOwner_flushIn {a : Kernel.FlushIn} (ha : struct Kernel.FlushIn body = .ok (a, rest)) :
    some a.lockOwner = OwnerField.ofFlush.owner? body := by
  obtain ⟨-, howner⟩ := owner_of_handle a.fh a.unused a.padding a.lockOwner ha rfl rfl
  show _ = some (UInt64.ofNat (body.numberAt 16 8))
  rw [howner, UInt64.ofNat_toNat]

end Take

/-! ## The law -/

/-- What is read of a message that tells of a lock owner, or might: an operation on an open
file, and if the structure has an owner and announces it, this is the owner of the file.
Otherwise the file has none, but for a read or a write without a place for an owner that
announces one all the same: its owner is zero. -/
theorem lock_owners_are_those_that_messages_tell {header : Kernel.InHeader} {frame : Bytes}
    {op : Opcode} {minor : UInt32} {g : Grammar} {f : OwnerField}
    (hlen : header.len.toNat = frame.length) (hop : Opcode.ofCode? header.opcode = some op)
    (hg : op.grammar? minor = some g) (hf : op.ownerField? minor = some f)
    (haccepts : g.Accepts (frame.drop inHeaderSize)) :
    let body := frame.drop inHeaderSize
    ∃ operation file, decodeMessage header frame minor = .ok (.operation operation) ∧
      operation.file? = some file ∧
      file.lockOwner =
        if f.place = none ∧ f.announced body = true ∧ op ≠ .release ∧ op ≠ .releasedir then some 0
        else f.owner? body := by
  intro body
  obtain ⟨⟨m, rest⟩, hm⟩ := (takeMessage_obeys hg header.nodeid body).mpr haccepts
  have hread := (decodeMessage_eq_ok hlen hop).mpr ⟨rest, hm⟩
  cases op <;> cases hf
  case read | readdir =>
    obtain ⟨a, mid, ha, hr⟩ := Take.bind_eq_ok.mp hm
    cases Take.pure_eq_ok.mp hr
    exact ⟨_, _, hread, rfl, by simpa using Take.lockOwner_readIn ha⟩
  case write =>
    obtain ⟨a, mid, ha, hdata⟩ := Take.bind_eq_ok.mp hm
    obtain ⟨data, last, -, hr⟩ := Take.bind_eq_ok.mp hdata
    cases Take.pure_eq_ok.mp hr
    exact ⟨_, _, hread, rfl, by simpa using Take.lockOwner_writeIn ha⟩
  case release | releasedir =>
    obtain ⟨a, mid, ha, hr⟩ := Take.bind_eq_ok.mp hm
    cases Take.pure_eq_ok.mp hr
    exact ⟨_, _, hread, rfl, by simpa using Take.lockOwner_of_releaseIn ha⟩
  case flush =>
    obtain ⟨a, mid, ha, hr⟩ := Take.bind_eq_ok.mp hm
    cases Take.pure_eq_ok.mp hr
    exact ⟨_, _, hread, rfl, Take.lockOwner_flushIn ha⟩

/-- A read for the lock owner 77. -/
def ownedRead : Bytes :=
  Wire.encode (α := Kernel.ReadIn)
    { fh := 3, offset := 0, size := 4096, readFlags := 2, lockOwner := 77, flags := 0 }

/-- A read of an old connection. It announces a lock owner, and ends before it. -/
def ownerlessRead : Bytes :=
  Wire.encode (α := Kernel.CompatReadIn) { fh := 3, offset := 0, size := 4096, readFlags := 2 }

/-- The header of a read with a body of so many bytes. -/
def readHeader (length : Nat) : Kernel.InHeader where
  len := .ofNat (inHeaderSize + length)
  opcode := 15
  unique := 2
  nodeid := 1
  uid := 0
  gid := 0
  pid := 0

/-- The lock owner 77 is read as it was told. -/
theorem a_lock_owner_that_is_told_is_read :
    ∃ operation file,
      decodeMessage (readHeader 40) (Wire.encode (readHeader 40) ++ ownedRead) 31 =
          .ok (.operation operation) ∧
        operation.file? = some file ∧ file.lockOwner = some 77 := by
  have haccepts : Grammar.Accepts { fixed := 40 }
      ((Wire.encode (readHeader 40) ++ ownedRead).drop inHeaderSize) :=
    ⟨ownedRead, [], [], [], by decide +kernel, by decide +kernel, rfl, nofun, rfl⟩
  have hlen : (readHeader 40).len.toNat = (Wire.encode (readHeader 40) ++ ownedRead).length := by
    decide +kernel
  exact lock_owners_are_those_that_messages_tell hlen rfl rfl rfl haccepts

/-- A read without a place for a lock owner has one. -/
theorem an_old_read_has_a_lock_owner_that_nobody_told :
    (OwnerField.ofTransfer 8).place = none ∧
      decodeMessage (readHeader 24) (Wire.encode (readHeader 24) ++ ownerlessRead) 8 =
        .ok (.operation
          (.read 1 0 4096 { fh := 3, flags := 0, lockOwner := some 0 })) :=
  ⟨rfl, rfl⟩

end Fuse
