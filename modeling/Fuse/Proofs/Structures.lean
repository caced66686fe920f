-- The kernel's structures lie in a message as C lays them out in memory. None of them needs
-- a gap, so the members stand side by side, and nothing is lost in either direction.
import Fuse.Kernel.Structures
import Fuse.Proofs.Layout

namespace Fuse.Kernel

/-! ## Numbers -/

theorem littleEndian_succ (width n : Nat) :
    littleEndian (width + 1) n = UInt8.ofNat n :: littleEndian width (n / 256) := by
  unfold littleEndian
  rw [List.range_succ_eq_map, List.map_cons, List.map_map, Nat.mul_zero, Nat.shiftRight_zero]
  congr 1
  apply List.map_congr_left
  intro i _
  show UInt8.ofNat (n >>> (8 * i + 8)) = UInt8.ofNat ((n / 256) >>> (8 * i))
  rw [Nat.add_comm, Nat.shiftRight_add, Nat.shiftRight_eq_div_pow n 8]

theorem littleEndian_eq (width n : Nat) : littleEndian width n = Bytes.ofNat width n := by
  induction width generalizing n with
  | zero => rfl
  | succ width ih => rw [littleEndian_succ, ih, Bytes.ofNat]

/-! ## Members side by side -/

namespace Member

variable {α β : Type}

/-- Whether no gap is needed before a member or behind the last. -/
def packed (align : Nat) : (offset : Nat) → List (Member α) → Bool
  | offset, [] => gap offset align == 0
  | offset, m :: ms => gap offset m.align == 0 && packed align (offset + m.size) ms

theorem layOut_of_packed {align offset : Nat} {ms : List (Member α)}
    (h : packed align offset ms = true) (v : α) :
    layOut align v offset ms = ms.flatMap fun m => m.bytes v := by
  induction ms generalizing offset with
  | nil =>
    have hgap : gap offset align = 0 := eq_of_beq h
    rw [layOut, hgap]
    rfl
  | cons m ms ih =>
    obtain ⟨hfirst, hrest⟩ := Bool.and_eq_true_iff.mp h
    have hgap : gap offset m.align = 0 := eq_of_beq hfirst
    rw [layOut, hgap, List.flatMap_cons, Nat.add_zero, ih hrest]
    rfl

/-- A structure that needs no gap is nothing but its members. -/
theorem bytes_struct {ms : List (Member β)} (h : packed (alignment ms) 0 ms = true)
    (get : α → β) (v : α) : (struct ms get).bytes v = ms.flatMap fun m => m.bytes (get v) :=
  layOut_of_packed h (get v)

/-! ### Members as they are written -/

theorem bytes_u16 (get : α → UInt16) (v : α) : (u16 get).bytes v = Layout.u16.encode (get v) :=
  littleEndian_eq _ _

theorem bytes_u32 (get : α → UInt32) (v : α) : (u32 get).bytes v = Layout.u32.encode (get v) :=
  littleEndian_eq _ _

theorem bytes_u64 (get : α → UInt64) (v : α) : (u64 get).bytes v = Layout.u64.encode (get v) :=
  littleEndian_eq _ _

theorem bytes_i32 (get : α → Int32) (v : α) : (i32 get).bytes v = Layout.i32.encode (get v) := by
  have hvalue : ((get v).toInt % 4294967296).toNat = (get v).toUInt32.toNat := by
    have hword := BitVec.toNat_ofInt (n := 32) (get v).toBitVec.toInt
    rw [BitVec.ofInt_toInt] at hword
    exact hword.symm
  show littleEndian 4 _ = Bytes.ofNat 4 (get v).toUInt32.toNat
  rw [hvalue, littleEndian_eq]

theorem bytes_row {count : Nat} (get : α → Vector UInt32 count) (v : α) :
    (row get).bytes v = (Layout.array count .u32).encode (get v) := by
  have hword : (fun n : UInt32 => littleEndian 4 n.toNat) = Layout.u32.encode := by
    funext n
    exact littleEndian_eq _ _
  show (get v).toList.flatMap _ = _
  rw [hword]
  rfl

end Member

/-! ## The structures -/

/-- A structure lies in a message as in memory, and takes as many bytes as the interface
says. -/
structure Declaration.Faithful (d : Declaration) : Prop where
  encode : ∀ v : d.Carrier, Wire.encode v = d.memory.bytes v
  size : Wire.size d.Carrier = d.size
  memory : d.memory.size = d.size

theorem Declaration.faithful_of {α : Type} [Wire α] {size : Nat} {members : List (Member α)}
    (hp : Member.packed (Member.alignment members) 0 members = true)
    (he : ∀ v, Wire.encode v = members.flatMap fun m => m.bytes v) (hs : Wire.size α = size)
    (hm : (Member.struct members id).size = size) : (Declaration.of α size members).Faithful :=
  ⟨fun v => (he v).trans (Member.bytes_struct hp id v).symm, hs, hm⟩

namespace Structure

theorem encode_attr (v : Attr) : Wire.encode v = attrMembers.flatMap fun m => m.bytes v := by
  simp only [attrMembers, List.flatMap_cons, List.flatMap_nil, List.append_nil, Member.bytes_u32,
    Member.bytes_u64]
  rfl

theorem encode_kstatfs (v : Kstatfs) :
    Wire.encode v = kstatfsMembers.flatMap fun m => m.bytes v := by
  simp only [kstatfsMembers, List.flatMap_cons, List.flatMap_nil, List.append_nil,
    Member.bytes_u32, Member.bytes_u64, Member.bytes_row]
  rfl

/-! Two of the structures stand within others. -/

theorem bytes_attr {α : Type} (get : α → Attr) (v : α) :
    (Member.struct attrMembers get).bytes v = Wire.encode (get v) := by
  rw [Member.bytes_struct rfl, encode_attr]

theorem bytes_kstatfs {α : Type} (get : α → Kstatfs) (v : α) :
    (Member.struct kstatfsMembers get).bytes v = Wire.encode (get v) := by
  rw [Member.bytes_struct rfl, encode_kstatfs]

theorem faithful (s : Structure) : s.declaration.Faithful := by
  cases s
  case attr => exact Declaration.faithful_of rfl encode_attr rfl rfl
  case kstatfs => exact Declaration.faithful_of rfl encode_kstatfs rfl rfl
  all_goals
    refine Declaration.faithful_of rfl (fun v => ?_) rfl rfl
    simp only [List.flatMap_cons, List.flatMap_nil, List.append_nil, Member.bytes_u16,
      Member.bytes_u32, Member.bytes_u64, Member.bytes_i32, Member.bytes_row, bytes_attr,
      bytes_kstatfs]
    rfl

/-! ## The law -/

/-- Every structure of the interface lies in a message as C lays it out: with its members in
the order of their declaration and each number from its least significant byte on, in as many
bytes as the interface says. It is read back as it was written, whatever follows it. It is
read off any bytes that are enough for it, which are then those that it is written as, and
only off these. -/
theorem every_structure_lies_as_in_memory (s : Structure) :
    (∀ v : s.declaration.Carrier,
      Wire.encode v = s.declaration.memory.bytes v ∧
      (Wire.encode v).length = s.declaration.size ∧
      ∀ rest, Wire.decode? (Wire.encode v ++ rest) = some (v, rest)) ∧
    s.declaration.memory.size = s.declaration.size ∧
    ∀ bs : Bytes,
      (Wire.decode? (α := s.declaration.Carrier) bs = none ↔ bs.length < s.declaration.size) ∧
      (Wire.decode? (α := s.declaration.Carrier) bs).map (fun p => (Wire.encode p.1, p.2)) =
        if bs.length < s.declaration.size then none
        else some (bs.take s.declaration.size, bs.drop s.declaration.size) := by
  obtain ⟨hencode, hsize, hmemory⟩ := s.faithful
  rw [← hsize]
  exact ⟨fun v => ⟨hencode v, Wire.length_encode v, Wire.decode?_encode v⟩,
    hmemory.trans hsize.symm, fun bs => ⟨Wire.decode?_eq_none_iff, Wire.map_encode_decode? bs⟩⟩

end Structure

end Fuse.Kernel
