-- Runs of bytes, and numbers written into them. The kernel lays every number
-- out with its least significant byte first.
namespace Fuse

/-- A run of bytes, in the order in which they travel. -/
abbrev Bytes := List UInt8

namespace Bytes

/-! ## Numbers -/

/-- The low `width` bytes of a number, least significant byte first. -/
def ofNat : (width : Nat) → Nat → Bytes
  | 0, _ => []
  | width + 1, n => UInt8.ofNat n :: ofNat width (n / 256)

/-- How many numbers fit in `width` bytes. -/
def capacity : (width : Nat) → Nat
  | 0 => 1
  | width + 1 => 256 * capacity width

/-- The number that a run of bytes spells, least significant byte first. -/
def toNat : Bytes → Nat
  | [] => 0
  | b :: bs => b.toNat + 256 * toNat bs

/-- The number in the bytes from a place on. -/
def numberAt (bs : Bytes) (place width : Nat) : Nat := toNat ((bs.drop place).take width)

/-- The first `n` bytes and the bytes after them. There is no answer when
fewer than `n` bytes are there. -/
def split? (n : Nat) (bs : Bytes) : Option (Bytes × Bytes) :=
  if n ≤ bs.length then some (bs.take n, bs.drop n) else none

@[simp] theorem length_ofNat (width n : Nat) : (ofNat width n).length = width := by
  induction width generalizing n with
  | zero => rfl
  | succ width ih => simp [ofNat, ih]

/-- A number that fits comes back. -/
theorem toNat_ofNat (width n : Nat) (h : n < capacity width) : toNat (ofNat width n) = n := by
  induction width generalizing n with
  | zero => simp only [capacity, Nat.lt_one_iff] at h; simp [ofNat, toNat, h]
  | succ width ih =>
    have hq : n / 256 < capacity width := Nat.div_lt_of_lt_mul h
    simp only [ofNat, toNat, ih _ hq, UInt8.toNat_ofNat']
    omega

theorem toNat_lt (bs : Bytes) : toNat bs < capacity bs.length := by
  induction bs with
  | nil => simp [toNat, capacity]
  | cons b bs ih =>
    have := b.toNat_lt
    simp only [toNat, List.length_cons, capacity]
    omega

/-- Bytes that are read as a number are written back as they were. -/
theorem ofNat_toNat (bs : Bytes) : ofNat bs.length (toNat bs) = bs := by
  induction bs with
  | nil => rfl
  | cons b bs ih =>
    have hb := b.toNat_lt
    have h1 : (b.toNat + 256 * toNat bs) / 256 = toNat bs := by omega
    have h2 : UInt8.ofNat (b.toNat + 256 * toNat bs) = b := by
      apply UInt8.toNat_inj.mp
      rw [UInt8.toNat_ofNat']
      omega
    simp only [List.length_cons, ofNat, toNat, h1, h2, ih]

/-! ## Numbers at their places -/

theorem numberAt_front {width n : Nat} (h : n < capacity width) (rest : Bytes) :
    (ofNat width n ++ rest).numberAt 0 width = n := by
  unfold numberAt
  rw [List.drop_zero, List.take_left' (length_ofNat width n), toNat_ofNat width n h]

theorem numberAt_whole {width n : Nat} (h : n < capacity width) :
    (ofNat width n).numberAt 0 width = n := by
  have hfront := numberAt_front h []
  rwa [List.append_nil] at hfront

theorem numberAt_behind (width n : Nat) (rest : Bytes) (place width' : Nat) :
    (ofNat width n ++ rest).numberAt (width + place) width' = rest.numberAt place width' := by
  unfold numberAt
  rw [← List.drop_drop, List.drop_left' (length_ofNat width n)]

theorem numberAt_drop (bs : Bytes) (skipped place width : Nat) :
    Bytes.numberAt (bs.drop skipped) place width = bs.numberAt (skipped + place) width := by
  unfold numberAt
  rw [List.drop_drop]

theorem numberAt_append {bs rest : Bytes} {place width : Nat} (h : place + width ≤ bs.length) :
    (bs ++ rest).numberAt place width = bs.numberAt place width := by
  unfold numberAt
  rw [List.drop_append_of_le_length (by omega),
    List.take_append_of_le_length (by rw [List.length_drop]; omega)]

/-! ## Splitting -/

theorem split?_append (front rest : Bytes) :
    split? front.length (front ++ rest) = some (front, rest) := by
  simp [split?]

theorem eq_append_of_split? {n : Nat} {bs front rest : Bytes}
    (h : split? n bs = some (front, rest)) : bs = front ++ rest ∧ front.length = n := by
  unfold split? at h
  split at h
  · rename_i hn
    simp only [Option.some.injEq, Prod.mk.injEq] at h
    obtain ⟨rfl, rfl⟩ := h
    exact ⟨(List.take_append_drop n bs).symm, by simp [hn]⟩
  · simp at h

end Bytes

end Fuse
