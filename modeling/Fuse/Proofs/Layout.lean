-- The laws of layouts. A structure that was written is read back as it was, a
-- structure that was read stood there as it would be written, and whenever there are
-- bytes enough there is a structure to read.
import Fuse.Layout

namespace Fuse

namespace Layout

/-! ## Words -/

theorem split?_ofNat (width n : Nat) (rest : Bytes) :
    Bytes.split? width (Bytes.ofNat width n ++ rest) = some (Bytes.ofNat width n, rest) := by
  have h := Bytes.split?_append (Bytes.ofNat width n) rest
  rwa [Bytes.length_ofNat] at h

theorem split?_of_le {n : Nat} {bs : Bytes} (h : n ≤ bs.length) :
    Bytes.split? n bs = some (bs.take n, bs.drop n) := if_pos h

/-- A run of bytes is the number that it spells, and the bytes after it. -/
theorem eq_ofNat_of_split? {n : Nat} {bs front rest : Bytes}
    (h : Bytes.split? n bs = some (front, rest)) :
    bs = Bytes.ofNat n front.toNat ++ rest ∧ front.toNat < Bytes.capacity n := by
  obtain ⟨hbs, hn⟩ := Bytes.eq_append_of_split? h
  have hfront := Bytes.ofNat_toNat front
  have hlt := Bytes.toNat_lt front
  rw [hn] at hfront hlt
  exact ⟨hfront.symm ▸ hbs, hlt⟩

/-! ## Rows of items -/

theorem decodeArray_append {α : Type} {item : Bytes → Option (α × Bytes)} {enc : α → Bytes}
    (hitem : ∀ a rest, item (enc a ++ rest) = some (a, rest)) (count : Nat)
    (v : Vector α count) (rest : Bytes) :
    decodeArray item count (v.toList.flatMap enc ++ rest) = some (v, rest) := by
  induction count generalizing rest with
  | zero =>
    have hv : v = #v[] := Vector.eq_empty
    subst hv
    rfl
  | succ count ih =>
    have hv : v = v.pop.push v.back := (Vector.push_pop_back v).symm
    rw [hv, Vector.toList_push, List.flatMap_append, List.append_assoc, decodeArray, ih]
    simp [hitem]

theorem eq_append_of_decodeArray {α : Type} {item : Bytes → Option (α × Bytes)}
    {enc : α → Bytes} (hitem : ∀ bs a rest, item bs = some (a, rest) → bs = enc a ++ rest)
    (count : Nat) {bs rest : Bytes} {v : Vector α count}
    (h : decodeArray item count bs = some (v, rest)) :
    bs = v.toList.flatMap enc ++ rest := by
  induction count generalizing rest with
  | zero =>
    cases h
    rfl
  | succ count ih =>
    simp only [decodeArray, Option.bind_eq_bind, Option.bind_eq_some_iff, Prod.exists,
      Option.pure_def, Option.some.injEq, Prod.mk.injEq] at h
    obtain ⟨items, mid, hitems, last, rest', hlast, rfl, rfl⟩ := h
    rw [ih hitems, hitem _ _ _ hlast, Vector.toList_push, List.flatMap_append, List.append_assoc]
    simp

theorem decodeArray_of_le {α : Type} {item : Bytes → Option (α × Bytes)} {size : Nat}
    (hitem : ∀ bs : Bytes, size ≤ bs.length → ∃ a, item bs = some (a, bs.drop size))
    (count : Nat) {bs : Bytes} (h : count * size ≤ bs.length) :
    ∃ v, decodeArray item count bs = some (v, bs.drop (count * size)) := by
  induction count with
  | zero => exact ⟨#v[], by simp [decodeArray]⟩
  | succ count ih =>
    rw [Nat.succ_mul] at h
    obtain ⟨items, hitems⟩ := ih (by omega)
    obtain ⟨last, hlast⟩ := hitem (bs.drop (count * size)) (by rw [List.length_drop]; omega)
    refine ⟨items.push last, ?_⟩
    rw [decodeArray, hitems]
    simp only [Option.bind_eq_bind, Option.bind_some, hlast, List.drop_drop, Nat.succ_mul,
      Option.pure_def]

/-! ## Structures -/

theorem length_encode (l : Layout) (v : l.Value) : (l.encode v).length = l.size := by
  induction l with
  | u16 => exact Bytes.length_ofNat _ _
  | u32 => exact Bytes.length_ofNat _ _
  | u64 => exact Bytes.length_ofNat _ _
  | i32 => exact Bytes.length_ofNat _ _
  | pair first second ih₁ ih₂ => simp only [encode, size, List.length_append, ih₁, ih₂]
  | array count item ih =>
    have hrow : ∀ xs : List item.Value,
        (xs.flatMap item.encode).length = xs.length * item.size := by
      intro xs
      induction xs with
      | nil => simp
      | cons x xs hxs =>
        rw [List.flatMap_cons, List.length_append, hxs, ih, List.length_cons, Nat.succ_mul,
          Nat.add_comm]
    show (v.toList.flatMap item.encode).length = count * item.size
    rw [hrow, Vector.length_toList]

/-- What was written is read back, and the bytes after it are left alone. -/
theorem decode_encode (l : Layout) (v : l.Value) (rest : Bytes) :
    l.decode (l.encode v ++ rest) = some (v, rest) := by
  induction l generalizing rest with
  | u16 =>
    have hv : UInt16.toNat v < Bytes.capacity 2 := UInt16.toNat_lt v
    simp only [decode, encode, split?_ofNat, Option.map_some, Bytes.toNat_ofNat _ _ hv,
      UInt16.ofNat_toNat]
  | u32 =>
    have hv : UInt32.toNat v < Bytes.capacity 4 := UInt32.toNat_lt v
    simp only [decode, encode, split?_ofNat, Option.map_some, Bytes.toNat_ofNat _ _ hv,
      UInt32.ofNat_toNat]
  | u64 =>
    have hv : UInt64.toNat v < Bytes.capacity 8 := UInt64.toNat_lt v
    simp only [decode, encode, split?_ofNat, Option.map_some, Bytes.toNat_ofNat _ _ hv,
      UInt64.ofNat_toNat]
  | i32 =>
    have hv : (Int32.toUInt32 v).toNat < Bytes.capacity 4 := UInt32.toNat_lt _
    simp only [decode, encode, split?_ofNat, Option.map_some, Bytes.toNat_ofNat _ _ hv,
      UInt32.ofNat_toNat, Int32.toInt32_toUInt32]
  | pair first second ih₁ ih₂ =>
    simp only [decode, encode, List.append_assoc, ih₁, ih₂, Option.bind_eq_bind,
      Option.bind_some, Option.pure_def]
  | array count item ih => exact decodeArray_append ih count v rest

/-- What was read stood there as it would be written. -/
theorem eq_append_of_decode {l : Layout} {bs rest : Bytes} {v : l.Value}
    (h : l.decode bs = some (v, rest)) : bs = l.encode v ++ rest := by
  induction l generalizing bs rest with
  | u16 =>
    obtain ⟨w, hw, he⟩ := Option.map_eq_some_iff.mp h
    obtain ⟨hbs, hlt⟩ := eq_ofNat_of_split? hw
    cases he
    rw [hbs, encode, UInt16.toNat_ofNat_of_lt' hlt]
  | u32 =>
    obtain ⟨w, hw, he⟩ := Option.map_eq_some_iff.mp h
    obtain ⟨hbs, hlt⟩ := eq_ofNat_of_split? hw
    cases he
    rw [hbs, encode, UInt32.toNat_ofNat_of_lt' hlt]
  | u64 =>
    obtain ⟨w, hw, he⟩ := Option.map_eq_some_iff.mp h
    obtain ⟨hbs, hlt⟩ := eq_ofNat_of_split? hw
    cases he
    rw [hbs, encode, UInt64.toNat_ofNat_of_lt' hlt]
  | i32 =>
    obtain ⟨w, hw, he⟩ := Option.map_eq_some_iff.mp h
    obtain ⟨hbs, hlt⟩ := eq_ofNat_of_split? hw
    cases he
    rw [hbs, encode, UInt32.toUInt32_toInt32, UInt32.toNat_ofNat_of_lt' hlt]
  | pair first second ih₁ ih₂ =>
    simp only [decode, Option.bind_eq_bind, Option.bind_eq_some_iff, Prod.exists,
      Option.pure_def, Option.some.injEq, Prod.mk.injEq] at h
    obtain ⟨a, mid, ha, b, rest', hb, rfl, rfl⟩ := h
    rw [ih₁ ha, ih₂ hb, encode, List.append_assoc]
  | array count item ih =>
    exact eq_append_of_decodeArray (fun _ _ _ hi => ih hi) count h

/-- Where there are bytes enough, there is a structure. -/
theorem decode_of_le {l : Layout} {bs : Bytes} (h : l.size ≤ bs.length) :
    ∃ v, l.decode bs = some (v, bs.drop l.size) := by
  induction l generalizing bs with
  | u16 => exact ⟨_, congrArg _ (split?_of_le h)⟩
  | u32 => exact ⟨_, congrArg _ (split?_of_le h)⟩
  | u64 => exact ⟨_, congrArg _ (split?_of_le h)⟩
  | i32 => exact ⟨_, congrArg _ (split?_of_le h)⟩
  | pair first second ih₁ ih₂ =>
    rw [size] at h
    have hfirst : first.size ≤ bs.length := by omega
    have hsecond : second.size ≤ (bs.drop first.size).length := by
      rw [List.length_drop]
      omega
    obtain ⟨a, ha⟩ := ih₁ hfirst
    obtain ⟨b, hb⟩ := ih₂ hsecond
    refine ⟨(a, b), ?_⟩
    simp only [decode, ha, hb, size, List.drop_drop, Option.bind_eq_bind, Option.bind_some,
      Option.pure_def]
  | array count item ih => exact decodeArray_of_le (fun _ hi => ih hi) count h

end Layout

/-! ## Types with a layout -/

namespace Wire

variable {α : Type} [Wire α]

@[simp] theorem length_encode (a : α) : (encode a).length = size α := Layout.length_encode _ _

theorem decode?_encode (a : α) (rest : Bytes) : decode? (encode a ++ rest) = some (a, rest) := by
  unfold decode? encode
  rw [Layout.decode_encode]
  exact congrArg (fun a => some (a, rest)) (ofValue_toValue a)

theorem eq_append_of_decode? {bs rest : Bytes} {a : α} (h : decode? bs = some (a, rest)) :
    bs = encode a ++ rest := by
  obtain ⟨p, hp, he⟩ := Option.map_eq_some_iff.mp h
  cases he
  rw [encode, toValue_ofValue]
  exact Layout.eq_append_of_decode hp

theorem decode?_of_le {bs : Bytes} (h : size α ≤ bs.length) :
    ∃ a : α, decode? bs = some (a, bs.drop (size α)) := by
  obtain ⟨v, hv⟩ := Layout.decode_of_le h
  exact ⟨ofValue v, by unfold decode?; rw [hv]; rfl⟩

/-- The front of a run of bytes that a structure opens is the structure. -/
theorem take_size {a : α} {bs tail : Bytes} (h : bs = encode a ++ tail) :
    bs.take (size α) = encode a := by
  rw [h, List.take_left' (length_encode a)]

/-- Bytes that are too few cannot be read, and nothing else stands in the way. -/
theorem decode?_eq_none_iff {bs : Bytes} : decode? (α := α) bs = none ↔ bs.length < size α := by
  constructor
  · intro h
    apply Nat.lt_of_not_le
    intro hle
    obtain ⟨a, ha⟩ := decode?_of_le (α := α) hle
    rw [h] at ha
    cases ha
  · intro h
    cases hd : decode? (α := α) bs with
    | none => rfl
    | some p =>
      have hlength := congrArg List.length (eq_append_of_decode? hd)
      rw [List.length_append, length_encode] at hlength
      omega

/-- What was read is written as it stood there. -/
theorem map_encode_decode? (bs : Bytes) :
    (decode? (α := α) bs).map (fun p => (encode p.1, p.2)) =
      if bs.length < size α then none else some (bs.take (size α), bs.drop (size α)) := by
  split
  · rename_i hlt
    rw [decode?_eq_none_iff.mpr hlt]
    rfl
  · rename_i hnot
    obtain ⟨a, ha⟩ := decode?_of_le (α := α) (Nat.le_of_not_lt hnot)
    rw [ha, take_size (eq_append_of_decode? ha)]
    rfl

end Wire

end Fuse
