-- The laws of directory listings. A listing never outgrows its space, its records follow
-- each other without a gap, and the kernel reads off it what was added, in order.
import Fuse.Proofs.Layout
import Fuse.Reply.Records

namespace Fuse

/-! ## Multiples of eight -/

theorem align8_least (n : Nat) : LeastMultiple n (align8 n) := by
  unfold LeastMultiple align8
  refine ⟨⟨_, Nat.mul_comm _ _⟩, by omega, ?_⟩
  rintro m ⟨k, rfl⟩ hm
  omega

theorem LeastMultiple.unique {n a b : Nat} (ha : LeastMultiple n a) (hb : LeastMultiple n b) :
    a = b :=
  Nat.le_antisymm (ha.2.2 b hb.1 hb.2.1) (hb.2.2 a ha.1 ha.2.1)

/-- So many bytes are missing up to the next multiple of eight. -/
theorem align8_sub (n : Nat) : align8 n - n = (8 - n % 8) % 8 := by
  unfold align8
  omega

/-! ## Records -/

theorem FileType.ofDirentType?_direntType (t : FileType) :
    ofDirentType? t.direntType = some t := by cases t <;> rfl

namespace DirEntry

theorem unpadded_le_padded (e : DirEntry) : e.unpadded ≤ e.padded := by
  unfold padded align8
  omega

theorem length_record (e : DirEntry) : e.record.length = e.padded := by
  have hle := e.unpadded_le_padded
  unfold record
  rw [List.length_append, List.length_append, List.length_replicate, Wire.length_encode]
  unfold unpadded at hle ⊢
  omega

/-- A record is read as the entry that it was made of, if its name is not too long for the
word that says how long it is. -/
theorem read?_record {e : DirEntry} (h : e.name.length < UInt32.size) (rest : Bytes) :
    read? (e.record ++ rest) = some (e, rest) := by
  let filling : Bytes := List.replicate (e.padded - e.unpadded) 0
  have hrecord : e.record ++ rest = Wire.encode e.toKernel ++ (e.name ++ (filling ++ rest)) := by
    unfold record
    simp only [List.append_assoc, filling]
  have hname : Bytes.split? e.toKernel.namelen.toNat (e.name ++ (filling ++ rest)) =
      some (e.name, filling ++ rest) := by
    have hlength : e.toKernel.namelen.toNat = e.name.length := UInt32.toNat_ofNat_of_lt' h
    rw [hlength, Bytes.split?_append]
  have hfilling : Bytes.split? ((8 - (24 + e.name.length) % 8) % 8) (filling ++ rest) =
      some (filling, rest) := by
    have hlength : filling.length = (8 - (24 + e.name.length) % 8) % 8 := by
      rw [List.length_replicate]
      exact align8_sub _
    rw [← hlength, Bytes.split?_append]
  have hkind : FileType.ofDirentType? e.toKernel.type = some e.kind :=
    FileType.ofDirentType?_direntType e.kind
  have hzeros : filling.all (· == 0) = true := by simp [filling]
  unfold read?
  rw [hrecord, Wire.decode?_encode]
  simp only [Option.bind_eq_bind, Option.bind_some, hname, hfilling, hkind, hzeros, if_true]
  rfl

end DirEntry

namespace Listing

/-! ## Adding entries -/

theorem push_of_fits {l : Listing} {e : DirEntry} (h : l.fits e = true) :
    l.push e = ({ l with bytes := l.bytes ++ e.record }, true) := if_pos h

theorem push_of_not_fits {l : Listing} {e : DirEntry} (h : l.fits e ≠ true) :
    l.push e = (l, false) := if_neg h

/-- An entry is added exactly if its record fits into the space that is left. -/
theorem push_iff (l : Listing) (e : DirEntry) :
    (l.push e).2 = true ↔
      ∃ size, LeastMultiple (24 + e.name.length) size ∧ l.bytes.length + size ≤ l.space.toNat := by
  have hleast : LeastMultiple (24 + e.name.length) e.padded := align8_least _
  have hfits : l.fits e = true ↔ l.bytes.length + e.padded ≤ l.space.toNat := decide_eq_true_iff
  have hpush : (l.push e).2 = true ↔ l.fits e = true := by
    by_cases h : l.fits e = true
    · simp [push_of_fits h, h]
    · simp [push_of_not_fits h, h]
  rw [hpush, hfits]
  constructor
  · intro h
    exact ⟨e.padded, hleast, h⟩
  · rintro ⟨size, hsize, h⟩
    rwa [hleast.unique hsize]

theorem space_push (l : Listing) (e : DirEntry) : (l.push e).1.space = l.space := by
  by_cases h : l.fits e = true
  · rw [push_of_fits h]
  · rw [push_of_not_fits h]

/-- A listing that is made of whole records and does not outgrow its space. -/
structure Packed (l : Listing) : Prop where
  aligned : 8 ∣ l.bytes.length
  within : l.bytes.length ≤ l.space.toNat

theorem packed_nil (space : UInt32) : ({ space } : Listing).Packed :=
  ⟨Nat.dvd_zero 8, Nat.zero_le _⟩

theorem Packed.push {l : Listing} (h : l.Packed) (e : DirEntry) : (l.push e).1.Packed := by
  by_cases hf : l.fits e = true
  · rw [push_of_fits hf]
    have hpadded : LeastMultiple e.unpadded e.padded := align8_least _
    refine ⟨?_, ?_⟩
    · rw [List.length_append, e.length_record]
      exact Nat.dvd_add h.aligned hpadded.1
    · rw [List.length_append, e.length_record]
      exact of_decide_eq_true hf
  · rw [push_of_not_fits hf]
    exact h

theorem Packed.pushAll {l : Listing} (h : l.Packed) (es : List DirEntry) :
    (l.pushAll es).Packed := by
  induction es generalizing l with
  | nil => exact h
  | cons e es ih => exact ih (h.push e)

theorem space_pushAll (l : Listing) (es : List DirEntry) : (l.pushAll es).space = l.space := by
  induction es generalizing l with
  | nil => rfl
  | cons e es ih => exact (ih _).trans (l.space_push e)

/-- Pages end with the first entry that does not fit, and are packed up to there. -/
theorem packed_fill {l : Listing} (h : l.Packed) (es : List DirEntry) :
    (l.fill es).Packed ∧ (l.fill es).space = l.space := by
  induction es generalizing l with
  | nil => exact ⟨h, rfl⟩
  | cons e es ih =>
    have hpush := h.push e
    have hspace := l.space_push e
    unfold fill
    split
    · rename_i l' hl
      rw [hl] at hpush hspace
      obtain ⟨hpacked, hkept⟩ := ih hpush
      exact ⟨hpacked, hkept.trans hspace⟩
    · rename_i l' hl
      rw [hl] at hpush hspace
      exact ⟨hpush, hspace⟩

theorem length_page (space : UInt32) (offset : UInt64)
    (entries : List (Inode × FileType × Name)) :
    (page space offset entries).bytes.length ≤ space.toNat := by
  have hfill (es : List DirEntry) : (fill { space } es).bytes.length ≤ space.toNat := by
    obtain ⟨hpacked, hspace⟩ := packed_fill (packed_nil space) es
    have hwithin := hpacked.within
    rw [hspace] at hwithin
    exact hwithin
  exact hfill _

/-! ## Reading -/

/-- Bytes are records of one list of entries at most. -/
theorem Reads.unique {bs : Bytes} {es es' : List DirEntry} (r : Reads bs es)
    (r' : Reads bs es') : es' = es := by
  induction r generalizing es' with
  | nil =>
    cases r' with
    | nil => rfl
    | cons h _ => cases h
  | @cons bs rest e es h _ ih =>
    cases r' with
    | nil => cases h
    | cons h' r' =>
      rw [h] at h'
      cases h'
      rw [ih r']

theorem reads_records {es : List DirEntry} (h : ∀ e ∈ es, e.name.length < UInt32.size) :
    Reads (es.flatMap DirEntry.record) es := by
  induction es with
  | nil => exact .nil
  | cons e es ih =>
    obtain ⟨he, hes⟩ := List.forall_mem_cons.mp h
    rw [List.flatMap_cons]
    exact .cons (DirEntry.read?_record he _) (ih hes)

/-! ## What was added -/

theorem pushAll_cons (l : Listing) (e : DirEntry) (es : List DirEntry) :
    l.pushAll (e :: es) = (l.push e).1.pushAll es := rfl

theorem accepted_cons_of_fits {l : Listing} {e : DirEntry} (h : l.fits e = true)
    (es : List DirEntry) : l.accepted (e :: es) = e :: (l.push e).1.accepted es := by
  rw [accepted, push_of_fits h]
  rfl

theorem accepted_cons_of_not_fits {l : Listing} {e : DirEntry} (h : l.fits e ≠ true)
    (es : List DirEntry) : l.accepted (e :: es) = l.accepted es := by
  rw [accepted, push_of_not_fits h]
  rfl

/-- What stands in a listing are the records of the entries that were added. -/
theorem bytes_pushAll (l : Listing) (es : List DirEntry) :
    (l.pushAll es).bytes = l.bytes ++ (l.accepted es).flatMap DirEntry.record := by
  induction es generalizing l with
  | nil => simp [pushAll, accepted]
  | cons e es ih =>
    rw [pushAll_cons, ih]
    by_cases h : l.fits e = true
    · rw [accepted_cons_of_fits h, List.flatMap_cons, push_of_fits h, List.append_assoc]
    · rw [accepted_cons_of_not_fits h, push_of_not_fits h]

/-- An entry that was added has a name that is shorter than the space. -/
theorem length_name_of_accepted {l : Listing} {es : List DirEntry} {e : DirEntry}
    (h : e ∈ l.accepted es) : e.name.length < l.space.toNat := by
  induction es generalizing l with
  | nil => cases h
  | cons x es ih =>
    have hspace := l.space_push x
    by_cases hx : l.fits x = true
    · rw [accepted_cons_of_fits hx] at h
      rcases List.mem_cons.mp h with rfl | h
      · have hfits : l.bytes.length + e.padded ≤ l.space.toNat := of_decide_eq_true hx
        have hpadded := e.unpadded_le_padded
        have hunpadded : e.unpadded = 24 + e.name.length := rfl
        omega
      · rw [← hspace]
        exact ih h
    · rw [accepted_cons_of_not_fits hx] at h
      exact ih h

/-! ## The law -/

/-- Whatever is added to a listing, in whatever order, and however often an entry did not
fit: a listing is a multiple of eight long and no longer than its space. The kernel reads off
it the entries that were added, in order, and nothing else. A further entry is added exactly
if the listing and its record, filled up to a multiple of eight, are no longer than the space,
and otherwise the listing stays as it is. -/
theorem a_listing_reads_back (space : UInt32) (es : List DirEntry) :
    let l := ({ space } : Listing).pushAll es
    l.space = space ∧ 8 ∣ l.bytes.length ∧ l.bytes.length ≤ space.toNat ∧
      (∀ es', Reads l.bytes es' ↔ es' = ({ space } : Listing).accepted es) ∧
      ∀ e, ((l.push e).2 = true ↔ ∃ size, LeastMultiple (24 + e.name.length) size ∧
          l.bytes.length + size ≤ space.toNat) ∧
        ((l.push e).2 = true ∨ (l.push e).1 = l) := by
  intro l
  have hspace : l.space = space := space_pushAll _ es
  have hpacked : l.Packed := (packed_nil space).pushAll es
  have hreads : Reads l.bytes (({ space } : Listing).accepted es) := by
    have hbytes : l.bytes = [] ++ (({ space } : Listing).accepted es).flatMap DirEntry.record :=
      bytes_pushAll _ es
    rw [hbytes, List.nil_append]
    apply reads_records
    intro e he
    have hlt : e.name.length < space.toNat := length_name_of_accepted he
    exact Nat.lt_trans hlt space.toNat_lt_size
  refine ⟨hspace, hpacked.aligned, hspace ▸ hpacked.within, fun es' => ⟨?_, ?_⟩, fun e => ⟨?_, ?_⟩⟩
  · intro h
    exact hreads.unique h
  · rintro rfl
    exact hreads
  · rw [← hspace]
    exact l.push_iff e
  · by_cases h : l.fits e = true
    · exact Or.inl (by rw [push_of_fits h])
    · exact Or.inr (by rw [push_of_not_fits h])

/-- Two records of 32 bytes fill a space of 64 bytes. -/
example : ({ space := 64 } : Listing).accepted
    [⟨1, 1, .directory, [46]⟩, ⟨2, 2, .regularFile, List.replicate 9 97⟩,
      ⟨1, 3, .directory, [46, 46]⟩] =
    [⟨1, 1, .directory, [46]⟩, ⟨1, 3, .directory, [46, 46]⟩] := by decide

end Listing

end Fuse
