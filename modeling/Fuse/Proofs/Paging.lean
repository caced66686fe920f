-- Pages of a directory that stays as it is make up its listing, whatever their sizes. Each
-- page is a run of the entries from its offset on, and the next one starts behind it. While
-- the directory changes, what stands before the next page has to stay as much as it was.
import Fuse.HelloFs
import Fuse.Paging
import Fuse.Proofs.Listing
import Mathlib.Data.List.Chain

namespace Fuse

namespace Listing

/-! ## Records and their entries -/

theorem upTo_records {es : List DirEntry} (h : ∀ e ∈ es, e.name.length < UInt32.size)
    {count : Nat} (hc : es.length ≤ count) : records.upTo count (es.flatMap DirEntry.record) = es := by
  induction es generalizing count with
  | nil => cases count <;> rfl
  | cons e es ih =>
    obtain ⟨he, hes⟩ := List.forall_mem_cons.mp h
    obtain ⟨count, rfl⟩ := Nat.exists_eq_add_of_le' (Nat.le_trans (Nat.succ_pos _) hc)
    rw [List.flatMap_cons, records.upTo, DirEntry.read?_record he]
    dsimp only
    rw [ih hes (Nat.le_of_succ_le_succ hc)]

theorem length_le_flatMap (es : List DirEntry) :
    es.length ≤ (es.flatMap DirEntry.record).length := by
  induction es with
  | nil => exact Nat.le_refl 0
  | cons e es ih =>
    have hpos : e.unpadded ≤ e.record.length := e.length_record ▸ e.unpadded_le_padded
    have hunpadded : e.unpadded = 24 + e.name.length := rfl
    rw [List.flatMap_cons, List.length_append, List.length_cons]
    omega

/-- What was written as records is read as it was. -/
theorem records_flatMap {es : List DirEntry} (h : ∀ e ∈ es, e.name.length < UInt32.size) :
    records (es.flatMap DirEntry.record) = es := upTo_records h (length_le_flatMap es)

/-- An entry whose record is among some bytes has a name that is shorter than they are. -/
theorem length_name_lt {es : List DirEntry} {e : DirEntry} (he : e ∈ es) :
    e.name.length < (es.flatMap DirEntry.record).length := by
  obtain ⟨front, back, rfl⟩ := List.append_of_mem he
  have hpos : e.unpadded ≤ e.record.length := e.length_record ▸ e.unpadded_le_padded
  have hunpadded : e.unpadded = 24 + e.name.length := rfl
  rw [List.flatMap_append, List.flatMap_cons, List.length_append, List.length_append]
  omega

/-- The entries of a directory with their offsets. -/
def numbered (es : List (Inode × FileType × Name)) : List DirEntry :=
  es.zipIdx.map fun ((ino, kind, name), i) => { ino, offset := .ofNat (i + 1), kind, name }

theorem length_numbered (es : List (Inode × FileType × Name)) :
    (numbered es).length = es.length := by
  unfold numbered
  rw [List.length_map, List.length_zipIdx]

theorem said_numbered (es : List (Inode × FileType × Name)) :
    (numbered es).map DirEntry.said = es := by
  unfold numbered
  rw [List.map_map]
  exact List.zipIdx_map_fst 0 es

theorem offset_numbered {es : List (Inode × FileType × Name)} {i : Nat} {e : DirEntry}
    (h : (numbered es)[i]? = some e) : e.offset = .ofNat (i + 1) := by
  unfold numbered at h
  rw [List.getElem?_map, List.getElem?_zipIdx] at h
  obtain ⟨_, hx, rfl⟩ := Option.map_eq_some_iff.mp h
  obtain ⟨_, -, rfl⟩ := Option.map_eq_some_iff.mp hx
  rw [Nat.zero_add]

/-! ## A page -/

/-- A page is filled from the front, and it stays empty only if the first entry does not
fit. -/
theorem fill_takes (l : Listing) (es : List DirEntry) :
    ∃ k, k ≤ es.length ∧ (l.fill es).bytes = l.bytes ++ (es.take k).flatMap DirEntry.record ∧
      (k = 0 → ∀ e, es[0]? = some e → l.fits e ≠ true) := by
  induction es generalizing l with
  | nil => exact ⟨0, Nat.le_refl 0, by simp [fill], fun _ e he => by simp at he⟩
  | cons e es ih =>
    by_cases h : l.fits e = true
    · obtain ⟨k, hk, hbytes, -⟩ := ih { l with bytes := l.bytes ++ e.record }
      refine ⟨k + 1, Nat.succ_le_succ hk, ?_, nofun⟩
      rw [fill, push_of_fits h]
      dsimp only
      rw [hbytes, List.take_succ_cons, List.flatMap_cons, List.append_assoc]
    · refine ⟨0, Nat.zero_le _, ?_, ?_⟩
      · rw [fill, push_of_not_fits h]
        simp
      · rintro - e' ⟨⟩
        exact h

end Listing

variable {σ : Type}

/-- The page is a run of these entries, from its offset on. -/
structure Page.Of (p : Page σ) (es : List (Inode × FileType × Name)) : Prop where
  said : p.records.map DirEntry.said = (es.drop p.offset.toNat).take p.records.length
  offsets : ∀ i e, p.records[i]? = some e → e.offset.toNat = p.offset.toNat + i + 1
  readable : Listing.Reads p.bytes p.records
  within : p.bytes.length ≤ p.space.toNat
  fits : p.bytes = [] → ∀ ino kind name, es[p.offset.toNat]? = some (ino, kind, name) →
    ¬align8 (24 + name.length) ≤ p.space.toNat

namespace Page

theorem of_page (user : σ) (offset : UInt64) (space : UInt32)
    {es : List (Inode × FileType × Name)} (hes : es.length < UInt64.size) :
    Page.Of ⟨user, offset, space, (Listing.page space offset es).bytes⟩ es := by
  let rest := (Listing.numbered es).drop offset.toNat
  have hwithin := Listing.length_page space offset es
  obtain ⟨k, hk, hbytes, hfirst⟩ := Listing.fill_takes { space } rest
  have hpage : (Listing.page space offset es).bytes = (rest.take k).flatMap DirEntry.record := hbytes
  have hshort : ∀ e ∈ rest.take k, e.name.length < UInt32.size := by
    intro e he
    have hlt := Listing.length_name_lt he
    rw [← hpage] at hlt
    exact Nat.lt_trans (Nat.lt_of_lt_of_le hlt hwithin) space.toNat_lt_size
  have hrecords : Listing.records (Listing.page space offset es).bytes = rest.take k := by
    rw [hpage, Listing.records_flatMap hshort]
  have hlength : (rest.take k).length = k := by
    rw [List.length_take, Nat.min_eq_left hk]
  have hsaid : rest.map DirEntry.said = es.drop offset.toNat := by
    rw [List.map_drop, Listing.said_numbered]
  refine ⟨?_, ?_, ?_, hwithin, ?_⟩
  · show (Listing.records (Listing.page space offset es).bytes).map DirEntry.said =
      (es.drop offset.toNat).take (Listing.records (Listing.page space offset es).bytes).length
    rw [hrecords, hlength, List.map_take, hsaid]
  · intro i e he
    change (Listing.records (Listing.page space offset es).bytes)[i]? = some e at he
    rw [hrecords] at he
    obtain ⟨hi, -⟩ := List.getElem?_eq_some_iff.mp he
    rw [hlength] at hi
    rw [List.getElem?_take_of_lt hi, List.getElem?_drop] at he
    obtain ⟨hin, -⟩ := List.getElem?_eq_some_iff.mp he
    rw [Listing.length_numbered] at hin
    rw [Listing.offset_numbered he]
    exact UInt64.toNat_ofNat_of_lt' (by omega)
  · show Listing.Reads (Listing.page space offset es).bytes
      (Listing.records (Listing.page space offset es).bytes)
    rw [hrecords, hpage]
    exact Listing.reads_records hshort
  · intro hempty ino kind name he hfits
    have hnone : k = 0 := by
      have hle := Listing.length_le_flatMap (rest.take k)
      rw [← hpage, hlength] at hle
      rw [show (Listing.page space offset es).bytes = [] from hempty] at hle
      exact Nat.le_zero.mp hle
    obtain ⟨e, hfront, hesaid⟩ : ∃ e, rest[0]? = some e ∧ e.said = (ino, kind, name) := by
      have hmap : (rest.map DirEntry.said)[0]? = some (ino, kind, name) := by
        rw [hsaid, List.getElem?_drop]
        exact he
      rw [List.getElem?_map] at hmap
      exact Option.map_eq_some_iff.mp hmap
    have hname : e.name = name := congrArg (·.2.2) hesaid
    refine hfirst hnone e hfront (decide_eq_true ?_)
    show 0 + align8 (24 + e.name.length) ≤ space.toNat
    rw [hname, Nat.zero_add]
    exact hfits

variable {p : Page σ} {es : List (Inode × FileType × Name)}

/-- The next page starts behind the records of this one. -/
theorem Of.next (h : p.Of es) : p.next.toNat = p.offset.toNat + p.records.length := by
  unfold Page.next
  cases hlast : p.records.getLast? with
  | none =>
    rw [List.getLast?_eq_none_iff.mp hlast]
    rfl
  | some e =>
    rw [List.getLast?_eq_getElem?] at hlast
    have hoffset := h.offsets _ e hlast
    obtain ⟨hlt, -⟩ := List.getElem?_eq_some_iff.mp hlast
    show e.offset.toNat = _
    omega

/-- The last record of a page is the entry before the next page. -/
theorem Of.last (h : p.Of es) {e : DirEntry} (he : p.records.getLast? = some e) :
    ∃ i, e.offset.toNat = i + 1 ∧ es[i]? = some e.said := by
  rw [List.getLast?_eq_getElem?] at he
  obtain ⟨hlt, -⟩ := List.getElem?_eq_some_iff.mp he
  refine ⟨p.offset.toNat + (p.records.length - 1), h.offsets _ e he, ?_⟩
  have hsaid : (p.records.map DirEntry.said)[p.records.length - 1]? = some e.said := by
    rw [List.getElem?_map, he]
    rfl
  rw [h.said, List.getElem?_take_of_lt hlt, List.getElem?_drop] at hsaid
  exact hsaid

/-- What is told before the next page is what was told before this one, and what this one
tells. -/
theorem Of.countP_take (h : p.Of es) (P : Inode × FileType × Name → Bool) :
    (es.take p.next.toNat).countP P =
      (es.take p.offset.toNat).countP P + (p.records.map DirEntry.said).countP P := by
  rw [h.next, List.take_add, List.countP_append, h.said]

/-- A page without records is empty. -/
theorem Of.bytes_eq_nil (h : p.Of es) (hnone : p.records = []) : p.bytes = [] := by
  have hreads := h.readable
  rw [hnone] at hreads
  generalize p.bytes = bs at hreads
  cases hreads
  rfl

theorem records_of_empty (h : p.bytes = []) : p.records = [] := by
  unfold records
  rw [h]
  rfl

end Page

/-! ## One page after another -/

/-- Each page starts where the one before it ended, and only the last one can be empty. -/
def Consecutive (ps : List (Page σ)) : Prop :=
  ps.IsChain fun p q => p.bytes ≠ [] ∧ q.offset = p.next

theorem told_append (ps qs : List (Page σ)) : told (ps ++ qs) = told ps ++ told qs := by
  unfold told
  rw [List.flatMap_append, List.map_append]

theorem told_cons (p : Page σ) (ps : List (Page σ)) :
    told (p :: ps) = p.records.map DirEntry.said ++ told ps := by
  unfold told
  rw [List.flatMap_cons, List.map_append]

/-- Pages that have space for every record have space for the next. -/
theorem roomy_of_wide {es : List (Inode × FileType × Name)} {ps : List (Page σ)}
    (h : ∀ p ∈ ps, ∀ e ∈ es, align8 (24 + e.2.2.length) ≤ p.space.toNat) : Roomy es ps := by
  rintro before p after rfl ino kind name he
  exact h p (List.mem_append_right _ List.mem_cons_self) _ (List.mem_of_getElem? he)

section Unchanged

variable {ps : List (Page σ)} {es : List (Inode × FileType × Name)} {n : Nat}

/-- The next of some pages start behind the first one. -/
theorem starts_next {p : Page σ} (hp : p.Of es) (hc : Consecutive (p :: ps))
    (hstart : p.offset.toNat = n) :
    ∀ q ∈ ps.head?, q.offset.toNat = n + p.records.length := by
  intro q hq
  have hnext := (List.isChain_cons.mp hc).1 q hq
  rw [hnext.2, hp.next, hstart]

/-- Consecutive pages of the same entries tell a run of them, without a gap. -/
theorem told_eq_take (hof : ∀ p ∈ ps, p.Of es) (hc : Consecutive ps)
    (hstart : ∀ p ∈ ps.head?, p.offset.toNat = n) :
    told ps = (es.drop n).take (told ps).length := by
  induction ps generalizing n with
  | nil => rfl
  | cons p ps ih =>
    obtain ⟨hp, hps⟩ := List.forall_mem_cons.mp hof
    have hn : p.offset.toNat = n := hstart p rfl
    have hsaid := hp.said
    have hrest := ih hps (List.isChain_cons.mp hc).2 (starts_next hp hc hn)
    rw [hn] at hsaid
    have hlength : (told (p :: ps)).length = p.records.length + (told ps).length := by
      rw [told_cons, List.length_append, List.length_map]
    rw [hlength, List.take_add, List.drop_drop, ← hsaid, ← hrest, told_cons]

/-- A page starts behind all that was told before it. -/
theorem offset_eq {p : Page σ} {before after : List (Page σ)}
    (hof : ∀ q ∈ before ++ p :: after, q.Of es) (hc : Consecutive (before ++ p :: after))
    (hstart : ∀ q ∈ (before ++ p :: after).head?, q.offset.toNat = n) :
    p.offset.toNat = n + (told before).length := by
  induction before generalizing n with
  | nil => exact hstart p rfl
  | cons q before ih =>
    obtain ⟨hq, hrest⟩ := List.forall_mem_cons.mp hof
    have hn : q.offset.toNat = n := hstart q rfl
    rw [ih hrest (List.isChain_cons.mp hc).2 (starts_next hq hc hn), told_cons,
      List.length_append, List.length_map, Nat.add_assoc]

/-- The page before another one is not empty. -/
theorem last_of_empty {p : Page σ} {before after : List (Page σ)}
    (hc : Consecutive (before ++ p :: after)) (hp : p.bytes = []) : after = [] := by
  cases after with
  | nil => rfl
  | cons q after =>
    have hpq := (List.isChain_append.mp hc).2.1
    exact absurd hp (List.isChain_cons_cons.mp hpq).1.1

theorem length_le_told (hof : ∀ p ∈ ps, p.Of es) (hfull : ∀ p ∈ ps, p.bytes ≠ []) :
    ps.length ≤ (told ps).length := by
  induction ps with
  | nil => exact Nat.le_refl 0
  | cons p ps ih =>
    obtain ⟨hp, hps⟩ := List.forall_mem_cons.mp hof
    obtain ⟨hfirst, hrest⟩ := List.forall_mem_cons.mp hfull
    have hpos : 0 < p.records.length :=
      List.length_pos_iff.mpr fun hnil => hfirst (hp.bytes_eq_nil hnil)
    have hle := ih hps hrest
    rw [told_cons, List.length_append, List.length_map, List.length_cons]
    omega

/-- Consecutive pages of the same entries, from the first of them on, tell them all. -/
theorem tells_of_consecutive {asked : Nat} (hof : ∀ p ∈ ps, p.Of es) (hc : Consecutive ps)
    (hstart : ∀ p ∈ ps.head?, p.offset.toNat = 0) (hroomy : Roomy es ps)
    (hanswered : ps.length = asked ∨ ∃ p ∈ ps, p.bytes = []) : Tells es asked ps := by
  have htold := told_eq_take hof hc hstart
  rw [List.drop_zero] at htold
  have hfront : told ps <+: es := by
    rw [htold]
    exact List.take_prefix _ _
  refine ⟨hfront, ?_, hanswered, ?_, fun p hp => (hof p hp).within,
    fun p hp => (hof p hp).readable⟩
  · intro p hp hempty
    obtain ⟨before, after, rfl⟩ := List.append_of_mem hp
    have hlast := last_of_empty hc hempty
    have hsame : told (before ++ p :: after) = told before := by
      rw [hlast, told_append, told_cons, Page.records_of_empty hempty]
      simp [told]
    have hoffset := offset_eq hof hc hstart
    rw [Nat.zero_add] at hoffset
    have hnone : es[(told before).length]? = none := by
      cases he : es[(told before).length]? with
      | none => rfl
      | some x =>
        obtain ⟨ino, kind, name⟩ := x
        have hroom := hroomy before p after rfl ino kind name he
        rw [← hoffset] at he
        exact absurd hroom ((hof p hp).fits hempty ino kind name he)
    rw [hsame] at hfront ⊢
    exact hfront.eq_of_length_le (List.getElem?_eq_none_iff.mp hnone)
  · intro hmany
    rcases hanswered with hlength | hempty
    · refine Classical.byContradiction fun hnone => ?_
      have hfull : ∀ p ∈ ps, p.bytes ≠ [] := fun p hp hnil => hnone ⟨p, hp, hnil⟩
      have hle := length_le_told hof hfull
      have hle' := hfront.length_le
      omega
    · exact hempty

end Unchanged

/-! ## Pages of other entries each -/

/-- While a directory changes, its pages tell as many entries of some sort as there are, if
the changes keep the number of them before each page, and the total. -/
theorem countP_told {P : Inode × FileType × Name → Bool}
    {es : Page σ → List (Inode × FileType × Name)} {total : Nat} {ps : List (Page σ)}
    (hof : ∀ p ∈ ps, p.Of (es p)) (hc : Consecutive ps)
    (hkept : ps.IsChain fun p q =>
      ((es q).take q.offset.toNat).countP P = ((es p).take q.offset.toNat).countP P)
    (htotal : ∀ p ∈ ps, (es p).countP P = total)
    (hend : ∀ p ∈ ps, p.bytes = [] → (es p).length ≤ p.offset.toNat)
    (hempty : ∃ p ∈ ps, p.bytes = []) :
    ∀ p ∈ ps.head?, ((es p).take p.offset.toNat).countP P + (told ps).countP P = total := by
  induction ps with
  | nil => nofun
  | cons p ps ih =>
    rintro _ ⟨⟩
    rw [told_cons, List.countP_append, ← Nat.add_assoc, ← (hof p List.mem_cons_self).countP_take]
    cases ps with
    | nil =>
      obtain ⟨_, hmem, hnil⟩ := hempty
      obtain rfl := List.mem_singleton.mp hmem
      have hle := hend _ List.mem_cons_self hnil
      have hnext := (hof _ List.mem_cons_self).next
      rw [List.take_of_length_le (by omega), htotal _ List.mem_cons_self]
      rfl
    | cons q ps =>
      obtain ⟨⟨hfull, hnext⟩, hc'⟩ := List.isChain_cons_cons.mp hc
      obtain ⟨hpq, hkept'⟩ := List.isChain_cons_cons.mp hkept
      have hempty' : ∃ p ∈ q :: ps, p.bytes = [] := by
        obtain ⟨p', hmem, hnil⟩ := hempty
        rcases List.mem_cons.mp hmem with rfl | hmem
        · exact absurd hnil hfull
        · exact ⟨p', hmem, hnil⟩
      rw [← hnext, ← hpq]
      exact ih (List.forall_mem_cons.mp hof).2 hc' hkept' (List.forall_mem_cons.mp htotal).2
        (List.forall_mem_cons.mp hend).2 hempty' q rfl

/-! ## The pages that come -/

section

variable (t : Table σ) (dir : Inode)

/-- After an answer with entries the next page is asked for, and after an empty one none. -/
theorem pages_of_serve {user user' : σ} {offset : UInt64} {r : Request} {space : UInt32}
    {file : FileInfo} {l : Listing}
    (hserve : t.serve user r (.readdir dir offset space file) = (user', some (.dir l)))
    (asks : List Ask) :
    t.pages dir user offset (.page r space file :: asks) =
      if l.bytes = [] then [⟨user, offset, space, l.bytes⟩]
      else ⟨user, offset, space, l.bytes⟩ ::
        t.pages dir user' (Page.next ⟨user, offset, space, l.bytes⟩) asks := by
  rw [Table.pages, hserve]

/-- A question for a page is answered with a page, or the listing is over. -/
theorem pages_page (user : σ) (offset : UInt64) (r : Request) (space : UInt32) (file : FileInfo)
    (asks : List Ask) :
    (∃ user' l, t.serve user r (.readdir dir offset space file) = (user', some (.dir l)) ∧
      (l.bytes = [] ∧ t.pages dir user offset (.page r space file :: asks) =
          [⟨user, offset, space, l.bytes⟩] ∨
        l.bytes ≠ [] ∧ t.pages dir user offset (.page r space file :: asks) =
          ⟨user, offset, space, l.bytes⟩ ::
            t.pages dir user' (Page.next ⟨user, offset, space, l.bytes⟩) asks)) ∨
    t.pages dir user offset (.page r space file :: asks) = [] := by
  by_cases hlisted : ∃ user' l, t.serve user r (.readdir dir offset space file) =
      (user', some (.dir l))
  · obtain ⟨user', l, hserve⟩ := hlisted
    refine Or.inl ⟨user', l, hserve, ?_⟩
    rw [pages_of_serve t dir hserve]
    by_cases hl : l.bytes = []
    · exact Or.inl ⟨hl, if_pos hl⟩
    · exact Or.inr ⟨hl, if_neg hl⟩
  · refine Or.inr ?_
    rw [Table.pages]
    split
    · rename_i user' l hserve
      exact absurd ⟨user', l, hserve⟩ hlisted
    · rfl

/-- The pages of a directory are consecutive, from the offset on. -/
theorem consecutive_pages (user : σ) (offset : UInt64) (asks : List Ask) :
    Consecutive (t.pages dir user offset asks) ∧
      ∀ p ∈ (t.pages dir user offset asks).head?, p.offset = offset := by
  induction asks generalizing user offset with
  | nil => exact ⟨.nil, nofun⟩
  | cons ask asks ih =>
    cases ask with
    | other r op => exact ih _ _
    | page r space file =>
      rcases pages_page t dir user offset r space file asks with
        ⟨user', l, -, ⟨-, hpages⟩ | ⟨hl, hpages⟩⟩ | hpages
      · rw [hpages]
        refine ⟨.singleton _, ?_⟩
        rintro p ⟨⟩
        rfl
      · rw [hpages]
        obtain ⟨hrest, hhead⟩ := ih user' (Page.next ⟨user, offset, space, l.bytes⟩)
        refine ⟨List.isChain_cons.mpr ⟨fun q hq => ⟨hl, hhead q hq⟩, hrest⟩, ?_⟩
        rintro p ⟨⟩
        rfl
      · rw [hpages]
        exact ⟨.nil, nofun⟩

/-- What holds before each question makes all pages such, if it makes each answer such a page
and holds afterwards. -/
theorem forall_pages {I : Nat → σ → Prop} {P : Page σ → Prop} {asks : List Ask}
    (hother : ∀ r op, .other r op ∈ asks → ∀ n user, I (n + 1) user → I n (t.serve user r op).1)
    (hpage : ∀ n user user' r offset space file l, I (n + 1) user →
      t.serve user r (.readdir dir offset space file) = (user', some (.dir l)) →
        P ⟨user, offset, space, l.bytes⟩ ∧ I n user')
    {user : σ} (h : I asks.length user) (offset : UInt64) :
    ∀ p ∈ t.pages dir user offset asks, P p := by
  induction asks generalizing user offset with
  | nil => nofun
  | cons ask asks ih =>
    have hrest := fun r op hmem => hother r op (List.mem_cons_of_mem _ hmem)
    cases ask with
    | other r op => exact ih hrest (hother r op List.mem_cons_self _ _ h) _
    | page r space file =>
      rcases pages_page t dir user offset r space file asks with
        ⟨user', l, hserve, ⟨-, hpages⟩ | ⟨-, hpages⟩⟩ | hpages
      · rw [hpages]
        exact List.forall_mem_singleton.mpr (hpage _ _ _ _ _ _ _ _ h hserve).1
      · obtain ⟨hthis, hnext⟩ := hpage _ _ _ _ _ _ _ _ h hserve
        rw [hpages]
        exact List.forall_mem_cons.mpr ⟨hthis, ih hrest hnext _⟩
      · rw [hpages]
        nofun

/-- Where every question for a page is answered with one, as many pages come as were asked
for, or an empty one comes. -/
theorem answered_pages {I : σ → Prop}
    (hpage : ∀ user r offset space file, I user → ∃ user' l,
      t.serve user r (.readdir dir offset space file) = (user', some (.dir l)) ∧ I user')
    (asks : List (Request × UInt32 × FileInfo)) {user : σ} (h : I user) (offset : UInt64) :
    let ps := t.pages dir user offset (asks.map fun (r, space, file) => .page r space file)
    ps.length = asks.length ∨ ∃ p ∈ ps, p.bytes = [] := by
  induction asks generalizing user offset with
  | nil => exact Or.inl rfl
  | cons ask asks ih =>
    obtain ⟨r, space, file⟩ := ask
    obtain ⟨user', l, hserve, h'⟩ := hpage user r offset space file h
    intro ps
    have hps := pages_of_serve t dir hserve (asks.map fun (r, space, file) => .page r space file)
    change ps = _ at hps
    rw [hps]
    by_cases hl : l.bytes = []
    · rw [if_pos hl]
      exact Or.inr ⟨_, List.mem_cons_self, hl⟩
    · rw [if_neg hl]
      rcases ih h' (Page.next ⟨user, offset, space, l.bytes⟩) with hlength | ⟨p, hp, hempty⟩
      · exact Or.inl (congrArg (· + 1) hlength)
      · exact Or.inr ⟨p, List.mem_cons_of_mem _ hp, hempty⟩

/-- A file system that always answers with a page of the same entries tells them all. -/
theorem lists_of_serve {I : σ → Prop} {es : List (Inode × FileType × Name)}
    (hes : es.length < UInt64.size)
    (hserve : ∀ user r offset space file, I user → ∃ user',
      t.serve user r (.readdir dir offset space file) =
        (user', some (.dir (.page space offset es))) ∧ I user')
    {user : σ} (h : I user) : t.Lists user dir es := by
  intro asks ps hroomy
  have hpage (user : σ) (r : Request) (offset : UInt64) (space : UInt32) (file : FileInfo)
      (h : I user) : ∃ user' l,
        t.serve user r (.readdir dir offset space file) = (user', some (.dir l)) ∧ I user' := by
    obtain ⟨user', hs, h'⟩ := hserve user r offset space file h
    exact ⟨user', _, hs, h'⟩
  have hof : ∀ p ∈ ps, p.Of es := by
    refine forall_pages t dir (I := fun _ => I) ?_ ?_ h 0
    · intro r op hmem
      obtain ⟨_, -, hother⟩ := List.mem_map.mp hmem
      cases hother
    · intro n user user' r offset space file l h hs
      obtain ⟨_, hs', h'⟩ := hserve user r offset space file h
      rw [hs] at hs'
      cases hs'
      exact ⟨Page.of_page user offset space hes, h'⟩
  obtain ⟨hc, hstart⟩ := consecutive_pages t dir user 0
    (asks.map fun (r, space, file) => .page r space file)
  exact tells_of_consecutive hof hc (fun p hp => congrArg UInt64.toNat (hstart p hp)) hroomy
    (answered_pages t dir hpage asks h 0)

end

/-- The root of the file system with one file is listed by its entries. -/
theorem HelloFs.lists_root (fs : HelloFs) : table.Lists fs rootInode entries :=
  lists_of_serve (I := fun _ => True) table rootInode (by decide)
    (fun user _ _ _ _ _ => ⟨user, rfl, trivial⟩) trivial

end Fuse
