-- A listing of a directory in memory that changes between its pages. The offset of a record
-- is the number of the records up to it, so the next page starts behind it only if the
-- directory still has as many names up to there. Then a name that stays is told once. After a
-- removal it can be left out.
import Fuse.Proofs.MemFs.Paging

namespace Fuse

namespace MemFs

variable {given : Nat} {fs : MemFs} {dir ino : Inode} {name : Name}

namespace Tree

variable {t : Tree} {d : Node}

/-! ## Where a name stands in a listing -/

/-- Neither the directory nor its parent is a child of the directory. -/
theorem Shape.ne_of_child (h : t.Shape given) (hd : t.node? dir = some d)
    (hentry : t.HasEntry dir name ino) : dir ≠ ino ∧ d.parent ≠ ino := by
  refine ⟨(h.hangs.entry_ne (hasEntry_iff.mp hentry)).symm, ?_⟩
  rintro rfl
  rcases (h.listedBy hd).hangs with ⟨-, hroot⟩ | ⟨_, hup⟩
  · exact (h.hangs.entry (hasEntry_iff.mp hentry)).1 hroot
  · exact h.hangs.not_within_child hentry (.inner hup .self)

/-- A name stands once among the first entries of a listing, if it is one of the first
children. -/
theorem Shape.countP_take_listing (h : t.Shape given) (hd : t.node? dir = some d)
    (hentry : t.HasEntry dir name ino) (n : Nat) :
    ((t.listing dir).take n).countP (isFor name ino) =
      if (name, ino) ∈ d.children.take (n - 2) then 1 else 0 := by
  obtain ⟨hself, hparent⟩ := h.ne_of_child hd hentry
  have hchildren : ((d.children.take (n - 2)).map fun c => (c.2, t.kindOf c.2, c.1)).countP
      (isFor name ino) = if (name, ino) ∈ d.children.take (n - 2) then 1 else 0 := by
    have hnodup : d.children.Nodup := (h.fits dir d hd).sorted.imp fun hlt he => by
      rw [he] at hlt
      exact Std.Irrefl.irrefl (r := (· < ·)) _ hlt
    rw [← (hnodup.sublist (List.take_sublist _ _)).count, List.countP_map, List.count]
    refine List.countP_congr fun c _ => ?_
    simp [isFor, Prod.ext_iff, and_comm]
  rw [← hchildren, listing_eq hd, withDots]
  rcases n with - | - | n
  · rfl
  · simp [isFor, hself]
  · simp [isFor, hself, hparent, List.map_take]

/-- The entries before an offset have a name among them, if the offset is behind the last
name that is not larger. -/
theorem Shape.countP_upTo (h : t.Shape given) (hentry : t.HasEntry dir name ino) (last : Name) :
    ((t.listing dir).take (t.upTo dir last + 2)).countP (isFor name ino) =
      if name ≤ last then 1 else 0 := by
  obtain ⟨d, hd, hget⟩ := hentry
  have hsorted := (h.fits dir d hd).sorted
  have hmem := (h.mem_children hd).mpr ⟨d, hd, hget⟩
  have hupTo : t.upTo dir last = d.children.countP fun c => decide (c.1 ≤ last) := by
    unfold upTo
    rw [hd]
    rfl
  rw [h.countP_take_listing hd ⟨d, hd, hget⟩, hupTo, Nat.add_sub_cancel,
    KeyedList.take_countP_le hsorted]
  simp [hmem]

/-- A name that is there stands once in the whole listing. -/
theorem Shape.countP_listing (h : t.Shape given) (hentry : t.HasEntry dir name ino) :
    (t.listing dir).countP (isFor name ino) = 1 := by
  obtain ⟨d, hd, hget⟩ := hentry
  have hmem := (h.mem_children hd).mpr ⟨d, hd, hget⟩
  have hall := h.countP_take_listing hd ⟨d, hd, hget⟩ (d.children.length + 2)
  rw [Nat.add_sub_cancel, List.take_length, if_pos hmem, List.take_of_length_le] at hall
  · exact hall
  · rw [listing_eq hd, withDots]
    simp

/-- Behind the two entries with dots, the children stand in their order. -/
theorem Shape.upTo_of_listing (h : t.Shape given) (hd : t.node? dir = some d) {i : Nat}
    {x : Inode × FileType × Name} (hx : (t.listing dir)[i + 2]? = some x) :
    t.upTo dir x.2.2 = i + 1 := by
  rw [listing_eq hd, withDots] at hx
  obtain ⟨c, hc, rfl⟩ : ∃ c, d.children[i]? = some c ∧ (c.2, t.kindOf c.2, c.1) = x := by
    simpa using hx
  have hcount := KeyedList.countP_le_key (h.fits dir d hd).sorted hc
  unfold upTo
  rw [hd]
  exact hcount

end Tree

/-! ## Pages while the directory changes -/

/-- The page tells entries of the directory, as it was when the page was asked for. -/
structure Shows (dir : Inode) (p : Page MemFs) : Prop where
  shape : ∃ given, p.user.tree.Shape given
  of : p.Of (p.user.tree.listing dir)

/-- A request makes one node at most. -/
theorem shape_serve (h : fs.tree.Shape given) (r : Request) (op : Operation)
    (hg : given + 2 < UInt64.size) :
    ∃ given' ≤ given + 1, (table.serve fs r op).1.tree.Shape given' := by
  unfold Table.serve
  split
  · rename_i handler hhandler
    obtain ⟨-, hhandle⟩ := Option.ite_none_right_eq_some.mp hhandler
    obtain rfl := Option.some.inj hhandle
    rcases serves_handle h r op with ⟨-, hs⟩ | ⟨-, hs⟩
    · exact ⟨given, Nat.le_succ given, hs⟩
    · exact ⟨given + 1, Nat.le_refl _, hs hg⟩
  · exact ⟨given, Nat.le_succ given, h⟩

/-- Only a directory is answered with a page. -/
theorem directory_of_serve {r : Request} {offset : UInt64} {space : UInt32} {file : FileInfo}
    {fs' : MemFs} {l : Listing}
    (hserve : table.serve fs r (.readdir dir offset space file) = (fs', some (.dir l))) :
    ∃ d, fs.tree.node? dir = some d ∧ d.isDir = true := by
  have hreply : (table.serve fs r (.readdir dir offset space file)).2 = some (.dir l) := by
    rw [hserve]
  rw [serve_readdir_eq] at hreply
  cases hentries : (Tree.entries dir).on fs.tree with
  | mk result t =>
    cases result with
    | ok es => exact Tree.directory_of_entries hentries
    | error e =>
      rw [answering_eq, hentries] at hreply
      cases e <;> cases hreply

theorem shows_pages (h : fs.tree.Shape given) {asks : List Ask}
    (hg : given + asks.length + 3 < UInt64.size) (offset : UInt64) :
    ∀ p ∈ table.pages dir fs offset asks, Shows dir p := by
  refine forall_pages table dir
    (I := fun n user => ∃ given, user.tree.Shape given ∧ given + n + 3 < UInt64.size)
    ?_ ?_ ⟨given, h, hg⟩ offset
  · rintro r op - n user ⟨given, h, hg⟩
    obtain ⟨given', hle, h'⟩ := shape_serve h r op (by omega)
    exact ⟨given', h', by omega⟩
  · rintro n user user' r offset space file l ⟨given, h, hg⟩ hserve
    obtain ⟨d, hd, hdir⟩ := directory_of_serve hserve
    have hthis := serve_readdir h hd hdir r offset space file
    rw [hserve] at hthis
    cases hthis
    have hshort : (user.tree.listing dir).length < UInt64.size :=
      Nat.lt_of_le_of_lt (h.length_listing hd) (by omega)
    exact ⟨⟨⟨given, h⟩, Page.of_page user offset space hshort⟩, given, h, by omega⟩

/-- A change between two pages that is steady leaves a name on its side of the offset. -/
theorem Steady.kept {p q : Page MemFs} (hsteady : Steady dir p q) (hp : Shows dir p)
    (hq : Shows dir q) (hfull : p.bytes ≠ []) (hnext : q.offset = p.next)
    (hentry : p.user.tree.HasEntry dir name ino) (hentry' : q.user.tree.HasEntry dir name ino) :
    ((q.user.tree.listing dir).take q.offset.toNat).countP (isFor name ino) =
      ((p.user.tree.listing dir).take q.offset.toNat).countP (isFor name ino) := by
  obtain ⟨_, h⟩ := hp.shape
  obtain ⟨_, h'⟩ := hq.shape
  obtain ⟨e, he⟩ : ∃ e, p.records.getLast? = some e :=
    Option.ne_none_iff_exists'.mp fun hnone =>
      hfull (hp.of.bytes_eq_nil (List.getLast?_eq_none_iff.mp hnone))
  have hoffset : q.offset = e.offset := by
    rw [hnext, Page.next, he]
    rfl
  obtain ⟨i, hi, hx⟩ := hp.of.last he
  obtain ⟨d, hd, -⟩ := id hentry
  obtain ⟨d', hd', -⟩ := id hentry'
  by_cases hdots : 2 < e.offset.toNat
  · obtain ⟨j, rfl⟩ := Nat.exists_eq_add_of_le' (Nat.le_of_lt_succ (hi ▸ hdots))
    have hupTo : p.user.tree.upTo dir e.name = j + 1 := h.upTo_of_listing hd hx
    have hupTo' := (hsteady e he hdots).trans hupTo
    have hplace : q.offset.toNat = j + 1 + 2 := by rw [hoffset, hi]
    have hbefore := h.countP_upTo hentry e.name
    have hbefore' := h'.countP_upTo hentry' e.name
    rw [hupTo] at hbefore
    rw [hupTo'] at hbefore'
    rw [hplace, hbefore, hbefore']
  · -- No child was told, so none is before the offset.
    have hzero : q.offset.toNat - 2 = 0 := by
      rw [hoffset]
      omega
    rw [h.countP_take_listing hd hentry, h'.countP_take_listing hd' hentry', hzero]
    rfl

/-- An empty page that had space enough starts behind all entries. -/
theorem Shows.ends {p : Page MemFs} (hp : Shows dir p) (hspace : Spacious dir p)
    (hempty : p.bytes = []) : (p.user.tree.listing dir).length ≤ p.offset.toNat := by
  refine List.getElem?_eq_none_iff.mp (Option.eq_none_iff_forall_not_mem.mpr ?_)
  rintro ⟨ino, kind, name⟩ hx
  exact hp.of.fits hempty ino kind name hx (hspace ino kind name hx)

theorem spacious_of_wide {p : Page MemFs}
    (h : ∀ x ∈ p.user.tree.listing dir, align8 (24 + x.2.2.length) ≤ p.space.toNat) :
    Spacious dir p := fun _ _ _ hx => h _ (List.mem_of_getElem? hx)

/-! ## The law -/

/-- Someone lists a directory by pages that have space enough, up to an empty one, and between
the pages anything can be asked of the file system. If each change between two pages is steady,
then a name that always leads to the same node is told once. -/
theorem a_name_that_stays_is_told_once_while_changes_are_steady (clock : Nat → Timestamp)
    (owner : Owner) (requests : List (Request × Operation)) (dir : Inode) (asks : List Ask)
    (hmade : ((fresh clock owner).serveAll requests).2.length + asks.length + 3 < UInt64.size)
    (name : Name) (ino : Inode) :
    let ps := table.pages dir ((fresh clock owner).serveAll requests).1 0 asks
    (∀ p ∈ ps, Spacious dir p) → (∃ p ∈ ps, p.bytes = []) → ps.IsChain (Steady dir) →
      (∀ p ∈ ps, p.user.tree.HasEntry dir name ino) → timesTold name ino ps = 1 := by
  intro ps hspace hempty hsteady hentry
  have h := shape_served clock owner requests (by omega)
  have hshows : ∀ p ∈ ps, Shows dir p := shows_pages h hmade 0
  obtain ⟨hconsecutive, hhead⟩ :=
    consecutive_pages table dir ((fresh clock owner).serveAll requests).1 0 asks
  -- The invariant is how often the name stands before the offset of a page, which no change
  -- between two pages alters.
  have hkept : ps.IsChain fun p q =>
      ((q.user.tree.listing dir).take q.offset.toNat).countP (isFor name ino) =
        ((p.user.tree.listing dir).take q.offset.toNat).countP (isFor name ino) := by
    refine List.isChain_iff_getElem.mpr fun i hi => ?_
    have hp := List.getElem_mem (Nat.lt_of_succ_lt hi)
    have hq := List.getElem_mem hi
    obtain ⟨hfull, hnext⟩ := hconsecutive.getElem i hi
    exact (hsteady.getElem i hi).kept (hshows _ hp) (hshows _ hq) hfull hnext (hentry _ hp)
      (hentry _ hq)
  have htotal : ∀ p ∈ ps, (p.user.tree.listing dir).countP (isFor name ino) = 1 := by
    intro p hp
    obtain ⟨_, hp'⟩ := (hshows p hp).shape
    exact hp'.countP_listing (hentry p hp)
  have htold := countP_told (fun p hp => (hshows p hp).of) hconsecutive hkept htotal
    (fun p hp => (hshows p hp).ends (hspace p hp)) hempty
  obtain ⟨p, hp⟩ : ∃ p, ps.head? = some p := by
    obtain ⟨_, hmem, -⟩ := hempty
    exact Option.ne_none_iff_exists'.mp fun hnone =>
      List.ne_nil_of_mem hmem (List.head?_eq_none_iff.mp hnone)
  have hall := htold p hp
  rw [hhead p hp] at hall
  simpa [timesTold] using hall

/-- A root with three files, which have the numbers from 2 on. -/
def threeFiles : MemFs × List Inode :=
  (fresh (fun _ => .epoch) ⟨0, 0⟩).serveAll
    ([[97], [98], [99]].map fun name =>
      (⟨0, 1, 0, 0, 0, .create, none⟩, .create rootInode name 0o644 0 0))

/-- Someone asks for a page of three records and then for two large pages, and there are
changes after the first one. -/
def asksAround (changes : List Operation) : List Ask :=
  let page (space : UInt32) : Ask :=
    .page ⟨0, 1, 0, 0, 0, .readdir, some space⟩ space { fh := 0, flags := 0 }
  let change (op : Operation) : Ask := .other ⟨0, 1, 0, 0, 0, op.kind, op.replyLimit⟩ op
  page 96 :: changes.map change ++ [page 4096, page 4096]

/-- The first page ends with the first file. Then another file takes its place, and the last
one goes. The second file is told once. -/
theorem a_file_between_changes_is_told_once :
    let ps := table.pages rootInode threeFiles.1 0 (asksAround
      [.unlink rootInode [97], .create rootInode [48] 0o644 0 0, .unlink rootInode [99]])
    ps.map (fun p => p.records.map (·.ino)) = [[1, 1, 2], [3], []] ∧ timesTold [98] 3 ps = 1 := by
  intro ps
  have hwide : ∀ p ∈ ps, ∀ x ∈ p.user.tree.listing rootInode,
      align8 (24 + x.2.2.length) ≤ p.space.toNat := by decide +kernel
  have hentry : ∀ p ∈ ps, p.user.tree.target? rootInode [98] = some 3 := by decide +kernel
  exact ⟨by decide +kernel,
    a_name_that_stays_is_told_once_while_changes_are_steady (fun _ => .epoch) ⟨0, 0⟩ _ rootInode _
      (by decide +kernel) [98] 3 (fun p hp => spacious_of_wide (hwide p hp)) (by decide +kernel)
      (by decide +kernel) fun p hp => Tree.hasEntry_iff.mpr (hentry p hp)⟩

/-- If the first file goes after the page that tells it, the second one is never told. It is
there all the time, but it has moved in front of the offset where the next page starts. -/
theorem a_file_behind_a_removed_one_is_left_out :
    let ps := table.pages rootInode threeFiles.1 0 (asksAround [.unlink rootInode [97]])
    (∀ p ∈ ps, Spacious rootInode p) ∧ (∃ p ∈ ps, p.bytes = []) ∧
      (∀ p ∈ ps, p.user.tree.HasEntry rootInode [98] 3) ∧
      ps.map (fun p => p.records.map (·.ino)) = [[1, 1, 2], [4], []] ∧
      timesTold [98] 3 ps = 0 := by
  intro ps
  have hwide : ∀ p ∈ ps, ∀ x ∈ p.user.tree.listing rootInode,
      align8 (24 + x.2.2.length) ≤ p.space.toNat := by decide +kernel
  have hentry : ∀ p ∈ ps, p.user.tree.target? rootInode [98] = some 3 := by decide +kernel
  exact ⟨fun p hp => spacious_of_wide (hwide p hp), by decide +kernel,
    fun p hp => Tree.hasEntry_iff.mpr (hentry p hp), by decide +kernel, by decide +kernel⟩

end MemFs

end Fuse
