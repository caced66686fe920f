-- A directory in memory is listed with itself, its parent, and its children in the order of
-- their names, as long as nobody changes it.
import Fuse.MemFs.Listing
import Fuse.Proofs.MemFs.Obstacles
import Fuse.Proofs.Paging

namespace Fuse

namespace MemFs

variable {given : Nat} {fs : MemFs}

namespace Tree

open Change

variable {t : Tree} {dir : Inode} {d : Node}

/-! ## The entries -/

theorem mapM_on {α β : Type} {f : α → Change β} {g : α → β} {l : List α}
    (h : ∀ a ∈ l, (f a).on t = (.ok (g a), t)) : (l.mapM f).on t = (.ok (l.map g), t) := by
  induction l with
  | nil => rfl
  | cons a l ih =>
    obtain ⟨ha, hl⟩ := List.forall_mem_cons.mp h
    rw [List.mapM_cons, on_bind_of_ok ha, on_bind_of_ok (ih hl)]
    rfl

theorem kindOf_eq {ino : Inode} {n : Node} (h : t.node? ino = some n) :
    t.kindOf ino = n.attr.kind := by
  unfold kindOf
  rw [h]
  rfl

theorem listing_eq (hd : t.node? dir = some d) :
    t.listing dir =
      withDots dir d.parent (d.children.map fun c => (c.2, t.kindOf c.2, c.1)) := by
  unfold listing
  rw [hd]

/-- What a directory has among its children is an entry that leads to a node. -/
theorem Shape.mem_children (h : t.Shape given) (hd : t.node? dir = some d) {name : Name}
    {ino : Inode} : (name, ino) ∈ d.children ↔ t.HasEntry dir name ino := by
  rw [hasEntry_iff, target?_eq hd, KeyedList.get?_eq_some_iff (h.fits dir d hd).sorted]

theorem Shape.node_of_child (h : t.Shape given) (hd : t.node? dir = some d) {name : Name}
    {ino : Inode} (hc : (name, ino) ∈ d.children) : ∃ n, t.node? ino = some n :=
  h.hangs.child hd ((KeyedList.get?_eq_some_iff (h.fits dir d hd).sorted).mpr hc)

theorem entries_on (h : t.Shape given) (hd : t.node? dir = some d) (hdir : d.isDir = true) :
    (entries dir).on t = (.ok (t.listing dir), t) := by
  have hchild : ∀ p ∈ d.children, (do return (p.2, (← node p.2).attr.kind, p.1) :
      Change (Inode × FileType × Name)).on t = (.ok (p.2, t.kindOf p.2, p.1), t) := by
    rintro ⟨name, ino⟩ hp
    obtain ⟨n, hn⟩ := h.node_of_child hd hp
    rw [on_bind_of_ok (node_on hn), kindOf_eq hn]
    rfl
  unfold entries
  rw [on_bind_of_ok (directory_on hd hdir), on_bind_of_ok (mapM_on hchild), listing_eq hd]
  rfl

/-- Only a directory has entries. -/
theorem directory_of_entries {t' : Tree} {es : List (Inode × FileType × Name)}
    (he : (entries dir).on t = (.ok es, t')) : ∃ d, t.node? dir = some d ∧ d.isDir = true := by
  unfold entries at he
  rcases looks_directory dir t with ⟨e, hfail⟩ | ⟨d, t', -, rfl, hd⟩
  · rw [on_bind_of_error hfail] at he
    cases he
  · exact ⟨d, hd⟩

/-- A directory is listed with all its children, in order. -/
theorem Shape.listedBy (h : t.Shape given) (hd : t.node? dir = some d) :
    t.ListedBy dir d.parent (d.children.map fun c => (c.2, t.kindOf c.2, c.1)) := by
  have hstand := stand?_eq_some hd
  refine ⟨?_, ?_, ?_⟩
  · by_cases hroot : dir = rootInode
    · rw [hroot, h.hangs.root] at hstand
      exact Or.inl ⟨hroot, (Prod.mk.inj (Option.some.inj hstand)).1.symm⟩
    · obtain ⟨name, hname⟩ := h.hangs.placed hstand hroot
      exact Or.inr ⟨name, hasEntry_iff.mpr hname⟩
  · exact List.pairwise_map.mpr (h.fits dir d hd).sorted
  · intro ino kind name
    rw [List.mem_map, ← h.mem_children hd]
    constructor
    · rintro ⟨⟨name', ino'⟩, hmem, he⟩
      cases he
      obtain ⟨n, hn⟩ := h.node_of_child hd hmem
      exact ⟨hmem, n, hn, (kindOf_eq hn).symm⟩
    · rintro ⟨hmem, n, hn, rfl⟩
      exact ⟨(name, ino), hmem, congrArg (ino, ·, name) (kindOf_eq hn)⟩

/-- There are not more children than numbers that were given out, and the root is none. -/
theorem Shape.length_listing (h : t.Shape given) (hd : t.node? dir = some d) :
    (t.listing dir).length ≤ given + 3 := by
  rw [listing_eq hd]
  show (d.children.map _).length + 1 + 1 ≤ given + 3
  rw [List.length_map]
  let numbers := d.children.map fun c => c.2.toNat
  have hnodup : numbers.Nodup := by
    refine List.pairwise_map.mpr (List.Pairwise.imp_of_mem ?_ (h.fits dir d hd).sorted)
    rintro ⟨x, i⟩ ⟨y, j⟩ hx hy hlt he
    obtain rfl : i = j := UInt64.toNat_inj.mp he
    have hx' := hasEntry_iff.mp ((h.mem_children hd).mp hx)
    have hy' := hasEntry_iff.mp ((h.mem_children hd).mp hy)
    have hname : x = y := h.hangs.apart hy' hx'
    rw [hname] at hlt
    exact Std.Irrefl.irrefl (r := (· < ·)) _ hlt
  have hgiven : numbers ⊆ (List.range (given + 2)).erase 1 := by
    intro i hi
    obtain ⟨⟨x, ino⟩, hx, rfl⟩ := List.mem_map.mp hi
    obtain ⟨n, hn⟩ := h.node_of_child hd hx
    have hroot := (h.hangs.entry (hasEntry_iff.mp ((h.mem_children hd).mp hx))).1
    refine (List.mem_erase_of_ne fun hone => hroot ?_).mpr (List.mem_range.mpr (h.below ino n hn))
    exact UInt64.toNat_inj.mp hone
  have hle := hnodup.length_le_of_subset hgiven
  rw [List.length_map, List.length_erase_of_mem (List.mem_range.mpr (by omega)),
    List.length_range] at hle
  omega

end Tree

/-! ## Answers -/

/-- A question for a page is one look at the tree. -/
theorem serve_readdir_eq (fs : MemFs) (r : Request) (dir : Inode) (offset : UInt64)
    (space : UInt32) (file : FileInfo) :
    table.serve fs r (.readdir dir offset space file) =
      let (fs', o) := fs.answering (fun _ => Tree.entries dir) fun es => .dir (.page space offset es)
      (fs', match o.use with
        | .answer (.reply reply) => some reply
        | _ => none) := rfl

/-- A directory is answered with a page of its entries, and the tree stays as it is. -/
theorem serve_readdir (h : fs.tree.Shape given) {dir : Inode} {d : Node}
    (hd : fs.tree.node? dir = some d) (hdir : d.isDir = true) (r : Request) (offset : UInt64)
    (space : UInt32) (file : FileInfo) :
    table.serve fs r (.readdir dir offset space file) =
      ({ fs with readings := fs.readings + 1 },
        some (.dir (.page space offset (fs.tree.listing dir)))) := by
  rw [serve_readdir_eq, answering_eq, Tree.entries_on h hd hdir]
  rfl

/-! ## The law -/

/-- Whatever was asked of a file system in memory before, each of its directories is listed
completely by pages, whatever their sizes are, if each has space for the next record: first the
directory itself, then its parent, and then its children in the order of their names, each with
its number and its type. The root of the other file system is listed in the same way. -/
theorem pages_tell_a_directory_completely (clock : Nat → Timestamp) (owner : Owner)
    (requests : List (Request × Operation))
    (hmade : ((fresh clock owner).serveAll requests).2.length + 3 < UInt64.size) :
    let fs := ((fresh clock owner).serveAll requests).1
    (∀ dir, fs.tree.isDirectory dir = true →
      (∃ parent children, fs.tree.listing dir = withDots dir parent children ∧
        fs.tree.ListedBy dir parent children) ∧
      table.Lists fs dir (fs.tree.listing dir)) ∧
    ∀ hello : HelloFs, HelloFs.table.Lists hello rootInode
      (withDots rootInode rootInode [(HelloFs.fileInode, .regularFile, HelloFs.fileName)]) := by
  intro fs
  have h := shape_served clock owner requests (by omega)
  refine ⟨fun dir hisdir => ?_, HelloFs.lists_root⟩
  obtain ⟨d, hd, hdir⟩ := Tree.node_of_isDirectory hisdir
  refine ⟨⟨_, _, Tree.listing_eq hd, h.listedBy hd⟩, ?_⟩
  have hshort : (fs.tree.listing dir).length < UInt64.size :=
    Nat.lt_of_le_of_lt (h.length_listing hd) hmade
  -- All that changes is how often the clock was read.
  refine lists_of_serve (I := fun user => user.tree = fs.tree) table dir hshort ?_ rfl
  intro user r offset space file hsame
  have hserve := serve_readdir (hsame ▸ h) (hsame ▸ hd) hdir r offset space file
  have hlisting : user.tree.listing dir = fs.tree.listing dir := by rw [hsame]
  rw [hlisting] at hserve
  exact ⟨_, hserve, hsame⟩

/-- Questions for pages with so much space, one after another. -/
def pagesOf (spaces : List UInt32) : List (Request × UInt32 × FileInfo) :=
  spaces.map fun space => (⟨0, 1, 0, 0, 0, .readdir, some space⟩, space, { fh := 0, flags := 0 })

/-- The directory that moved into another one is listed, at first two records at a time. Its
parent is the directory where it is now. -/
theorem a_moved_directory_is_listed_in_its_new_place :
    let asks := pagesOf [64, 70, 32]
    let ps := table.pages 2 afterMoves.1 0 (asks.map fun (r, space, file) => .page r space file)
    let es := withDots 2 3 [(6, .regularFile, [100])]
    table.Lists afterMoves.1 2 es ∧ Tells es 3 ps ∧
      ps.map (fun p => (p.offset, p.records.length)) = [(0, 2), (2, 1), (3, 0)] := by
  intro asks ps es
  have hlisting : afterMoves.1.tree.listing 2 = es := by decide +kernel
  have hlists := ((pages_tell_a_directory_completely (fun _ => .epoch) ⟨0, 0⟩
    (moves.map fun op => (⟨0, 1, 0, 0, 0, op.kind, op.replyLimit⟩, op)) (by decide +kernel)).1 2
      (by decide +kernel)).2
  change table.Lists afterMoves.1 2 (afterMoves.1.tree.listing 2) at hlists
  rw [hlisting] at hlists
  have hroomy : Roomy es ps := roomy_of_wide (by decide +kernel)
  exact ⟨hlists, hlists asks hroomy, by decide +kernel⟩

end MemFs

end Fuse
