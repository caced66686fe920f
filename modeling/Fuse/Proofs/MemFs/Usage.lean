-- What the figures of a file system in memory tell. The nodes are counted as they are. The
-- space is counted in the blocks of the attributes, and told as if it were in larger ones.
import Fuse.Contract
import Fuse.MemFs.Usage
import Fuse.Proofs.MemFs.Content
import Fuse.Proofs.MemFs.Strictness

namespace Fuse

/-- A sum of words is the sum of what they count, as far as a word can count it. -/
theorem toNat_foldl_add {α : Type} (f : α → UInt64) (l : List α) :
    (l.foldl (fun total a => total + f a) 0).toNat =
      l.foldl (fun total a => total + (f a).toNat) 0 % UInt64.size := by
  have hfold : ∀ (total : UInt64) (n : Nat), total.toNat = n % UInt64.size →
      (l.foldl (fun total a => total + f a) total).toNat =
        l.foldl (fun total a => total + (f a).toNat) n % UInt64.size := by
    induction l with
    | nil => exact fun _ _ h => h
    | cons a l ih =>
      intro total n h
      apply ih
      rw [UInt64.toNat_add, h]
      exact Nat.mod_add_mod _ _ _
  exact hfold 0 0 rfl

namespace MemFs

/-! ## Directories have no data -/

/-- A directory has no data. -/
def Node.Hollow (n : Node) : Prop := n.isDir = true → n.data = []

theorem Node.hollow_of_file {n : Node} (h : n.isDir = false) : n.Hollow := by
  intro hd
  rw [h] at hd
  cases hd

namespace Tree

variable {t u : Tree} {given : Nat} {ino : Inode}

def Hollow (t : Tree) : Prop := ∀ i n, t.node? i = some n → n.Hollow

theorem hollow_root (now : Timestamp) (owner : Owner) : (root now owner).Hollow := by
  intro i n hn _
  rw [node?_root] at hn
  split at hn
  · cases hn
    rfl
  · cases hn

theorem Hollow.adjust (h : t.Hollow) {f : Node → Node}
    (hf : ∀ n, t.node? ino = some n → n.Hollow → (f n).Hollow) : (t.adjust ino f).Hollow := by
  intro i n hn
  rw [node?_adjust] at hn
  split at hn
  · rename_i hi
    subst hi
    obtain ⟨m, hm, rfl⟩ := Option.map_eq_some_iff.mp hn
    exact hf m hm (h i m hm)
  · exact h i n hn

theorem Hollow.drop (h : t.Hollow) (gone : Inode) : (t.drop gone).Hollow := by
  intro i n hn
  rw [node?_drop] at hn
  split at hn
  · cases hn
  · exact h i n hn

theorem Hollow.grow (h : t.Hollow) {n : Node} (hn : n.data = []) : (t.grow n).Hollow := by
  intro i m hm
  rw [node?_grow] at hm
  split at hm
  · cases hm
    exact fun _ => hn
  · exact h i m hm

theorem Hollow.withoutChild (h : t.Hollow) (now : Timestamp) (place : Inode) (name : Name)
    (b : Bool) : (t.adjust place (withoutChild now name b)).Hollow :=
  h.adjust fun _ _ hn => hn

theorem Hollow.withChild (h : t.Hollow) (now : Timestamp) (place : Inode) (name : Name)
    (child : Inode) (b : Bool) : (t.adjust place (withChild now name child b)).Hollow :=
  h.adjust fun _ _ hn => hn

theorem Hollow.cleared {now : Timestamp} {place : Inode} {name : Name} {b : Bool}
    (h : t.Hollow) (hc : Cleared now place name ino b t u) : u.Hollow := by
  cases hc with
  | free => exact h
  | replaced => exact (h.drop _).withoutChild now place name b

/-! ### After a change -/

theorem hollow_create (h : t.Hollow) (now : Timestamp) (parent : Inode) (name : Name)
    (kind : FileType) (perm : UInt16) (owner : Owner) :
    (create now parent name kind perm owner).Yields t fun _ t' => t'.Hollow := by
  refine (yields_create now parent name kind perm owner t).mono ?_
  rintro _ _ ⟨d, -, -, -, -, rfl, rfl⟩
  exact (h.withChild now parent name _ _).grow rfl

theorem hollow_remove (h : t.Hollow) (now : Timestamp) (parent : Inode) (name : Name)
    (dir : Bool) : (remove now parent name dir).Yields t fun _ t' => t'.Hollow := by
  refine (yields_remove now parent name dir t).mono ?_
  rintro _ _ ⟨gone, n, -, -, -, -, rfl⟩
  exact (h.drop gone).withoutChild now parent name dir

theorem hollow_rename (h : t.Hollow) (now : Timestamp) (parent : Inode) (name : Name)
    (newParent : Inode) (newName : Name) (flags : UInt32) :
    (rename now parent name newParent newName flags).Yields t fun _ t' => t'.Hollow := by
  refine (yields_rename now parent name newParent newName flags t).mono ?_
  rintro _ _ (rfl | ⟨child, n, u, -, -, -, -, hc, rfl⟩)
  · exact h
  · have hleft := (h.cleared hc).withoutChild now parent name n.isDir
    exact (hleft.withChild now newParent newName child n.isDir).adjust fun _ _ hn => hn

/-- Only a file gets a length. -/
theorem hollow_setattr (h : t.Hollow) (now : Timestamp) (ino : Inode) (set : SetAttr) :
    (setattr now ino set).Yields t fun _ t' => t'.Hollow := by
  refine (sets now ino set t).mono ?_
  rintro _ _ ⟨n, hn, hsize, rfl⟩
  refine h.adjust fun m hm hhollow => ?_
  rw [hn] at hm
  cases hm
  unfold withAttrs
  cases hset : set.size with
  | none => exact hhollow
  | some size => exact Node.hollow_of_file (hsize size hset).1

theorem hollow_openFile (h : t.Hollow) (now : Timestamp) (ino : Inode) (truncates : Bool) :
    (openFile now ino truncates).Yields t fun _ t' => t'.Hollow := by
  refine (opens now ino truncates t).mono ?_
  rintro _ _ ⟨-, rfl⟩
  split
  · exact h.adjust fun _ _ _ _ => rfl
  · exact h

/-- Only a file is written to. -/
theorem hollow_write (h : t.Hollow) (now : Timestamp) (ino : Inode) (offset : UInt64)
    (data : Bytes) : (write now ino offset data).Yields t fun _ t' => t'.Hollow := by
  refine (writes now ino offset data t).mono ?_
  rintro _ _ ⟨n, hn, hfile, -, -, rfl⟩
  refine h.adjust fun m hm _ => ?_
  rw [hn] at hm
  cases hm
  exact Node.hollow_of_file hfile

end Tree

variable {fs : MemFs} {given : Nat}

theorem hollow_answering {α : Type} {change : Timestamp → Change α} (reply : α → Reply)
    (h : fs.tree.Hollow) (y : ∀ now, (change now).Yields fs.tree fun _ t' => t'.Hollow) :
    (fs.answering change reply).1.tree.Hollow := by
  rcases answering_cases reply y with ⟨ht, -⟩ | ⟨a, hhollow, -⟩
  · rwa [ht]
  · exact hhollow

theorem hollow_looking {α : Type} {P : α → Prop} {change : Timestamp → Change α}
    (reply : α → Reply) (h : fs.tree.Hollow) (l : ∀ now, (change now).Looks fs.tree P) :
    (fs.answering change reply).1.tree.Hollow := by
  refine hollow_answering reply h fun now => (l now).mono ?_
  rintro _ _ ⟨rfl, -⟩
  exact h

theorem hollow_handle (h : fs.tree.Hollow) (r : Request) (op : Operation) :
    (fs.handle r op).1.tree.Hollow := by
  cases op with
  | lookup parent name => exact hollow_looking _ h fun _ => Tree.looks_lookup parent name _
  | getattr ino _ => exact hollow_looking _ h fun _ => Tree.looks_getattr ino _
  | read ino offset size _ =>
    exact hollow_looking _ h fun _ => Tree.looks_read ino offset size _
  | opendir ino _ => exact hollow_looking _ h fun _ => Tree.looks_directory ino _
  | readdir ino offset size _ => exact hollow_looking _ h fun _ => Tree.looks_entries ino _
  | setattr ino set => exact hollow_answering _ h fun now => Tree.hollow_setattr h now ino set
  | mkdir parent name mode umask | create parent name mode umask _ =>
    exact hollow_answering _ h fun now => Tree.hollow_create h now ..
  | «open» ino flags => exact hollow_answering _ h fun now => Tree.hollow_openFile h now ino _
  | write ino offset data _ =>
    exact hollow_answering _ h fun now => Tree.hollow_write h now ino offset data
  | unlink parent name | rmdir parent name =>
    exact hollow_answering _ h fun now => Tree.hollow_remove h now parent name _
  | rename parent name newParent newName flags =>
    exact hollow_answering _ h fun now =>
      Tree.hollow_rename h now parent name newParent newName flags
  -- The rest changes no node.
  | _ => exact h

theorem hollow_serveAll (h : fs.tree.Hollow) (requests : List (Request × Operation)) :
    (fs.serveAll requests).1.tree.Hollow := by
  induction requests generalizing fs with
  | nil => exact h
  | cons p rest ih =>
    obtain ⟨r, op⟩ := p
    rw [serveAll_cons]
    exact ih (hollow_handle h r op)

/-! ## Counting -/

namespace Tree

variable {t : Tree} {given : Nat}

/-- The numbers of the nodes, each once. -/
theorem Shape.live (h : t.Shape given) : (t.nodes.map (·.1)).Nodup ∧
    ∀ i, i ∈ t.nodes.map (·.1) ↔ (t.node? i).isSome = true := by
  constructor
  · apply List.pairwise_map.mpr
    apply h.sorted.imp
    intro p q hlt he
    exact UInt64.lt_irrefl _ (he ▸ hlt)
  · intro i
    constructor
    · intro hi
      obtain ⟨p, hp, rfl⟩ := List.mem_map.mp hi
      exact Option.isSome_of_eq_some ((KeyedList.get?_eq_some_iff h.sorted).mpr hp)
    · intro hi
      obtain ⟨n, hn⟩ := Option.isSome_iff_exists.mp hi
      exact List.mem_map.mpr ⟨(i, n), KeyedList.mem_of_get? hn, rfl⟩

/-- There are no more nodes than numbers that were given out, beside the root. -/
theorem Shape.length_nodes_le (h : t.Shape given) (hzero : t.node? 0 = none) :
    t.nodes.length ≤ given + 1 := by
  obtain ⟨hnodup, hlive⟩ := h.live
  have hvalues : ((t.nodes.map (·.1)).map UInt64.toNat).Nodup :=
    hnodup.map fun _ _ he => UInt64.toNat_inj.mp he
  have hrange : ∀ v ∈ (t.nodes.map (·.1)).map UInt64.toNat, v ∈ List.range' 1 (given + 1) := by
    intro v hv
    obtain ⟨i, hi, rfl⟩ := List.mem_map.mp hv
    obtain ⟨n, hn⟩ := Option.isSome_iff_exists.mp ((hlive i).mp hi)
    have hbelow := h.below i n hn
    have hpositive : i.toNat ≠ 0 := by
      intro hi
      have hi : i = 0 := UInt64.toNat_inj.mp hi
      simp [hi, hzero] at hn
    simp only [List.mem_range'_1]
    omega
  simpa using hvalues.length_le_of_subset hrange

/-- Only files have blocks. -/
theorem Shape.sum_blocks (h : t.Shape given) (hollow : t.Hollow) :
    t.nodes.foldl (fun total p => total + p.2.attr.blocks.toNat) 0 * 512 = t.space := by
  have hnone : ∀ p ∈ t.nodes, p.2.isDir = true → p.2.attr.blocks.toNat = 0 := by
    intro p hp hdir
    have hdata := hollow p.1 p.2 ((KeyedList.get?_eq_some_iff h.sorted).mpr hp) hdir
    simp [h.toNat_blocks hp, hdata]
  have hfold : ∀ total, t.nodes.foldl (fun total p => total + p.2.attr.blocks.toNat) total * 512 =
      t.files.foldl (fun total n => total + n.space) (total * 512) := by
    unfold files
    generalize t.nodes = nodes at hnone
    induction nodes with
    | nil => simp
    | cons p nodes ih =>
      intro total
      have hrest := ih fun q hq => hnone q (List.mem_cons_of_mem p hq)
      rw [List.foldl_cons, hrest, Nat.add_mul, List.map_cons]
      by_cases hdir : p.2.isDir = true
      · have hp := hnone p List.mem_cons_self hdir
        simp [hdir, hp]
      · simp [hdir, Node.space]
  have hzero := hfold 0
  rwa [Nat.zero_mul] at hzero

/-- As many blocks as there can be for data in memory can be counted. -/
theorem Shape.blocks_statfs (h : t.Shape given) (hstored : t.stored < UInt64.size) :
    t.statfs.blocks.toNat = t.nodes.foldl (fun total p => total + p.2.attr.blocks.toNat) 0 := by
  have hle : t.nodes.foldl (fun total p => total + p.2.attr.blocks.toNat) 0 ≤ t.stored :=
    foldl_add_le (fun p hp => h.blocks_le hp) (Nat.le_refl 0)
  exact (toNat_foldl_add _ _).trans (Nat.mod_eq_of_lt (by omega))

/-- A block of the figures counts for a block of the attributes, which is an eighth of it. -/
theorem Shape.inUse_statfs (h : t.Shape given) (hollow : t.Hollow)
    (hstored : t.stored < UInt64.size) : t.statfs.inUse = 8 * t.space := by
  have hblocks : t.statfs.inUse = (t.statfs.blocks.toNat - 0) * 4096 := rfl
  rw [hblocks, h.blocks_statfs hstored, ← h.sum_blocks hollow]
  omega

/-- A file takes all blocks that its data begin. -/
theorem Shape.space_of_file (h : t.Shape given) {n : Node} (hn : n ∈ t.files) :
    n.data.length ≤ n.space ∧ n.space < n.data.length + 512 := by
  obtain ⟨p, hp, rfl⟩ := List.mem_map.mp (List.mem_of_mem_filter hn)
  unfold Node.space
  rw [h.toNat_blocks hp]
  omega

end Tree

/-! ## The law -/

/-- Whatever was asked of a file system in memory, the figures that it answers with say how
many nodes there are, and that no block is free. They count the blocks of all files as the
attributes do, by which a file takes the least number of times 512 bytes for its data; but they
tell a size of 4096 bytes for a block. So there are eight times as many bytes in use as the
files take, and it is only right that they were rounded up to the larger blocks if the files
take no more than 585 bytes on average. All data are in memory at one time, so there are fewer
bytes than a word can count. -/
theorem the_figures_tell_eight_times_the_space (clock : Nat → Timestamp) (owner : Owner)
    (requests : List (Request × Operation))
    (hmade : ((fresh clock owner).serveAll requests).2.length + 1 < UInt64.size) (r : Request)
    (ino : Inode) :
    let fs := ((fresh clock owner).serveAll requests).1
    ∃ st, (fs.handle r (.statfs ino)).2 = .reply (.statfs st) ∧
      st.bfree = 0 ∧ st.frsize = 4096 ∧
      (∃ live : List Inode, live.Nodup ∧ (∀ i, i ∈ live ↔ (fs.tree.node? i).isSome = true) ∧
        st.files.toNat = live.length) ∧
      (∀ n ∈ fs.tree.files, n.data.length ≤ n.space ∧ n.space < n.data.length + 512) ∧
      (fs.tree.stored < UInt64.size →
        st.blocks.toNat * 512 = fs.tree.space ∧ st.inUse = 8 * fs.tree.space ∧
        (fs.tree.ToldBy st ↔ 7 * fs.tree.space ≤ 4095 * fs.tree.files.length)) := by
  intro fs
  have h : fs.tree.Shape _ := shape_served clock owner requests hmade
  have hollow : fs.tree.Hollow := hollow_serveAll (Tree.hollow_root (clock 0) owner) requests
  have hzero : fs.tree.node? 0 = none := by
    have hfresh : (fresh clock owner).tree.Shape 0 := Tree.shape_root (clock 0) owner
    have hnothing : Holds (fresh clock owner).tree 0 0 .empty := holds_root (clock 0) owner 0
    have hholds := holds_serveAll requests hfresh hnothing (by omega)
    cases hn : fs.tree.node? 0 with
    | none => rfl
    | some n => exact absurd rfl (hholds.ne_zero hn)
  obtain ⟨hnodup, hlive⟩ := h.live
  have hcount : fs.tree.statfs.files.toNat = (fs.tree.nodes.map (·.1)).length := by
    have hlength := h.length_nodes_le hzero
    rw [List.length_map]
    exact UInt64.toNat_ofNat_of_lt' (by omega)
  refine ⟨fs.tree.statfs, rfl, rfl, rfl, ⟨_, hnodup, hlive, hcount⟩,
    fun n hn => h.space_of_file hn, fun hstored => ?_⟩
  have hspace := h.blocks_statfs hstored
  have hused := h.inUse_statfs hollow hstored
  refine ⟨by rw [hspace, h.sum_blocks hollow], hused, ?_⟩
  have hfrsize : fs.tree.statfs.frsize.toNat - 1 = 4095 := rfl
  unfold Tree.ToldBy
  rw [hused, hfrsize]
  omega

/-- After the moves there is one file, with three bytes: it takes one block of either size. -/
theorem a_small_file_is_told_as_it_is :
    afterMoves.1.tree.stored < UInt64.size ∧ afterMoves.1.tree.statfs.files = 4 ∧
      afterMoves.1.tree.space = 512 ∧ afterMoves.1.tree.ToldBy afterMoves.1.tree.statfs := by
  have hlaw := the_figures_tell_eight_times_the_space (fun _ => .epoch) ⟨0, 0⟩
    (moves.map fun op => (⟨0, 1, 0, 0, 0, op.kind, op.replyLimit⟩, op)) (by decide +kernel)
    ⟨0, 1, 0, 0, 0, .statfs, none⟩ rootInode
  have hstored : afterMoves.1.tree.stored < UInt64.size := by decide +kernel
  have hspace : afterMoves.1.tree.space = 512 := by decide +kernel
  have hfiles : afterMoves.1.tree.files.length = 1 := by decide +kernel
  obtain ⟨st, hst, -, -, -, -, htold⟩ := hlaw
  cases hst
  refine ⟨hstored, by decide +kernel, hspace, (htold hstored).2.2.mpr ?_⟩
  change 7 * afterMoves.1.tree.space ≤ 4095 * afterMoves.1.tree.files.length
  rw [hspace, hfiles]
  omega

/-- A file is made, and gets a length of 4096 bytes. -/
def lengthened : MemFs :=
  ((fresh (fun _ => .epoch) ⟨0, 0⟩).serveAll [
    (⟨0, 1, 0, 0, 0, .create, none⟩, .create rootInode [97] 0o644 0 0),
    (⟨0, 2, 0, 0, 0, .setattr, none⟩, .setattr 2 { size := some 4096 })]).1

/-- One block of 4096 bytes is told as eight. -/
theorem one_block_is_told_as_eight :
    lengthened.tree.space = 4096 ∧ lengthened.tree.statfs.inUse = 32768 ∧
      lengthened.tree.files.length = 1 ∧ ¬lengthened.tree.ToldBy lengthened.tree.statfs := by
  have hspace : lengthened.tree.space = 4096 := by decide +kernel
  have hused : lengthened.tree.statfs.inUse = 32768 := by decide +kernel
  have hfiles : lengthened.tree.files.length = 1 := by decide +kernel
  have hfrsize : lengthened.tree.statfs.frsize.toNat - 1 = 4095 := rfl
  refine ⟨hspace, hused, hfiles, ?_⟩
  unfold Tree.ToldBy
  rw [hspace, hused, hfiles, hfrsize]
  omega

end MemFs

end Fuse
