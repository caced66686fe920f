-- The walk by which a rename finds out that a directory would get below itself. Its number of
-- steps is bounded by nothing but the tree: all nodes on the way are directories, no two of
-- them are the same, and the root is none of them.
import Fuse.Proofs.MemFs.Renaming

namespace Fuse.MemFs

namespace Tree

variable {t : Tree} {given : Nat} {ino sought cursor parent newParent : Inode}
  {name newName : Name} {path : List Inode} {steps : Nat} {result : Except Errno Bool}

/-! ## Walks -/

/-- A walk ends in one way. -/
theorem Walks.unique {steps' : Nat} {result' : Except Errno Bool}
    (w : t.Walks sought cursor steps result) (w' : t.Walks sought cursor steps' result') :
    steps' = steps ∧ result' = result := by
  induction w generalizing steps' with
  | atRoot => cases w' <;> simp_all
  | met hr => cases w' <;> simp_all
  | lost hr hs hn => cases w' <;> simp_all
  | up hr hs hn w ih =>
    cases w' with
    | atRoot => exact absurd rfl hr
    | met => exact absurd rfl hs
    | lost _ _ hn' => simp [hn] at hn'
    | up _ _ hn' w' =>
      rw [hn] at hn'
      cases hn'
      obtain ⟨rfl, rfl⟩ := ih w'
      exact ⟨rfl, rfl⟩

/-- A climb has an answer just if the walk ends before the climb has taken all of its steps,
and it is the answer of the walk. -/
theorem climb_eq_some_iff {limit : Nat} :
    t.climb sought limit cursor = some result ↔
      ∃ steps < limit, t.Walks sought cursor steps result := by
  induction limit generalizing cursor with
  | zero => simp [climb]
  | succ limit ih =>
    unfold climb
    constructor
    · intro h
      split at h
      · rename_i hroot
        subst hroot
        cases h
        exact ⟨0, Nat.succ_pos limit, .atRoot⟩
      rename_i hroot
      split at h
      · rename_i hmet
        subst hmet
        cases h
        exact ⟨0, Nat.succ_pos limit, .met hroot⟩
      rename_i hmet
      split at h
      · rename_i n hn
        obtain ⟨steps, hsteps, w⟩ := ih.mp h
        exact ⟨steps + 1, by omega, .up hroot hmet hn w⟩
      · rename_i hn
        cases h
        exact ⟨0, Nat.succ_pos limit, .lost hroot hmet hn⟩
    · rintro ⟨steps, hsteps, w⟩
      cases w with
      | atRoot => simp
      | met hr => simp [hr]
      | lost hr hs hn => simp [hr, hs, hn]
      | up hr hs hn w =>
        rw [if_neg hr, if_neg hs, hn]
        exact ih.mpr ⟨_, by omega, w⟩

/-! ## Directories on the way -/

/-- What has a child is a directory. -/
theorem Shape.isDirectory_of_entry (h : t.Shape given) (he : t.HasEntry parent name ino) :
    t.isDirectory parent = true := by
  obtain ⟨d, hd, hget⟩ := he
  rw [isDirectory_of_node hd]
  exact h.isDir_of_child hd hget

/-- From a directory on, there are only directories on the way to the root. -/
theorem Ascent.isDirectory (h : t.Shape given) (a : t.Ascent cursor path)
    (hdir : t.isDirectory cursor = true) :
    ∀ i ∈ path, t.isDirectory i = true ∧ i ≠ rootInode := by
  induction a with
  | root => simp
  | @up i n path hn hne a ih =>
    obtain ⟨name, hname⟩ := h.hangs.placed (stand?_eq_some hn) hne
    have hparent := h.isDirectory_of_entry (hasEntry_iff.mpr hname)
    intro j hj
    rcases List.mem_cons.mp hj with rfl | hj
    · exact ⟨hdir, hne⟩
    · exact ih hparent j hj

theorem Hangs.isDirectory_root (h : t.Hangs) : t.isDirectory rootInode = true := by
  rw [isDirectory_eq, h.root]
  rfl

/-- The way from a directory to the root is shorter than the list of directories. -/
theorem Ascent.length_lt (h : t.Shape given) (a : t.Ascent cursor path)
    (hdir : t.isDirectory cursor = true) : path.length < t.directories := by
  have hway := a.isDirectory h hdir
  let dirs := (t.nodes.filter fun p => p.2.isDir).map (·.1)
  have hmem (i : Inode) (hi : t.isDirectory i = true) : i ∈ dirs := by
    obtain ⟨d, hd, hd'⟩ := node_of_isDirectory hi
    exact List.mem_map.mpr ⟨(i, d), List.mem_filter.mpr ⟨KeyedList.mem_of_get? hd, hd'⟩, rfl⟩
  have hnodup : (rootInode :: path).Nodup :=
    List.nodup_cons.mpr ⟨fun hroot => (hway _ hroot).2 rfl, a.nodup⟩
  have hsubset : ∀ i ∈ rootInode :: path, i ∈ dirs := by
    intro i hi
    rcases List.mem_cons.mp hi with rfl | hi
    · exact hmem _ h.hangs.isDirectory_root
    · exact hmem i (hway i hi).1
  have hle := hnodup.length_le_of_subset hsubset
  simp only [List.length_cons, dirs, List.length_map, ← List.countP_eq_length_filter] at hle
  exact hle

/-- From a directory the walk ends before it has taken as many steps as there are
directories. It meets no number that no node has, and tells whether the directory stands
within the node that is sought. -/
theorem Shape.walks (h : t.Shape given) (hroot : ino ≠ rootInode)
    (hplace : t.isDirectory newParent = true) :
    ∃ steps < t.directories, ∃ within, (within = true ↔ t.Within ino newParent) ∧
      t.Walks ino newParent steps (.ok within) := by
  obtain ⟨d, hd, -⟩ := node_of_isDirectory hplace
  obtain ⟨path, a⟩ := Ascent.of_climbs (h.hangs.climbs (stand?_eq_some hd))
  have hclimb : t.climb ino (path.length + 1) newParent = some (.ok (decide (ino ∈ path))) :=
    a.climb_eq (Nat.lt_succ_self path.length)
  obtain ⟨steps, hsteps, w⟩ := climb_eq_some_iff.mp hclimb
  have hshort := a.length_lt h hplace
  refine ⟨steps, by omega, _, ?_, w⟩
  rw [decide_eq_true_iff, h.hangs.within_iff hroot a]

/-! ## What a rename makes of it -/

/-- Where there is a directory to be moved and one to move it to, a rename is refused as
invalid just if the one would get below itself. -/
theorem Shape.first_einval_iff {flags : UInt32} (h : t.Shape given)
    (hentry : t.HasEntry parent name ino) (hdir : t.isDirectory ino = true)
    (hplace : t.isDirectory newParent = true) (hflags : flags &&& ~~~renameNoreplace = 0) :
    First (t.obstacles parent name newParent newName flags) .einval ↔
      t.Within ino newParent := by
  have hknown : ¬(flags ≠ 0 ∧ flags ≠ renameNoreplace) := fun hforeign =>
    (foreign_flags_iff flags).mpr hforeign hflags
  have husable {dir : Inode} (hd : t.isDirectory dir = true) : ∀ o ∈ t.unusable dir, ¬o.1 := by
    obtain ⟨d, hn, -⟩ := node_of_isDirectory hd
    simp [unusable, hn, hd]
  constructor
  · intro hfirst
    obtain ⟨p, hmem, hp⟩ := hfirst.exists_condition
    -- All other obstacles are told by other numbers.
    have hnumbers : Errno.einval ≠ .enoent ∧ Errno.einval ≠ .enotdir ∧ Errno.einval ≠ .eexist ∧
        Errno.einval ≠ .eisdir ∧ Errno.einval ≠ .enotempty := by decide
    simp only [obstacles, unfound, unusable, hindrances, List.mem_cons, List.mem_append,
      List.not_mem_nil, Prod.mk.injEq, hnumbers, and_false, false_or, or_false, and_true] at hmem
    rcases hmem with rfl | rfl
    · exact absurd hp hknown
    · obtain ⟨i, hi, -, hwithin⟩ := hp
      rwa [hentry.unique hi] at hwithin
  · intro hwithin
    refine .later hknown (.append_right ?_ (.append_right (husable hplace) (.here ?_)))
    · have hfound := husable (h.isDirectory_of_entry hentry)
      simp only [unfound, List.forall_mem_append, List.forall_mem_singleton]
      exact ⟨hfound, fun hnone => hnone ino hentry⟩
    · exact ⟨ino, hentry, hdir, hwithin⟩

end Tree

/-! ## The law -/

/-- Whatever was asked of a file system in memory before: let a directory have a place in one
directory, and go up from another directory, or the same, in search of it. The walk ends in
one way, and it ends before it has taken as many steps as there are directories. It never
meets a number that no node has, and it says whether the directory where it began is the one
that is sought, or stands below it. A climb with so many steps or more gives that answer, and
a rename into the directory where the walk began, under whatever name, is refused as invalid
just then. -/
theorem the_walk_to_the_root_ends_and_decides (clock : Nat → Timestamp) (owner : Owner)
    (requests : List (Request × Operation))
    (hmade : ((fresh clock owner).serveAll requests).2.length + 1 < UInt64.size) :
    let fs := ((fresh clock owner).serveAll requests).1
    ∀ parent name ino newParent, fs.tree.HasEntry parent name ino →
      fs.tree.isDirectory ino = true → fs.tree.isDirectory newParent = true →
      ∃ steps < fs.tree.directories, ∃ within : Bool,
        (within = true ↔ fs.tree.Within ino newParent) ∧
        (∀ count result, fs.tree.Walks ino newParent count result ↔
          count = steps ∧ result = .ok within) ∧
        (∀ limit, fs.tree.directories ≤ limit →
          fs.tree.climb ino limit newParent = some (.ok within)) ∧
        ∀ r newName flags, flags &&& ~~~Tree.renameNoreplace = 0 →
          ((fs.handle r (.rename parent name newParent newName flags)).2 = .error .einval ↔
            within = true) := by
  intro fs parent name ino newParent hentry hdir hplace
  have h : fs.tree.Shape _ := shape_served clock owner requests hmade
  have hroot := (h.hangs.entry (Tree.hasEntry_iff.mp hentry)).1
  obtain ⟨steps, hsteps, within, hwithin, w⟩ := h.walks hroot hplace
  refine ⟨steps, hsteps, within, hwithin, fun count result => ⟨w.unique, ?_⟩, fun limit hl => ?_,
    fun r newName flags hflags => ?_⟩
  · rintro ⟨rfl, rfl⟩
    exact w
  · exact Tree.climb_eq_some_iff.mpr ⟨steps, Nat.lt_of_lt_of_le hsteps hl, w⟩
  · have hfaces (now : Timestamp) :=
      Tree.faces_rename now h parent name newParent newName flags
    have hinvalid : First (fs.tree.obstacles parent name newParent newName flags) .einval ↔
        fs.tree.Within ino newParent :=
      h.first_einval_iff hentry hdir hplace hflags
    rw [hwithin, ← hinvalid]
    exact error_iff_first (fun _ => .empty) (fun _ => nofun) hfaces .einval

/-- After the moves there are three directories, each within the one before. The walk from
the innermost one finds the one above it after one step, and that one cannot move there. -/
theorem the_walk_finds_the_directory_above :
    (afterMoves.1.tree.HasEntry rootInode [99] 3 ∧ afterMoves.1.tree.isDirectory 3 = true ∧
      afterMoves.1.tree.isDirectory 2 = true) ∧ afterMoves.1.tree.directories = 3 ∧
      afterMoves.1.tree.Walks 3 2 1 (.ok true) ∧ afterMoves.1.tree.Within 3 2 ∧
      (tryRename rootInode [99] 2 [120]).2 = .error .einval := by
  have hlaw := the_walk_to_the_root_ends_and_decides (fun _ => .epoch) ⟨0, 0⟩
    (moves.map fun op => (⟨0, 1, 0, 0, 0, op.kind, op.replyLimit⟩, op)) (by decide +kernel)
    rootInode [99] 3 2
  have hentry : afterMoves.1.tree.HasEntry rootInode [99] 3 :=
    Tree.hasEntry_iff.mpr (by decide +kernel)
  have hdir : afterMoves.1.tree.isDirectory 3 = true := by decide +kernel
  have hplace : afterMoves.1.tree.isDirectory 2 = true := by decide +kernel
  have hcount : afterMoves.1.tree.directories = 3 := by decide +kernel
  have hwalk : afterMoves.1.tree.Walks 3 2 1 (.ok true) := by
    have hparent : (afterMoves.1.tree.node? 2).map (·.parent) = some 3 := by decide +kernel
    obtain ⟨n, hn, hparent⟩ := Option.map_eq_some_iff.mp hparent
    refine .up (by decide) (by decide) hn ?_
    rw [hparent]
    exact .met (by decide)
  obtain ⟨steps, -, within, hwithin, hwalks, -, hrename⟩ := hlaw hentry hdir hplace
  obtain ⟨-, hfound⟩ := (hwalks 1 (.ok true)).mp hwalk
  cases hfound
  exact ⟨⟨hentry, hdir, hplace⟩, hcount, hwalk, hwithin.mp rfl,
    (hrename _ [120] 0 (by decide)).mpr rfl⟩

end Fuse.MemFs
