-- How the climb from a node to the root ends. The nodes on the way are all different, so
-- the climb ends before it has taken more steps than there are nodes, and it meets exactly
-- the nodes that the one where it began stands within.
import Fuse.MemFs.Renaming
import Fuse.Proofs.MemFs.Figures

namespace Fuse.MemFs.Tree

variable {t : Tree} {ino cursor : Inode} {path : List Inode}

/-! ## The way to the root -/

/-- The nodes on the way from a node to the root, without the root. -/
inductive Ascent (t : Tree) : Inode → List Inode → Prop
  | root : Ascent t rootInode []
  | up {ino : Inode} {n : Node} {path : List Inode} (h : t.node? ino = some n)
      (hne : ino ≠ rootInode) (a : Ascent t n.parent path) : Ascent t ino (ino :: path)

namespace Ascent

theorem of_climbs {past : List Inode} (c : t.Climbs past ino) : ∃ path, t.Ascent ino path := by
  induction c with
  | root => exact ⟨[], .root⟩
  | @up i n hn _ _ ih =>
    obtain ⟨path, hpath⟩ := ih
    by_cases hroot : i = rootInode
    · rw [hroot]
      exact ⟨[], .root⟩
    · exact ⟨i :: path, .up hn hroot hpath⟩

/-- There is one way. -/
theorem unique {path' : List Inode} (a : t.Ascent ino path) (a' : t.Ascent ino path') :
    path' = path := by
  induction a generalizing path' with
  | root =>
    cases a' with
    | root => rfl
    | up _ hne _ => exact absurd rfl hne
  | up hn hne _ ih =>
    cases a' with
    | root => exact absurd rfl hne
    | up hn' _ a' =>
      rw [hn] at hn'
      cases hn'
      rw [ih a']

/-- From each node on the way it is no longer. -/
theorem of_mem (a : t.Ascent ino path) {i : Inode} (hi : i ∈ path) :
    ∃ rest, t.Ascent i rest ∧ rest.length ≤ path.length := by
  induction a with
  | root => cases hi
  | @up j n path hn hne a ih =>
    rcases List.mem_cons.mp hi with rfl | hi
    · exact ⟨_, .up hn hne a, Nat.le_refl _⟩
    · obtain ⟨rest, hrest, hle⟩ := ih hi
      exact ⟨rest, hrest, Nat.le_trans hle (Nat.le_succ _)⟩

/-- No node is met twice. -/
theorem nodup (a : t.Ascent ino path) : path.Nodup := by
  induction a with
  | root => exact List.nodup_nil
  | @up i n path hn hne a ih =>
    refine List.nodup_cons.mpr ⟨fun hmem => ?_, ih⟩
    obtain ⟨rest, hrest, hle⟩ := a.of_mem hmem
    rw [(Ascent.up hn hne a).unique hrest] at hle
    exact absurd hle (Nat.not_succ_le_self _)

theorem mem_nodes (a : t.Ascent ino path) {i : Inode} (hi : i ∈ path) :
    i ∈ t.nodes.map (·.1) := by
  induction a with
  | root => cases hi
  | up hn _ _ ih =>
    rcases List.mem_cons.mp hi with rfl | hi
    · exact List.mem_map.mpr ⟨_, KeyedList.mem_of_get? hn, rfl⟩
    · exact ih hi

theorem length_le (a : t.Ascent ino path) : path.length ≤ t.nodes.length := by
  have hle := a.nodup.length_le_of_subset fun _ hi => a.mem_nodes hi
  rwa [List.length_map] at hle

/-- A climb with enough steps finds out whether a node is on the way. -/
theorem climb_eq (a : t.Ascent cursor path) {steps : Nat} (hs : path.length < steps) :
    t.climb ino steps cursor = some (.ok (decide (ino ∈ path))) := by
  induction a generalizing steps with
  | root =>
    obtain ⟨steps, rfl⟩ := Nat.exists_eq_succ_of_ne_zero (Nat.ne_of_gt hs)
    rw [climb, if_pos rfl]
    rfl
  | @up i n path hn hne a ih =>
    obtain ⟨steps, rfl⟩ := Nat.exists_eq_succ_of_ne_zero (Nat.ne_of_gt (Nat.zero_lt_of_lt hs))
    rw [climb, if_neg hne]
    by_cases hi : i = ino
    · rw [if_pos hi, decide_eq_true (List.mem_cons.mpr (Or.inl hi.symm))]
    · rw [if_neg hi, hn]
      have hmem : (ino ∈ i :: path) = (ino ∈ path) :=
        propext ⟨fun h => (List.mem_cons.mp h).resolve_left (Ne.symm hi), List.mem_cons_of_mem i⟩
      simp only [hmem]
      exact ih (Nat.lt_of_succ_lt_succ hs)

end Ascent

/-! ## What a node stands within -/

theorem Hangs.within_iff (h : t.Hangs) (hroot : ino ≠ rootInode) (a : t.Ascent cursor path) :
    t.Within ino cursor ↔ ino ∈ path := by
  induction a with
  | root =>
    refine ⟨fun w => ?_, nofun⟩
    cases w with
    | self => exact absurd rfl hroot
    | inner he => exact absurd rfl (h.entry (hasEntry_iff.mp he)).1
  | @up i n path hn hne a ih =>
    obtain ⟨name, hname⟩ := h.placed (stand?_eq_some hn) hne
    rw [List.mem_cons, ← ih]
    constructor
    · intro w
      cases w with
      | self => exact Or.inl rfl
      | inner he w =>
        obtain ⟨rfl, -⟩ := h.entry_unique hname (hasEntry_iff.mp he)
        exact Or.inr w
    · rintro (rfl | w)
      · exact .self
      · exact .inner (hasEntry_iff.mpr hname) w

/-- No node stands within its children. -/
theorem Hangs.not_within_child {dir : Inode} {name : Name} (h : t.Hangs)
    (he : t.HasEntry dir name ino) : ¬t.Within ino dir := by
  obtain ⟨hroot, b, hb⟩ := h.entry (hasEntry_iff.mp he)
  obtain ⟨n, hn, rfl, -⟩ := node?_of_stand? hb
  obtain ⟨path, a⟩ := Ascent.of_climbs (h.climbs (stand?_eq_some hn))
  cases a with
  | root => exact absurd rfl hroot
  | up hn' hne a =>
    rw [hn] at hn'
    cases hn'
    rw [h.within_iff hroot a]
    exact (List.nodup_cons.mp (Ascent.up hn hne a).nodup).1

/-- The climb from a node that is there always ends, and says whether the node stands
within the other. -/
theorem Hangs.climb_eq (h : t.Hangs) (hroot : ino ≠ rootInode)
    (hc : (t.node? cursor).isSome = true) :
    ∃ b, t.climb ino (t.nodes.length + 1) cursor = some (.ok b) ∧
      (b = true ↔ t.Within ino cursor) := by
  obtain ⟨n, hn⟩ := Option.isSome_iff_exists.mp hc
  obtain ⟨path, a⟩ := Ascent.of_climbs (h.climbs (stand?_eq_some hn))
  refine ⟨_, a.climb_eq (Nat.lt_succ_of_le a.length_le), ?_⟩
  rw [h.within_iff hroot a, decide_eq_true_iff]

end Fuse.MemFs.Tree
