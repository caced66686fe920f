-- A rename moves one node. Once nothing stands in its way, the tree is the same but for the
-- node that moved, the one that gave way, and the two directories.
import Fuse.Proofs.MemFs.Obstacles

namespace Fuse.MemFs

namespace Tree

open Change

variable {t : Tree} {given : Nat} {parent newParent ino : Inode} {name newName : Name}

/-! ## The tree afterwards -/

theorem Alike.refl (n : Node) : Alike n n := rfl

theorem Alike.trans {n n' n'' : Node} (h : Alike n n') (h' : Alike n' n'') : Alike n n'' := by
  unfold Alike at *
  rw [h', h]

/-- A node that may have been changed. -/
theorem Alike.ite {n : Node} {f : Node → Node} (h : Alike n (f n)) (C : Prop) [Decidable C] :
    Alike n (if C then f n else n) := by
  split
  · exact h
  · exact .refl n

theorem node?_adjust_of {j i : Inode} {n : Node} (hn : t.node? i = some n) (f : Node → Node) :
    (t.adjust j f).node? i = some (if i = j then f n else n) := by
  rw [node?_adjust, hn]
  split <;> rfl

theorem kept_moved (now : Timestamp) {i : Inode} {n : Node} (hn : t.node? i = some n)
    (parent : Inode) (name : Name) (newParent : Inode) (newName : Name) (ino : Inode) (b : Bool) :
    ∃ n', (t.moved now parent name newParent newName ino b).node? i = some n' ∧ Alike n n' ∧
      (i ≠ parent → i ≠ newParent → n'.children = n.children) ∧
      (i ≠ parent → i ≠ newParent → i ≠ ino → n' = n) := by
  let left := if i = parent then withoutChild now name b n else n
  let come := if i = newParent then withChild now newName ino b left else left
  have hnode := node?_adjust_of (j := ino)
    (node?_adjust_of (j := newParent) (node?_adjust_of (j := parent) hn (withoutChild now name b))
      (withChild now newName ino b)) (placed now newParent)
  have hleft : Alike n left := Alike.ite (f := withoutChild now name b) rfl _
  have hcome : Alike left come := Alike.ite (f := withChild now newName ino b) rfl _
  have hplaced : Alike come (if i = ino then placed now newParent come else come) :=
    Alike.ite (f := placed now newParent) rfl _
  have hsame (hp : i ≠ parent) (hq : i ≠ newParent) : come = n := by
    show (if i = newParent then _ else left) = n
    rw [if_neg hq]
    exact if_neg hp
  refine ⟨_, hnode, (hleft.trans hcome).trans hplaced, fun hp hq => ?_, fun hp hq hi => ?_⟩
  · show (if i = ino then placed now newParent come else come).children = _
    rw [hsame hp hq]
    split <;> rfl
  · rw [if_neg hi]
    exact hsame hp hq

theorem kept_cleared {now : Timestamp} {b : Bool} {u : Tree} {i : Inode} {n : Node}
    (hc : Cleared now newParent newName ino b t u) (hn : t.node? i = some n)
    (hi : ¬t.HasEntry newParent newName i) :
    ∃ n', u.node? i = some n' ∧ Alike n n' ∧ (i ≠ newParent → n' = n) := by
  cases hc with
  | free => exact ⟨n, hn, .refl n, fun _ => rfl⟩
  | @replaced target m he =>
    have hne : i ≠ target := by
      rintro rfl
      exact hi he
    have hdrop : (t.drop target).node? i = some n := by rw [node?_drop, if_neg hne, hn]
    exact ⟨_, node?_adjust_of hdrop _, Alike.ite (f := withoutChild now newName b) rfl _,
      fun hq => if_neg hq⟩

theorem isSome_moved (now : Timestamp) (parent : Inode) (name : Name) (newParent : Inode)
    (newName : Name) (ino : Inode) (b : Bool) (t : Tree) (i : Inode) :
    ((t.moved now parent name newParent newName ino b).node? i).isSome =
      (t.node? i).isSome := by
  unfold Tree.moved
  rw [isSome_adjust, isSome_adjust, isSome_adjust]

/-- Only what stood in the place is gone. -/
theorem isSome_cleared {now : Timestamp} {b : Bool} {u : Tree}
    (hc : Cleared now newParent newName ino b t u) (i : Inode) :
    (u.node? i).isSome = true ↔ (t.node? i).isSome = true ∧ ¬t.HasEntry newParent newName i := by
  cases hc with
  | @free d hd hn =>
    refine ⟨fun hi => ⟨hi, fun he => ?_⟩, fun h => h.1⟩
    rw [hasEntry_iff, target?_eq hd, hn] at he
    cases he
  | @replaced target m he =>
    rw [isSome_adjust, node?_drop]
    by_cases hi : i = target
    · rw [if_pos hi]
      exact ⟨nofun, fun h => absurd (hi ▸ he) h.2⟩
    · rw [if_neg hi]
      exact ⟨fun h => ⟨h, fun he' => hi (he.unique he')⟩, fun h => h.1⟩

theorem target?_cleared {now : Timestamp} {b : Bool} {u : Tree} (h : t.Shape given)
    (hc : Cleared now newParent newName ino b t u) {dir : Inode} {x : Name}
    (hx : (dir, x) ≠ (newParent, newName)) : u.target? dir x = t.target? dir x := by
  cases hc with
  | free => rfl
  | @replaced target m he hm hne hk hempty =>
    have hbare := h.bare hm fun hd => hempty (hk.symm.trans hd)
    have hother : ¬(dir = newParent ∧ x = newName) := fun ⟨hd, hn⟩ => hx (hd ▸ hn ▸ rfl)
    rw [target?_withoutChild, if_neg hother, target?_drop]
    split
    · rename_i hdir
      rw [hdir, target?_childless hm hbare]
    · rfl

theorem renamed {now : Timestamp} {n : Node} {u : Tree} (h : t.Shape given)
    (hino : t.HasEntry parent name ino) (hnew : ¬t.HasEntry newParent newName ino)
    (hn : t.node? ino = some n) (hplace : t.isDirectory newParent = true)
    (hout : n.isDir = true → t.climb ino (t.nodes.length + 1) newParent = some (.ok false))
    (hc : Cleared now newParent newName ino n.isDir t u) :
    Renamed t (u.moved now parent name newParent newName ino n.isDir)
      parent name newParent newName ino := by
  have hroot := (h.hangs.entry (hasEntry_iff.mp hino)).1
  have c := h.climbs_place hn hroot hplace fun hd => ⟨_, hout hd⟩
  obtain ⟨hu, -, -, -, e, he, -, -⟩ := h.cleared hino hn hplace c hc
  have htarget := target?_moved now he parent name newName ino n.isDir
  have hthere (i : Inode) :
      ((u.moved now parent name newParent newName ino n.isDir).node? i).isSome = true ↔
        (t.node? i).isSome = true ∧ ¬t.HasEntry newParent newName i := by
    rw [isSome_moved]
    exact isSome_cleared hc i
  have hdiffer : (parent, name) ≠ (newParent, newName) := by
    rintro ⟨⟩
    exact hnew hino
  refine ⟨?_, fun j => ?_, fun dir x j hfrom hto => ?_, fun other ho => ?_, fun i m hm hi => ?_,
    fun i hi => ?_⟩
  · rw [hasEntry_iff, htarget, if_pos ⟨rfl, rfl⟩]
  · rw [hasEntry_iff, htarget, if_neg fun ⟨hp, hn⟩ => hdiffer (hp ▸ hn ▸ rfl), if_pos ⟨rfl, rfl⟩]
    exact nofun
  · rw [hasEntry_iff, hasEntry_iff, htarget, if_neg fun ⟨hp, hn⟩ => hto (hp ▸ hn ▸ rfl),
      if_neg fun ⟨hp, hn⟩ => hfrom (hp ▸ hn ▸ rfl), target?_cleared h hc hto]
  · rw [← Option.not_isSome_iff_eq_none, hthere]
    exact fun h => h.2 ho
  · obtain ⟨m₁, hm₁, ha₁, hsame₁⟩ := kept_cleared hc hm hi
    obtain ⟨m₂, hm₂, ha₂, hchildren, hsame₂⟩ :=
      kept_moved now hm₁ parent name newParent newName ino n.isDir
    refine ⟨m₂, hm₂, ha₁.trans ha₂, fun hp hq => ?_, fun hp hq hi => ?_⟩
    · rw [hchildren hp hq, hsame₁ hq]
    · rw [hsame₂ hp hq hi, hsame₁ hq]
  · rw [← Option.not_isSome_iff_eq_none, hthere, hi]
    exact fun h => Bool.noConfusion h.1

end Tree

/-! ## Answers -/

variable {fs : MemFs} {α : Type} {change : Timestamp → Change α} {obs : List (Prop × Errno)}
  {P : Timestamp → α → Tree → Prop}

/-- What comes of a change with obstacles. -/
theorem answering_faces (reply : α → Reply)
    (h : ∀ now, (change now).Faces fs.tree obs (P now)) :
    (∃ e, First obs e ∧ (fs.answering change reply).2 = .error e) ∨
      (∀ o ∈ obs, ¬o.1) ∧ ∃ now a, (fs.answering change reply).2 = .reply (reply a) ∧
        P now a (fs.answering change reply).1.tree := by
  rcases h (fs.clock fs.readings) with ⟨e, he, hon⟩ | ⟨hnone, a, t', ha, hp⟩
  · rw [answering_eq, hon]
    exact Or.inl ⟨e, he, rfl⟩
  · rw [answering_eq, ha]
    exact Or.inr ⟨hnone, fs.clock fs.readings, a, rfl, hp⟩

/-- The error is that of the first obstacle. -/
theorem error_iff_first (reply : α → Reply) (hr : ∀ a, (reply a).shape ≠ .error)
    (h : ∀ now, (change now).Faces fs.tree obs (P now)) (e : Errno) :
    (fs.answering change reply).2 = .error e ↔ First obs e := by
  rcases answering_faces reply h with ⟨e', he', hon⟩ | ⟨hnone, now, a, ha, -⟩
  · rw [hon]
    constructor
    · rintro ⟨⟩
      exact he'
    · intro he
      rw [he.unique he']
  · rw [ha]
    constructor
    · intro he
      have hreply : reply a = .error e := by
        injection he with _ huse
        injection huse with huse
        injection huse
      exact absurd (congrArg Reply.shape hreply) (hr a)
    · intro he
      obtain ⟨o, ho, hp⟩ := he.exists_mem
      exact absurd hp (hnone o ho)

/-! ## The law -/

/-- Whatever was asked of a file system in memory before, a rename fails with the number of
the first obstacle that is there: flags that it does not know, what a lookup of the old name
would say, a new place that is no directory, a directory that would get below itself, or a
node with the new name that must not be replaced. When none is there it succeeds. Then there
is nothing to do if the new name leads to the node already; otherwise the node has the new
name and not the old one, what had the new name is gone, all other names lead where they led,
and no node changes but for its place, its children, its links and its times. -/
theorem a_rename_moves_one_node (clock : Nat → Timestamp) (owner : Owner)
    (requests : List (Request × Operation))
    (hmade : ((fresh clock owner).serveAll requests).2.length + 1 < UInt64.size)
    (r : Request) (parent : Inode) (name : Name) (newParent : Inode) (newName : Name)
    (flags : UInt32) :
    let fs := ((fresh clock owner).serveAll requests).1
    let obstacles := fs.tree.obstacles parent name newParent newName flags
    let result := fs.handle r (.rename parent name newParent newName flags)
    (∀ e, result.2 = .error e ↔ First obstacles e) ∧
    (∀ e, (fs.handle r (.lookup parent name)).2 = .error e ↔
      First (fs.tree.unfound parent name) e) ∧
    ((∀ e, ¬First obstacles e) → result.2 = .reply .empty ∧
      ∃ ino, fs.tree.HasEntry parent name ino ∧
        (fs.tree.HasEntry newParent newName ino ∧ result.1.tree = fs.tree ∨
          ¬fs.tree.HasEntry newParent newName ino ∧
            fs.tree.Renamed result.1.tree parent name newParent newName ino)) ∧
    (∀ ino, fs.tree.HasEntry parent name ino → fs.tree.HasEntry newParent newName ino →
      flags = 0 → result.2 = .reply .empty ∧ result.1.tree = fs.tree) := by
  intro fs obstacles result
  have hfresh : (fresh clock owner).tree.Shape 0 := Tree.shape_root (clock 0) owner
  obtain ⟨h, -⟩ := shape_serveAll requests hfresh (by omega)
  have hfaces (now : Timestamp) := Tree.faces_rename now h parent name newParent newName flags
  have hlookup (_ : Timestamp) := Tree.faces_lookup h parent name
  have hresult := answering_faces (fun _ => .empty) hfaces
  refine ⟨error_iff_first (fun _ => .empty) (fun _ => nofun) hfaces,
    error_iff_first (fun a => .entry (entryOf a)) (fun _ => nofun) hlookup, fun hclear => ?_,
    fun ino hino hino' hflags => ?_⟩
  · rcases hresult with
      ⟨e, he, -⟩ | ⟨-, now, _, hreply, ino, hino, hsame | ⟨hnew, n, u, hn, hplace, hout, hc, ht⟩⟩
    · exact absurd he (hclear e)
    · exact ⟨hreply, ino, hino, Or.inl hsame⟩
    · refine ⟨hreply, ino, hino, Or.inr ⟨hnew, ?_⟩⟩
      have hrenamed := Tree.renamed h hino hnew hn hplace hout hc
      rw [← ht] at hrenamed
      exact hrenamed
  · subst hflags
    rcases hresult with ⟨e, he, -⟩ | ⟨-, now, _, hreply, j, hj, ⟨-, ht⟩ | ⟨hnew, -⟩⟩
    · obtain ⟨o, ho, hp⟩ := he.exists_mem
      exact absurd hp (Tree.clear_of_same h hino hino' o ho)
    · exact ⟨hreply, ht⟩
    · obtain rfl := hino.unique hj
      exact absurd hino' hnew

/-- A rename of what is there after the moves. -/
def tryRename (parent : Inode) (name : Name) (newParent : Inode) (newName : Name) :
    MemFs × Outcome :=
  afterMoves.1.handle ⟨0, 1, 0, 0, 0, .rename, none⟩ (.rename parent name newParent newName 0)

/-- After the moves, the directory 3 must not get below itself, the file 6 can be moved to
the root, and its own name changes nothing. -/
theorem one_rename_is_refused_and_two_succeed :
    First (afterMoves.1.tree.obstacles rootInode [99] 2 [120] 0) .einval ∧
      (∃ ino, afterMoves.1.tree.HasEntry 2 [100] ino ∧
        afterMoves.1.tree.Renamed (tryRename 2 [100] rootInode [122]).1.tree
          2 [100] rootInode [122] ino) ∧
      (tryRename 2 [100] 2 [100]).1.tree = afterMoves.1.tree := by
  have hlaw := a_rename_moves_one_node (fun _ => .epoch) ⟨0, 0⟩
    (moves.map fun op => (⟨0, 1, 0, 0, 0, op.kind, op.replyLimit⟩, op)) (by decide +kernel)
    ⟨0, 1, 0, 0, 0, .rename, none⟩
  have hnamed : afterMoves.1.tree.HasEntry 2 [100] 6 :=
    Tree.hasEntry_iff.mpr (by decide +kernel)
  have hfree : afterMoves.1.tree.target? rootInode [122] = none := by decide +kernel
  have hreply : (tryRename 2 [100] rootInode [122]).2 = .reply .empty := by decide +kernel
  obtain ⟨hrefused, -⟩ := hlaw rootInode [99] 2 [120] 0
  obtain ⟨herror, -, hmoves, -⟩ := hlaw 2 [100] rootInode [122] 0
  obtain ⟨-, -, -, hsame⟩ := hlaw 2 [100] 2 [100] 0
  refine ⟨(hrefused .einval).mp (by decide +kernel), ?_, (hsame 6 hnamed hnamed rfl).2⟩
  have hclear (e : Errno) : ¬First (afterMoves.1.tree.obstacles 2 [100] rootInode [122] 0) e := by
    intro he
    have hfails : (tryRename 2 [100] rootInode [122]).2 = .error e := (herror e).mpr he
    rw [hreply] at hfails
    cases hfails
  obtain ⟨-, ino, hino, ⟨hnew, -⟩ | ⟨-, hrenamed⟩⟩ := hmoves hclear
  · have hnew : afterMoves.1.tree.target? rootInode [122] = some ino := Tree.hasEntry_iff.mp hnew
    rw [hfree] at hnew
    cases hnew
  · exact ⟨ino, hino, hrenamed⟩

end Fuse.MemFs
