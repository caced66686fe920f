-- Whatever is asked of a file system in memory, its nodes form a tree with the right
-- figures, and no number is given out twice. A request that makes no node keeps the
-- shape, and one that makes a node gives it the next number.
import Fuse.Proofs.MemFs.Figures

namespace Fuse.MemFs

namespace Tree

variable {t : Tree} {given : Nat}

/-! ## What looks at a tree -/

theorem looks_lookup (parent : Inode) (name : Name) (t : Tree) :
    (lookup parent name).Looks t fun a => ∃ ino n, t.HasEntry parent name ino ∧
      t.node? ino = some n ∧ a = n.attr := by
  unfold lookup
  apply (looks_child parent name t).bind
  rintro ino ⟨d, hd, -, hino⟩
  apply (looks_node ino t).bind
  intro n hn
  exact Change.looks_pure ⟨ino, n, ⟨d, hd, hino⟩, hn, rfl⟩

theorem looks_getattr (ino : Inode) (t : Tree) :
    (getattr ino).Looks t fun a => ∃ n, t.node? ino = some n ∧ a = n.attr := by
  unfold getattr
  apply (looks_node ino t).bind
  intro n hn
  exact Change.looks_pure ⟨n, hn, rfl⟩

theorem looks_read (ino : Inode) (offset : UInt64) (size : UInt32) (t : Tree) :
    (read ino offset size).Looks t fun data =>
      ∃ n, t.node? ino = some n ∧ data = (n.data.drop offset.toNat).take size.toNat := by
  unfold read
  apply (looks_file ino t).bind
  rintro n ⟨hn, -⟩
  exact Change.looks_pure ⟨n, hn, rfl⟩

/-- Looks at one thing after another. -/
theorem looks_mapM {α β : Type} {f : α → Change β} (h : ∀ a, (f a).Looks t fun _ => True)
    (l : List α) : (l.mapM f).Looks t fun _ => True := by
  induction l with
  | nil => exact Change.looks_pure trivial
  | cons a l ih =>
    rw [List.mapM_cons]
    apply (h a).bind
    intro b _
    apply ih.bind
    intro bs _
    exact Change.looks_pure trivial

theorem looks_entries (ino : Inode) (t : Tree) : (entries ino).Looks t fun _ => True := by
  unfold entries
  apply (looks_directory ino t).bind
  rintro d -
  have hchildren := looks_mapM (t := t) (fun p : Name × Inode => by
    have hchild : (do return (p.2, (← node p.2).attr.kind, p.1) :
        Change (Inode × FileType × Name)).Looks t fun _ => True := by
      apply (looks_node p.2 t).bind
      intro n _
      exact Change.looks_pure trivial
    exact hchild) d.children
  apply hchildren.bind
  intro children _
  exact Change.looks_pure trivial

/-! ## The shape after a change -/

/-- The change fails and leaves the tree as it was, or it leaves a tree of the same
shape. -/
def Keeps {α : Type} (c : Change α) (t : Tree) (given : Nat) : Prop :=
  c.Yields t fun _ t' => t'.Shape given

theorem Shape.keeps_look {α : Type} {c : Change α} {P : α → Prop} (h : t.Shape given)
    (l : c.Looks t P) : Keeps c t given := by
  rcases l with he | ⟨a, t', ha, rfl, -⟩
  · exact Or.inl he
  · exact Or.inr ⟨a, t', ha, h⟩

theorem Shape.keeps_retouch {α : Type} {c : Change α} (h : t.Shape given)
    (y : c.Yields t fun _ t' => Retouched t t') : Keeps c t given := by
  rcases y with he | ⟨a, t', ha, r⟩
  · exact Or.inl he
  · exact Or.inr ⟨a, t', ha, h.retouched r⟩

theorem Shape.keeps_remove (now : Timestamp) (parent : Inode) (name : Name) (dir : Bool)
    (h : t.Shape given) : Keeps (remove now parent name dir) t given := by
  rcases yields_remove now parent name dir t with he |
    ⟨a, t', ha, ino, n, he, hn, hk, hempty, rfl⟩
  · exact Or.inl he
  · refine Or.inr ⟨a, _, ha, ?_⟩
    subst hk
    exact h.drop now he hn (h.bare hn hempty)

theorem Shape.keeps_rename (now : Timestamp) (parent : Inode) (name : Name) (newParent : Inode)
    (newName : Name) (flags : UInt32) (h : t.Shape given) :
    Keeps (rename now parent name newParent newName flags) t given := by
  rcases yields_rename now parent name newParent newName flags t with he |
    ⟨a, t', ha, rfl | ⟨ino, n, u, he, hn, hplace, hout, hc, rfl⟩⟩
  · exact Or.inl he
  · exact Or.inr ⟨a, _, ha, h⟩
  · have hroot := (h.hangs.entry (hasEntry_iff.mp he)).1
    have c := h.climbs_place hn hroot hplace fun hd => ⟨_, hout hd⟩
    obtain ⟨hu, he', hdir, c', e, hnew, hedir, hfree⟩ := h.cleared he hn hplace c hc
    have hmoved := hu.moved now he' hnew hedir hfree c'
    rw [hdir] at hmoved
    exact Or.inr ⟨a, _, ha, hmoved⟩

/-- A node is made with the next number, or the tree is as it was. -/
theorem Shape.creates (now : Timestamp) (parent : Inode) (name : Name) (kind : FileType)
    (perm : UInt16) (owner : Owner) (h : t.Shape given) :
    (create now parent name kind perm owner).Yields t fun a t' =>
      a.ino = .ofNat (given + 2) ∧ (given + 2 < UInt64.size → t'.Shape (given + 1)) := by
  rcases yields_create now parent name kind perm owner t with he |
    ⟨a, t', ha, d, hd, hdir, hname, -, rfl, rfl⟩
  · exact Or.inl he
  · exact Or.inr ⟨_, _, ha, h.next, fun hg => h.grow now kind perm owner hg hd hdir hname⟩

end Tree

/-! ## One request -/

variable {fs : MemFs} {given : Nat}

/-- A request makes no node and keeps the shape, or it makes the node with the next
number. -/
def Serves (given : Nat) (op : Operation) (p : MemFs × Outcome) : Prop :=
  (made? op p.2 = none ∧ p.1.tree.Shape given) ∨
    made? op p.2 = some (.ofNat (given + 2)) ∧
      (given + 2 < UInt64.size → p.1.tree.Shape (given + 1))

/-- No error gives the number of a node. -/
theorem made?_error (op : Operation) (e : Errno) : made? op (.error e) = none := by
  cases op <;> rfl

theorem made?_panicked (op : Operation) (p : Panic) : made? op (.panicked p) = none := by
  cases op <;> rfl

/-- What a change comes to is what is answered. -/
theorem answering_eq {α : Type} (fs : MemFs) (change : Timestamp → Change α) (reply : α → Reply) :
    fs.answering change reply =
      ({ fs with
          tree := ((change (fs.clock fs.readings)).on fs.tree).2
          readings := fs.readings + 1 },
        match ((change (fs.clock fs.readings)).on fs.tree).1 with
        | .ok a => .reply (reply a)
        | .error (.errno e) => .error e
        | .error (.fault f) => .panicked (.fault f)) := rfl

/-- What comes of an operation that is one change of the tree. -/
theorem answering_cases {α : Type} {P : α → Tree → Prop} {change : Timestamp → Change α}
    (reply : α → Reply)
    (y : ∀ now, (change now).Yields fs.tree P) :
    ((fs.answering change reply).1.tree = fs.tree ∧
      ((∃ e, (fs.answering change reply).2 = .error e) ∨
        ∃ p, (fs.answering change reply).2 = .panicked p)) ∨
      ∃ a, P a (fs.answering change reply).1.tree ∧
        (fs.answering change reply).2 = .reply (reply a) := by
  rcases y (fs.clock fs.readings) with ⟨e, he⟩ | ⟨a, t', ha, hp⟩
  · rw [answering_eq, he]
    cases e with
    | errno e => exact Or.inl ⟨rfl, Or.inl ⟨e, rfl⟩⟩
    | fault f => exact Or.inl ⟨rfl, Or.inr ⟨_, rfl⟩⟩
  · rw [answering_eq, ha]
    exact Or.inr ⟨a, hp, rfl⟩

theorem serves_keeping {α : Type} {change : Timestamp → Change α} {op : Operation}
    (h : fs.tree.Shape given) (reply : α → Reply)
    (hop : ∀ a, made? op (.reply (reply a)) = none)
    (y : ∀ now, Tree.Keeps (change now) fs.tree given) :
    Serves given op (fs.answering change reply) := by
  rcases answering_cases reply y with ⟨ht, ⟨e, he⟩ | ⟨p, hp⟩⟩ | ⟨a, hs, ha⟩
  · exact Or.inl ⟨he ▸ made?_error op e, ht ▸ h⟩
  · exact Or.inl ⟨hp ▸ made?_panicked op p, ht ▸ h⟩
  · exact Or.inl ⟨ha ▸ hop a, hs⟩

theorem serves_making {change : Timestamp → Change Attr} {op : Operation}
    (h : fs.tree.Shape given) (reply : Attr → Reply)
    (hop : ∀ a, made? op (.reply (reply a)) = some a.ino)
    (y : ∀ now, (change now).Yields fs.tree fun a t' =>
      a.ino = .ofNat (given + 2) ∧ (given + 2 < UInt64.size → t'.Shape (given + 1))) :
    Serves given op (fs.answering change reply) := by
  rcases answering_cases reply y with ⟨ht, ⟨e, he⟩ | ⟨p, hp⟩⟩ | ⟨a, ⟨hino, hs⟩, ha⟩
  · exact Or.inl ⟨he ▸ made?_error op e, ht ▸ h⟩
  · exact Or.inl ⟨hp ▸ made?_panicked op p, ht ▸ h⟩
  · refine Or.inr ⟨?_, hs⟩
    rw [ha, hop, hino]

/-- Whatever is asked. -/
theorem serves_handle (h : fs.tree.Shape given) (r : Request) (op : Operation) :
    Serves given op (fs.handle r op) := by
  cases op with
  | lookup parent name =>
    exact serves_keeping h _ (fun _ => rfl) fun _ => h.keeps_look (Tree.looks_lookup parent name _)
  | getattr ino _ =>
    exact serves_keeping h _ (fun _ => rfl) fun _ => h.keeps_look (Tree.looks_getattr ino _)
  | setattr ino set =>
    exact serves_keeping h _ (fun _ => rfl) fun now =>
      h.keeps_retouch (Tree.yields_setattr now ino set _)
  | mkdir parent name mode umask =>
    exact serves_making h _ (fun _ => rfl) fun now => h.creates now ..
  | create parent name mode umask _ =>
    exact serves_making h _ (fun _ => rfl) fun now => h.creates now ..
  | «open» ino flags =>
    exact serves_keeping h _ (fun _ => rfl) fun now =>
      h.keeps_retouch (Tree.yields_openFile now ino _ _)
  | read ino offset size _ =>
    exact serves_keeping h _ (fun _ => rfl) fun _ =>
      h.keeps_look (Tree.looks_read ino offset size _)
  | write ino offset data _ =>
    exact serves_keeping h _ (fun _ => rfl) fun now =>
      h.keeps_retouch (Tree.yields_write now ino offset data _)
  | unlink parent name =>
    exact serves_keeping h _ (fun _ => rfl) fun now => h.keeps_remove now parent name false
  | rmdir parent name =>
    exact serves_keeping h _ (fun _ => rfl) fun now => h.keeps_remove now parent name true
  | rename parent name newParent newName flags =>
    exact serves_keeping h _ (fun _ => rfl) fun now =>
      h.keeps_rename now parent name newParent newName flags
  | opendir ino _ =>
    exact serves_keeping h _ (fun _ => rfl) fun _ => h.keeps_look (Tree.looks_directory ino _)
  | readdir ino offset size _ =>
    exact serves_keeping h _ (fun _ => rfl) fun _ => h.keeps_look (Tree.looks_entries ino _)
  -- The rest does not look at the tree, or only at its figures.
  | _ => exact Or.inl ⟨rfl, h⟩

/-! ## Any number of requests -/

theorem serveAll_cons (fs : MemFs) (r : Request) (op : Operation)
    (rest : List (Request × Operation)) :
    fs.serveAll ((r, op) :: rest) =
      (((fs.handle r op).1.serveAll rest).1,
        (made? op (fs.handle r op).2).toList ++ ((fs.handle r op).1.serveAll rest).2) := rfl

/-- The tree keeps its shape, and the numbers are given out in turn, as long as there
are some. -/
theorem shape_serveAll (requests : List (Request × Operation)) (h : fs.tree.Shape given)
    (hg : given + (fs.serveAll requests).2.length + 1 < UInt64.size) :
    (fs.serveAll requests).1.tree.Shape (given + (fs.serveAll requests).2.length) ∧
      (fs.serveAll requests).2 =
        (List.range' (given + 2) (fs.serveAll requests).2.length).map .ofNat := by
  induction requests generalizing fs given with
  | nil => exact ⟨h, rfl⟩
  | cons p rest ih =>
    obtain ⟨r, op⟩ := p
    rw [serveAll_cons] at hg ⊢
    rcases serves_handle h r op with ⟨hm, hs⟩ | ⟨hm, hs⟩
    · rw [hm] at hg ⊢
      exact ih hs hg
    · rw [hm] at hg ⊢
      simp only [Option.toList_some, List.cons_append, List.nil_append, List.length_cons] at hg ⊢
      obtain ⟨hshape, hmade⟩ := ih (hs (by omega)) (by omega)
      refine ⟨?_, ?_⟩
      · rw [← Nat.add_assoc, Nat.add_right_comm]
        exact hshape
      · rw [List.range'_succ, List.map_cons, ← hmade]

/-- From the start on there is a tree, and each number that was given out counts. -/
theorem shape_served (clock : Nat → Timestamp) (owner : Owner)
    (requests : List (Request × Operation))
    (hmade : ((fresh clock owner).serveAll requests).2.length + 1 < UInt64.size) :
    ((fresh clock owner).serveAll requests).1.tree.Shape
      ((fresh clock owner).serveAll requests).2.length := by
  have hroot : (fresh clock owner).tree.Shape 0 := Tree.shape_root (clock 0) owner
  have h := (shape_serveAll requests hroot (by omega)).1
  rwa [Nat.zero_add] at h

/-- The first numbers differ from each other and from the root's. -/
theorem nodup_ofNat {count : Nat} (hc : count + 1 < UInt64.size) :
    ((List.range' 2 count).map UInt64.ofNat).Nodup ∧
      rootInode ∉ (List.range' 2 count).map UInt64.ofNat := by
  have hvalue {i : Nat} (hi : i ∈ List.range' 2 count) : (UInt64.ofNat i).toNat = i ∧ 2 ≤ i := by
    obtain ⟨hlow, hhigh⟩ := List.mem_range'_1.mp hi
    exact ⟨UInt64.toNat_ofNat_of_lt' (by omega), hlow⟩
  constructor
  · refine List.pairwise_map.mpr (List.Pairwise.imp_of_mem ?_ List.nodup_range')
    intro i j hi hj hne he
    rw [← (hvalue hi).1, ← (hvalue hj).1, he] at hne
    exact hne rfl
  · intro hroot
    obtain ⟨i, hi, he⟩ := List.mem_map.mp hroot
    obtain ⟨hi', hlow⟩ := hvalue hi
    rw [he] at hi'
    have hone : rootInode.toNat = 1 := rfl
    omega

/-- The nodes of a file system in memory form a tree with the right figures, whatever was
asked of it, and a number that was given out is not given out again. -/
theorem the_nodes_form_a_tree (clock : Nat → Timestamp) (owner : Owner)
    (requests : List (Request × Operation))
    (hmade : ((fresh clock owner).serveAll requests).2.length + 1 < UInt64.size) :
    ((fresh clock owner).serveAll requests).1.tree.WellFormed ∧
      ((fresh clock owner).serveAll requests).1.tree.Numbered
        ((fresh clock owner).serveAll requests).2 := by
  have hfresh : (fresh clock owner).tree.Shape 0 := Tree.shape_root (clock 0) owner
  obtain ⟨hshape, hnumbers⟩ := shape_serveAll requests hfresh (by omega)
  rw [Nat.zero_add] at hshape
  obtain ⟨hnodup, hroot⟩ := nodup_ofNat hmade
  rw [← hnumbers] at hnodup hroot
  refine ⟨hshape.wellFormed, hnodup, hroot, hshape.next, hshape.below, ?_⟩
  intro hleft ino n hn
  have hbelow := hshape.below ino n hn
  rw [hshape.next]
  exact UInt64.lt_iff_toNat_lt.mpr (by rwa [UInt64.toNat_ofNat_of_lt' hleft])

/-- A directory takes the place of an empty one, and its former parent moves into it. A
file is removed and made anew. -/
def moves : List Operation := [
  .mkdir rootInode [97] 0o755 0,
  .mkdir 2 [98] 0o755 0,
  .mkdir rootInode [99] 0o755 0,
  .rename 2 [98] rootInode [99] 0,
  .create 2 [100] 0o644 0 0,
  .unlink 2 [100],
  .create 2 [100] 0o644 0 0,
  .write 6 0 [1, 2, 3] { fh := 0, flags := 0 },
  .rename rootInode [97] 3 [101] 0]

/-- The file system after the moves, and the nodes that were made. -/
def afterMoves : MemFs × List Inode :=
  (fresh (fun _ => .epoch) ⟨0, 0⟩).serveAll
    (moves.map fun op => (⟨0, 1, 0, 0, 0, op.kind, op.replyLimit⟩, op))

/-- The node 3 has become the directory of the node 2. -/
theorem moves_leave_a_tree :
    afterMoves.2 = [2, 3, 4, 5, 6] ∧ afterMoves.1.tree.target? 3 [101] = some 2 ∧
      afterMoves.1.tree.WellFormed ∧ afterMoves.1.tree.Numbered afterMoves.2 :=
  ⟨by decide +kernel, by decide +kernel,
    the_nodes_form_a_tree (fun _ => .epoch) ⟨0, 0⟩ _ (by decide +kernel)⟩

end Fuse.MemFs
