-- Which names there are. A node is made with a name that is not too long, and after that only
-- a rename gives it another one. How long that one is, a rename does not ask.
import Fuse.Proofs.MemFs.Serving

namespace Fuse.MemFs

namespace Tree

open Change

variable {t t' u : Tree} {P Q : Inode → Name → Prop}

/-! ## Names that a change brings -/

/-- Every entry of the second tree is an entry of the first, or it has a name like this. -/
def Brings (t t' : Tree) (P : Inode → Name → Prop) : Prop :=
  ∀ dir name ino, t'.target? dir name = some ino → t.target? dir name = some ino ∨ P dir name

theorem Brings.refl (t : Tree) : t.Brings t P := fun _ _ _ => Or.inl

theorem Brings.trans (b : t.Brings u P) (b' : u.Brings t' P) : t.Brings t' P :=
  fun dir name ino h => (b' dir name ino h).elim (b dir name ino) Or.inr

theorem Brings.mono (b : t.Brings t' P) (h : ∀ dir name, P dir name → Q dir name) :
    t.Brings t' Q :=
  fun dir name ino he => (b dir name ino he).imp id (h dir name)

theorem Retouched.brings (r : Retouched t t') : t.Brings t' P := by
  intro dir name ino he
  have hsame : t'.target? dir name = t.target? dir name := by
    rcases r.node dir with ⟨hn, hn'⟩ | ⟨n, n', hn, hn', ha, -⟩
    · unfold target?
      rw [hn, hn']
    · rw [target?_eq hn', target?_eq hn, ha.children]
  exact Or.inl (hsame ▸ he)

/-- Where entries go, none come. -/
theorem brings_of_ite {C : Inode → Name → Prop} [∀ dir name, Decidable (C dir name)]
    (h : ∀ dir name, t'.target? dir name = if C dir name then none else t.target? dir name) :
    t.Brings t' P := by
  intro dir name ino he
  rw [h] at he
  split at he
  · cases he
  · exact Or.inl he

theorem brings_drop (t : Tree) (gone : Inode) : t.Brings (t.drop gone) P :=
  brings_of_ite (C := fun dir _ => dir = gone) (target?_drop t gone)

theorem brings_withoutChild (now : Timestamp) (t : Tree) (place : Inode) (gone : Name) (b : Bool) :
    t.Brings (t.adjust place (withoutChild now gone b)) P :=
  brings_of_ite (C := fun dir name => dir = place ∧ name = gone)
    (target?_withoutChild now t place gone b)

theorem brings_grow (t : Tree) {n : Node} (hn : n.children = []) : t.Brings (t.grow n) P :=
  brings_of_ite (C := fun dir _ => dir = t.next) (target?_grow t hn)

theorem brings_withChild (now : Timestamp) (t : Tree) (place : Inode) (new : Name) (child : Inode)
    (b : Bool) :
    t.Brings (t.adjust place (withChild now new child b)) fun dir name =>
      dir = place ∧ name = new := by
  intro dir name ino h
  cases hd : t.node? place with
  | none =>
    rw [target?_adjust, hd] at h
    split at h
    · cases h
    · exact Or.inl h
  | some d =>
    rw [target?_withChild now hd] at h
    split at h
    · rename_i hnew
      exact Or.inr hnew
    · exact Or.inl h

/-! ## Names that the operations bring -/

theorem brings_create (now : Timestamp) (parent : Inode) (name : Name) (kind : FileType)
    (perm : UInt16) (owner : Owner) (t : Tree) :
    (create now parent name kind perm owner).Yields t fun _ t' =>
      t.Brings t' fun _ x => x.length ≤ maxName := by
  refine (yields_create now parent name kind perm owner t).mono ?_
  rintro _ _ ⟨d, -, -, -, hshort, rfl, rfl⟩
  refine Brings.trans ?_ (brings_grow _ rfl)
  refine (brings_withChild now t parent name _ _).mono ?_
  rintro dir x ⟨-, rfl⟩
  exact hshort

theorem brings_remove (now : Timestamp) (parent : Inode) (name : Name) (dir : Bool) (t : Tree) :
    (remove now parent name dir).Yields t fun _ t' => t.Brings t' P := by
  refine (yields_remove now parent name dir t).mono ?_
  rintro _ _ ⟨ino, n, -, -, -, -, rfl⟩
  exact (brings_drop t ino).trans (brings_withoutChild now _ parent name dir)

theorem brings_cleared {now : Timestamp} {place ino : Inode} {name : Name} {b : Bool}
    (hc : Cleared now place name ino b t u) : t.Brings u P := by
  cases hc with
  | free => exact .refl t
  | @replaced target =>
    exact (brings_drop t target).trans (brings_withoutChild now _ place name b)

theorem brings_rename (now : Timestamp) (parent : Inode) (name : Name) (newParent : Inode)
    (newName : Name) (flags : UInt32) (t : Tree) :
    (rename now parent name newParent newName flags).Yields t fun _ t' =>
      t.Brings t' fun dir x => dir = newParent ∧ x = newName := by
  refine (yields_rename now parent name newParent newName flags t).mono ?_
  rintro _ _ (rfl | ⟨ino, n, u, -, -, -, -, hc, rfl⟩)
  · exact .refl _
  · refine (brings_cleared hc).trans ?_
    refine (brings_withoutChild now u parent name n.isDir).trans ?_
    refine (brings_withChild now _ newParent newName ino n.isDir).trans ?_
    intro dir x j h
    unfold Tree.moved at h
    rw [target?_of_children (f := placed now newParent) (fun _ => rfl)] at h
    exact Or.inl h

end Tree

/-- Who only looks brings nothing. -/
theorem Change.Looks.brings {α : Type} {c : Change α} {t : Tree} {P : α → Prop}
    {Q : Inode → Name → Prop} (l : c.Looks t P) : c.Yields t fun _ t' => t.Brings t' Q := by
  refine l.mono ?_
  rintro _ _ ⟨rfl, -⟩
  exact .refl _

/-! ## One request -/

variable {fs : MemFs} {P : Inode → Name → Prop}

/-- A change that fails brings nothing. -/
theorem brings_answering {α : Type} {change : Timestamp → Change α}
    (reply : α → Reply)
    (y : ∀ now, (change now).Yields fs.tree fun _ t' => fs.tree.Brings t' P) :
    fs.tree.Brings (fs.answering change reply).1.tree fun dir name =>
      P dir name ∧ ∃ a, (fs.answering change reply).2 = .reply (reply a) := by
  rcases answering_cases reply y with ⟨ht, -⟩ | ⟨a, hb, ha⟩
  · rw [ht]
    exact .refl fs.tree
  · exact hb.mono fun _ _ hp => ⟨hp, a, ha⟩

/-- The name is not too long, or the operation was a rename, which has put it there. -/
def ShortOrMoved (op : Operation) (o : Outcome) (dir : Inode) (name : Name) : Prop :=
  name.length ≤ maxName ∨
    ∃ parent old flags, op = .rename parent old dir name flags ∧ o = .reply .empty

theorem brings_nothing {α : Type} {change : Timestamp → Change α} (reply : α → Reply)
    (y : ∀ now, (change now).Yields fs.tree fun _ t' => fs.tree.Brings t' fun _ _ => False) :
    fs.tree.Brings (fs.answering change reply).1.tree P :=
  (brings_answering reply y).mono fun _ _ h => h.1.elim

theorem brings_handle (fs : MemFs) (r : Request) (op : Operation) :
    fs.tree.Brings (fs.handle r op).1.tree (ShortOrMoved op (fs.handle r op).2) := by
  cases op with
  | lookup parent name => exact brings_nothing _ fun _ => (Tree.looks_lookup parent name _).brings
  | getattr ino _ => exact brings_nothing _ fun _ => (Tree.looks_getattr ino _).brings
  | setattr ino set =>
    exact brings_nothing _ fun now =>
      (Tree.yields_setattr now ino set _).mono fun _ _ r => r.brings
  | mkdir parent name mode umask | create parent name mode umask _ =>
    exact (brings_answering _ fun now => Tree.brings_create now ..).mono fun _ _ h => Or.inl h.1
  | «open» ino flags =>
    exact brings_nothing _ fun now =>
      (Tree.yields_openFile now ino _ _).mono fun _ _ r => r.brings
  | read ino offset size _ =>
    exact brings_nothing _ fun _ => (Tree.looks_read ino offset size _).brings
  | write ino offset data _ =>
    exact brings_nothing _ fun now =>
      (Tree.yields_write now ino offset data _).mono fun _ _ r => r.brings
  | unlink parent name | rmdir parent name =>
    exact brings_nothing _ fun now => Tree.brings_remove now parent name _ _
  | rename parent name newParent newName flags =>
    refine (brings_answering _ fun now =>
      Tree.brings_rename now parent name newParent newName flags _).mono ?_
    rintro dir x ⟨⟨rfl, rfl⟩, _, ha⟩
    exact Or.inr ⟨parent, name, flags, rfl, ha⟩
  | opendir ino _ => exact brings_nothing _ fun _ => (Tree.looks_directory ino _).brings
  | readdir ino offset size _ =>
    exact brings_nothing _ fun _ => (Tree.looks_entries ino _).brings
  -- The rest changes no node.
  | _ => exact .refl fs.tree

/-! ## Any number of requests -/

/-- An entry was there at the start, or its name is not too long, or one of the requests is a
rename that has put it there. -/
theorem entry_serveAll {requests : List (Request × Operation)} {dir ino : Inode} {name : Name}
    (h : (fs.serveAll requests).1.tree.target? dir name = some ino) :
    fs.tree.target? dir name = some ino ∨ name.length ≤ maxName ∨
      ∃ before r parent old flags after,
        requests = before ++ (r, .rename parent old dir name flags) :: after ∧
          ((fs.serveAll before).1.handle r (.rename parent old dir name flags)).2 =
            .reply .empty := by
  induction requests generalizing fs with
  | nil => exact Or.inl h
  | cons p rest ih =>
    obtain ⟨r, op⟩ := p
    rw [serveAll_cons] at h
    rcases ih h with hmid | hshort | ⟨before, r', parent, old, flags, after, rfl, hdone⟩
    · rcases brings_handle fs r op dir name ino hmid with
        hold | hshort | ⟨parent, old, flags, rfl, hdone⟩
      · exact Or.inl hold
      · exact Or.inr (Or.inl hshort)
      · exact Or.inr (Or.inr ⟨[], r, parent, old, flags, rest, rfl, hdone⟩)
    · exact Or.inr (Or.inl hshort)
    · exact Or.inr (Or.inr ⟨(r, op) :: before, r', parent, old, flags, after, rfl, hdone⟩)

/-- Whatever is asked of a file system in memory, from its start on: the longest name that it
says it has is 255 bytes long, and every name in a directory is no longer, but for names that
a rename has brought. Then the rename is one of the requests, and it succeeded. -/
theorem long_names_come_from_renames (clock : Nat → Timestamp) (owner : Owner)
    (requests : List (Request × Operation)) :
    let start := fresh clock owner
    let tree := (start.serveAll requests).1.tree
    tree.statfs.namelen = 255 ∧
      ∀ dir name ino, tree.HasEntry dir name ino →
        name.length ≤ tree.statfs.namelen.toNat ∨
          ∃ before r parent old flags after,
            requests = before ++ (r, .rename parent old dir name flags) :: after ∧
              ((start.serveAll before).1.handle r (.rename parent old dir name flags)).2 =
                .reply .empty := by
  intro start tree
  refine ⟨rfl, fun dir name ino h => ?_⟩
  rcases entry_serveAll (Tree.hasEntry_iff.mp h) with hroot | hrest
  · have hnone : start.tree.target? dir name = none := Tree.target?_root (clock 0) owner dir name
    rw [hnone] at hroot
    cases hroot
  · exact hrest

/-- A file is made, and its name gets one byte longer than a name may be. -/
def lengthening : List (Request × Operation) := [
  (⟨0, 1, 0, 0, 0, .create, none⟩, .create rootInode [97] 0o644 0 0),
  (⟨0, 2, 0, 0, 0, .rename, none⟩,
    .rename rootInode [97] rootInode (List.replicate 256 98) 0)]

/-- The file is found under a name that is too long. -/
theorem a_rename_brings_a_name_that_is_too_long :
    let tree := ((fresh (fun _ => .epoch) ⟨0, 0⟩).serveAll lengthening).1.tree
    tree.HasEntry rootInode (List.replicate 256 98) 2 ∧
      tree.statfs.namelen.toNat < (List.replicate 256 (98 : UInt8)).length := by
  refine ⟨Tree.hasEntry_iff.mpr ?_, ?_⟩ <;> decide +kernel

/-- One of the requests is the rename that has brought the long name. -/
theorem the_rename_of_a_long_name_is_found :
    ∃ before r parent old flags after,
      lengthening =
        before ++ (r, .rename parent old rootInode (List.replicate 256 98) flags) :: after := by
  obtain ⟨-, hnames⟩ := long_names_come_from_renames (fun _ => .epoch) ⟨0, 0⟩ lengthening
  have hentry : ((fresh (fun _ => .epoch) ⟨0, 0⟩).serveAll lengthening).1.tree.HasEntry rootInode
      (List.replicate 256 98) 2 := Tree.hasEntry_iff.mpr (by decide +kernel)
  rcases hnames rootInode _ 2 hentry with hshort | ⟨before, r, parent, old, flags, after, he, -⟩
  · exact absurd hshort (by decide +kernel)
  · exact ⟨before, r, parent, old, flags, after, he⟩

end Fuse.MemFs
