-- Renames that must not replace anything. Where the new name is taken they change nothing,
-- and they fail, unless it is the node itself that has the new name: that is found before
-- the flag is looked at.
import Fuse.Proofs.MemFs.Renaming

namespace Fuse.MemFs

namespace Tree

open Change

variable {t : Tree} {newParent other : Inode} {newName : Name} {flags : UInt32}

/-- Where the new name is taken, nothing is planned: a free place is none, and a node would
have to give way that must not. -/
theorem Decided.of_taken {parent : Inode} {name : Name} {o : Option Plan}
    (hd : Decided t parent name newParent newName flags o)
    (h : t.HasEntry newParent newName other) (hflag : flags &&& renameNoreplace ≠ 0) :
    o = none ∧ t.HasEntry parent name other := by
  cases o with
  | none =>
    obtain ⟨ino, hino, hino'⟩ := hd
    exact ⟨rfl, h.unique hino' ▸ hino⟩
  | some p =>
    obtain ⟨hplanned, hmay⟩ := hd
    obtain ⟨e, he, -, hfree, -⟩ := hplanned.place
    cases hr : p.replaces with
    | true => exact absurd (hmay hr) hflag
    | false =>
      rw [hasEntry_iff, target?_eq he, hfree hr] at h
      cases h

theorem looks_rename_taken (now : Timestamp) (h : t.HasEntry newParent newName other)
    (hflag : flags &&& renameNoreplace ≠ 0) (parent : Inode) (name : Name) :
    (rename now parent name newParent newName flags).Looks t fun _ =>
      flags = renameNoreplace ∧ t.HasEntry parent name other := by
  rw [rename_eq]
  apply (looks_plan parent name newParent newName flags t).bind
  rintro o ⟨hknown, hdecided⟩
  obtain ⟨rfl, hsame⟩ := hdecided.of_taken h hflag
  exact looks_pure ⟨(noreplace_iff (not_not_intro hknown)).mp hflag, hsame⟩

end Tree

/-! ## The law -/

/-- Whatever the nodes are: a rename that must not replace anything leaves them as they were
when the new name is taken, whatever has it. It fails, unless the old name leads to the node
with the new name; then it is answered as if it were done, if no other flag is set and the
nodes form a tree. -/
theorem a_taken_name_is_not_replaced (fs : MemFs) (r : Request) (parent : Inode) (name : Name)
    (newParent : Inode) (newName : Name) (flags : UInt32) (other : Inode)
    (hflag : flags &&& Tree.renameNoreplace ≠ 0)
    (htaken : fs.tree.HasEntry newParent newName other) :
    let result := fs.handle r (.rename parent name newParent newName flags)
    result.1.tree = fs.tree ∧
      (¬fs.tree.HasEntry parent name other → ∃ e, result.2 = .error e) ∧
      (flags ≠ Tree.renameNoreplace → ∃ e, result.2 = .error e) ∧
      (∀ given, fs.tree.Shape given → fs.tree.HasEntry parent name other →
        flags = Tree.renameNoreplace → result.2 = .reply .empty) := by
  intro result
  have hresult := answering_eq fs
    (fun now => Tree.rename now parent name newParent newName flags) fun _ => .empty
  have hrefuses := Tree.refuses_rename (fs.clock fs.readings) parent name newParent newName flags
    fs.tree
  have hclear (given : Nat) (h : fs.tree.Shape given) (hino : fs.tree.HasEntry parent name other)
      (hflags : flags = Tree.renameNoreplace) : result.2 = .reply .empty := by
    rcases answering_faces (fun _ => .empty) fun now =>
        Tree.faces_rename now h parent name newParent newName flags with
      ⟨e, he, -⟩ | ⟨-, -, -, hreply, -⟩
    · obtain ⟨o, ho, hp⟩ := he.exists_mem
      exact absurd hp (Tree.clear_of_same_node h (Or.inr hflags) hino htaken o ho)
    · exact hreply
  rcases Tree.looks_rename_taken (fs.clock fs.readings) htaken hflag parent name with
    ⟨e, he⟩ | ⟨_, _, ha, rfl, hflags, hsame⟩
  · rw [he] at hresult hrefuses
    obtain ⟨n, rfl, -⟩ := hrefuses e rfl
    have herror : ∃ e, result.2 = .error e := ⟨n, congrArg Prod.snd hresult⟩
    exact ⟨congrArg (·.1.tree) hresult, fun _ => herror, fun _ => herror, hclear⟩
  · rw [ha] at hresult
    exact ⟨congrArg (·.1.tree) hresult, fun hnot => absurd hsame hnot,
      fun hnot => absurd hflags hnot, hclear⟩

/-- After the moves the name `d` in the directory 2 is taken. The directory 3 of the root does
not get it. -/
theorem a_taken_name_is_kept_after_the_moves :
    (Tree.renameNoreplace &&& Tree.renameNoreplace ≠ 0 ∧ afterMoves.1.tree.HasEntry 2 [100] 6) ∧
      let result := afterMoves.1.handle ⟨0, 1, 0, 0, 0, .rename, none⟩
        (.rename rootInode [99] 2 [100] Tree.renameNoreplace)
      result.1.tree = afterMoves.1.tree ∧ ∃ e, result.2 = .error e := by
  have hnamed : afterMoves.1.tree.HasEntry 2 [100] 6 :=
    Tree.hasEntry_iff.mpr (by decide +kernel)
  have hlaw := a_taken_name_is_not_replaced afterMoves.1 ⟨0, 1, 0, 0, 0, .rename, none⟩ rootInode
    [99] 2 [100] Tree.renameNoreplace 6 (by decide) hnamed
  refine ⟨⟨by decide, hnamed⟩, hlaw.1, hlaw.2.1 fun h => ?_⟩
  have hother : afterMoves.1.tree.target? rootInode [99] = some 6 := Tree.hasEntry_iff.mp h
  revert hother
  decide +kernel

/-- A file that is renamed to the name it has, with nothing to be replaced: the name is taken,
and yet the rename succeeds. -/
theorem a_node_keeps_its_own_name_without_an_error :
    afterMoves.1.tree.target? 2 [100] = some 6 ∧
      (afterMoves.1.handle ⟨0, 1, 0, 0, 0, .rename, none⟩
        (.rename 2 [100] 2 [100] Tree.renameNoreplace)).2 = .reply .empty := by
  decide +kernel

end Fuse.MemFs
