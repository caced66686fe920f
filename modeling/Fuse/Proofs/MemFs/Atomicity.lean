-- An operation of a file system in memory either succeeds, or it changes nothing. A rename
-- that replaces a node changes the tree in two parts, and the second cannot fail.
import Fuse.Proofs.MemFs.Serving

namespace Fuse

theorem Outcome.fails_reply {r : Reply} (hr : r.shape ≠ .error) :
    (Outcome.reply r).fails = false := by
  cases r <;> first | rfl | exact absurd rfl hr

namespace MemFs

variable {fs : MemFs}

/-! ## One operation -/

/-- The operation succeeded, or the clock was read at most, and nothing else was done. -/
def Atomic (fs : MemFs) (p : MemFs × Outcome) : Prop :=
  p.2.fails = true → p.1 = { fs with readings := p.1.readings }

theorem atomic_of_same {p : MemFs × Outcome} (h : p.1 = fs) : Atomic fs p := by
  intro _
  rw [h]

/-- A change that fails cleanly, and answers with no error when it succeeds. -/
theorem atomic_answering {α : Type} {P : Timestamp → α → Tree → Prop}
    {change : Timestamp → Change α} {reply : α → Reply} (hr : ∀ a, (reply a).shape ≠ .error)
    (y : ∀ now, (change now).Yields fs.tree (P now)) : Atomic fs (fs.answering change reply) := by
  intro hf
  have hclean (now : Timestamp) : (change now).Yields fs.tree fun _ _ => True :=
    (y now).imp id fun ⟨a, t, ha, _⟩ => ⟨a, t, ha, trivial⟩
  rcases answering_cases reply hclean with ⟨ht, -⟩ | ⟨a, -, ha⟩
  · have hrest : (fs.answering change reply).1 =
        { fs with
          tree := (fs.answering change reply).1.tree
          readings := (fs.answering change reply).1.readings } := rfl
    rw [ht] at hrest
    exact hrest
  · rw [ha, Outcome.fails_reply (hr a)] at hf
    cases hf

theorem atomic_handle (fs : MemFs) (r : Request) (op : Operation) :
    Atomic fs (fs.handle r op) := by
  cases op with
  | lookup parent name =>
    exact atomic_answering (fun _ => nofun) fun _ => Tree.looks_lookup parent name _
  | getattr ino _ => exact atomic_answering (fun _ => nofun) fun _ => Tree.looks_getattr ino _
  | setattr ino set =>
    exact atomic_answering (fun _ => nofun) fun now => Tree.yields_setattr now ino set _
  | mkdir parent name mode umask =>
    exact atomic_answering (fun _ => nofun) fun now => Tree.yields_create now ..
  | create parent name mode umask _ =>
    exact atomic_answering (fun _ => nofun) fun now => Tree.yields_create now ..
  | «open» ino flags =>
    exact atomic_answering (fun _ => nofun) fun now => Tree.yields_openFile now ino _ _
  | read ino offset size _ =>
    exact atomic_answering (fun _ => nofun) fun _ => Tree.looks_read ino offset size _
  | write ino offset data _ =>
    exact atomic_answering (fun _ => nofun) fun now => Tree.yields_write now ino offset data _
  | unlink parent name =>
    exact atomic_answering (fun _ => nofun) fun now => Tree.yields_remove now parent name false _
  | rmdir parent name =>
    exact atomic_answering (fun _ => nofun) fun now => Tree.yields_remove now parent name true _
  | rename parent name newParent newName flags =>
    exact atomic_answering (fun _ => nofun) fun now =>
      Tree.yields_rename now parent name newParent newName flags _
  | opendir ino _ => exact atomic_answering (fun _ => nofun) fun _ => Tree.looks_directory ino _
  | readdir ino offset size _ =>
    exact atomic_answering (fun _ => nofun) fun _ => Tree.looks_entries ino _
  | _ => exact atomic_of_same rfl

/-! ## Renaming -/

/-- Once its checks are passed and room was made, a rename succeeds. -/
theorem rename_of_room {t t' u : Tree} {now : Timestamp} {parent newParent : Inode}
    {name newName : Name} {flags : UInt32} {p : Tree.Plan}
    (hplan : (Tree.plan parent name newParent newName flags).on t = (.ok (some p), t'))
    (hroom : (Tree.makeRoom now newParent newName p).on t' = (.ok (), u)) :
    ∃ v, (Tree.relocate now parent name newParent newName p).on u = (.ok (), v) ∧
      (Tree.rename now parent name newParent newName flags).on t = (.ok (), v) := by
  have hlooks := Tree.looks_plan parent name newParent newName flags t
  rcases hlooks with ⟨e, he⟩ | ⟨o, t'', ho, rfl, -, hp⟩
  · rw [hplan] at he
    cases he
  rw [hplan] at ho
  cases ho
  have h := hp.1
  rcases Tree.yields_makeRoom now h with ⟨e, he⟩ | ⟨_, u', hu, hc⟩
  · rw [hroom] at he
    cases he
  rw [hroom] at hu
  cases hu
  refine ⟨_, Tree.relocate_on h hc, ?_⟩
  rw [Tree.rename_eq, Change.on_bind_of_ok hplan]
  exact (Change.on_bind_of_ok hroom _).trans (Tree.relocate_on h hc)

/-! ## The law -/

/-- Whatever the nodes are and whatever is asked: an operation that is answered with an
error, or whose handler panics, leaves all nodes and the next number as they were. A rename
consists of checks, which change nothing, of making room, and of taking the node to its new
place; when room was made, what is left of it cannot fail. -/
theorem failed_operations_change_nothing :
    (∀ (fs : MemFs) (r : Request) (op : Operation), (fs.handle r op).2.fails = true →
      (fs.handle r op).1 = { fs with readings := (fs.handle r op).1.readings }) ∧
    ∀ (now : Timestamp) (parent : Inode) (name : Name) (newParent : Inode) (newName : Name)
      (flags : UInt32),
      Tree.rename now parent name newParent newName flags = (do
        match ← Tree.plan parent name newParent newName flags with
        | none => pure ()
        | some p => do
          Tree.makeRoom now newParent newName p
          Tree.relocate now parent name newParent newName p) ∧
      ∀ (t t' u : Tree) (p : Tree.Plan),
        (Tree.plan parent name newParent newName flags).on t = (.ok (some p), t') →
        (Tree.makeRoom now newParent newName p).on t' = (.ok (), u) →
        ∃ v, (Tree.relocate now parent name newParent newName p).on u = (.ok (), v) ∧
          (Tree.rename now parent name newParent newName flags).on t = (.ok (), v) := by
  refine ⟨fun fs r op => atomic_handle fs r op, ?_⟩
  intro now parent name newParent newName flags
  exact ⟨Tree.rename_eq .., fun _ _ _ _ hplan hroom => rename_of_room hplan hroom⟩

/-- What the file system turns down after the moves: a file that is too long, data beyond the
last offset there is, a directory that is not empty, and a directory that would move into
itself. -/
def refused : List Operation := [
  .setattr 6 { size := some 0x8000000000000000 },
  .write 6 0xffffffffffffffff [1] { fh := 0, flags := 0 },
  .rmdir rootInode [99],
  .rename rootInode [99] 2 [98] 0]

/-- The nodes after the moves, and an empty directory with the number 7. -/
def withEmpty : Tree :=
  (afterMoves.1.handle ⟨0, 1, 0, 0, 0, .mkdir, none⟩ (.mkdir rootInode [97] 0o755 0)).1.tree

/-- What is turned down changes nothing, and the directory 2 takes the place of the empty
one. -/
theorem refused_and_replaced :
    (∀ op ∈ refused, (afterMoves.1.handle ⟨0, 1, 0, 0, 0, op.kind, none⟩ op).2.fails = true ∧
      (afterMoves.1.handle ⟨0, 1, 0, 0, 0, op.kind, none⟩ op).1.tree = afterMoves.1.tree) ∧
    ∃ u v, (Tree.makeRoom .epoch rootInode [97] ⟨2, true, true⟩).on withEmpty = (.ok (), u) ∧
      withEmpty.node? 7 ≠ none ∧ u.node? 7 = none ∧
      (Tree.rename .epoch 3 [101] rootInode [97] 0).on withEmpty = (.ok (), v) := by
  obtain ⟨hfails, hrename⟩ := failed_operations_change_nothing
  refine ⟨fun op hop => ?_, ?_⟩
  · have hf : ∀ op ∈ refused,
        (afterMoves.1.handle ⟨0, 1, 0, 0, 0, op.kind, none⟩ op).2.fails = true := by
      decide +kernel
    refine ⟨hf op hop, ?_⟩
    rw [hfails _ _ op (hf op hop)]
  · have hplan : (Tree.plan 3 [101] rootInode [97] 0).on withEmpty =
        (.ok (some ⟨2, true, true⟩), withEmpty) := by rfl
    have hroom : (Tree.makeRoom .epoch rootInode [97] ⟨2, true, true⟩).on withEmpty =
        (.ok (), ((Tree.makeRoom .epoch rootInode [97] ⟨2, true, true⟩).on withEmpty).2) := by
      rfl
    obtain ⟨-, hrest⟩ := hrename .epoch 3 [101] rootInode [97] 0
    obtain ⟨v, -, hv⟩ := hrest _ _ _ _ hplan hroom
    exact ⟨_, v, hroom, by decide +kernel, by decide +kernel, hv⟩

end MemFs

end Fuse
