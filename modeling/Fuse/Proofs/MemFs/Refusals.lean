-- How the operations of a file system in memory fail: with an error number that the kernel
-- takes, and otherwise only where a file would get longer than one can be stored.
import Fuse.Proofs.Checking
import Fuse.Proofs.MemFs.Serving

namespace Fuse.MemFs

namespace Change

variable {α β : Type}

/-! ## Changes that fail with error numbers -/

/-- When the change fails, it is with an error number that the kernel takes. -/
def Refuses (c : Change α) : Prop :=
  ∀ t e, (c.on t).1 = .error e → ∃ n : Errno, e = .errno n ∧ n.valid = true

theorem refuses_pure (a : α) : (pure a : Change α).Refuses := nofun

theorem refuses_get : (get : Change Tree).Refuses := nofun

theorem refuses_modify (f : Tree → Tree) : (modify f : Change Unit).Refuses := nofun

theorem refuses_fail {n : Errno} (hn : n.valid = true) : (Tree.fail n : Change α).Refuses := by
  rintro t _ ⟨⟩
  exact ⟨n, rfl, hn⟩

/-- What fails is the first change or the second. -/
theorem error_of_bind {c : Change α} {f : α → Change β} {t : Tree} {e : Failure}
    (he : ((c >>= f).on t).1 = .error e) :
    (c.on t).1 = .error e ∨ ∃ a t', c.on t = (.ok a, t') ∧ ((f a).on t').1 = .error e := by
  rw [on_bind] at he
  cases h : c.on t with
  | mk r t' =>
    rw [h] at he
    cases r with
    | ok a => exact Or.inr ⟨a, t', rfl, he⟩
    | error e' =>
      cases he
      exact Or.inl rfl

/-- What was seen is there. -/
theorem Looks.of_ok {c : Change α} {t t' : Tree} {P : α → Prop} {a : α} (l : c.Looks t P)
    (h : c.on t = (.ok a, t')) : t' = t ∧ P a := by
  rcases l with ⟨e, he⟩ | ⟨b, u, hb, rfl, hp⟩
  · rw [he] at h
    cases h
  · rw [hb] at h
    cases h
    exact ⟨rfl, hp⟩

theorem Refuses.bind {c : Change α} {f : α → Change β} (hc : c.Refuses) (hf : ∀ a, (f a).Refuses) :
    (c >>= f).Refuses := by
  intro t e he
  rcases error_of_bind he with hfirst | ⟨a, t', -, hsecond⟩
  · exact hc t e hfirst
  · exact hf a t' e hsecond

/-- A check comes before what is done. -/
theorem refuses_unless {C : Prop} [Decidable C] {n : Errno} {f : α → Change β} {c : Change β}
    (hn : n.valid = true) (hc : c.Refuses) : (if C then Tree.fail n >>= f else c).Refuses := by
  split
  · intro t e he
    have hfail : (Tree.fail n : Change α).on t = (.error (.errno n), t) := rfl
    rw [on_bind_of_error hfail f] at he
    cases he
    exact ⟨n, rfl, hn⟩
  · exact hc

/-- Something is only done in some cases. -/
theorem refuses_when {b : Bool} {c : Change Unit} {f : Unit → Change β} (hc : c.Refuses)
    (hf : (f ()).Refuses) : (if b = true then c >>= f else f ()).Refuses := by
  split
  · exact hc.bind fun _ => hf
  · exact hf

/-- One thing after another. -/
theorem refuses_mapM {f : α → Change β} (hf : ∀ a, (f a).Refuses) (l : List α) :
    (l.mapM f).Refuses := by
  induction l with
  | nil => exact refuses_pure []
  | cons a l ih =>
    rw [List.mapM_cons]
    exact (hf a).bind fun _ => ih.bind fun _ => refuses_pure _

end Change

namespace Tree

open Change

theorem refuses_node (ino : Inode) : (node ino).Refuses := by
  unfold node
  refine refuses_get.bind fun t => ?_
  cases t.node? ino with
  | none => exact refuses_fail rfl
  | some n => exact refuses_pure n

theorem refuses_directory (ino : Inode) : (directory ino).Refuses := by
  unfold directory
  refine (refuses_node ino).bind fun n => ?_
  split
  · exact refuses_pure n
  · exact refuses_fail rfl

theorem refuses_file (ino : Inode) : (file ino).Refuses := by
  unfold file
  refine (refuses_node ino).bind fun n => ?_
  split
  · exact refuses_fail rfl
  · exact refuses_pure n

theorem refuses_child (parent : Inode) (name : Name) : (child parent name).Refuses := by
  unfold child
  refine (refuses_directory parent).bind fun d => ?_
  cases d.children.get? name with
  | none => exact refuses_fail rfl
  | some ino => exact refuses_pure ino

theorem refuses_update (ino : Inode) (f : Node → Node) : (update ino f).Refuses :=
  (refuses_node ino).bind fun _ => refuses_modify _

/-! ## Operations that fail with error numbers -/

theorem refuses_lookup (parent : Inode) (name : Name) : (lookup parent name).Refuses :=
  (refuses_child parent name).bind fun ino => (refuses_node ino).bind fun _ => refuses_pure _

theorem refuses_getattr (ino : Inode) : (getattr ino).Refuses :=
  (refuses_node ino).bind fun _ => refuses_pure _

theorem refuses_read (ino : Inode) (offset : UInt64) (size : UInt32) :
    (read ino offset size).Refuses :=
  (refuses_file ino).bind fun _ => refuses_pure _

theorem refuses_entries (ino : Inode) : (entries ino).Refuses := by
  unfold entries
  refine (refuses_directory ino).bind fun d => ?_
  refine (refuses_mapM ?_ d.children).bind fun _ => refuses_pure _
  exact fun p => (refuses_node p.2).bind fun _ => refuses_pure _

theorem refuses_create (now : Timestamp) (parent : Inode) (name : Name) (kind : FileType)
    (perm : UInt16) (owner : Owner) : (create now parent name kind perm owner).Refuses := by
  unfold create
  refine refuses_unless rfl ((refuses_directory parent).bind fun d => refuses_unless rfl ?_)
  refine refuses_get.bind fun t => (refuses_modify _).bind fun _ => ?_
  exact (refuses_update parent _).bind fun _ => (refuses_modify _).bind fun _ => refuses_pure _

theorem refuses_openFile (now : Timestamp) (ino : Inode) (truncates : Bool) :
    (openFile now ino truncates).Refuses := by
  unfold openFile truncate
  refine (refuses_file ino).bind fun _ => ?_
  split
  · exact refuses_update ino _
  · exact refuses_pure ()

theorem refuses_remove (now : Timestamp) (parent : Inode) (name : Name) (dir : Bool) :
    (remove now parent name dir).Refuses := by
  unfold remove
  refine (refuses_child parent name).bind fun ino => (refuses_node ino).bind fun n => ?_
  refine refuses_unless rfl (refuses_unless rfl (refuses_unless rfl ?_))
  exact (refuses_modify _).bind fun _ => refuses_update parent _

/-- The climb towards the root fails only where there is no node. -/
theorem error_of_climb {t : Tree} {ino : Inode} {steps : Nat} {cursor : Inode} {e : Errno}
    (h : t.climb ino steps cursor = some (.error e)) : e = .enoent := by
  induction steps generalizing cursor with
  | zero => cases h
  | succ steps ih =>
    unfold climb at h
    split at h
    · cases h
    · split at h
      · cases h
      · split at h
        · exact ih h
        · cases h
          rfl

theorem refuses_checkOutside (ino newParent : Inode) : (checkOutside ino newParent).Refuses := by
  unfold checkOutside
  refine refuses_get.bind fun t => ?_
  split
  · exact refuses_pure ()
  · exact refuses_fail rfl
  · exact refuses_fail rfl
  · rename_i e he
    exact refuses_fail (error_of_climb he ▸ rfl)

theorem refuses_plan (parent : Inode) (name : Name) (newParent : Inode) (newName : Name)
    (flags : UInt32) : (plan parent name newParent newName flags).Refuses := by
  unfold plan
  refine refuses_unless rfl ((refuses_child parent name).bind fun ino => ?_)
  refine (refuses_directory newParent).bind fun _ => (refuses_node ino).bind fun n => ?_
  refine refuses_when (refuses_checkOutside ino newParent) ?_
  refine (refuses_directory newParent).bind fun d => ?_
  cases d.children.get? newName with
  | none => exact refuses_pure _
  | some target =>
    dsimp only
    split
    · exact refuses_pure none
    · refine refuses_unless rfl ((refuses_node target).bind fun m => ?_)
      exact refuses_unless rfl (refuses_unless rfl (refuses_pure _))

theorem refuses_rename (now : Timestamp) (parent : Inode) (name : Name) (newParent : Inode)
    (newName : Name) (flags : UInt32) :
    (rename now parent name newParent newName flags).Refuses := by
  rw [rename_eq]
  refine (refuses_plan parent name newParent newName flags).bind fun o => ?_
  cases o with
  | none => exact refuses_pure ()
  | some p =>
    have hroom : (makeRoom now newParent newName p).Refuses := by
      unfold makeRoom
      split
      · exact refuses_remove now newParent newName p.dir
      · exact refuses_pure ()
    refine hroom.bind fun _ => (refuses_update parent _).bind fun _ => ?_
    exact (refuses_update newParent _).bind fun _ => refuses_update p.ino _

/-! ## Files that get longer -/

variable {t : Tree} {ino : Inode}

theorem isFile_iff : t.isFile ino = true ↔ ∃ n, t.node? ino = some n ∧ n.isDir = false := by
  unfold isFile
  cases t.node? ino <;> simp

theorem file_on {n : Node} (h : t.node? ino = some n) (hf : n.isDir = false) :
    (file ino).on t = (.ok n, t) := by
  unfold file
  rw [on_bind_of_ok (node_on h), if_neg (by simp [hf])]
  rfl

/-- No file is as long as one can be stored. -/
def Short (t : Tree) : Prop := ∀ ino n, t.node? ino = some n → n.data.length < capacity

theorem Shape.short {given : Nat} (h : t.Shape given) : t.Short :=
  fun ino n hn => (h.fits ino n hn).sized.short

/-- How it fails to give a file a length. -/
theorem error_of_resize {now : Timestamp} {size : UInt64} {e : Failure}
    (he : ((resize now ino size).on t).1 = .error e) :
    (∃ n : Errno, e = .errno n ∧ n.valid = true) ∨
      e = .fault .capacityOverflow ∧ t.isFile ino = true ∧ capacity ≤ size.toNat := by
  unfold resize at he
  rcases error_of_bind he with hfile | ⟨n, u, hn, hrest⟩
  · exact Or.inl (refuses_file ino t e hfile)
  · obtain ⟨rfl, hnode, hdir⟩ := (looks_file ino t).of_ok hn
    split at hrest
    · rename_i hlong
      cases hrest
      exact Or.inr ⟨rfl, isFile_iff.mpr ⟨_, hnode, hdir⟩, hlong.2⟩
    · exact Or.inl (refuses_update ino _ _ e hrest)

/-- A file cannot get as long as one can be stored. -/
theorem resize_on_long (hs : t.Short) (now : Timestamp) {size : UInt64}
    (hf : t.isFile ino = true) (hsize : capacity ≤ size.toNat) :
    (resize now ino size).on t = (.error (.fault .capacityOverflow), t) := by
  obtain ⟨n, hn, hdir⟩ := isFile_iff.mp hf
  have hlong : n.data.length < size.toNat := Nat.lt_of_lt_of_le (hs ino n hn) hsize
  unfold resize
  rw [on_bind_of_ok (file_on hn hdir), if_pos ⟨hlong, hsize⟩]
  rfl

/-- How it fails to set the attributes of a node. -/
theorem error_of_setattr {now : Timestamp} {set : SetAttr} {e : Failure}
    (he : ((setattr now ino set).on t).1 = .error e) :
    (∃ n : Errno, e = .errno n ∧ n.valid = true) ∨
      e = .fault .capacityOverflow ∧ t.isFile ino = true ∧
        set.size.any (fun size => capacity ≤ size.toNat) = true := by
  have hrest : (do
      update ino fun n => { n with attr := selected now set n.attr }
      getattr ino).Refuses := (refuses_update ino _).bind fun _ => refuses_getattr ino
  unfold setattr at he
  rcases error_of_bind he with hnode | ⟨n, u, hn, hset⟩
  · exact Or.inl (refuses_node ino t e hnode)
  obtain ⟨rfl, -⟩ := (looks_node ino t).of_ok hn
  cases hsize : set.size with
  | none =>
    rw [hsize] at hset
    exact Or.inl (hrest _ e hset)
  | some size =>
    rw [hsize] at hset
    rcases error_of_bind hset with hresize | ⟨_, u, _, hlast⟩
    · rcases error_of_resize hresize with hrefused | ⟨rfl, hf, hlong⟩
      · exact Or.inl hrefused
      · exact Or.inr ⟨rfl, hf, by simpa using hlong⟩
    · exact Or.inl (hrest u e hlast)

theorem setattr_on_long (hs : t.Short) (now : Timestamp) {set : SetAttr}
    (hf : t.isFile ino = true) (hsize : set.size.any (fun size => capacity ≤ size.toNat) = true) :
    (setattr now ino set).on t = (.error (.fault .capacityOverflow), t) := by
  obtain ⟨n, hn, -⟩ := isFile_iff.mp hf
  cases hset : set.size with
  | none =>
    rw [hset] at hsize
    cases hsize
  | some size =>
    rw [hset] at hsize
    unfold setattr
    rw [on_bind_of_ok (node_on hn), hset]
    exact on_bind_of_error (resize_on_long hs now hf (by simpa using hsize)) _

/-- How it fails to store data in a file. -/
theorem error_of_write {now : Timestamp} {offset : UInt64} {data : Bytes} {e : Failure}
    (he : ((write now ino offset data).on t).1 = .error e) :
    (∃ n : Errno, e = .errno n ∧ n.valid = true) ∨
      e = .fault .capacityOverflow ∧ t.isFile ino = true ∧
        capacity ≤ offset.toNat + data.length ∧ offset.toNat + data.length < UInt64.size := by
  unfold write at he
  rcases error_of_bind he with hfile | ⟨n, u, hn, hrest⟩
  · exact Or.inl (refuses_file ino t e hfile)
  obtain ⟨rfl, hnode, hdir⟩ := (looks_file ino t).of_ok hn
  dsimp only at hrest
  split at hrest
  · cases hrest
    exact Or.inl ⟨.efbig, rfl, rfl⟩
  rename_i hfits
  split at hrest
  · rename_i hlong
    cases hrest
    exact Or.inr ⟨rfl, isFile_iff.mpr ⟨_, hnode, hdir⟩, hlong.2, Nat.lt_of_not_le hfits⟩
  · exact Or.inl ((refuses_update ino _).bind (fun _ => refuses_pure _) _ e hrest)

/-- All of the data is stored. -/
theorem written_eq {now : Timestamp} {offset : UInt64} {data : Bytes} {n : UInt32}
    (h : ((write now ino offset data).on t).1 = .ok n) : n = .ofNat data.length := by
  rcases writes now ino offset data t with ⟨e, he⟩ | ⟨a, t', ha, -, -, -, -, rfl, -⟩
  · rw [he] at h
    cases h
  · rw [ha] at h
    cases h
    rfl

theorem write_on_far (now : Timestamp) {offset : UInt64} {data : Bytes}
    (hf : t.isFile ino = true) (hstop : UInt64.size ≤ offset.toNat + data.length) :
    (write now ino offset data).on t = (.error (.errno .efbig), t) := by
  obtain ⟨n, hn, hdir⟩ := isFile_iff.mp hf
  unfold write
  rw [on_bind_of_ok (file_on hn hdir)]
  dsimp only
  rw [if_pos hstop]
  rfl

theorem write_on_long (hs : t.Short) (now : Timestamp) {offset : UInt64} {data : Bytes}
    (hf : t.isFile ino = true) (hlong : capacity ≤ offset.toNat + data.length)
    (hstop : offset.toNat + data.length < UInt64.size) :
    (write now ino offset data).on t = (.error (.fault .capacityOverflow), t) := by
  obtain ⟨n, hn, hdir⟩ := isFile_iff.mp hf
  have hgrows := Nat.lt_of_lt_of_le (hs ino n hn) hlong
  unfold write
  rw [on_bind_of_ok (file_on hn hdir)]
  dsimp only
  rw [if_neg (Nat.not_le_of_lt hstop), if_pos ⟨hgrows, hlong⟩]
  rfl

end Tree

/-! ## Answers -/

variable {fs : MemFs} {r : Request} {α : Type}

/-- What comes of a change of the tree, if it fails with error numbers that the kernel takes
and gives answers that are right. -/
theorem satisfies_answering {change : Timestamp → Change α} {reply : α → Reply}
    (hr : r.kind.expectsReply = true)
    (herror : ∀ now e, ((change now).on fs.tree).1 = .error e →
      ∃ n : Errno, e = .errno n ∧ n.valid = true)
    (hreply : ∀ now a, ((change now).on fs.tree).1 = .ok a → r.check (reply a) = none) :
    (fs.answering change reply).2.Satisfies r := by
  have he := herror (fs.clock fs.readings)
  have ha := hreply (fs.clock fs.readings)
  cases hc : (change (fs.clock fs.readings)).on fs.tree with
  | mk result tree =>
    rw [hc] at he ha
    rw [answering_eq, hc]
    cases result with
    | ok a => exact Outcome.satisfies_reply (ha a rfl)
    | error e =>
      obtain ⟨n, rfl, hn⟩ := he e rfl
      exact Outcome.satisfies_error hr hn

/-- What comes of a change of the tree that fails. -/
theorem answering_of_error {change : Timestamp → Change α} {reply : α → Reply} {e : Failure}
    (h : ∀ now, (change now).on fs.tree = (.error e, fs.tree)) :
    (fs.answering change reply).2 =
      match e with
      | .errno n => .error n
      | .fault f => .panicked (.fault f) := by
  rw [answering_eq, h]
  cases e <;> rfl

/-- What comes of a change that fails with error numbers, and of which the answer only tells
in its form. -/
theorem satisfies_plain {kind : OpKind} {change : Timestamp → Change α} {reply : α → Reply}
    (hk : r.kind = kind) (hr : kind.expectsReply = true) (hc : ∀ now, (change now).Refuses)
    (ha : ∀ a, kind.accepts (reply a).shape = true ∧ (reply a).plain = true) :
    (fs.answering change reply).2.Satisfies r :=
  satisfies_answering (hk ▸ hr) (fun now => hc now fs.tree) fun _ a _ =>
    Request.check_plain hk (ha a).1 (ha a).2

/-- Where no file gets too long, each operation is answered, and nothing is wrong with the
answer. -/
theorem satisfies_handle {op : Operation} (hk : r.kind = op.kind) (hl : r.limit = op.replyLimit)
    (hr : op.kind.expectsReply = true) (hlong : fs.tree.tooLong op = false) :
    (fs.handle r op).2.Satisfies r := by
  have hr' : r.kind.expectsReply = true := hk ▸ hr
  cases op with
  | lookup parent name =>
    exact satisfies_plain hk hr (fun _ => Tree.refuses_lookup parent name) fun _ => ⟨rfl, rfl⟩
  | getattr ino _ =>
    exact satisfies_plain hk hr (fun _ => Tree.refuses_getattr ino) fun _ => ⟨rfl, rfl⟩
  | mkdir parent name mode umask | create parent name mode umask _ =>
    exact satisfies_plain hk hr (fun now => Tree.refuses_create now parent name _ _ _) fun _ =>
      ⟨rfl, rfl⟩
  | «open» ino flags =>
    exact satisfies_plain hk hr (fun now => Tree.refuses_openFile now ino _) fun _ => ⟨rfl, rfl⟩
  | unlink parent name | rmdir parent name =>
    exact satisfies_plain hk hr (fun now => Tree.refuses_remove now parent name _) fun _ =>
      ⟨rfl, rfl⟩
  | rename parent name newParent newName flags =>
    exact satisfies_plain hk hr
      (fun now => Tree.refuses_rename now parent name newParent newName flags) fun _ => ⟨rfl, rfl⟩
  | opendir ino _ =>
    exact satisfies_plain hk hr (fun _ => Tree.refuses_directory ino) fun _ => ⟨rfl, rfl⟩
  | setattr ino set =>
    refine satisfies_answering hr' (fun now e he => ?_) fun _ _ _ =>
      Request.check_plain hk rfl rfl
    rcases Tree.error_of_setattr he with hrefused | ⟨-, hf, hsize⟩
    · exact hrefused
    · simp [Tree.tooLong, hf, hsize] at hlong
  | read ino offset size _ =>
    refine satisfies_answering hr' (fun _ => Tree.refuses_read ino offset size fs.tree)
      fun _ data hdata => Request.check_data hk hl ?_
    obtain ⟨n, -, rfl⟩ := ((Tree.looks_read ino offset size fs.tree).of_ok (Prod.ext hdata rfl)).2
    rw [List.length_take]
    exact Nat.min_le_left _ _
  | write ino offset data _ =>
    refine satisfies_answering hr' (fun now e he => ?_) fun _ n hn => ?_
    · rcases Tree.error_of_write he with hrefused | ⟨-, hf, hstart, hstop⟩
      · exact hrefused
      · simp [Tree.tooLong, hf, hstart, hstop] at hlong
    · rw [Tree.written_eq hn]
      exact Request.check_write hk hl
  | readdir ino offset size _ =>
    exact satisfies_answering hr' (fun _ => Tree.refuses_entries ino fs.tree)
      fun _ entries _ => Request.check_page hk hl offset entries
  | flush | release | fsync | releasedir | statfs =>
    exact Outcome.satisfies_reply (Request.check_plain hk rfl rfl)
  | _ => exact Outcome.satisfies_error hr' rfl

/-- Where a file would get too long, there is no memory for it. -/
theorem handle_of_tooLong {op : Operation} (hs : fs.tree.Short) (h : fs.tree.tooLong op = true) :
    (fs.handle r op).2 = .panicked (.fault .capacityOverflow) := by
  cases op with
  | setattr ino set =>
    obtain ⟨hf, hsize⟩ : fs.tree.isFile ino = true ∧ _ := by simpa [Tree.tooLong] using h
    exact answering_of_error fun now => Tree.setattr_on_long hs now hf (by simpa using hsize)
  | write ino offset data _ =>
    obtain ⟨hf, hstart, hstop⟩ : fs.tree.isFile ino = true ∧ _ ∧ _ := by
      simpa [Tree.tooLong] using h
    exact answering_of_error fun now => Tree.write_on_long hs now hf hstart hstop
  | _ => cases h

/-- Where a write would end past the last place, it is refused. -/
theorem handle_of_tooFar {op : Operation} (h : fs.tree.tooFar op = true) :
    (fs.handle r op).2 = .error .efbig := by
  cases op with
  | write ino offset data _ =>
    obtain ⟨hf, hstop⟩ : fs.tree.isFile ino = true ∧ _ := by simpa [Tree.tooFar] using h
    exact answering_of_error fun now => Tree.write_on_far now hf hstop
  | _ => cases h

end Fuse.MemFs
