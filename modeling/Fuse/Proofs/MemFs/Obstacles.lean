-- What stands in the way of a rename. Its checks meet the obstacles in their order: it fails
-- with the number of the first that is there, and when none is there it succeeds.
import Fuse.Proofs.MemFs.Climbing
import Fuse.Proofs.MemFs.Refusals

namespace Fuse.MemFs

/-! ## The first that holds -/

namespace First

variable {obs obs' : List (Prop × Errno)} {e e' : Errno}

/-- One of the conditions with the number holds. -/
theorem exists_condition (h : First obs e) : ∃ p, (p, e) ∈ obs ∧ p := by
  induction h with
  | here h => exact ⟨_, List.mem_cons_self, h⟩
  | later _ _ ih =>
    obtain ⟨p, hmem, hp⟩ := ih
    exact ⟨p, List.mem_cons_of_mem _ hmem, hp⟩

/-- One of the conditions holds. -/
theorem exists_mem (h : First obs e) : ∃ o ∈ obs, o.1 := by
  obtain ⟨p, hmem, hp⟩ := h.exists_condition
  exact ⟨(p, e), hmem, hp⟩

theorem unique (h : First obs e) (h' : First obs e') : e' = e := by
  induction h with
  | here h =>
    cases h' with
    | here _ => rfl
    | later hn _ => exact absurd h hn
  | later hn _ ih =>
    cases h' with
    | here h => exact absurd h hn
    | later _ r => exact ih r

theorem append_left (h : First obs e) : First (obs ++ obs') e := by
  induction h with
  | here h => exact .here h
  | later hn _ ih => exact .later hn ih

theorem append_right (hn : ∀ o ∈ obs, ¬o.1) (h : First obs' e) : First (obs ++ obs') e := by
  induction obs with
  | nil => exact h
  | cons o obs ih =>
    exact .later (hn o List.mem_cons_self) (ih fun o ho => hn o (List.mem_cons_of_mem _ ho))

end First

/-! ## Changes with obstacles -/

namespace Change

variable {α β : Type} {t : Tree} {obs obs' : List (Prop × Errno)}

/-- The change fails with the error number of the first of these obstacles that is there, and
leaves the tree as it was; or none is there, and it succeeds with this. -/
def Faces (c : Change α) (t : Tree) (obs : List (Prop × Errno)) (P : α → Tree → Prop) : Prop :=
  (∃ e, First obs e ∧ c.on t = (.error (.errno e), t)) ∨
    (∀ o ∈ obs, ¬o.1) ∧ ∃ a t', c.on t = (.ok a, t') ∧ P a t'

theorem faces_of_on {c : Change α} {a : α} {t' : Tree} {P : α → Tree → Prop}
    (h : c.on t = (.ok a, t')) (hp : P a t') : c.Faces t [] P :=
  Or.inr ⟨nofun, a, t', h, hp⟩

/-- An obstacle is there. -/
theorem faces_met {c : Change α} {p : Prop} {e : Errno} {P : α → Tree → Prop} (hp : p)
    (h : c.on t = (.error (.errno e), t)) : c.Faces t ((p, e) :: obs) P :=
  Or.inl ⟨e, .here hp, h⟩

/-- An obstacle is not there. -/
theorem Faces.skip {c : Change α} {p : Prop} {e : Errno} {P : α → Tree → Prop}
    (h : c.Faces t obs P) (hp : ¬p) : c.Faces t ((p, e) :: obs) P := by
  rcases h with ⟨e', he, hon⟩ | ⟨hnone, hon⟩
  · exact Or.inl ⟨e', .later hp he, hon⟩
  · refine Or.inr ⟨fun o ho => ?_, hon⟩
    rcases List.mem_cons.mp ho with rfl | ho
    · exact hp
    · exact hnone o ho

/-- What is looked at first may be used after that, and that no obstacle was there. -/
theorem Faces.bind_clear {c : Change α} {f : α → Change β} {Q : α → Prop} {P : β → Tree → Prop}
    (h : c.Faces t obs fun a t' => t' = t ∧ Q a)
    (hf : (∀ o ∈ obs, ¬o.1) → ∀ a, Q a → (f a).Faces t obs' P) :
    (c >>= f).Faces t (obs ++ obs') P := by
  rcases h with ⟨e, he, hon⟩ | ⟨hnone, a, t', ha, rfl, hq⟩
  · exact Or.inl ⟨e, he.append_left, on_bind_of_error hon f⟩
  · unfold Faces
    rw [on_bind_of_ok ha f]
    rcases hf hnone a hq with ⟨e, he, hon⟩ | ⟨hnone', hon⟩
    · exact Or.inl ⟨e, he.append_right hnone, hon⟩
    · refine Or.inr ⟨fun o ho => ?_, hon⟩
      rcases List.mem_append.mp ho with ho | ho
      · exact hnone o ho
      · exact hnone' o ho

theorem Faces.bind {c : Change α} {f : α → Change β} {Q : α → Prop} {P : β → Tree → Prop}
    (h : c.Faces t obs fun a t' => t' = t ∧ Q a) (hf : ∀ a, Q a → (f a).Faces t obs' P) :
    (c >>= f).Faces t (obs ++ obs') P :=
  h.bind_clear fun _ => hf

/-- What follows a change must not fail any more. -/
theorem Faces.andThen {c : Change α} {f : α → Change β} {P : α → Tree → Prop}
    {Q : β → Tree → Prop} (h : c.Faces t obs P)
    (hf : ∀ a t', P a t' → ∃ b t'', (f a).on t' = (.ok b, t'') ∧ Q b t'') :
    (c >>= f).Faces t obs Q := by
  rcases h with ⟨e, he, hon⟩ | ⟨hnone, a, t', ha, hp⟩
  · exact Or.inl ⟨e, he, on_bind_of_error hon f⟩
  · unfold Faces
    rw [on_bind_of_ok ha f]
    exact Or.inr ⟨hnone, hf a t' hp⟩

/-- What cannot fail is no obstacle. -/
theorem faces_bind_of_ok {c : Change α} {a : α} {f : α → Change β} {P : β → Tree → Prop}
    (h : c.on t = (.ok a, t)) (hf : (f a).Faces t obs P) : (c >>= f).Faces t obs P := by
  unfold Faces
  rw [on_bind_of_ok h f]
  exact hf

theorem Faces.mono {c : Change α} {P Q : α → Tree → Prop} (h : c.Faces t obs P)
    (hpq : ∀ a t', P a t' → Q a t') : c.Faces t obs Q :=
  h.imp id fun ⟨hnone, a, t', ha, hp⟩ => ⟨hnone, a, t', ha, hpq a t' hp⟩

/-- What is known of the success may be added. -/
theorem Faces.and {c : Change α} {P Q : α → Tree → Prop} (h : c.Faces t obs P)
    (y : c.Yields t Q) : c.Faces t obs fun a t' => P a t' ∧ Q a t' := by
  refine h.imp id fun ⟨hnone, a, t', ha, hp⟩ => ⟨hnone, a, t', ha, hp, ?_⟩
  rcases y with ⟨e, he⟩ | ⟨b, u, hb, hq⟩
  · rw [ha] at he
    cases he
  · rw [ha] at hb
    cases hb
    exact hq

/-- A check comes before what is done. -/
theorem faces_unless {C p : Prop} [Decidable C] {e : Errno} {f : α → Change β} {c : Change β}
    {P : β → Tree → Prop} (hp : C ↔ p) (h : ¬C → c.Faces t obs P) :
    (if C then Tree.fail e >>= f else c).Faces t ((p, e) :: obs) P := by
  split
  · rename_i hc
    exact faces_met (hp.mp hc) (on_bind_of_error (on_throw _ t) f)
  · rename_i hc
    exact (h hc).skip fun hp' => hc (hp.mpr hp')

/-- A check that is only made in some cases. -/
theorem faces_when {b : Bool} {c : Change Unit} {f : Unit → Change β} {p : Prop} {e : Errno}
    {P : β → Tree → Prop} (hc : b = true → c.Faces t [(p, e)] fun _ t' => t' = t ∧ True)
    (hp : b = false → ¬p) (h : (f ()).Faces t obs P) :
    (if b = true then c >>= f else f ()).Faces t ((p, e) :: obs) P := by
  cases b with
  | true =>
    rw [if_pos rfl]
    exact (hc rfl).bind fun _ _ => h
  | false =>
    rw [if_neg Bool.false_ne_true]
    exact h.skip (hp rfl)

end Change

namespace Tree

open Change

variable {t : Tree} {given : Nat} {parent newParent ino other : Inode} {name newName : Name}

theorem HasEntry.unique {dir i j : Inode} {x : Name} (h : t.HasEntry dir x i)
    (h' : t.HasEntry dir x j) : j = i := by
  rw [hasEntry_iff] at h h'
  rw [h] at h'
  exact (Option.some.inj h').symm

/-! ## The checks -/

/-- The only flag that is understood is that nothing may be replaced. -/
theorem foreign_flags_iff (flags : UInt32) :
    flags &&& ~~~renameNoreplace ≠ 0 ↔ flags ≠ 0 ∧ flags ≠ renameNoreplace := by
  constructor
  · intro h
    constructor <;> rintro rfl <;> exact absurd rfl h
  · rintro ⟨hzero, hone⟩ h
    have hrest : flags.toNat &&& (2 ^ 32 - 2) = 0 := congrArg UInt32.toNat h
    have hlast : flags.toNat = flags.toNat % 2 := by
      calc flags.toNat = flags.toNat &&& (2 ^ 32 - 1) :=
            (Nat.and_two_pow_sub_one_of_lt_two_pow flags.toNat_lt).symm
        _ = flags.toNat &&& (1 ||| (2 ^ 32 - 2)) := rfl
        _ = flags.toNat % 2 := by
            rw [Nat.and_or_distrib_left, hrest, Nat.or_zero, Nat.and_one_is_mod]
    have hcases : flags.toNat = 0 ∨ flags.toNat = 1 := by omega
    rcases hcases with h0 | h1
    · exact hzero (UInt32.toNat_inj.mp h0)
    · exact hone (UInt32.toNat_inj.mp h1)

theorem noreplace_iff {flags : UInt32} (h : ¬flags &&& ~~~renameNoreplace ≠ 0) :
    flags &&& renameNoreplace ≠ 0 ↔ flags = renameNoreplace := by
  rw [foreign_flags_iff] at h
  by_cases hzero : flags = 0
  · rw [hzero]
    decide
  · have hone : flags = renameNoreplace := Classical.byContradiction fun hone => h ⟨hzero, hone⟩
    rw [hone]
    decide

theorem faces_node (ino : Inode) (t : Tree) :
    (node ino).Faces t [(t.node? ino = none, .enoent)] fun n t' =>
      t' = t ∧ t.node? ino = some n := by
  cases hn : t.node? ino with
  | none =>
    refine faces_met rfl ?_
    unfold node
    rw [on_bind_of_ok (on_get t), hn]
    rfl
  | some n => exact (faces_of_on (node_on hn) ⟨rfl, rfl⟩).skip (Option.some_ne_none n)

theorem faces_directory (dir : Inode) (t : Tree) :
    (directory dir).Faces t (t.unusable dir) fun d t' =>
      t' = t ∧ t.node? dir = some d ∧ d.isDir = true := by
  unfold directory
  apply (faces_node dir t).bind
  intro d hd
  have hdir := isDirectory_of_node hd
  cases hk : d.isDir with
  | false => exact faces_met (hdir.trans hk) rfl
  | true => exact (faces_of_on rfl ⟨rfl, hd, hk⟩).skip (by rw [hdir, hk]; exact Bool.noConfusion)

theorem directory_on {dir : Inode} {d : Node} (h : t.node? dir = some d) (hd : d.isDir = true) :
    (directory dir).on t = (.ok d, t) := by
  unfold directory
  rw [on_bind_of_ok (node_on h), if_pos hd]
  rfl

theorem faces_child (parent : Inode) (name : Name) (t : Tree) :
    (child parent name).Faces t (t.unfound parent name) fun ino t' =>
      t' = t ∧ t.HasEntry parent name ino := by
  unfold child
  apply (faces_directory parent t).bind
  rintro d ⟨hd, -⟩
  cases hget : d.children.get? name with
  | none =>
    refine faces_met (fun ino hino => ?_) rfl
    rw [hasEntry_iff, target?_eq hd, hget] at hino
    cases hino
  | some ino =>
    have hino : t.HasEntry parent name ino := ⟨d, hd, hget⟩
    exact (faces_of_on rfl ⟨rfl, hino⟩).skip fun hnone => hnone ino hino

/-- A directory must not get below itself. -/
theorem faces_checkOutside (h : t.Hangs) (hroot : ino ≠ rootInode)
    (hplace : (t.node? newParent).isSome = true) {p : Prop} (hp : t.Within ino newParent ↔ p) :
    (checkOutside ino newParent).Faces t [(p, .einval)] fun _ t' => t' = t ∧ True := by
  obtain ⟨b, hclimb, hb⟩ := h.climb_eq hroot hplace
  unfold checkOutside
  refine faces_bind_of_ok (on_get t) ?_
  rw [hclimb]
  cases b with
  | true => exact faces_met (hp.mp (hb.mp rfl)) rfl
  | false =>
    refine (faces_of_on rfl ⟨rfl, trivial⟩).skip fun hp' => ?_
    cases hb.mpr (hp.mpr hp')

/-! ## What stands in the way -/

/-- The obstacles that the checks of a rename find. That a directory is not empty is found
when it is removed. -/
def checked (t : Tree) (parent : Inode) (name : Name) (newParent : Inode) (newName : Name)
    (flags : UInt32) : List (Prop × Errno) :=
  (flags ≠ 0 ∧ flags ≠ renameNoreplace, .einval) ::
    (t.unfound parent name ++ (t.unusable newParent ++
      (∃ ino, t.HasEntry parent name ino ∧ t.isDirectory ino = true ∧ t.Within ino newParent,
        .einval) :: t.hindrances parent name newParent newName flags))

theorem obstacles_eq (t : Tree) (parent : Inode) (name : Name) (newParent : Inode)
    (newName : Name) (flags : UInt32) :
    t.obstacles parent name newParent newName flags =
      t.checked parent name newParent newName flags ++
        [(∃ ino other, t.Clash parent name newParent newName ino other ∧
          ∃ inner j, t.HasEntry other inner j, .enotempty)] := rfl

theorem Clash.iff {P : Inode → Inode → Prop} (h : t.Clash parent name newParent newName ino other) :
    (∃ i j, t.Clash parent name newParent newName i j ∧ P i j) ↔ P ino other := by
  refine ⟨fun ⟨i, j, ⟨hi, hj, _⟩, hp⟩ => ?_, fun hp => ⟨ino, other, h, hp⟩⟩
  rw [← h.1.unique hi, ← h.2.1.unique hj]
  exact hp

/-- A free place, or the node's own, is no other node's. -/
theorem not_clash {P : Inode → Inode → Prop} (hino : t.HasEntry parent name ino)
    (hown : ∀ j, t.HasEntry newParent newName j → j = ino) :
    ¬∃ i j, t.Clash parent name newParent newName i j ∧ P i j := by
  rintro ⟨i, j, ⟨hi, hj, hne⟩, -⟩
  exact hne ((hown j hj).trans (hi.unique hino))

theorem not_hindered (hino : t.HasEntry parent name ino)
    (hown : ∀ j, t.HasEntry newParent newName j → j = ino) (flags : UInt32) :
    ∀ o ∈ t.hindrances parent name newParent newName flags, ¬o.1 := by
  unfold hindrances
  simp only [List.forall_mem_cons]
  exact ⟨not_clash hino hown, not_clash hino hown, not_clash hino hown, nofun⟩

theorem within_iff_of_entry {n : Node} (hino : t.HasEntry parent name ino)
    (hn : t.node? ino = some n) (place : Inode) :
    (∃ i, t.HasEntry parent name i ∧ t.isDirectory i = true ∧ t.Within i place) ↔
      n.isDir = true ∧ t.Within ino place := by
  have hdir := isDirectory_of_node hn
  constructor
  · rintro ⟨i, hi, hi', hw⟩
    obtain rfl := hino.unique hi
    exact ⟨hdir.symm.trans hi', hw⟩
  · rintro ⟨hk, hw⟩
    exact ⟨ino, hino, hdir.trans hk, hw⟩

theorem faces_plan (h : t.Shape given) (parent : Inode) (name : Name) (newParent : Inode)
    (newName : Name) (flags : UInt32) :
    (plan parent name newParent newName flags).Faces t
      (t.checked parent name newParent newName flags) fun _ t' => t' = t ∧ True := by
  unfold plan checked
  refine faces_unless (foreign_flags_iff flags) fun hflags => ?_
  refine (faces_child parent name t).bind fun ino hino => ?_
  refine (faces_directory newParent t).bind fun e ⟨he, hedir⟩ => ?_
  obtain ⟨hroot, b, hb⟩ := h.hangs.entry (hasEntry_iff.mp hino)
  obtain ⟨n, hn, -⟩ := node?_of_stand? hb
  have hwithin := within_iff_of_entry hino hn newParent
  refine faces_bind_of_ok (node_on hn) (faces_when (fun hk => ?_) (fun hk hp => ?_) ?_)
  · refine faces_checkOutside h.hangs hroot (Option.isSome_of_eq_some he) ?_
    rw [hwithin]
    exact (and_iff_right hk).symm
  · rw [(hwithin.mp hp).1] at hk
    cases hk
  refine faces_bind_of_ok (directory_on he hedir) ?_
  cases htarget : e.children.get? newName with
  | none =>
    refine Or.inr ⟨not_hindered hino (fun j hj => ?_) flags, _, t, rfl, rfl, trivial⟩
    rw [hasEntry_iff, target?_eq he, htarget] at hj
    cases hj
  | some other =>
    have hother : t.HasEntry newParent newName other := ⟨e, he, htarget⟩
    dsimp only
    by_cases hsame : other = ino
    · subst hsame
      rw [if_pos rfl]
      exact Or.inr ⟨not_hindered hino (fun _ => hother.unique) flags, none, t, rfl, rfl, trivial⟩
    · rw [if_neg hsame]
      have hclash : t.Clash parent name newParent newName ino other := ⟨hino, hother, hsame⟩
      obtain ⟨m, hm⟩ := h.hangs.child he htarget
      have hkinds (b b' : Bool) : (∃ i j, t.Clash parent name newParent newName i j ∧
          t.isDirectory i = b ∧ t.isDirectory j = b') ↔ n.isDir = b ∧ m.isDir = b' := by
        rw [hclash.iff (P := fun i j => t.isDirectory i = b ∧ t.isDirectory j = b'),
          isDirectory_of_node hn, isDirectory_of_node hm]
      refine faces_unless ((noreplace_iff hflags).trans
        (hclash.iff (P := fun _ _ => flags = renameNoreplace)).symm) fun _ => ?_
      refine faces_bind_of_ok (node_on hm) ?_
      refine faces_unless (by rw [hkinds]; simp) fun _ => ?_
      refine faces_unless (by rw [hkinds]; simp) fun _ => ?_
      exact faces_of_on rfl ⟨rfl, trivial⟩

/-! ## Making room -/

theorem exists_entry_iff {n : Node} (hn : t.node? ino = some n)
    (hfile : n.isDir = false → n.children = []) :
    (n.isDir && !n.children.isEmpty) = true ↔ ∃ x j, t.HasEntry ino x j := by
  have hentry (x : Name) (j : Inode) : t.HasEntry ino x j ↔ n.children.get? x = some j := by
    rw [hasEntry_iff, target?_eq hn]
  simp only [hentry]
  cases hchildren : n.children with
  | nil =>
    rw [Bool.and_eq_true]
    constructor
    · rintro ⟨-, hfull⟩
      cases hfull
    · rintro ⟨x, j, hj⟩
      cases hj
  | cons p rest =>
    have hdir : n.isDir = true := by
      cases hk : n.isDir with
      | true => rfl
      | false =>
        rw [hfile hk] at hchildren
        cases hchildren
    rw [hdir]
    exact ⟨fun _ => ⟨p.1, p.2, by rw [KeyedList.get?_cons, if_pos rfl]⟩, fun _ => rfl⟩

theorem faces_remove (now : Timestamp) {n : Node} (h : t.Shape given)
    (hino : t.HasEntry parent name ino) (hn : t.node? ino = some n) :
    (remove now parent name n.isDir).Faces t [(∃ x j, t.HasEntry ino x j, .enotempty)]
      fun _ _ => True := by
  obtain ⟨d, hd, hget⟩ := hino
  have hfile := (h.fits ino n hn).childless
  have hself : parent ≠ ino := Ne.symm (h.hangs.entry_ne ((target?_eq hd name).trans hget))
  have hchild : (child parent name).on t = (.ok ino, t) := by
    unfold child
    rw [on_bind_of_ok (directory_on hd (h.isDir_of_child hd hget)), hget]
    rfl
  unfold remove
  refine faces_bind_of_ok hchild (faces_bind_of_ok (node_on hn) ?_)
  rw [if_neg (by simp), if_neg (by simp)]
  refine faces_unless (exists_entry_iff hn hfile) fun _ => ?_
  exact faces_of_on (removal_on hd hself _) trivial

/-- What is not hindered replaces a node of its own kind. -/
theorem same_kind {flags : UInt32} (hclash : t.Clash parent name newParent newName ino other)
    (hfree : ∀ o ∈ t.hindrances parent name newParent newName flags, ¬o.1) :
    t.isDirectory other = t.isDirectory ino := by
  unfold hindrances at hfree
  simp only [List.forall_mem_cons] at hfree
  obtain ⟨-, hover, hunder, -⟩ := hfree
  cases hi : t.isDirectory ino with
  | true =>
    cases hj : t.isDirectory other with
    | true => rfl
    | false => exact absurd ⟨ino, other, hclash, hi, hj⟩ hunder
  | false =>
    cases hj : t.isDirectory other with
    | true => exact absurd ⟨ino, other, hclash, hi, hj⟩ hover
    | false => rfl

theorem faces_makeRoom (now : Timestamp) {flags : UInt32} {p : Plan} (h : t.Shape given)
    (hp : Planned t parent name newParent newName p)
    (hfree : ∀ o ∈ t.hindrances parent name newParent newName flags, ¬o.1) :
    (makeRoom now newParent newName p).Faces t
      [(∃ ino other, t.Clash parent name newParent newName ino other ∧
        ∃ x j, t.HasEntry other x j, .enotempty)] fun _ _ => True := by
  obtain ⟨d, hd, -, hget⟩ := hp.child
  obtain ⟨e, he, hedir, hopen, htaken⟩ := hp.place
  obtain ⟨n, hn, hk⟩ := hp.node
  have hino : t.HasEntry parent name p.ino := ⟨d, hd, hget⟩
  unfold makeRoom
  cases hr : p.replaces with
  | false =>
    refine (faces_of_on rfl trivial).skip ?_
    rintro ⟨i, j, ⟨-, hj, -⟩, -⟩
    rw [hasEntry_iff, target?_eq he, hopen hr] at hj
    cases hj
  | true =>
    obtain ⟨other, hget', hne⟩ := htaken hr
    have hother : t.HasEntry newParent newName other := ⟨e, he, hget'⟩
    have hclash : t.Clash parent name newParent newName p.ino other := ⟨hino, hother, hne⟩
    obtain ⟨m, hm⟩ := h.hangs.child he hget'
    have hkind : m.isDir = p.dir := by
      have hsame := same_kind hclash hfree
      rw [isDirectory_of_node hm, isDirectory_of_node hn, hk] at hsame
      exact hsame
    have hremove := faces_remove now h hother hm
    rw [hkind] at hremove
    rw [hclash.iff (P := fun _ other => ∃ x j, t.HasEntry other x j)]
    exact hremove

/-! ## The whole rename -/

theorem faces_rename (now : Timestamp) (h : t.Shape given) (parent : Inode) (name : Name)
    (newParent : Inode) (newName : Name) (flags : UInt32) :
    (rename now parent name newParent newName flags).Faces t
      (t.obstacles parent name newParent newName flags) fun _ t' =>
        ∃ ino, t.HasEntry parent name ino ∧ (t.HasEntry newParent newName ino ∧ t' = t ∨
          ¬t.HasEntry newParent newName ino ∧ ∃ n u, t.node? ino = some n ∧
            t.isDirectory newParent = true ∧
            (n.isDir = true → t.climb ino (t.nodes.length + 1) newParent = some (.ok false)) ∧
            Cleared now newParent newName ino n.isDir t u ∧
            t' = u.moved now parent name newParent newName ino n.isDir) := by
  rw [rename_eq, obstacles_eq]
  have hplan : (plan parent name newParent newName flags).Faces t
      (t.checked parent name newParent newName flags) fun o t' =>
        t' = t ∧ Decided t parent name newParent newName flags o := by
    refine ((faces_plan h parent name newParent newName flags).and
      (looks_plan parent name newParent newName flags t)).mono ?_
    rintro o t' ⟨⟨ht, -⟩, -, -, ho⟩
    exact ⟨ht, ho⟩
  refine hplan.bind_clear ?_
  intro hclear o ho
  cases o with
  | none =>
    obtain ⟨ino, hino, hino'⟩ := ho
    exact (faces_of_on rfl ⟨ino, hino, Or.inl ⟨hino', rfl⟩⟩).skip
      (not_clash hino fun _ => hino'.unique)
  | some p =>
    have hp := ho.1
    obtain ⟨d, hd, -, hget⟩ := hp.child
    obtain ⟨n, hn, hk⟩ := hp.node
    obtain ⟨e, he, hedir, hopen, htaken⟩ := hp.place
    have hfree : ∀ o ∈ t.hindrances parent name newParent newName flags, ¬o.1 := fun o ho =>
      hclear o (by unfold checked; simp [ho])
    refine ((faces_makeRoom now h hp hfree).and (yields_makeRoom now hp)).andThen ?_
    rintro _ u ⟨-, hc⟩
    refine ⟨(), _, relocate_on hp hc, p.ino, ⟨d, hd, hget⟩, Or.inr ⟨?_, n, u, hn, ?_, ?_, ?_, ?_⟩⟩
    · rw [hasEntry_iff, target?_eq he]
      cases hr : p.replaces with
      | false => rw [hopen hr]; exact nofun
      | true =>
        obtain ⟨other, hother, hne⟩ := htaken hr
        rw [hother]
        exact fun hsame => hne (Option.some.inj hsame)
    · rw [isDirectory_of_node he]
      exact hedir
    · rw [hk]
      exact hp.outside
    · rw [hk]
      exact hc
    · rw [hk]

/-- Nothing stands in the way of a node that has the new name already, not even that nothing
may be replaced. -/
theorem clear_of_same_node {flags : UInt32} (h : t.Shape given)
    (hflags : flags = 0 ∨ flags = renameNoreplace) (hino : t.HasEntry parent name ino)
    (hino' : t.HasEntry newParent newName ino) :
    ∀ o ∈ t.obstacles parent name newParent newName flags, ¬o.1 := by
  have husable {dir : Inode} {x : Name} (he : t.HasEntry dir x ino) :
      ∀ o ∈ t.unusable dir, ¬o.1 := by
    obtain ⟨d, hd, hget⟩ := he
    unfold unusable
    rw [hd, isDirectory_of_node hd, h.isDir_of_child hd hget]
    simp
  have hwithin : ¬∃ i, t.HasEntry parent name i ∧ t.isDirectory i = true ∧
      t.Within i newParent := by
    rintro ⟨i, hi, -, hw⟩
    obtain rfl := hino.unique hi
    exact h.hangs.not_within_child hino' hw
  have hown (j : Inode) (hj : t.HasEntry newParent newName j) : j = ino := hino'.unique hj
  unfold obstacles unfound
  simp only [List.forall_mem_cons, List.forall_mem_append]
  exact ⟨fun ⟨hzero, hone⟩ => hflags.elim hzero hone,
    ⟨husable hino, fun hnone => hnone ino hino, nofun⟩,
    husable hino', hwithin, not_hindered hino hown flags, not_clash hino hown, nofun⟩

theorem clear_of_same (h : t.Shape given) (hino : t.HasEntry parent name ino)
    (hino' : t.HasEntry newParent newName ino) :
    ∀ o ∈ t.obstacles parent name newParent newName 0, ¬o.1 :=
  clear_of_same_node h (Or.inl rfl) hino hino'

theorem faces_lookup (h : t.Shape given) (parent : Inode) (name : Name) :
    (lookup parent name).Faces t (t.unfound parent name) fun _ _ => True := by
  unfold lookup
  have hrest (ino : Inode) (hino : t.HasEntry parent name ino) :
      (do return (← node ino).attr : Change Attr).Faces t [] fun _ _ => True := by
    obtain ⟨-, b, hb⟩ := h.hangs.entry (hasEntry_iff.mp hino)
    obtain ⟨n, hn, -⟩ := node?_of_stand? hb
    exact faces_bind_of_ok (node_on hn) (faces_of_on rfl trivial)
  have hall := (faces_child parent name t).bind hrest
  rwa [List.append_nil] at hall

end Tree

end Fuse.MemFs
