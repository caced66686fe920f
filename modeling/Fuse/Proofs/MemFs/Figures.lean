-- The figures of a tree: how many links and how much data each node has, and which
-- numbers are given out. Links are counted over the children that are directories, so
-- what happens to one node is counted in its parent.
import Fuse.Proofs.MemFs.Hanging

namespace Fuse.MemFs.Tree

variable {t t' : Tree}

/-! ## One node -/

/-- The node is the one with the number, and its figures are right if these are the
directories. -/
structure Fits (dirs : Inode → Bool) (ino : Inode) (n : Node) : Prop where
  sorted : n.children.Sorted
  childless : n.isDir = false → n.children = []
  links : n.isDir = true → n.attr.nlink = .ofNat (n.children.countP (fun p => dirs p.2) + 2)
  link : n.isDir = false → n.attr.nlink = 1
  sized : Sized n
  number : n.attr.ino = ino

namespace Fits

variable {dirs : Inode → Bool} {ino dir : Inode} {n d : Node} {name : Name}

/-- Only the children matter. -/
theorem congr {dirs' : Inode → Bool} (h : Fits dirs ino n)
    (hd : ∀ x j, n.children.get? x = some j → dirs' j = dirs j) : Fits dirs' ino n := by
  refine ⟨h.sorted, h.childless, fun hdir => ?_, h.link, h.sized, h.number⟩
  have hcount : n.children.countP (fun p => dirs' p.2) = n.children.countP fun p => dirs p.2 := by
    apply List.countP_congr
    rintro ⟨x, j⟩ hp
    rw [hd x j ((KeyedList.get?_eq_some_iff h.sorted).mpr hp)]
  rw [hcount]
  exact h.links hdir

theorem akin {n' : Node} (h : Fits dirs ino n) (a : Akin n n') (hs : Sized n') :
    Fits dirs ino n' := by
  have hkind : n'.isDir = n.isDir := congrArg (· == .directory) a.kind
  refine ⟨?_, ?_, ?_, ?_, hs, a.number.trans h.number⟩
  · rw [a.children]
    exact h.sorted
  · rw [hkind, a.children]
    exact h.childless
  · rw [hkind, a.nlink, a.children]
    exact h.links
  · rw [hkind, a.nlink]
    exact h.link

theorem withChild (now : Timestamp) (h : Fits dirs dir d) (hd : d.isDir = true)
    (hn : d.children.get? name = none) (ino : Inode) :
    Fits dirs dir (withChild now name ino (dirs ino) d) := by
  have hnot : d.isDir ≠ false := by simp [hd]
  refine ⟨KeyedList.sorted_insert name ino h.sorted, fun hf => absurd hf hnot, fun _ => ?_,
    fun hf => absurd hf hnot, ⟨h.sized.size, h.sized.blocks, h.sized.short⟩, h.number⟩
  have hlinks := h.links hd
  have hcount := KeyedList.countP_insert hn ino fun p => dirs p.2
  unfold Tree.withChild
  dsimp only
  rw [hcount, hlinks]
  cases dirs ino with
  | true => rw [if_pos rfl, if_pos rfl, Nat.add_right_comm _ 1 2, UInt32.ofNat_add (_ + 2) 1]; rfl
  | false => rw [if_neg (by simp), if_neg (by simp)]

theorem withoutChild (now : Timestamp) (h : Fits dirs dir d) (hd : d.isDir = true)
    (hn : d.children.get? name = some ino) :
    Fits dirs dir (withoutChild now name (dirs ino) d) := by
  have hnot : d.isDir ≠ false := by simp [hd]
  refine ⟨KeyedList.sorted_erase name h.sorted, fun hf => absurd hf hnot, fun _ => ?_,
    fun hf => absurd hf hnot, ⟨h.sized.size, h.sized.blocks, h.sized.short⟩, h.number⟩
  have hlinks := h.links hd
  rw [KeyedList.countP_erase h.sorted hn fun p => dirs p.2] at hlinks
  unfold Tree.withoutChild
  dsimp only
  rw [hlinks]
  cases dirs ino with
  | true =>
    rw [if_pos rfl, if_pos rfl, Nat.add_right_comm _ 1 2, UInt32.ofNat_add (_ + 2) 1]
    exact UInt32.add_sub_cancel _ _
  | false => rw [if_neg (by simp), if_neg (by simp)]

theorem placed (now : Timestamp) (parent : Inode) (h : Fits dirs ino n) :
    Fits dirs ino (placed now parent n) :=
  ⟨h.sorted, h.childless, h.links, h.link, ⟨h.sized.size, h.sized.blocks, h.sized.short⟩,
    h.number⟩

/-- A new node fits. -/
theorem fresh (dirs : Inode → Bool) (now : Timestamp) (ino : Inode) (kind : FileType)
    (perm : UInt16) (owner : Owner) (parent : Inode) :
    Fits dirs ino { attr := freshAttr now ino kind perm owner, parent } := by
  refine ⟨List.Pairwise.nil, fun _ => rfl, fun hd => ?_, fun hf => ?_,
    ⟨rfl, show (0 : UInt64) = .ofNat ((0 + 511) / 512) by decide, show 0 < capacity by decide⟩,
    rfl⟩
  · have hkind : kind = .directory := beq_iff_eq.mp hd
    rw [hkind]
    rfl
  · have hkind : kind ≠ .directory := ne_of_beq_false hf
    exact if_neg hkind

end Fits

/-- All nodes fit after a change of one that fits. -/
theorem fits_adjust {dirs : Inode → Bool} {ino : Inode} {f : Node → Node}
    (h : ∀ i n, t.node? i = some n → Fits dirs i n)
    (hf : ∀ n, t.node? ino = some n → Fits dirs ino (f n)) (i : Inode) (n : Node)
    (hn : (t.adjust ino f).node? i = some n) : Fits dirs i n := by
  rw [node?_adjust] at hn
  split at hn
  · rename_i hi
    subst hi
    obtain ⟨m, hm, rfl⟩ := Option.map_eq_some_iff.mp hn
    exact hf m hm
  · exact h i n hn

/-! ## The whole tree -/

/-- The nodes hang together, their figures are right, and their numbers are among those
that were given out. The root has the first number. -/
structure Shape (t : Tree) (given : Nat) : Prop where
  sorted : t.nodes.Sorted
  hangs : t.Hangs
  fits : ∀ i n, t.node? i = some n → Fits t.isDirectory i n
  below : ∀ i n, t.node? i = some n → i.toNat < given + 2
  next : t.next = .ofNat (given + 2)

/-- What is moved stays what it is. -/
theorem isDirectory_moved (now : Timestamp) (parent : Inode) (name : Name) (newParent : Inode)
    (newName : Name) (ino : Inode) (b : Bool) (t : Tree) (i : Inode) :
    (t.moved now parent name newParent newName ino b).isDirectory i = t.isDirectory i := by
  unfold Tree.moved
  rw [isDirectory_eq, isDirectory_eq, stand?_placed, stand?_withChild, stand?_withoutChild]
  split
  · exact Option.any_map
  · rfl

theorem shape_root (now : Timestamp) (owner : Owner) : (root now owner).Shape 0 := by
  refine ⟨List.pairwise_singleton _ _, hangs_root now owner, ?_, ?_, rfl⟩
  · intro i n hn
    rw [node?_root] at hn
    split at hn
    · rename_i hi
      cases hn
      rw [hi]
      exact Fits.fresh ..
    · cases hn
  · intro i n hn
    rw [node?_root] at hn
    split at hn
    · rename_i hi
      rw [hi]
      decide
    · cases hn

namespace Shape

variable {given : Nat}

/-- The next number is not in use, as long as there is one. -/
theorem node?_next (h : t.Shape given) (hg : given + 2 < UInt64.size) :
    t.node? t.next = none := by
  rw [Option.eq_none_iff_forall_not_mem]
  intro n hn
  have hbelow := h.below t.next n hn
  rw [h.next, UInt64.toNat_ofNat_of_lt' hg] at hbelow
  omega

/-- What is empty if it is a directory has no children. -/
theorem bare {i : Inode} {n : Node} (h : t.Shape given) (hn : t.node? i = some n)
    (hempty : n.isDir = true → n.children = []) : n.children = [] := by
  cases hd : n.isDir with
  | true => exact hempty hd
  | false => exact (h.fits i n hn).childless hd

/-- Only a directory has children. -/
theorem isDir_of_child {dir ino : Inode} {d : Node} {name : Name} (h : t.Shape given)
    (hd : t.node? dir = some d) (hn : d.children.get? name = some ino) : d.isDir = true := by
  cases hk : d.isDir with
  | true => rfl
  | false =>
    rw [(h.fits dir d hd).childless hk] at hn
    cases hn

theorem retouched (h : t.Shape given) (r : Retouched t t') : t'.Shape given := by
  have hstand (i : Inode) : t'.stand? i = t.stand? i := by
    rcases r.node i with ⟨hn, hn'⟩ | ⟨n, n', hn, hn', a, -⟩
    · unfold stand?
      rw [hn, hn']
    · rw [stand?_eq_some hn, stand?_eq_some hn', a.parent]
      unfold Node.isDir
      rw [a.kind]
  have hentry (dir : Inode) (name : Name) : t'.target? dir name = t.target? dir name := by
    unfold target?
    rcases r.node dir with ⟨hn, hn'⟩ | ⟨n, n', hn, hn', a, -⟩
    · rw [hn, hn']
    · rw [hn, hn', Option.bind_some, Option.bind_some, a.children]
  have hdirs : t'.isDirectory = t.isDirectory := by
    funext i
    rw [isDirectory_eq, isDirectory_eq, hstand]
  have hback (i : Inode) (n' : Node) (hn' : t'.node? i = some n') :
      ∃ n, t.node? i = some n ∧ Akin n n' ∧ (Sized n → Sized n') := by
    rcases r.node i with ⟨-, hnone⟩ | ⟨n, m, hn, hm, a, hs⟩
    · rw [hn'] at hnone
      cases hnone
    · rw [hn'] at hm
      cases hm
      exact ⟨n, hn, a, hs⟩
  refine ⟨r.sorted h.sorted, h.hangs.congr hstand hentry, ?_, ?_, r.next.trans h.next⟩
  · intro i n' hn'
    obtain ⟨n, hn, a, hs⟩ := hback i n' hn'
    rw [hdirs]
    exact (h.fits i n hn).akin a (hs (h.fits i n hn).sized)
  · intro i n' hn'
    obtain ⟨n, hn, -⟩ := hback i n' hn'
    exact h.below i n hn

/-- A node is made, and takes the next number. -/
theorem grow (now : Timestamp) {parent : Inode} {d : Node} {name : Name} (kind : FileType)
    (perm : UInt16) (owner : Owner) (h : t.Shape given) (hg : given + 2 < UInt64.size)
    (hd : t.node? parent = some d) (hdir : d.isDir = true)
    (hname : d.children.get? name = none) :
    ((t.adjust parent (Tree.withChild now name t.next (kind == .directory))).grow
      { attr := freshAttr now t.next kind perm owner, parent }).Shape (given + 1) := by
  have hnew := h.node?_next hg
  have hds := (h.fits parent d hd).sorted
  let u := t.adjust parent (Tree.withChild now name t.next (kind == .directory))
  let n : Node := { attr := freshAttr now t.next kind perm owner, parent }
  have hsorted : u.nodes.Sorted := KeyedList.sorted_modify _ _ h.sorted
  have hnode (i : Inode) : (u.grow n).node? i = if i = t.next then some n else u.node? i :=
    node?_grow u n i
  have hnext : u.next = t.next := rfl
  have hself : (u.grow n).isDirectory t.next = (kind == .directory) := by
    apply isDirectory_of_node (n := n)
    rw [hnode, if_pos rfl]
  have hother (i : Inode) (hi : i ≠ t.next) : (u.grow n).isDirectory i = t.isDirectory i := by
    rw [isDirectory_eq, isDirectory_eq, stand?_grow, hnext, if_neg hi, stand?_withChild]
  -- The children of the nodes that were there are not the new node.
  have hold (i : Inode) (m : Node) (hm : t.node? i = some m) :
      Fits (u.grow n).isDirectory i m := by
    refine (h.fits i m hm).congr fun x j hj => hother j ?_
    rintro rfl
    obtain ⟨m', hm'⟩ := h.hangs.child hm hj
    rw [hnew] at hm'
    cases hm'
  refine ⟨KeyedList.sorted_insert _ _ hsorted, h.hangs.grow hd hname hnew, ?_, ?_, ?_⟩
  · intro i m hm
    rw [hnode] at hm
    split at hm
    · rename_i hi
      cases hm
      rw [hi]
      exact Fits.fresh ..
    · refine fits_adjust hold (fun d' hd' => ?_) i m hm
      rw [hd] at hd'
      cases hd'
      have hfits := (hold parent d hd).withChild now hdir hname t.next
      rw [hself] at hfits
      exact hfits
  · intro i m hm
    rw [hnode] at hm
    split at hm
    · rename_i hi
      rw [hi, h.next, UInt64.toNat_ofNat_of_lt' hg]
      omega
    · obtain ⟨m', hm'⟩ := node?_of_adjust hm
      have hbelow := h.below i m' hm'
      omega
  · show t.next + 1 = _
    rw [h.next, Nat.add_right_comm given 1 2, UInt64.ofNat_add (given + 2) 1]
    rfl

/-- A node without children is removed. -/
theorem drop (now : Timestamp) {parent ino : Inode} {name : Name} {n : Node} (h : t.Shape given)
    (he : t.HasEntry parent name ino) (hn : t.node? ino = some n) (hc : n.children = []) :
    ((t.drop ino).adjust parent (Tree.withoutChild now name n.isDir)).Shape given := by
  let u := (t.drop ino).adjust parent (Tree.withoutChild now name n.isDir)
  have hentry := hasEntry_iff.mp he
  have hangs : u.Hangs := h.hangs.drop hentry (target?_childless hn hc)
  have hself := isDirectory_of_node hn
  have hother (i : Inode) (hi : i ≠ ino) : u.isDirectory i = t.isDirectory i := by
    rw [isDirectory_eq, isDirectory_eq, stand?_withoutChild, stand?_drop, if_neg hi]
  have hdropped (i : Inode) (m : Node) (hm : (t.drop ino).node? i = some m) :
      t.node? i = some m := by
    rw [node?_drop] at hm
    split at hm
    · cases hm
    · exact hm
  have hfits : ∀ i m, u.node? i = some m → Fits t.isDirectory i m := by
    refine fits_adjust (fun i m hm => h.fits i m (hdropped i m hm)) fun d hd => ?_
    obtain ⟨d', hd', hino⟩ := he
    have hd := hdropped parent d hd
    rw [hd] at hd'
    cases hd'
    have hfits := (h.fits parent d hd).withoutChild now (h.isDir_of_child hd hino) hino
    rw [hself] at hfits
    exact hfits
  refine ⟨KeyedList.sorted_modify _ _ (KeyedList.sorted_erase _ h.sorted), hangs, ?_, ?_, h.next⟩
  · intro i m hm
    -- No child is the node that was removed.
    refine (hfits i m hm).congr fun x j hj => hother j ?_
    rintro rfl
    obtain ⟨m₁, hm₁⟩ := hangs.child hm hj
    obtain ⟨m', hm'⟩ := node?_of_adjust hm₁
    rw [node?_drop, if_pos rfl] at hm'
    cases hm'
  · intro i m hm
    obtain ⟨m', hm'⟩ := node?_of_adjust hm
    exact h.below i m' (hdropped i m' hm')

/-- A node is moved to a free place that can be climbed from past it. -/
theorem moved (now : Timestamp) {parent newParent ino : Inode} {name newName : Name} {e : Node}
    (h : t.Shape given) (he : t.HasEntry parent name ino) (hnew : t.node? newParent = some e)
    (hdir : e.isDir = true) (hfree : e.children.get? newName = none)
    (c : t.Climbs [ino] newParent) :
    (t.moved now parent name newParent newName ino (t.isDirectory ino)).Shape given := by
  have hdirs : (t.moved now parent name newParent newName ino (t.isDirectory ino)).isDirectory =
      t.isDirectory := by
    funext i
    exact isDirectory_moved ..
  -- One node after the other is changed, and fits.
  let without := t.adjust parent (Tree.withoutChild now name (t.isDirectory ino))
  have hwithout : ∀ i m, without.node? i = some m → Fits t.isDirectory i m := by
    refine fits_adjust h.fits fun d hd => ?_
    obtain ⟨d', hd', hino⟩ := he
    rw [hd] at hd'
    cases hd'
    exact (h.fits parent d hd).withoutChild now (h.isDir_of_child hd hino) hino
  have hplace (e' : Node) (he' : without.node? newParent = some e') :
      e'.isDir = true ∧ e'.children.get? newName = none := by
    rw [node?_adjust, hnew] at he'
    split at he'
    · cases he'
      refine ⟨hdir, ?_⟩
      have hget := KeyedList.get?_erase e.children name newName
      rw [hfree, ite_self] at hget
      exact hget
    · cases he'
      exact ⟨hdir, hfree⟩
  let within := without.adjust newParent (Tree.withChild now newName ino (t.isDirectory ino))
  have hwithin : ∀ i m, within.node? i = some m → Fits t.isDirectory i m := by
    refine fits_adjust hwithout fun e' he' => ?_
    obtain ⟨hdir', hfree'⟩ := hplace e' he'
    exact (hwithout newParent e' he').withChild now hdir' hfree' ino
  have hfits : ∀ i m, (t.moved now parent name newParent newName ino
      (t.isDirectory ino)).node? i = some m → Fits t.isDirectory i m :=
    fits_adjust hwithin fun m hm => (hwithin ino m hm).placed now newParent
  refine ⟨?_, h.hangs.moved (hasEntry_iff.mp he) hnew hfree c,
    ?_, ?_, h.next⟩
  · exact KeyedList.sorted_modify _ _ (KeyedList.sorted_modify _ _
      (KeyedList.sorted_modify _ _ h.sorted))
  · rw [hdirs]
    exact hfits
  · intro i m hm
    obtain ⟨m₂, hm₂⟩ := node?_of_adjust hm
    obtain ⟨m₁, hm₁⟩ := node?_of_adjust hm₂
    obtain ⟨m', hm'⟩ := node?_of_adjust hm₁
    exact h.below i m' hm'

/-- A node that may move to a directory can be climbed past from there. -/
theorem climbs_place {ino place : Inode} {n : Node} (h : t.Shape given)
    (hn : t.node? ino = some n) (hroot : ino ≠ rootInode) (hplace : t.isDirectory place = true)
    (hout : n.isDir = true → ∃ steps, t.climb ino steps place = some (.ok false)) :
    t.Climbs [ino] place := by
  cases hk : n.isDir with
  | true =>
    obtain ⟨steps, hsteps⟩ := hout hk
    exact climbs_of_climb hsteps
  | false =>
    have hne : place ≠ ino := by
      rintro rfl
      rw [isDirectory_of_node hn, hk] at hplace
      cases hplace
    obtain ⟨d, hd, -⟩ := node_of_isDirectory hplace
    have hbare := target?_childless hn ((h.fits ino n hn).childless hk)
    exact h.hangs.climbs_past hroot hbare hne (h.hangs.climbs (stand?_eq_some hd))

/-- After room was made for a node it can be moved. -/
theorem cleared {now : Timestamp} {parent newParent ino : Inode} {name newName : Name} {n : Node}
    (h : t.Shape given) (he : t.HasEntry parent name ino) (hn : t.node? ino = some n)
    (hplace : t.isDirectory newParent = true) (c : t.Climbs [ino] newParent)
    (hc : Cleared now newParent newName ino n.isDir t t') :
    t'.Shape given ∧ t'.HasEntry parent name ino ∧ t'.isDirectory ino = n.isDir ∧
      t'.Climbs [ino] newParent ∧
      ∃ e, t'.node? newParent = some e ∧ e.isDir = true ∧ e.children.get? newName = none := by
  cases hc with
  | @free e hd hfree =>
    rw [isDirectory_of_node hd] at hplace
    exact ⟨h, he, isDirectory_of_node hn, c, e, hd, hplace, hfree⟩
  | @replaced target m htarget hm hne hk hempty =>
    have hbare := h.bare hm fun hd => hempty (hk.symm.trans hd)
    have hroot := (h.hangs.entry (hasEntry_iff.mp htarget)).1
    have hnot : newParent ≠ target := Ne.symm (h.hangs.entry_ne (hasEntry_iff.mp htarget))
    have hstand (i : Inode) (hi : i ≠ target) :
        ((t.drop target).adjust newParent (Tree.withoutChild now newName n.isDir)).stand? i =
          t.stand? i := by
      rw [stand?_withoutChild, stand?_drop, if_neg hi]
    refine ⟨?_, ?_, ?_, ?_, ?_⟩
    · rw [← hk]
      exact h.drop now htarget hm hbare
    · rw [hasEntry_iff] at he htarget ⊢
      have hother : ¬(parent = newParent ∧ name = newName) := by
        rintro ⟨rfl, rfl⟩
        rw [he] at htarget
        exact hne (Option.some.inj htarget).symm
      have hparent : parent ≠ target := by
        rintro rfl
        rw [target?_childless hm hbare] at he
        cases he
      rw [target?_withoutChild, if_neg hother, target?_drop, if_neg hparent, he]
    · rw [isDirectory_eq, hstand ino (Ne.symm hne), ← isDirectory_eq, isDirectory_of_node hn]
    · refine c.transfer (fun i => i ≠ target) hnot fun i dir b hi hpast hi' => ?_
      exact ⟨⟨b, (hstand i hi').trans hi⟩,
        h.hangs.ne_of_stand hroot (target?_childless hm hbare) hi, hpast⟩
    · obtain ⟨d, hd, -⟩ := htarget
      rw [isDirectory_of_node hd] at hplace
      refine ⟨Tree.withoutChild now newName n.isDir d, ?_, hplace, KeyedList.get?_erase_self _ _⟩
      rw [node?_adjust, if_pos rfl, node?_drop, if_neg hnot, hd]
      rfl

/-! ## What the shape says -/

theorem wellFormed (h : t.Shape given) : t.WellFormed where
  root := by
    obtain ⟨r, hr, hparent, hdir⟩ := node?_of_stand? h.hangs.root
    exact ⟨r, hr, hdir, hparent⟩
  entry dir name ino he := by
    obtain ⟨-, b, hb⟩ := h.hangs.entry (hasEntry_iff.mp he)
    obtain ⟨n, hn, hparent, -⟩ := node?_of_stand? hb
    exact ⟨n, hn, hparent⟩
  named ino n hn hroot := by
    obtain ⟨name, hname⟩ := h.hangs.placed (stand?_eq_some hn) hroot
    exact ⟨n.parent, name, hasEntry_iff.mpr hname, fun dir' name' he =>
      h.hangs.entry_unique hname (hasEntry_iff.mp he)⟩
  unnamed dir name he := (h.hangs.entry (hasEntry_iff.mp he)).1 rfl
  climbs ino n hn := h.hangs.climbs (stand?_eq_some hn)
  childless ino n hn := (h.fits ino n hn).childless
  links ino n hn hdir hfew := by
    rw [(h.fits ino n hn).links hdir]
    exact UInt32.toNat_ofNat_of_lt' hfew
  link ino n hn := (h.fits ino n hn).link
  size ino n hn _ := by
    obtain ⟨hsize, hblocks, hshort⟩ := (h.fits ino n hn).sized
    have hcapacity : capacity < UInt64.size := by decide
    rw [hsize, hblocks]
    exact ⟨UInt64.toNat_ofNat_of_lt' (by omega), UInt64.toNat_ofNat_of_lt' (by omega)⟩
  number ino n hn := (h.fits ino n hn).number

end Shape

end Fuse.MemFs.Tree
