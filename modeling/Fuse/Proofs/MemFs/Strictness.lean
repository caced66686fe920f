-- A file system in memory that takes nothing for granted does the same as the one that does.
-- In a tree of the right shape every number fits into its word, and every range of bytes
-- is there.
import Fuse.Proofs.MemFs.Refusals

namespace Fuse

/-! ## Sums -/

/-- A sum that goes on from less, over less, is less. -/
theorem foldl_add_le {α : Type} {f g : α → Nat} {l : List α} (h : ∀ a ∈ l, f a ≤ g a) {m n : Nat}
    (hmn : m ≤ n) :
    l.foldl (fun total a => total + f a) m ≤ l.foldl (fun total a => total + g a) n := by
  induction l generalizing m n with
  | nil => exact hmn
  | cons a l ih =>
    exact ih (fun b hb => h b (List.mem_cons_of_mem _ hb))
      (Nat.add_le_add hmn (h a List.mem_cons_self))

/-- A sum is not less than what it goes on from. -/
theorem le_foldl_add {α : Type} (f : α → Nat) (l : List α) (n : Nat) :
    n ≤ l.foldl (fun total a => total + f a) n := by
  induction l generalizing n with
  | nil => exact Nat.le_refl n
  | cons a l ih => exact Nat.le_trans (Nat.le_add_right n (f a)) (ih _)

/-- A sum that fits into a word is that of the words. -/
theorem sum?_eq_some {words : List UInt64}
    (h : words.foldl (fun total n => total + n.toNat) 0 < UInt64.size) :
    sum? words = some (words.foldl (· + ·) 0) := by
  have hfold : ∀ (words : List UInt64) (total : UInt64),
      words.foldl (fun total n => total + n.toNat) total.toNat < UInt64.size →
      words.foldlM (fun total n =>
        if total.toNat + n.toNat < UInt64.size then some (total + n) else none) total =
          some (words.foldl (· + ·) total) := by
    intro words
    induction words with
    | nil => exact fun total _ => rfl
    | cons n words ih =>
      intro total htotal
      rw [List.foldl_cons] at htotal
      have hfits : total.toNat + n.toNat < UInt64.size :=
        Nat.lt_of_le_of_lt (le_foldl_add UInt64.toNat words _) htotal
      have hsum : (total + n).toNat = total.toNat + n.toNat := by
        rw [UInt64.toNat_add]
        exact Nat.mod_eq_of_lt hfits
      rw [List.foldlM_cons, if_pos hfits]
      exact ih (total + n) (by rwa [hsum])
  exact hfold words 0 h

namespace MemFs

namespace Change

variable {α β : Type} {t : Tree}

/-! ## Changes that come to the same -/

/-- After a look at the same thing. -/
theorem on_bind_congr {c : Change α} {f g : α → Change β} {P : α → Prop} (l : c.Looks t P)
    (h : ∀ a, P a → (f a).on t = (g a).on t) : (c >>= f).on t = (c >>= g).on t := by
  rcases l with ⟨e, he⟩ | ⟨a, t', ha, rfl, hp⟩
  · rw [on_bind_of_error he, on_bind_of_error he]
  · rw [on_bind_of_ok ha, on_bind_of_ok ha]
    exact h a hp

/-- After the same check. -/
theorem on_unless_congr {C : Prop} [Decidable C] {e : Failure} {f g : α → Change β}
    {c d : Change β} (h : ¬C → c.on t = d.on t) :
    (if C then throw e >>= f else c).on t = (if C then throw e >>= g else d).on t := by
  split
  · rfl
  · rename_i hc
    exact h hc

end Change

namespace Tree

open Change

variable {t : Tree} {trap : Fault} {given : Nat}

/-! ## What does not stop an operation -/

theorem demand_on {holds : Bool} (h : holds = true) (t : Tree) :
    (demand trap holds).on t = (.ok (), t) := by
  rw [h]
  rfl

theorem range_on {bs part : Bytes} {start stop : Nat} (h : slice? bs start stop = some part)
    (t : Tree) : (range trap bs start stop).on t = (.ok part, t) := by
  unfold range
  rw [h]
  rfl

theorem demandRoom_on {ino : Inode} {n : Node} {dir : Bool} {room : UInt32 → Bool}
    (hn : t.node? ino = some n) (h : dir = true → room n.attr.nlink = true) :
    (demandRoom trap ino dir room).on t = (.ok (), t) := by
  unfold demandRoom
  rw [on_bind_of_ok (node_on hn)]
  refine demand_on ?_ t
  cases dir with
  | true => exact h rfl
  | false => rfl

/-! ## Room for links -/

/-- Each directory can lose so many links, and it can get one. -/
def Roomy (t : Tree) (spare : Nat) : Prop :=
  ∀ ino n, t.node? ino = some n → n.isDir = true →
    spare ≤ n.attr.nlink.toNat ∧ n.attr.nlink.toNat + 1 < UInt32.size

/-- A directory has two links that are not from subdirectories. -/
theorem Shape.roomy (h : t.Shape given)
    (hfew : ∀ ino n, t.node? ino = some n → t.subdirectories n + 3 < UInt32.size) :
    t.Roomy 2 := by
  intro ino n hn hd
  have hlimit := hfew ino n hn
  have hlinks := h.wellFormed.links ino n hn hd (by omega)
  omega

namespace Roomy

variable {spare : Nat} {ino : Inode} {n : Node}

theorem below (h : t.Roomy (spare + 1)) (hn : t.node? ino = some n) (hd : n.isDir = true) :
    roomBelow n.attr.nlink = true := by
  have hroom := (h ino n hn hd).1
  exact decide_eq_true (by omega)

theorem above (h : t.Roomy spare) (hn : t.node? ino = some n) (hd : n.isDir = true) :
    roomAbove n.attr.nlink = true := decide_eq_true (h ino n hn hd).2

theorem drop (h : t.Roomy spare) (gone : Inode) : (t.drop gone).Roomy spare := by
  intro i m hm hd
  rw [node?_drop] at hm
  split at hm
  · cases hm
  · exact h i m hm hd

/-- A directory that loses a child has one link less, if at all. -/
theorem withoutChild (h : t.Roomy (spare + 1)) (now : Timestamp) (place : Inode) (name : Name)
    (dir : Bool) : (t.adjust place (withoutChild now name dir)).Roomy spare := by
  intro i m hm hd
  rw [node?_adjust] at hm
  split at hm
  · obtain ⟨n, hn, rfl⟩ := Option.map_eq_some_iff.mp hm
    obtain ⟨hleast, hmost⟩ := h i n hn hd
    cases dir with
    | false => exact ⟨by show spare ≤ n.attr.nlink.toNat; omega, hmost⟩
    | true =>
      have hless : (n.attr.nlink - 1).toNat = n.attr.nlink.toNat - 1 :=
        UInt32.toNat_sub_of_le _ _ (UInt32.le_iff_toNat_le.mpr (by show 1 ≤ _; omega))
      show spare ≤ (n.attr.nlink - 1).toNat ∧ (n.attr.nlink - 1).toNat + 1 < UInt32.size
      omega
  · obtain ⟨hleast, hmost⟩ := h i m hm hd
    exact ⟨by omega, hmost⟩

end Roomy

/-! ## Operations -/

theorem createStrictly_on (h : t.Shape given) (hg : given + 3 < UInt64.size) (hroom : t.Roomy 2)
    (trap : Fault) (now : Timestamp) (parent : Inode) (name : Name) (kind : FileType)
    (perm : UInt16) (owner : Owner) :
    (createStrictly trap now parent name kind perm owner).on t =
      (create now parent name kind perm owner).on t := by
  have hnext : decide (t.next.toNat + 1 < UInt64.size) = true := by
    rw [h.next, UInt64.toNat_ofNat_of_lt' (by omega)]
    exact decide_eq_true (by omega)
  unfold createStrictly create
  apply on_unless_congr
  intro _
  apply on_bind_congr (looks_directory parent t)
  rintro d ⟨hd, hdir⟩
  apply on_unless_congr
  intro _
  let counted : Tree := { t with next := t.next + 1 }
  have hd' : counted.node? parent = some d := hd
  rw [on_bind_of_ok (on_get t), on_bind_of_ok (on_get t), on_bind_of_ok (demand_on hnext t),
    on_bind_of_ok (on_modify _ t), on_bind_of_ok (on_modify _ t),
    on_bind_of_ok (demandRoom_on hd' fun _ => hroom.above hd hdir)]

theorem readStrictly_on (hs : t.Short) (trap : Fault) (ino : Inode) (offset : UInt64)
    (size : UInt32) : (readStrictly trap ino offset size).on t = (read ino offset size).on t := by
  unfold readStrictly read
  apply on_bind_congr (looks_file ino t)
  rintro n ⟨hn, -⟩
  have hshort := hs ino n hn
  have hcapacity : capacity < UInt64.size := by decide
  have hclip := slice?_clipped n.data offset.toNat size.toNat
  refine range_on ?_ t
  rw [← hclip]
  congr 1
  omega

theorem writeStrictly_on (trap : Fault) (now : Timestamp) (ino : Inode) (offset : UInt64)
    (data : Bytes) :
    (writeStrictly trap now ino offset data).on t = (write now ino offset data).on t := by
  unfold writeStrictly write
  apply on_bind_congr (looks_file ino t)
  rintro n ⟨hn, -⟩
  apply on_unless_congr
  intro _
  apply on_unless_congr
  intro _
  let stop := offset.toNat + data.length
  let grown := if n.data.length < stop then resizeData n.data stop else n.data
  have hgrown : stop ≤ grown.length := by
    have hlength := length_resizeData n.data stop
    by_cases hlong : n.data.length < stop
    · simp only [grown, if_pos hlong]
      omega
    · simp only [grown, if_neg hlong]
      omega
  have hplace : slice? grown offset.toNat stop =
      some ((grown.drop offset.toNat).take data.length) := by
    unfold slice?
    rw [if_pos ⟨by omega, hgrown⟩, Nat.add_sub_cancel_left]
  have hlength : ((grown.drop offset.toNat).take data.length).length = data.length := by
    rw [List.length_take, List.length_drop]
    omega
  rw [on_bind_of_ok (range_on hplace t), on_bind_of_ok (demand_on (decide_eq_true hlength) t)]

theorem removeStrictly_on (h : t.Shape given) (hroom : t.Roomy 2) (trap : Fault)
    (now : Timestamp) (parent : Inode) (name : Name) (dir : Bool) :
    (removeStrictly trap now parent name dir).on t = (remove now parent name dir).on t := by
  unfold removeStrictly remove
  apply on_bind_congr (looks_child parent name t)
  rintro ino ⟨d, hd, hdir, hino⟩
  apply on_bind_congr (looks_node ino t)
  intro n hn
  apply on_unless_congr
  intro _
  apply on_unless_congr
  intro _
  apply on_unless_congr
  intro _
  have hself := h.hangs.entry_ne ((target?_eq hd name).trans hino)
  have hd' : (t.drop ino).node? parent = some d := by
    rw [node?_drop, if_neg (Ne.symm hself), hd]
  rw [on_bind_of_ok (on_modify _ t), on_bind_of_ok (on_modify _ t)]
  exact on_bind_of_ok (demandRoom_on hd' fun _ => hroom.below hd hdir) _

/-- When room is made, each directory may have lost a link. -/
theorem Cleared.roomy {now : Timestamp} {place : Inode} {name : Name} {ino : Inode} {dir : Bool}
    {u : Tree} (hc : Cleared now place name ino dir t u) (hroom : t.Roomy 2) : u.Roomy 1 := by
  cases hc with
  | free =>
    intro i n hn hd
    exact ⟨Nat.le_of_succ_le (hroom i n hn hd).1, (hroom i n hn hd).2⟩
  | replaced => exact (hroom.drop _).withoutChild now place name dir

theorem makeRoomStrictly_on (h : t.Shape given) (hroom : t.Roomy 2) (trap : Fault)
    (now : Timestamp) (newParent : Inode) (newName : Name) (p : Plan) :
    (makeRoomStrictly trap now newParent newName p).on t =
      (makeRoom now newParent newName p).on t := by
  unfold makeRoomStrictly makeRoom
  split
  · exact removeStrictly_on h hroom trap now newParent newName p.dir
  · rfl

theorem relocateStrictly_on {now : Timestamp} {parent newParent : Inode} {name newName : Name}
    {p : Plan} {u : Tree} (h : Planned t parent name newParent newName p)
    (hc : Cleared now newParent newName p.ino p.dir t u) (hroom : t.Roomy 2) (trap : Fault) :
    (relocateStrictly trap now parent name newParent newName p).on u =
      (relocate now parent name newParent newName p).on u := by
  obtain ⟨hp, hq, -⟩ := h.present hc
  -- Within one directory, two links may go before one comes: that of the node which gives
  -- way, and that of the node which moves.
  have hu : u.Roomy 1 := hc.roomy hroom
  let v := u.adjust parent (withoutChild now name p.dir)
  have hv : v.Roomy 0 := hu.withoutChild now parent name p.dir
  obtain ⟨d, hd, hddir⟩ := node_of_isDirectory hp
  have hstays := isDirectory_adjust (f := withoutChild now name p.dir) (fun _ => rfl) u parent
    newParent
  have hq' : v.isDirectory newParent = true := hstays.trans hq
  obtain ⟨e, he, hedir⟩ := node_of_isDirectory hq'
  have hleave := update_on (Option.isSome_of_any hp) (withoutChild now name p.dir)
  unfold relocateStrictly relocate
  rw [on_bind_of_ok (demandRoom_on hd fun _ => hu.below hd hddir)]
  refine (on_bind_of_ok hleave _).trans (Eq.trans ?_ (on_bind_of_ok hleave _).symm)
  exact on_bind_of_ok (demandRoom_on he fun _ => hv.above he hedir) _

theorem renameStrictly_on (h : t.Shape given) (hroom : t.Roomy 2) (trap : Fault)
    (now : Timestamp) (parent : Inode) (name : Name) (newParent : Inode) (newName : Name)
    (flags : UInt32) :
    (renameStrictly trap now parent name newParent newName flags).on t =
      (rename now parent name newParent newName flags).on t := by
  rw [rename_eq]
  unfold renameStrictly
  apply on_bind_congr (looks_plan parent name newParent newName flags t)
  rintro o ⟨-, ho⟩
  cases o with
  | none => rfl
  | some p =>
    have hplanned := ho.1
    have hsame := makeRoomStrictly_on h hroom trap now newParent newName p
    dsimp only
    rcases yields_makeRoom now hplanned with ⟨e, he⟩ | ⟨a, u, hu, hc⟩
    · rw [on_bind_of_error he, on_bind_of_error (hsame.trans he)]
    · rw [on_bind_of_ok hu, on_bind_of_ok (hsame.trans hu)]
      exact relocateStrictly_on hplanned hc hroom trap

/-- A node says how many blocks its data take. -/
theorem Shape.toNat_blocks (h : t.Shape given) {p : Inode × Node} (hp : p ∈ t.nodes) :
    p.2.attr.blocks.toNat = (p.2.data.length + 511) / 512 := by
  obtain ⟨-, hblocks, hshort⟩ :=
    (h.fits p.1 p.2 ((KeyedList.get?_eq_some_iff h.sorted).mpr hp)).sized
  have hcapacity : capacity < UInt64.size := by decide
  rw [hblocks, UInt64.toNat_ofNat_of_lt' (by omega)]

/-- A node has no more blocks than bytes. -/
theorem Shape.blocks_le (h : t.Shape given) {p : Inode × Node} (hp : p ∈ t.nodes) :
    p.2.attr.blocks.toNat ≤ p.2.data.length := by
  rw [h.toNat_blocks hp]
  omega

theorem statfsStrictly_eq (h : t.Shape given) (hstored : t.stored < UInt64.size) (trap : Fault) :
    t.statfsStrictly trap = .ok t.statfs := by
  have hle : t.nodes.foldl (fun total p => total + p.2.attr.blocks.toNat) 0 ≤ t.stored :=
    foldl_add_le (fun _ hp => h.blocks_le hp) (Nat.le_refl 0)
  unfold statfsStrictly
  rw [sum?_eq_some (by rw [List.foldl_map]; omega)]
  dsimp only
  rw [List.foldl_map]
  rfl

end Tree

/-! ## Requests -/

variable {fs : MemFs} {given : Nat}

/-- Changes that come to the same are answered in the same way. -/
theorem answering_congr {α : Type} {change change' : Timestamp → Change α} (reply : α → Reply)
    (h : ∀ now, (change now).on fs.tree = (change' now).on fs.tree) :
    fs.answering change reply = fs.answering change' reply := by
  rw [answering_eq, answering_eq, h]

/-- Nothing that may stop an operation does so. -/
theorem handleStrictly_eq (h : fs.tree.Shape given) (hg : given + 3 < UInt64.size)
    (hroom : fs.tree.Roomy 2) (r : Request) {op : Operation}
    (hstored : op.kind = .statfs → fs.tree.stored < UInt64.size) (trap : Fault) :
    fs.handleStrictly trap r op = fs.handle r op := by
  cases op with
  | mkdir parent name mode umask =>
    exact answering_congr _ fun now => Tree.createStrictly_on h hg hroom trap now parent name ..
  | create parent name mode umask _ =>
    exact answering_congr _ fun now => Tree.createStrictly_on h hg hroom trap now parent name ..
  | read ino offset size _ =>
    exact answering_congr _ fun _ => Tree.readStrictly_on h.short trap ino offset size
  | write ino offset data _ =>
    exact answering_congr _ fun now => Tree.writeStrictly_on trap now ino offset data
  | unlink parent name =>
    exact answering_congr _ fun now => Tree.removeStrictly_on h hroom trap now parent name false
  | rmdir parent name =>
    exact answering_congr _ fun now => Tree.removeStrictly_on h hroom trap now parent name true
  | rename parent name newParent newName flags =>
    exact answering_congr _ fun now =>
      Tree.renameStrictly_on h hroom trap now parent name newParent newName flags
  | statfs ino =>
    dsimp only [handleStrictly, handle]
    rw [Tree.statfsStrictly_eq h (hstored rfl) trap]
  | _ => rfl

end MemFs

end Fuse
