-- What each change of a tree comes to. A change that fails says so and leaves the tree
-- as it was, and one that succeeds leaves a tree that can be written down.
import Fuse.MemFs.Failing
import Fuse.MemFs.Shape
import Fuse.Proofs.KeyedList

namespace Fuse.MemFs

/-- The result of a change, and the tree that it leaves. -/
def Change.on {α : Type} (c : Change α) (t : Tree) : Except Failure α × Tree := c.run.run t

namespace Change

variable {α β : Type} {t t' : Tree}

/-! ## How changes follow each other -/

theorem on_pure (a : α) (t : Tree) : (pure a : Change α).on t = (.ok a, t) := rfl

theorem on_throw (e : Failure) (t : Tree) : (throw e : Change α).on t = (.error e, t) := rfl

theorem on_get (t : Tree) : (get : Change Tree).on t = (.ok t, t) := rfl

theorem on_modify (f : Tree → Tree) (t : Tree) : (modify f : Change Unit).on t = (.ok (), f t) :=
  rfl

theorem on_bind (c : Change α) (f : α → Change β) (t : Tree) :
    (c >>= f).on t =
      match c.on t with
      | (.ok a, t') => (f a).on t'
      | (.error e, t') => (.error e, t') := by
  unfold Change.on
  rw [ExceptT.run_bind, StateT.run_bind]
  cases c.run.run t with
  | mk r t' => cases r <;> rfl

theorem on_bind_of_ok {c : Change α} {a : α} (h : c.on t = (.ok a, t')) (f : α → Change β) :
    (c >>= f).on t = (f a).on t' := by
  rw [on_bind, h]

theorem on_bind_of_error {c : Change α} {e : Failure} (h : c.on t = (.error e, t'))
    (f : α → Change β) : (c >>= f).on t = (.error e, t') := by
  rw [on_bind, h]

/-! ## Changes that fail cleanly -/

/-- The change fails and leaves the tree as it was, or it succeeds, and then this holds
of its result and of the tree that it leaves. -/
def Yields (c : Change α) (t : Tree) (P : α → Tree → Prop) : Prop :=
  (∃ e, c.on t = (.error e, t)) ∨ ∃ a t', c.on t = (.ok a, t') ∧ P a t'

/-- The change only looks at the tree. -/
def Looks (c : Change α) (t : Tree) (P : α → Prop) : Prop := c.Yields t fun a t' => t' = t ∧ P a

theorem yields_fail (e : Errno) (t : Tree) (P : α → Tree → Prop) :
    (Tree.fail e : Change α).Yields t P := Or.inl ⟨_, rfl⟩

theorem yields_pure {P : α → Tree → Prop} {a : α} (h : P a t) : (pure a : Change α).Yields t P :=
  Or.inr ⟨a, t, rfl, h⟩

theorem looks_pure {P : α → Prop} {a : α} (h : P a) : (pure a : Change α).Looks t P :=
  yields_pure ⟨rfl, h⟩

theorem looks_get (t : Tree) : (get : Change Tree).Looks t fun u => u = t :=
  Or.inr ⟨t, t, rfl, rfl, rfl⟩

/-- What is looked at first may be used after that. -/
theorem Looks.bind {c : Change α} {f : α → Change β} {P : α → Prop} {Q : β → Tree → Prop}
    (l : c.Looks t P) (h : ∀ a, P a → (f a).Yields t Q) : (c >>= f).Yields t Q := by
  rcases l with ⟨e, he⟩ | ⟨a, t', ha, rfl, hp⟩
  · exact Or.inl ⟨e, on_bind_of_error he f⟩
  · unfold Yields
    rw [on_bind_of_ok ha f]
    exact h a hp

/-- What follows a change must not fail any more. -/
theorem Yields.andThen {c : Change α} {f : α → Change β} {P : α → Tree → Prop}
    {Q : β → Tree → Prop} (y : c.Yields t P)
    (h : ∀ a t', P a t' → ∃ b t'', (f a).on t' = (.ok b, t'') ∧ Q b t'') :
    (c >>= f).Yields t Q := by
  rcases y with ⟨e, he⟩ | ⟨a, t', ha, hp⟩
  · exact Or.inl ⟨e, on_bind_of_error he f⟩
  · unfold Yields
    rw [on_bind_of_ok ha f]
    exact Or.inr (h a t' hp)

/-- What holds then may be said with less. -/
theorem Yields.mono {c : Change α} {P Q : α → Tree → Prop} (y : c.Yields t P)
    (h : ∀ a t', P a t' → Q a t') : c.Yields t Q :=
  y.imp id fun ⟨a, t', ha, hp⟩ => ⟨a, t', ha, h a t' hp⟩

/-- A look that is only taken in some cases. -/
theorem yields_when {b : Bool} {c : Change Unit} {f : Unit → Change β} {C : Prop}
    {P : β → Tree → Prop} (l : b = true → c.Looks t fun _ => C)
    (h : (b = true → C) → (f ()).Yields t P) :
    (if b = true then c >>= f else f ()).Yields t P := by
  split
  · rename_i hb
    exact (l hb).bind fun _ hc => h fun _ => hc
  · rename_i hb
    exact h fun hb' => absurd hb' hb

/-- A check comes before what is done. -/
theorem yields_unless {C : Prop} [Decidable C] {e : Failure} {f : α → Change β} {c : Change β}
    {P : β → Tree → Prop} (h : ¬C → c.Yields t P) :
    (if C then throw e >>= f else c).Yields t P := by
  split
  · exact Or.inl ⟨_, on_bind_of_error (on_throw e t) f⟩
  · rename_i hc
    exact h hc

end Change

namespace Tree

open Change

variable {t : Tree}

/-! ## Trees with other nodes -/

/-- The tree with one node changed. -/
def adjust (t : Tree) (ino : Inode) (f : Node → Node) : Tree :=
  { t with nodes := t.nodes.modify ino f }

/-- The tree without one node. -/
def drop (t : Tree) (ino : Inode) : Tree := { t with nodes := t.nodes.erase ino }

/-- The tree with one node more, which takes the next number. -/
def grow (t : Tree) (n : Node) : Tree :=
  { nodes := t.nodes.insert t.next n, next := t.next + 1 }

theorem node?_adjust (t : Tree) (ino i : Inode) (f : Node → Node) :
    (t.adjust ino f).node? i = if i = ino then (t.node? i).map f else t.node? i :=
  KeyedList.get?_modify t.nodes ino i f

/-- A node that was changed is what the change made of it. -/
theorem node?_adjust_self {ino : Inode} {n : Node} (hn : t.node? ino = some n) (f : Node → Node) :
    (t.adjust ino f).node? ino = some (f n) := by
  rw [node?_adjust, if_pos rfl, hn]
  rfl

/-- One change of a node after another. -/
theorem adjust_adjust (t : Tree) (ino : Inode) (f g : Node → Node) :
    (t.adjust ino f).adjust ino g = t.adjust ino (g ∘ f) := by
  unfold adjust KeyedList.modify
  dsimp only
  rw [List.map_map]
  congr 1
  apply List.map_congr_left
  intro p _
  by_cases h : p.1 = ino <;> simp [h]

theorem isSome_adjust (t : Tree) (ino i : Inode) (f : Node → Node) :
    ((t.adjust ino f).node? i).isSome = (t.node? i).isSome := by
  rw [node?_adjust]
  split
  · exact Option.isSome_map
  · rfl

/-- A node that is there after a change was there before. -/
theorem node?_of_adjust {ino i : Inode} {f : Node → Node} {n : Node}
    (h : (t.adjust ino f).node? i = some n) : ∃ n', t.node? i = some n' := by
  have hs := isSome_adjust t ino i f
  rw [h] at hs
  exact Option.isSome_iff_exists.mp hs.symm

theorem node?_drop (t : Tree) (ino i : Inode) :
    (t.drop ino).node? i = if i = ino then none else t.node? i :=
  KeyedList.get?_erase t.nodes ino i

theorem node?_grow (t : Tree) (n : Node) (i : Inode) :
    (t.grow n).node? i = if i = t.next then some n else t.node? i :=
  KeyedList.get?_insert t.nodes t.next i n

theorem isDirectory_of_node {ino : Inode} {n : Node} (h : t.node? ino = some n) :
    t.isDirectory ino = n.isDir := by
  unfold isDirectory
  rw [h]
  rfl

theorem node_of_isDirectory {ino : Inode} (h : t.isDirectory ino = true) :
    ∃ d, t.node? ino = some d ∧ d.isDir = true := by
  cases hd : t.node? ino with
  | none =>
    unfold isDirectory at h
    rw [hd] at h
    cases h
  | some d => exact ⟨d, rfl, (isDirectory_of_node hd).symm.trans h⟩

theorem isDirectory_adjust {f : Node → Node} (hf : ∀ n, (f n).isDir = n.isDir) (t : Tree)
    (ino i : Inode) : (t.adjust ino f).isDirectory i = t.isDirectory i := by
  unfold isDirectory
  rw [node?_adjust]
  split
  · cases t.node? i with
    | none => rfl
    | some n => exact hf n
  · rfl

/-! ## Looking -/

theorem looks_node (ino : Inode) (t : Tree) : (node ino).Looks t fun n => t.node? ino = some n := by
  unfold node
  apply (looks_get t).bind
  rintro u rfl
  cases h : u.node? ino with
  | none => exact yields_fail _ _ _
  | some n => exact looks_pure rfl

theorem looks_directory (ino : Inode) (t : Tree) :
    (directory ino).Looks t fun n => t.node? ino = some n ∧ n.isDir = true := by
  unfold directory
  apply (looks_node ino t).bind
  intro n hn
  cases hd : n.isDir with
  | true => exact looks_pure ⟨hn, hd⟩
  | false => exact yields_fail _ _ _

theorem looks_file (ino : Inode) (t : Tree) :
    (file ino).Looks t fun n => t.node? ino = some n ∧ n.isDir = false := by
  unfold file
  apply (looks_node ino t).bind
  intro n hn
  cases hd : n.isDir with
  | true => exact yields_fail _ _ _
  | false => exact looks_pure ⟨hn, hd⟩

theorem looks_child (parent : Inode) (name : Name) (t : Tree) :
    (child parent name).Looks t fun ino =>
      ∃ d, t.node? parent = some d ∧ d.isDir = true ∧ d.children.get? name = some ino := by
  unfold child
  apply (looks_directory parent t).bind
  rintro d ⟨hd, hdir⟩
  cases h : d.children.get? name with
  | none => exact yields_fail _ _ _
  | some ino => exact looks_pure ⟨d, hd, hdir, h⟩

theorem node_on {ino : Inode} {n : Node} (h : t.node? ino = some n) :
    (node ino).on t = (.ok n, t) := by
  unfold node
  rw [on_bind_of_ok (on_get t), h]
  rfl

/-- A node that is there can be changed. -/
theorem update_on {ino : Inode} (h : (t.node? ino).isSome = true) (f : Node → Node) :
    (update ino f).on t = (.ok (), t.adjust ino f) := by
  obtain ⟨n, hn⟩ := Option.isSome_iff_exists.mp h
  unfold update
  rw [on_bind_of_ok (node_on hn)]
  rfl

/-! ## Changing nodes -/

/-- The two nodes differ at most in data, times, owners and permissions. -/
structure Akin (n n' : Node) : Prop where
  parent : n'.parent = n.parent
  children : n'.children = n.children
  kind : n'.attr.kind = n.attr.kind
  nlink : n'.attr.nlink = n.attr.nlink
  number : n'.attr.ino = n.attr.ino

/-- The node says how much data it has, and it can have that much. -/
structure Sized (n : Node) : Prop where
  size : n.attr.size = .ofNat n.data.length
  blocks : n.attr.blocks = .ofNat ((n.data.length + 511) / 512)
  short : n.data.length < capacity

/-- The second tree has the nodes of the first, in the same places. -/
structure Retouched (t t' : Tree) : Prop where
  next : t'.next = t.next
  sorted : t.nodes.Sorted → t'.nodes.Sorted
  node : ∀ i, (t.node? i = none ∧ t'.node? i = none) ∨
    ∃ n n', t.node? i = some n ∧ t'.node? i = some n' ∧ Akin n n' ∧ (Sized n → Sized n')

theorem Akin.refl (n : Node) : Akin n n := ⟨rfl, rfl, rfl, rfl, rfl⟩

theorem Retouched.refl (t : Tree) : Retouched t t := by
  refine ⟨rfl, id, ?_⟩
  intro i
  cases h : t.node? i with
  | none => exact Or.inl ⟨rfl, rfl⟩
  | some n => exact Or.inr ⟨n, n, rfl, rfl, .refl n, id⟩

/-- One node is changed into one that is akin to it. -/
theorem retouched_adjust {ino : Inode} {f : Node → Node}
    (h : ∀ n, t.node? ino = some n → Akin n (f n) ∧ (Sized n → Sized (f n))) :
    Retouched t (t.adjust ino f) := by
  refine ⟨rfl, KeyedList.sorted_modify ino f, ?_⟩
  intro i
  cases hn : t.node? i with
  | none =>
    refine Or.inl ⟨rfl, ?_⟩
    rw [node?_adjust, hn]
    split <;> rfl
  | some n =>
    by_cases hi : i = ino
    · subst hi
      obtain ⟨ha, hs⟩ := h n hn
      refine Or.inr ⟨n, f n, rfl, ?_, ha, hs⟩
      rw [node?_adjust, if_pos rfl, hn]
      rfl
    · refine Or.inr ⟨n, n, rfl, ?_, .refl n, id⟩
      rw [node?_adjust, if_neg hi, hn]

theorem length_resizeData (data : Bytes) (size : Nat) : (resizeData data size).length = size := by
  unfold resizeData
  rw [List.length_append, List.length_take, List.length_replicate]
  omega

/-- Overwriting what is there does not change how much it is. -/
theorem length_overwrite {old : Bytes} {start : Nat} {data : Bytes}
    (h : start + data.length ≤ old.length) : (overwrite old start data).length = old.length := by
  unfold overwrite
  rw [List.length_append, List.length_append, List.length_take, List.length_drop]
  omega

/-- A file with another length. -/
def withLength (now : Timestamp) (size : Nat) (n : Node) : Node :=
  { n with
    data := resizeData n.data size
    attr := { withSize size n.attr with mtime := now } }

theorem resizes (now : Timestamp) (ino : Inode) (size : UInt64) (t : Tree) :
    (resize now ino size).Yields t fun _ t' => ∃ n, t.node? ino = some n ∧ n.isDir = false ∧
      (n.data.length < capacity → size.toNat < capacity) ∧
      t' = t.adjust ino (withLength now size.toNat) := by
  unfold resize
  apply (looks_file ino t).bind
  rintro n ⟨hn, hfile⟩
  apply yields_unless
  intro hfits
  have hshort : n.data.length < capacity → size.toNat < capacity := by omega
  exact Or.inr ⟨(), _, update_on (Option.isSome_of_eq_some hn) _, n, hn, hfile, hshort, rfl⟩

/-- The attributes that a request selects. -/
def selected (now : Timestamp) (set : SetAttr) (a : Attr) : Attr :=
  { a with
    perm := (set.mode.map fun mode => (mode &&& 0o7777).toUInt16).getD a.perm
    uid := set.uid.getD a.uid
    gid := set.gid.getD a.gid
    atime := (set.atime.map (resolve now)).getD a.atime
    mtime := (set.mtime.map (resolve now)).getD a.mtime
    ctime := set.ctime.getD now }

/-- A node with the attributes that a request selects. -/
def withSelected (now : Timestamp) (set : SetAttr) (n : Node) : Node :=
  { n with attr := selected now set n.attr }

/-- A node after a request to set its attributes. -/
def withAttrs (now : Timestamp) (set : SetAttr) (n : Node) : Node :=
  withSelected now set (set.size.elim n fun size => withLength now size.toNat n)

theorem selected_on (now : Timestamp) {ino : Inode} (set : SetAttr) {n : Node}
    (hn : t.node? ino = some n) :
    (do
      update ino (withSelected now set)
      getattr ino).on t =
        (.ok (withSelected now set n).attr, t.adjust ino (withSelected now set)) := by
  rw [on_bind_of_ok (update_on (Option.isSome_of_eq_some hn) _)]
  unfold getattr
  rw [on_bind_of_ok (node_on (node?_adjust_self hn _))]
  rfl

theorem sets (now : Timestamp) (ino : Inode) (set : SetAttr) (t : Tree) :
    (setattr now ino set).Yields t fun _ t' => ∃ n, t.node? ino = some n ∧
      (∀ size, set.size = some size →
        n.isDir = false ∧ (n.data.length < capacity → size.toNat < capacity)) ∧
      t' = t.adjust ino (withAttrs now set) := by
  unfold setattr
  apply (looks_node ino t).bind
  intro n hn
  have hresult (g : Node → Node) (hg : g = withAttrs now set) : t.adjust ino g =
      t.adjust ino (withAttrs now set) := by rw [hg]
  cases hsize : set.size with
  | none =>
    refine Or.inr ⟨_, _, selected_on now set hn, n, hn, nofun, hresult _ ?_⟩
    funext m
    rw [withAttrs, hsize]
    rfl
  | some size =>
    apply (resizes now ino size t).andThen
    rintro _ _ ⟨m, hm, hfile, hshort, rfl⟩
    rw [hn] at hm
    cases hm
    refine ⟨_, _, selected_on now set (node?_adjust_self hn _), n, hn, ?_,
      (adjust_adjust ..).trans (hresult _ ?_)⟩
    · rintro _ ⟨⟩
      exact ⟨hfile, hshort⟩
    · funext m
      rw [withAttrs, hsize]
      rfl

theorem yields_setattr (now : Timestamp) (ino : Inode) (set : SetAttr) (t : Tree) :
    (setattr now ino set).Yields t fun _ t' => Retouched t t' := by
  refine (sets now ino set t).mono ?_
  rintro _ _ ⟨n, hn, hsize, rfl⟩
  apply retouched_adjust
  intro m hm
  rw [hn] at hm
  cases hm
  unfold withAttrs
  cases hset : set.size with
  | none => exact ⟨⟨rfl, rfl, rfl, rfl, rfl⟩, fun h => ⟨h.size, h.blocks, h.short⟩⟩
  | some size =>
    have hlength := length_resizeData n.data size.toNat
    have hshort := (hsize size hset).2
    refine ⟨⟨rfl, rfl, rfl, rfl, rfl⟩, fun h => ⟨?_, ?_, ?_⟩⟩
    · exact congrArg UInt64.ofNat hlength.symm
    · exact congrArg (fun length => UInt64.ofNat ((length + 511) / 512)) hlength.symm
    · exact Nat.lt_of_le_of_lt (Nat.le_of_eq hlength) (hshort h.short)

/-- An emptied file. -/
def emptied (now : Timestamp) (n : Node) : Node :=
  { n with data := [], attr := touch now (withSize 0 n.attr) }

theorem opens (now : Timestamp) (ino : Inode) (truncates : Bool) (t : Tree) :
    (openFile now ino truncates).Yields t fun _ t' => (t.node? ino).isSome = true ∧
      t' = if truncates then t.adjust ino (emptied now) else t := by
  unfold openFile
  apply (looks_file ino t).bind
  rintro n ⟨hn, -⟩
  have hs := Option.isSome_of_eq_some hn
  cases truncates with
  | true => exact Or.inr ⟨(), _, update_on hs _, hs, rfl⟩
  | false => exact yields_pure ⟨hs, rfl⟩

theorem yields_openFile (now : Timestamp) (ino : Inode) (truncates : Bool) (t : Tree) :
    (openFile now ino truncates).Yields t fun _ t' => Retouched t t' := by
  refine (opens now ino truncates t).mono ?_
  rintro _ _ ⟨-, rfl⟩
  split
  · apply retouched_adjust
    intro m _
    exact ⟨⟨rfl, rfl, rfl, rfl, rfl⟩, fun _ => ⟨rfl, rfl, show 0 < capacity by decide⟩⟩
  · exact .refl t

/-- A file with data put into it. -/
def withData (now : Timestamp) (start : Nat) (data : Bytes) (n : Node) : Node :=
  let stop := start + data.length
  let grown := if n.data.length < stop then resizeData n.data stop else n.data
  let stored := overwrite grown start data
  { n with data := stored, attr := touch now (withSize stored.length n.attr) }

theorem length_withData (now : Timestamp) (start : Nat) (data : Bytes) (n : Node) :
    (withData now start data n).data.length = max n.data.length (start + data.length) := by
  unfold withData
  dsimp only
  by_cases h : n.data.length < start + data.length
  · have hgrown := length_resizeData n.data (start + data.length)
    rw [if_pos h, length_overwrite (by omega), hgrown]
    omega
  · rw [if_neg h, length_overwrite (by omega)]
    omega

theorem writes (now : Timestamp) (ino : Inode) (offset : UInt64) (data : Bytes) (t : Tree) :
    (write now ino offset data).Yields t fun a t' => ∃ n, t.node? ino = some n ∧
      n.isDir = false ∧
      (n.data.length < capacity → (withData now offset.toNat data n).data.length < capacity) ∧
      a = .ofNat data.length ∧ t' = t.adjust ino (withData now offset.toNat data) := by
  unfold write
  apply (looks_file ino t).bind
  rintro n ⟨hn, hfile⟩
  apply yields_unless
  intro _
  apply yields_unless
  intro hfits
  have hs := Option.isSome_of_eq_some hn
  refine Or.inr ⟨_, _, on_bind_of_ok (update_on hs (withData now offset.toNat data)) _, n, hn,
    hfile, ?_, rfl, rfl⟩
  rw [length_withData]
  omega

theorem yields_write (now : Timestamp) (ino : Inode) (offset : UInt64) (data : Bytes) (t : Tree) :
    (write now ino offset data).Yields t fun _ t' => Retouched t t' := by
  refine (writes now ino offset data t).mono ?_
  rintro _ _ ⟨n, hn, -, hshort, -, rfl⟩
  apply retouched_adjust
  intro m hm
  rw [hn] at hm
  cases hm
  exact ⟨⟨rfl, rfl, rfl, rfl, rfl⟩, fun h => ⟨rfl, rfl, hshort h.short⟩⟩

/-! ## Making nodes -/

/-- A directory that has got a child. -/
def withChild (now : Timestamp) (name : Name) (ino : Inode) (dir : Bool) (d : Node) : Node :=
  { d with
    children := d.children.insert name ino
    attr := { touch now d.attr with nlink := if dir then d.attr.nlink + 1 else d.attr.nlink } }

/-- A directory that has lost a child. -/
def withoutChild (now : Timestamp) (name : Name) (dir : Bool) (d : Node) : Node :=
  { d with
    children := d.children.erase name
    attr := { touch now d.attr with nlink := if dir then d.attr.nlink - 1 else d.attr.nlink } }

/-- A node in another place. -/
def placed (now : Timestamp) (parent : Inode) (n : Node) : Node :=
  { n with parent, attr := { n.attr with ctime := now } }

theorem yields_create (now : Timestamp) (parent : Inode) (name : Name) (kind : FileType)
    (perm : UInt16) (owner : Owner) (t : Tree) :
    (create now parent name kind perm owner).Yields t fun a t' =>
      ∃ d, t.node? parent = some d ∧ d.isDir = true ∧ d.children.get? name = none ∧
        name.length ≤ maxName ∧ a = freshAttr now t.next kind perm owner ∧
        t' = (t.adjust parent (withChild now name t.next (kind == .directory))).grow
          { attr := a, parent } := by
  unfold create
  apply yields_unless
  intro hlong
  have hshort : name.length ≤ maxName := Nat.not_lt.mp hlong
  apply (looks_directory parent t).bind
  rintro d ⟨hd, hdir⟩
  apply yields_unless
  intro hnew
  have hname : d.children.get? name = none := by
    unfold KeyedList.has at hnew
    simpa using hnew
  let counted : Tree := { t with next := t.next + 1 }
  have hd' : (counted.node? parent).isSome = true := Option.isSome_of_eq_some hd
  refine Or.inr ⟨_, _, ?_, d, hd, hdir, hname, hshort, rfl, rfl⟩
  rw [on_bind_of_ok (on_get t), on_bind_of_ok (on_modify _ t), on_bind_of_ok (update_on hd' _),
    on_bind_of_ok (on_modify _ _), on_pure]
  unfold withChild
  simp only [beq_iff_eq]
  rfl

/-! ## Removing nodes -/

/-- A node is taken out, and another one is changed. -/
theorem removal_on {ino parent : Inode} {d : Node} (hd : t.node? parent = some d)
    (hne : parent ≠ ino) (f : Node → Node) :
    (do
      modify fun t => { t with nodes := t.nodes.erase ino }
      update parent f : Change Unit).on t = (.ok (), (t.drop ino).adjust parent f) := by
  have hd' : ((t.drop ino).node? parent).isSome = true := by
    rw [node?_drop, if_neg hne, hd]
    rfl
  rw [on_bind_of_ok (on_modify _ t)]
  exact update_on hd' _

theorem yields_remove (now : Timestamp) (parent : Inode) (name : Name) (dir : Bool) (t : Tree) :
    (remove now parent name dir).Yields t fun _ t' =>
      ∃ ino n, t.HasEntry parent name ino ∧ t.node? ino = some n ∧ n.isDir = dir ∧
        (dir = true → n.children = []) ∧
        t' = (t.drop ino).adjust parent (withoutChild now name dir) := by
  unfold remove
  apply (looks_child parent name t).bind
  rintro ino ⟨d, hd, hddir, hino⟩
  apply (looks_node ino t).bind
  intro n hn
  apply yields_unless
  intro hfile
  apply yields_unless
  intro hdir
  apply yields_unless
  intro hempty
  have hk : n.isDir = dir := by cases dir <;> simp_all
  have hchildless : dir = true → n.children = [] := by
    rintro rfl
    simpa using hempty
  -- A directory with an entry for itself would not be empty.
  have hself : parent ≠ ino := by
    rintro rfl
    rw [hd] at hn
    cases hn
    rw [hchildless (hk.symm.trans hddir)] at hino
    cases hino
  exact Or.inr ⟨(), _, removal_on hd hself _, ino, n, ⟨d, hd, hino⟩, hn, hk, hchildless, rfl⟩

/-! ## Moving nodes -/

/-- The tree with a child in another place and under another name. -/
def moved (now : Timestamp) (parent : Inode) (name : Name) (newParent : Inode) (newName : Name)
    (ino : Inode) (dir : Bool) (t : Tree) : Tree :=
  ((t.adjust parent (withoutChild now name dir)).adjust newParent
    (withChild now newName ino dir)).adjust ino (placed now newParent)

/-- The tree after room was made for a node: the place is free, or the node that stood
there was removed. -/
inductive Cleared (now : Timestamp) (place : Inode) (name : Name) (ino : Inode) (dir : Bool)
    (t : Tree) : Tree → Prop where
  | free {d : Node} (hd : t.node? place = some d) (hn : d.children.get? name = none) :
      Cleared now place name ino dir t t
  | replaced {target : Inode} {m : Node} (he : t.HasEntry place name target)
      (hm : t.node? target = some m) (hne : target ≠ ino) (hk : m.isDir = dir)
      (hempty : dir = true → m.children = []) :
      Cleared now place name ino dir t
        ((t.drop target).adjust place (withoutChild now name dir))

theorem looks_checkOutside (ino newParent : Inode) (t : Tree) :
    (checkOutside ino newParent).Looks t fun _ =>
      t.climb ino (t.nodes.length + 1) newParent = some (.ok false) := by
  unfold checkOutside
  apply (looks_get t).bind
  rintro u rfl
  split
  · exact looks_pure (by assumption)
  · exact yields_fail _ _ _
  · exact yields_fail _ _ _
  · exact yields_fail _ _ _

/-- The parts of a rename follow each other. -/
theorem rename_eq (now : Timestamp) (parent : Inode) (name : Name) (newParent : Inode)
    (newName : Name) (flags : UInt32) :
    rename now parent name newParent newName flags = (do
      match ← plan parent name newParent newName flags with
      | none => pure ()
      | some p => do
        makeRoom now newParent newName p
        relocate now parent name newParent newName p) := by
  unfold rename plan
  dsimp only
  by_cases hflags : flags &&& ~~~renameNoreplace ≠ 0
  · rw [if_pos hflags, if_pos hflags]
    rfl
  rw [if_neg hflags, if_neg hflags, bind_assoc]
  refine bind_congr fun ino => ?_
  rw [bind_assoc]
  refine bind_congr fun _ => ?_
  rw [bind_assoc]
  refine bind_congr fun n => ?_
  -- Only a directory is kept from moving into itself. The rest is the same for a file.
  cases n.isDir <;> simp only [Bool.false_eq_true, if_true, if_false]
  case' true =>
    rw [bind_assoc]
    refine bind_congr fun _ => ?_
  all_goals
    rw [bind_assoc]
    refine bind_congr fun d => ?_
    cases d.children.get? newName with
    | none => rfl
    | some target =>
      dsimp only
      by_cases ht : target = ino
      · rw [if_pos ht, if_pos ht]
        rfl
      rw [if_neg ht, if_neg ht]
      split
      · rfl
      rw [bind_assoc]
      refine bind_congr fun m => ?_
      cases m.isDir <;> rfl

/-- What the checks of a rename make sure of. -/
structure Planned (t : Tree) (parent : Inode) (name : Name) (newParent : Inode) (newName : Name)
    (p : Plan) : Prop where
  child : ∃ d, t.node? parent = some d ∧ d.isDir = true ∧ d.children.get? name = some p.ino
  node : ∃ n, t.node? p.ino = some n ∧ n.isDir = p.dir
  place : ∃ e, t.node? newParent = some e ∧ e.isDir = true ∧
    (p.replaces = false → e.children.get? newName = none) ∧
    (p.replaces = true → ∃ target, e.children.get? newName = some target ∧ target ≠ p.ino)
  outside : p.dir = true → t.climb p.ino (t.nodes.length + 1) newParent = some (.ok false)

/-- What comes of the checks: both names lead to one node, or it is planned what to do, and a
node only gives way if it may. -/
def Decided (t : Tree) (parent : Inode) (name : Name) (newParent : Inode) (newName : Name)
    (flags : UInt32) : Option Plan → Prop
  | none => ∃ ino, t.HasEntry parent name ino ∧ t.HasEntry newParent newName ino
  | some p => Planned t parent name newParent newName p ∧
      (p.replaces = true → flags &&& renameNoreplace = 0)

theorem looks_plan (parent : Inode) (name : Name) (newParent : Inode) (newName : Name)
    (flags : UInt32) (t : Tree) :
    (plan parent name newParent newName flags).Looks t fun o =>
      flags &&& ~~~renameNoreplace = 0 ∧ Decided t parent name newParent newName flags o := by
  unfold plan
  apply yields_unless
  intro hforeign
  have hknown : flags &&& ~~~renameNoreplace = 0 := Decidable.not_not.mp hforeign
  apply (looks_child parent name t).bind
  rintro ino hchild
  apply (looks_directory newParent t).bind
  rintro - -
  apply (looks_node ino t).bind
  intro n hn
  apply yields_when fun _ => looks_checkOutside ino newParent t
  intro hout
  apply (looks_directory newParent t).bind
  rintro e ⟨he, hedir⟩
  cases htarget : e.children.get? newName with
  | none =>
    exact looks_pure ⟨hknown,
      ⟨hchild, ⟨n, hn, rfl⟩, ⟨e, he, hedir, fun _ => htarget, nofun⟩, hout⟩, nofun⟩
  | some target =>
    dsimp only
    split
    · rename_i hsame
      subst hsame
      obtain ⟨d, hd, -, hget⟩ := hchild
      exact looks_pure ⟨hknown, target, ⟨d, hd, hget⟩, ⟨e, he, htarget⟩⟩
    · rename_i hne
      apply yields_unless
      intro hfree
      apply (looks_node target t).bind
      intro m hm
      apply yields_unless
      intro _
      apply yields_unless
      intro _
      exact looks_pure ⟨hknown,
        ⟨hchild, ⟨n, hn, rfl⟩, ⟨e, he, hedir, nofun, fun _ => ⟨target, htarget, hne⟩⟩, hout⟩,
        fun _ => Decidable.not_not.mp hfree⟩

theorem yields_makeRoom (now : Timestamp) {parent newParent : Inode} {name newName : Name}
    {p : Plan} (h : Planned t parent name newParent newName p) :
    (makeRoom now newParent newName p).Yields t fun _ u =>
      Cleared now newParent newName p.ino p.dir t u := by
  obtain ⟨e, he, -, hfree, htaken⟩ := h.place
  unfold makeRoom
  cases hr : p.replaces with
  | false => exact yields_pure (.free he (hfree hr))
  | true =>
    obtain ⟨target, htarget, hne⟩ := htaken hr
    rcases yields_remove now newParent newName p.dir t with hfails |
      ⟨a, u, hu, target', m, hentry, hm, hk, hempty, rfl⟩
    · exact Or.inl hfails
    · obtain rfl : target' = target := by
        obtain ⟨f, hf, hf'⟩ := hentry
        rw [he] at hf
        cases hf
        rw [htarget] at hf'
        exact (Option.some.inj hf').symm
      exact Or.inr ⟨a, _, hu, .replaced hentry hm hne hk hempty⟩

/-- After room was made, all that a move needs is there: the node that was removed is none of
those. -/
theorem Planned.present {now : Timestamp} {parent newParent : Inode} {name newName : Name}
    {p : Plan} {u : Tree} (h : Planned t parent name newParent newName p)
    (hc : Cleared now newParent newName p.ino p.dir t u) :
    u.isDirectory parent = true ∧ u.isDirectory newParent = true ∧
      (u.node? p.ino).isSome = true := by
  obtain ⟨d, hd, hddir, hino⟩ := h.child
  obtain ⟨e, he, hedir, -, -⟩ := h.place
  obtain ⟨n, hn, -⟩ := h.node
  have hfrom : t.isDirectory parent = true := (isDirectory_of_node hd).trans hddir
  have hto : t.isDirectory newParent = true := (isDirectory_of_node he).trans hedir
  cases hc with
  | free => exact ⟨hfrom, hto, Option.isSome_of_eq_some hn⟩
  | @replaced target m hentry hm hne hk hempty =>
    -- An empty directory and a file have no entries.
    have hparent : parent ≠ target := by
      rintro rfl
      rw [hd] at hm
      cases hm
      rw [hempty (hk.symm.trans hddir)] at hino
      cases hino
    have hplace : newParent ≠ target := by
      rintro rfl
      obtain ⟨f, hf, hf'⟩ := hentry
      rw [hm] at hf he
      cases hf
      cases he
      rw [hempty (hk.symm.trans hedir)] at hf'
      cases hf'
    have hleft {i : Inode} (hi : i ≠ target) : (t.drop target).node? i = t.node? i := by
      rw [node?_drop, if_neg hi]
    have hstays {i : Inode} (hi : i ≠ target) (hdir : t.isDirectory i = true) :
        ((t.drop target).adjust newParent (withoutChild now newName p.dir)).isDirectory i =
          true := by
      have hadjust := isDirectory_adjust (f := withoutChild now newName p.dir) (fun _ => rfl)
        (t.drop target) newParent i
      rw [hadjust, isDirectory, hleft hi]
      exact hdir
    refine ⟨hstays hparent hfrom, hstays hplace hto, ?_⟩
    rw [isSome_adjust, hleft (Ne.symm hne), hn]
    rfl

/-- After room was made, a node can be taken to its new place. -/
theorem relocate_on {now : Timestamp} {parent newParent : Inode} {name newName : Name} {p : Plan}
    {u : Tree} (h : Planned t parent name newParent newName p)
    (hc : Cleared now newParent newName p.ino p.dir t u) :
    (relocate now parent name newParent newName p).on u =
      (.ok (), u.moved now parent name newParent newName p.ino p.dir) := by
  obtain ⟨hp, hq, hn⟩ := h.present hc
  have hq' := (isSome_adjust u parent newParent (withoutChild now name p.dir)).trans
    (Option.isSome_of_any hq)
  have hn' := (isSome_adjust u parent p.ino (withoutChild now name p.dir)).trans hn
  show (do
    update parent (withoutChild now name p.dir)
    update newParent (withChild now newName p.ino p.dir)
    update p.ino (placed now newParent)).on u = _
  rw [on_bind_of_ok (update_on (Option.isSome_of_any hp) _), on_bind_of_ok (update_on hq' _)]
  exact update_on ((isSome_adjust _ _ _ _).trans hn') _

theorem yields_rename (now : Timestamp) (parent : Inode) (name : Name) (newParent : Inode)
    (newName : Name) (flags : UInt32) (t : Tree) :
    (rename now parent name newParent newName flags).Yields t fun _ t' =>
      t' = t ∨ ∃ ino n u, t.HasEntry parent name ino ∧ t.node? ino = some n ∧
        t.isDirectory newParent = true ∧
        (n.isDir = true → t.climb ino (t.nodes.length + 1) newParent = some (.ok false)) ∧
        Cleared now newParent newName ino n.isDir t u ∧
        t' = u.moved now parent name newParent newName ino n.isDir := by
  rw [rename_eq]
  apply (looks_plan parent name newParent newName flags t).bind
  rintro o ⟨-, ho⟩
  cases o with
  | none => exact yields_pure (Or.inl rfl)
  | some p =>
    have h := ho.1
    apply (yields_makeRoom now h).andThen
    intro _ u hc
    obtain ⟨d, hd, -, hino⟩ := h.child
    obtain ⟨e, he, hedir, -, -⟩ := h.place
    obtain ⟨n, hn, hk⟩ := h.node
    have hplace : t.isDirectory newParent = true := by
      unfold isDirectory
      rw [he]
      exact hedir
    refine ⟨(), _, relocate_on h hc, Or.inr ⟨p.ino, n, u, ⟨d, hd, hino⟩, hn, hplace, ?_, ?_, ?_⟩⟩
    · rw [hk]
      exact h.outside
    · rw [hk]
      exact hc
    · rw [hk]

end Tree

end Fuse.MemFs
