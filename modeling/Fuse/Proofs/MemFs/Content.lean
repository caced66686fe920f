-- Files are arrays of bytes. An operation that succeeds changes what one file holds as its
-- array, and leaves the data of every other node alone; so after any number of requests each
-- file holds what was done to it.
import Fuse.MemFs.Content
import Fuse.Proofs.MemFs.Atomicity
import Fuse.Proofs.MemFs.Refusals

namespace Fuse

namespace MemFs

/-! ## Arrays of bytes -/

namespace Content

theorem length_bytes (c : Content) : c.bytes.length = c.length := by
  unfold bytes
  rw [List.length_map, List.length_range]

theorem getElem?_bytes {c : Content} {i : Nat} (h : i < c.length) :
    c.bytes[i]? = some (c.byte i) := by
  unfold bytes
  rw [List.getElem?_map, List.getElem?_range h]
  rfl

/-- Bytes are those of an array if they agree place by place. -/
theorem eq_bytes {bs : Bytes} {c : Content} (hlength : bs.length = c.length)
    (h : ∀ i, i < c.length → bs[i]? = some (c.byte i)) : bs = c.bytes := by
  apply List.ext_getElem?
  intro i
  by_cases hi : i < c.length
  · rw [h i hi, getElem?_bytes hi]
  · rw [List.getElem?_eq_none (by omega), List.getElem?_eq_none (by rw [length_bytes]; omega)]

theorem resizeData_bytes (c : Content) (size : Nat) :
    resizeData c.bytes size = (c.resize size).bytes := by
  refine eq_bytes (Tree.length_resizeData c.bytes size) fun i hi => ?_
  have hsize : i < size := hi
  show _ = some (c.padded i)
  unfold resizeData padded
  by_cases hold : i < c.length
  · have htaken : i < (c.bytes.take size).length := by
      rw [List.length_take, length_bytes]
      omega
    rw [List.getElem?_append_left htaken, List.getElem?_take_of_lt hsize, getElem?_bytes hold,
      if_pos hold]
  · have hlength : (c.bytes.take size).length = c.length := by
      rw [List.length_take, length_bytes]
      omega
    rw [List.getElem?_append_right (by omega), hlength, length_bytes,
      List.getElem?_replicate_of_lt (by omega), if_neg hold]

theorem overwrite_bytes {c : Content} {start : Nat} {data : Bytes}
    (h : start + data.length ≤ c.length) :
    overwrite c.bytes start data = (c.write start data).bytes := by
  have hold := length_bytes c
  have hlength : (overwrite c.bytes start data).length = c.length := by
    rw [Tree.length_overwrite (by omega), hold]
  have hstart : (c.bytes.take start).length = start := by
    rw [List.length_take]
    omega
  have hnew : (c.write start data).length = c.length := Nat.max_eq_left h
  refine eq_bytes (hlength.trans hnew.symm) fun i hi => ?_
  rw [hnew] at hi
  have hi' : c.padded i = c.byte i := if_pos hi
  unfold overwrite write
  dsimp only
  rw [List.append_assoc]
  -- The place is before the data, within it, or after it.
  by_cases hbefore : i < start
  · rw [List.getElem?_append_left (by omega), List.getElem?_take_of_lt hbefore, getElem?_bytes hi,
      if_neg (by omega), hi']
  rw [List.getElem?_append_right (by omega), hstart]
  by_cases hwithin : i < start + data.length
  · rw [List.getElem?_append_left (by omega), if_pos ⟨by omega, hwithin⟩,
      List.getD_eq_getElem?_getD, List.getElem?_eq_getElem (by omega)]
    rfl
  · rw [List.getElem?_append_right (by omega), List.getElem?_drop, if_neg (by omega), hi',
      ← getElem?_bytes hi]
    congr 1
    omega

theorem padded_resize {c : Content} {size : Nat} (h : c.length ≤ size) :
    (c.resize size).padded = c.padded := by
  funext i
  unfold padded resize padded
  dsimp only
  by_cases hi : i < c.length
  · rw [if_pos (by omega)]
  · rw [if_neg hi, ite_self]

/-- A write that goes past the end is one into an array that was long enough. -/
theorem write_resize {c : Content} {start : Nat} {data : Bytes}
    (h : c.length ≤ start + data.length) :
    (c.resize (start + data.length)).write start data = c.write start data := by
  unfold write
  rw [padded_resize h]
  congr 1
  show max (start + data.length) _ = _
  omega

theorem data_withData (now : Timestamp) (start : Nat) (data : Bytes) {n : Node} {c : Content}
    (h : n.data = c.bytes) :
    (Tree.withData now start data n).data = (c.write start data).bytes := by
  unfold Tree.withData
  dsimp only
  rw [h, length_bytes]
  by_cases hgrows : c.length < start + data.length
  · rw [if_pos hgrows, resizeData_bytes, overwrite_bytes (c := c.resize _) (Nat.le_refl _),
      write_resize (Nat.le_of_lt hgrows)]
  · rw [if_neg hgrows, overwrite_bytes (by omega)]

theorem read_bytes (c : Content) (start count : Nat) :
    (c.bytes.drop start).take count = c.read start count := by
  have hlength : ((c.bytes.drop start).take count).length =
      min (start + count) c.length - start := by
    rw [List.length_take, List.length_drop, length_bytes]
    omega
  apply List.ext_getElem?
  intro i
  unfold read
  by_cases hi : i < min (start + count) c.length - start
  · rw [List.getElem?_take_of_lt (by omega), List.getElem?_drop, getElem?_bytes (by omega),
      List.getElem?_map, List.getElem?_range' hi, Nat.one_mul]
    rfl
  · rw [List.getElem?_eq_none (by omega), List.getElem?_eq_none]
    rw [List.length_map, List.length_range']
    omega

end Content

/-! ## What an operation does to the data -/

namespace Tree

variable {t t' : Tree}

/-- The data of a node. -/
def data? (t : Tree) (ino : Inode) : Option Bytes := (t.node? ino).map Node.data

theorem data?_eq_some {ino : Inode} {n : Node} (h : t.node? ino = some n) :
    t.data? ino = some n.data := by
  unfold data?
  rw [h]
  rfl

/-- A change that keeps the data of a node. -/
theorem data?_adjust {f : Node → Node} (hf : ∀ n, (f n).data = n.data) (t : Tree)
    (ino i : Inode) : (t.adjust ino f).data? i = t.data? i := by
  unfold data?
  rw [node?_adjust]
  split
  · rw [Option.map_map]
    congr 1
    funext n
    exact hf n
  · rfl

theorem data?_drop (t : Tree) (ino i : Inode) :
    (t.drop ino).data? i = if i = ino then none else t.data? i := by
  unfold data?
  rw [node?_drop]
  split <;> rfl

theorem data?_grow (t : Tree) (n : Node) (i : Inode) :
    (t.grow n).data? i = if i = t.next then some n.data else t.data? i := by
  unfold data?
  rw [node?_grow]
  split <;> rfl

theorem data?_moved (now : Timestamp) (parent : Inode) (name : Name) (newParent : Inode)
    (newName : Name) (ino : Inode) (b : Bool) (t : Tree) (i : Inode) :
    (t.moved now parent name newParent newName ino b).data? i = t.data? i := by
  unfold Tree.moved
  rw [data?_adjust (f := placed now newParent) fun _ => rfl,
    data?_adjust (f := withChild now newName ino b) fun _ => rfl,
    data?_adjust (f := withoutChild now name b) fun _ => rfl]

/-- All data there is was there before. -/
def Spares (t t' : Tree) : Prop := ∀ i bs, t'.data? i = some bs → t.data? i = some bs

theorem spares_of_eq (h : ∀ i, t'.data? i = t.data? i) : t.Spares t' := by
  intro i bs hi
  rwa [h] at hi

/-- When a node is removed, nothing else is lost. -/
theorem spares_removed (now : Timestamp) (t : Tree) (ino parent : Inode) (name : Name) (b : Bool) :
    t.Spares ((t.drop ino).adjust parent (withoutChild now name b)) := by
  intro i bs hi
  rw [data?_adjust (f := withoutChild now name b) fun _ => rfl, data?_drop] at hi
  split at hi
  · cases hi
  · exact hi

theorem spares_cleared {now : Timestamp} {place ino : Inode} {name : Name} {b : Bool}
    (h : Cleared now place name ino b t t') : t.Spares t' := by
  cases h with
  | free => exact spares_of_eq fun _ => rfl
  | replaced => exact spares_removed now t _ place name b

theorem yields_spares_remove (now : Timestamp) (parent : Inode) (name : Name) (dir : Bool)
    (t : Tree) : (remove now parent name dir).Yields t fun _ t' => t.Spares t' := by
  refine (yields_remove now parent name dir t).mono ?_
  rintro _ _ ⟨ino, n, -, -, -, -, rfl⟩
  exact spares_removed now t ino parent name dir

theorem yields_spares_rename (now : Timestamp) (parent : Inode) (name : Name) (newParent : Inode)
    (newName : Name) (flags : UInt32) (t : Tree) :
    (rename now parent name newParent newName flags).Yields t fun _ t' => t.Spares t' := by
  refine (yields_rename now parent name newParent newName flags t).mono ?_
  rintro _ _ (rfl | ⟨ino, n, u, -, -, -, -, hc, rfl⟩)
  · exact spares_of_eq fun _ => rfl
  · intro i bs hi
    rw [data?_moved] at hi
    exact spares_cleared hc i bs hi

/-- What the node has that is made: no data. -/
theorem yields_spares_create (now : Timestamp) (parent : Inode) (name : Name) (kind : FileType)
    (perm : UInt16) (owner : Owner) :
    (create now parent name kind perm owner).Yields t fun a t' =>
      ∀ i bs, t'.data? i = some bs → t.data? i = some bs ∨ i = a.ino ∧ bs = [] := by
  refine (yields_create now parent name kind perm owner t).mono ?_
  rintro _ _ ⟨d, -, -, -, -, rfl, rfl⟩ i bs hi
  rw [data?_grow] at hi
  split at hi
  · rename_i hnext
    cases hi
    exact Or.inr ⟨hnext, rfl⟩
  · rw [data?_adjust (f := withChild now name t.next _) fun _ => rfl] at hi
    exact Or.inl hi

end Tree

variable {fs : MemFs} {given : Nat} {ino : Inode} {c : Content}

/-- What an operation that succeeds does to the tree: it changes what one file holds, as it
says, or no data changes but that the node which was made has none. -/
structure Follows (t : Tree) (op : Operation) (p : MemFs × Outcome) : Prop where
  edits : ∀ target g, edit? op = some (target, g) → (t.node? target).isSome = true ∧
    ∃ f, p.1.tree = t.adjust target f ∧
      ∀ n c, n.data = Content.bytes c → (f n).data = (g c).bytes
  spares : edit? op = none → ∀ i bs, p.1.tree.data? i = some bs →
    t.data? i = some bs ∨ made? op p.2 = some i ∧ bs = []

theorem follows_edit {t : Tree} {op : Operation} {p : MemFs × Outcome} {target : Inode}
    {g : Content → Content} {f : Node → Node} (hop : edit? op = some (target, g))
    (hs : (t.node? target).isSome = true) (ht : p.1.tree = t.adjust target f)
    (hf : ∀ n c, n.data = Content.bytes c → (f n).data = (g c).bytes) : Follows t op p := by
  refine ⟨fun target' g' hop' => ?_, fun hnone => ?_⟩
  · rw [hop] at hop'
    cases hop'
    exact ⟨hs, f, ht, hf⟩
  · rw [hop] at hnone
    cases hnone

theorem follows_spare {t : Tree} {op : Operation} {p : MemFs × Outcome} (hop : edit? op = none)
    (h : ∀ i bs, p.1.tree.data? i = some bs →
      t.data? i = some bs ∨ made? op p.2 = some i ∧ bs = []) : Follows t op p := by
  refine ⟨fun target g hop' => ?_, fun _ => h⟩
  rw [hop] at hop'
  cases hop'

/-- What comes of a change that succeeds. -/
theorem answering_succeeds {α : Type} {P : Timestamp → α → Tree → Prop}
    {change : Timestamp → Change α} (reply : α → Reply)
    (y : ∀ now, (change now).Yields fs.tree (P now))
    (hf : (fs.answering change reply).2.fails = false) :
    ∃ now a, P now a (fs.answering change reply).1.tree ∧
      (fs.answering change reply).2 = .reply (reply a) := by
  have hsome (now : Timestamp) : (change now).Yields fs.tree fun a t' => ∃ now, P now a t' :=
    (y now).mono fun _ _ hp => ⟨now, hp⟩
  rcases answering_cases reply hsome with ⟨-, ⟨e, he⟩ | ⟨p, hp⟩⟩ | ⟨a, ⟨now, hp⟩, ha⟩
  · rw [he] at hf
    cases hf
  · rw [hp] at hf
    cases hf
  · exact ⟨now, a, hp, ha⟩

/-- An operation that spares all data and edits nothing. -/
theorem follows_sparing {α : Type} {change : Timestamp → Change α} {op : Operation}
    (reply : α → Reply) (hop : edit? op = none)
    (y : ∀ now, (change now).Yields fs.tree fun _ t' => fs.tree.Spares t')
    (hf : (fs.answering change reply).2.fails = false) :
    Follows fs.tree op (fs.answering change reply) := by
  obtain ⟨-, -, hspares, -⟩ := answering_succeeds reply y hf
  exact follows_spare hop fun i bs hi => Or.inl (hspares i bs hi)

theorem follows_looking {α : Type} {P : α → Prop} {change : Timestamp → Change α} {op : Operation}
    (reply : α → Reply) (hop : edit? op = none) (l : ∀ now, (change now).Looks fs.tree P)
    (hf : (fs.answering change reply).2.fails = false) :
    Follows fs.tree op (fs.answering change reply) := by
  refine follows_sparing reply hop (fun now => (l now).mono ?_) hf
  rintro _ _ ⟨rfl, -⟩
  exact Tree.spares_of_eq fun _ => rfl

theorem follows_making {change : Timestamp → Change Attr} {op : Operation} (reply : Attr → Reply)
    (hop : edit? op = none) (hmade : ∀ a, made? op (.reply (reply a)) = some a.ino)
    (y : ∀ now, (change now).Yields fs.tree fun a t' =>
      ∀ i bs, t'.data? i = some bs → fs.tree.data? i = some bs ∨ i = a.ino ∧ bs = [])
    (hf : (fs.answering change reply).2.fails = false) :
    Follows fs.tree op (fs.answering change reply) := by
  obtain ⟨-, a, hdata, ha⟩ := answering_succeeds reply y hf
  refine follows_spare hop fun i bs hi => ?_
  rw [ha, hmade]
  exact (hdata i bs hi).imp id fun ⟨hi, hbs⟩ => ⟨hi ▸ rfl, hbs⟩

theorem follows_setattr (r : Request) (ino : Inode) (set : SetAttr)
    (hf : (fs.handle r (.setattr ino set)).2.fails = false) :
    Follows fs.tree (.setattr ino set) (fs.handle r (.setattr ino set)) := by
  obtain ⟨now, _, ⟨n, hn, -, ht⟩, -⟩ :=
    answering_succeeds _ (fun now => Tree.sets now ino set fs.tree) hf
  change (fs.handle r (.setattr ino set)).1.tree = _ at ht
  have hedit : edit? (.setattr ino set) = set.size.map fun size => (ino, .resize size.toNat) := rfl
  have hdata (m : Node) : (Tree.withAttrs now set m).data =
      set.size.elim m.data fun size => resizeData m.data size.toNat := by
    unfold Tree.withAttrs
    cases set.size <;> rfl
  cases hsize : set.size with
  | some size =>
    rw [hsize] at hedit
    refine follows_edit hedit (Option.isSome_of_eq_some hn) ht fun m c hm => ?_
    rw [hdata, hsize, Option.elim_some, hm]
    exact c.resizeData_bytes size.toNat
  | none =>
    rw [hsize] at hedit
    refine follows_spare hedit fun i bs hi => ?_
    rw [ht, Tree.data?_adjust fun m => by rw [hdata, hsize]; rfl] at hi
    exact Or.inl hi

theorem follows_open (r : Request) (ino : Inode) (flags : UInt32)
    (hf : (fs.handle r (.open ino flags)).2.fails = false) :
    Follows fs.tree (.open ino flags) (fs.handle r (.open ino flags)) := by
  obtain ⟨now, _, ⟨hs, ht⟩, -⟩ :=
    answering_succeeds _ (fun now => Tree.opens now ino _ fs.tree) hf
  change (fs.handle r (.open ino flags)).1.tree = _ at ht
  have hedit : edit? (.open ino flags) =
    if Kernel.hasFlag flags openTruncate then some (ino, fun _ => .empty) else none := rfl
  by_cases hflag : Kernel.hasFlag flags openTruncate = true
  · rw [if_pos hflag] at ht hedit
    exact follows_edit hedit hs ht fun _ _ _ => rfl
  · rw [if_neg hflag] at ht hedit
    exact follows_spare hedit fun i bs hi => Or.inl (ht ▸ hi)

theorem follows_handle (r : Request) (op : Operation)
    (hf : (fs.handle r op).2.fails = false) : Follows fs.tree op (fs.handle r op) := by
  cases op with
  | lookup parent name =>
    exact follows_looking _ rfl (fun _ => Tree.looks_lookup parent name _) hf
  | getattr ino _ => exact follows_looking _ rfl (fun _ => Tree.looks_getattr ino _) hf
  | read ino offset size _ =>
    exact follows_looking _ rfl (fun _ => Tree.looks_read ino offset size _) hf
  | opendir ino _ => exact follows_looking _ rfl (fun _ => Tree.looks_directory ino _) hf
  | readdir ino offset size _ => exact follows_looking _ rfl (fun _ => Tree.looks_entries ino _) hf
  | mkdir parent name mode umask | create parent name mode umask _ =>
    exact follows_making _ rfl (fun _ => rfl)
      (fun now => Tree.yields_spares_create now parent name _ _ _) hf
  | unlink parent name | rmdir parent name =>
    exact follows_sparing _ rfl (fun now => Tree.yields_spares_remove now parent name _ _) hf
  | rename parent name newParent newName flags =>
    exact follows_sparing _ rfl
      (fun now => Tree.yields_spares_rename now parent name newParent newName flags _) hf
  | setattr ino set => exact follows_setattr r ino set hf
  | «open» ino flags => exact follows_open r ino flags hf
  | write ino offset data _ =>
    obtain ⟨now, _, ⟨n, hn, -, -, -, ht⟩, -⟩ :=
      answering_succeeds _ (fun now => Tree.writes now ino offset data fs.tree) hf
    exact follows_edit rfl (Option.isSome_of_eq_some hn) ht fun _ _ =>
      Content.data_withData now _ data
  -- The rest does not change the tree.
  | _ => exact follows_spare rfl fun i bs hi => Or.inl hi

/-! ## What a file holds after any number of operations -/

/-- The node holds this, if it is there. A number that was not given out stands for nothing
yet, and zero is no number. -/
structure Holds (t : Tree) (given : Nat) (ino : Inode) (c : Content) : Prop where
  data : ∀ bs, t.data? ino = some bs → bs = c.bytes
  unborn : given + 2 ≤ ino.toNat → c = .empty
  zero : t.data? ino ≠ none → ino ≠ 0

theorem Holds.ne_zero {t : Tree} {n : Node} (h : Holds t given ino c) (hn : t.node? ino = some n) :
    ino ≠ 0 := by
  apply h.zero
  rw [Tree.data?_eq_some hn]
  exact Option.some_ne_none _

/-- Nothing is undone when more numbers are given out. -/
theorem Holds.mono {t : Tree} {given' : Nat} (h : Holds t given ino c) (hg : given ≤ given') :
    Holds t given' ino c :=
  ⟨h.data, fun hi => h.unborn (by omega), h.zero⟩

theorem holds_root (now : Timestamp) (owner : Owner) (ino : Inode) :
    Holds (.root now owner) 0 ino .empty := by
  have hdata : (Tree.root now owner).data? ino = if ino = rootInode then some [] else none := by
    unfold Tree.data?
    rw [Tree.node?_root]
    split <;> rfl
  refine ⟨fun bs hbs => ?_, fun _ => rfl, fun hsome => ?_⟩
  · rw [hdata] at hbs
    split at hbs
    · cases hbs
      rfl
    · cases hbs
  · rintro rfl
    exact hsome hdata

/-- The node that is edited holds what the edit makes of it, and each other what it held. -/
theorem Holds.edited {t : Tree} {target : Inode} {f : Node → Node} {g : Content → Content}
    (h : t.Shape given) (hc : Holds t given ino c) (hs : (t.node? target).isSome = true)
    (hf : ∀ n c, n.data = Content.bytes c → (f n).data = (g c).bytes) :
    Holds (t.adjust target f) given ino (if target = ino then g c else c) := by
  by_cases htarget : target = ino
  · subst htarget
    obtain ⟨n, hn⟩ := Option.isSome_iff_exists.mp hs
    have hnode : (t.adjust target f).data? target = some (f n).data := by
      apply Tree.data?_eq_some
      rw [Tree.node?_adjust, if_pos rfl, hn]
      rfl
    have hdata := Tree.data?_eq_some hn
    rw [if_pos rfl]
    refine ⟨fun bs hbs => ?_, fun hbig => ?_, fun _ => ?_⟩
    · rw [hnode] at hbs
      cases hbs
      exact hf n c (hc.data _ hdata)
    · have hbelow := h.below target n hn
      omega
    · exact hc.ne_zero hn
  · rw [if_neg htarget]
    have hsame : (t.adjust target f).data? ino = t.data? ino := by
      unfold Tree.data?
      rw [Tree.node?_adjust, if_neg (Ne.symm htarget)]
    exact ⟨fun bs hbs => hc.data bs (hsame ▸ hbs), hc.unborn, fun hne => hc.zero (hsame ▸ hne)⟩

/-- Each node holds what it held, and the one that was made now holds nothing. -/
theorem Holds.spared {t t' : Tree} {made : Option Inode} (hc : Holds t given ino c)
    (h : ∀ i bs, t'.data? i = some bs → t.data? i = some bs ∨ made = some i ∧ bs = [])
    (hmade : ∀ i, made = some i → i = .ofNat (given + 2) ∧ given + 2 < UInt64.size) :
    Holds t' given ino c := by
  -- Nothing was done to the number yet that is given out now.
  have hborn (hm : made = some ino) : c = .empty ∧ ino ≠ 0 := by
    obtain ⟨rfl, hg⟩ := hmade ino hm
    have hvalue : (UInt64.ofNat (given + 2)).toNat = given + 2 := UInt64.toNat_ofNat_of_lt' hg
    refine ⟨hc.unborn (Nat.le_of_eq hvalue.symm), fun hzero => ?_⟩
    rw [hzero] at hvalue
    cases hvalue
  refine ⟨fun bs hbs => ?_, hc.unborn, fun hne => ?_⟩
  · rcases h ino bs hbs with hold | ⟨hm, rfl⟩
    · exact hc.data bs hold
    · rw [(hborn hm).1]
      rfl
  · obtain ⟨bs, hbs⟩ := Option.ne_none_iff_exists'.mp hne
    rcases h ino bs hbs with hold | ⟨hm, -⟩
    · exact hc.zero (by rw [hold]; exact Option.some_ne_none _)
    · exact (hborn hm).2

/-- What becomes of what a file holds when an operation is over. -/
theorem Holds.handle (h : fs.tree.Shape given) (hc : Holds fs.tree given ino c) (r : Request)
    (op : Operation)
    (hmade : ∀ i, made? op (fs.handle r op).2 = some i →
      i = .ofNat (given + 2) ∧ given + 2 < UInt64.size) :
    Holds (fs.handle r op).1.tree given ino (c.after ino (op, (fs.handle r op).2)) := by
  unfold Content.after
  dsimp only
  cases hf : (fs.handle r op).2.fails with
  | true =>
    rw [atomic_handle fs r op hf]
    cases edit? op with
    | none => exact hc
    | some edit =>
      dsimp only
      rw [if_neg fun h => Bool.noConfusion h.2]
      exact hc
  | false =>
    have hfollows := follows_handle r op hf
    cases hop : edit? op with
    | none => exact hc.spared (hfollows.spares hop) hmade
    | some edit =>
      obtain ⟨hs, f, ht, hg⟩ := hfollows.edits edit.1 edit.2 hop
      simp only [and_true]
      rw [ht]
      exact hc.edited h hs hg

theorem history_cons (fs : MemFs) (r : Request) (op : Operation)
    (rest : List (Request × Operation)) :
    fs.history ((r, op) :: rest) =
      (op, (fs.handle r op).2) :: (fs.handle r op).1.history rest := rfl

theorem holds_serveAll (requests : List (Request × Operation)) (h : fs.tree.Shape given)
    (hc : Holds fs.tree given ino c)
    (hg : given + (fs.serveAll requests).2.length + 1 < UInt64.size) :
    Holds (fs.serveAll requests).1.tree (given + (fs.serveAll requests).2.length) ino
      ((fs.history requests).foldl (.after ino) c) := by
  induction requests generalizing fs given c with
  | nil => exact hc
  | cons p rest ih =>
    obtain ⟨r, op⟩ := p
    rw [serveAll_cons] at hg ⊢
    rw [history_cons, List.foldl_cons]
    rcases serves_handle h r op with ⟨hm, hs⟩ | ⟨hm, hs⟩
    · have hnext := hc.handle h r op (by rw [hm]; exact nofun)
      rw [hm] at hg ⊢
      exact ih hs hnext hg
    · rw [hm] at hg ⊢
      simp only [Option.toList_some, List.cons_append, List.nil_append, List.length_cons] at hg ⊢
      have hnext := hc.handle h r op fun i hi => by
        rw [hm] at hi
        exact ⟨(Option.some.inj hi).symm, by omega⟩
      have hrest := ih (hs (by omega)) (hnext.mono (Nat.le_add_right given 1)) (by omega)
      rw [← Nat.add_assoc, Nat.add_right_comm]
      exact hrest

/-! ## What a file answers -/

/-- What comes of a change that cannot fail. -/
theorem answering_of_ok {α : Type} {change : Timestamp → Change α} {reply : α → Reply} {a : α}
    (h : ∀ now, ∃ t', (change now).on fs.tree = (.ok a, t')) :
    (fs.answering change reply).2 = .reply (reply a) := by
  obtain ⟨t', ha⟩ := h (fs.clock fs.readings)
  rw [answering_eq, ha]

/-- A number that is in use is not given out. -/
theorem made?_ne {n : Node} (h : fs.tree.Shape given) (hg : given + 1 < UInt64.size)
    (hc : Holds fs.tree given ino c) (hn : fs.tree.node? ino = some n) (r : Request)
    (op : Operation) : made? op (fs.handle r op).2 ≠ some ino := by
  intro hmade
  rcases serves_handle h r op with ⟨hnone, -⟩ | ⟨hsome, -⟩
  · rw [hnone] at hmade
    cases hmade
  · rw [hsome] at hmade
    cases hmade
    have hbelow := h.below _ n hn
    by_cases hlast : given + 2 = UInt64.size
    -- After the last number comes zero, which no node has.
    · refine hc.ne_zero hn ?_
      rw [hlast]
      rfl
    · rw [UInt64.toNat_ofNat_of_lt' (by omega)] at hbelow
      omega

theorem mirrors_of_holds {n : Node} (h : fs.tree.Shape given) (hg : given + 1 < UInt64.size)
    (hc : Holds fs.tree given ino c) (hn : fs.tree.node? ino = some n) (hfile : n.isDir = false) :
    Mirrors fs ino n c := by
  have hdata : n.data = c.bytes := hc.data n.data (Tree.data?_eq_some hn)
  obtain ⟨hsize, hblocks⟩ := h.wellFormed.size ino n hn hfile
  rw [hdata, Content.length_bytes] at hsize hblocks
  have hkept (r : Request) (op : Operation) (hf : (fs.handle r op).2.fails = true) :
      (fs.handle r op).1.tree = fs.tree := by
    rw [atomic_handle fs r op hf]
  refine ⟨hdata, hsize, hblocks, fun r fh => ?_, fun r offset size file => ?_,
    fun r offset data file hf hfew => ?_, fun r op hother n' hn' => ?_,
    fun r op target g hop htarget => ?_⟩
  · refine answering_of_ok fun _ => ⟨fs.tree, ?_⟩
    unfold Tree.getattr
    rw [Change.on_bind_of_ok (Tree.node_on hn)]
    rfl
  · refine answering_of_ok fun _ => ⟨fs.tree, ?_⟩
    unfold Tree.read
    rw [Change.on_bind_of_ok (Tree.file_on hn hfile), hdata, Content.read_bytes]
    rfl
  · obtain ⟨now, count, ⟨m, -, -, -, rfl, -⟩, hcount⟩ :=
      answering_succeeds _ (fun now => Tree.writes now ino offset data fs.tree) hf
    exact ⟨_, hcount, UInt32.toNat_ofNat_of_lt' hfew⟩
  · cases hf : (fs.handle r op).2.fails with
    | true =>
      rw [hkept r op hf, hn] at hn'
      cases hn'
      rfl
    | false =>
      have hfollows := follows_handle r op hf
      cases hop : edit? op with
      | none =>
        rcases hfollows.spares hop ino n'.data (Tree.data?_eq_some hn') with hold | ⟨hm, -⟩
        · rw [Tree.data?_eq_some hn] at hold
          exact (Option.some.inj hold).symm
        · exact absurd hm (made?_ne h hg hc hn r op)
      | some edit =>
        obtain ⟨target, g⟩ := edit
        obtain ⟨-, f, ht, -⟩ := hfollows.edits target g hop
        have hne : ino ≠ target := by
          rintro rfl
          exact hother g hop
        rw [ht, Tree.node?_adjust, if_neg hne, hn] at hn'
        cases hn'
        rfl
  · cases hf : (fs.handle r op).2.fails with
    | true =>
      rw [hkept r op hf]
      exact hn
    | false =>
      obtain ⟨-, f, ht, -⟩ := (follows_handle r op hf).edits target g hop
      rw [ht, Tree.node?_adjust, if_neg (Ne.symm htarget)]
      exact hn

end MemFs

/-! ## Reads in a row -/

namespace HelloFs

theorem Tiles.le {start stop : Nat} {reads : List (UInt64 × UInt32)} (h : Tiles start reads stop) :
    start ≤ stop := by
  induction h with
  | nil start => exact Nat.le_refl start
  | cons _ ih => omega

/-- Reads that follow each other give what there is from the first place to the last. -/
theorem Tiles.flatten {start stop : Nat} {reads : List (UInt64 × UInt32)}
    (h : Tiles start reads stop) (content : Bytes) :
    (reads.map fun p => (content.drop p.1.toNat).take p.2.toNat).flatten =
      (content.drop start).take (stop - start) := by
  induction h with
  | nil start => rw [Nat.sub_self]; rfl
  | @cons offset size rest stop h ih =>
    have hle := h.le
    have hsum : stop - offset.toNat = size.toNat + (stop - (offset.toNat + size.toNat)) := by omega
    rw [List.map_cons, List.flatten_cons, ih, hsum, List.take_add, List.drop_drop]

theorem Tiles.reassembles {fs : HelloFs} {reads : List (UInt64 × UInt32)} {stop : Nat}
    (h : Tiles 0 reads stop) (hstop : fs.content.length ≤ stop) (file : FileInfo) :
    ∃ chunks : List Bytes,
      reads.map (fun p => fs.reply (.read fileInode p.1 p.2 file)) = chunks.map .data ∧
      chunks.flatten = fs.content := by
  refine ⟨reads.map fun p => (fs.content.drop p.1.toNat).take p.2.toNat, ?_, ?_⟩
  · rw [List.map_map]
    rfl
  · rw [h.flatten, List.drop_zero, Nat.sub_zero, List.take_of_length_le hstop]

end HelloFs

/-! ## The law -/

namespace MemFs

/-- Whatever was asked of a file system in memory, each of its files holds the array of bytes
that the operations on it made: writes at any places, changes of the length, and opens that
empty it, each if it succeeded. Its reads and its attributes show that array, and nothing but
an operation on the file changes it. And reads of the file that can only be read, one after
another over all of it, give what it holds, which is as long as its attributes say. -/
theorem files_are_arrays_of_bytes (clock : Nat → Timestamp) (owner : Owner)
    (requests : List (Request × Operation))
    (hmade : ((fresh clock owner).serveAll requests).2.length + 1 < UInt64.size) :
    (∀ ino n, ((fresh clock owner).serveAll requests).1.tree.node? ino = some n →
      n.isDir = false →
      Mirrors ((fresh clock owner).serveAll requests).1 ino n
        (.following ino ((fresh clock owner).history requests))) ∧
    ∀ (hello : HelloFs) (reads : List (UInt64 × UInt32)) (stop : Nat) (file : FileInfo) (fh),
      hello.content.length < capacity → HelloFs.Tiles 0 reads stop →
      hello.content.length ≤ stop →
      ∃ (chunks : List Bytes) (a : Attr),
        reads.map (fun p => hello.reply (.read HelloFs.fileInode p.1 p.2 file)) =
          chunks.map .data ∧
        chunks.flatten = hello.content ∧
        hello.reply (.getattr HelloFs.fileInode fh) = .attr a HelloFs.ttl ∧
        a.size.toNat = chunks.flatten.length := by
  constructor
  · intro ino n hn hfile
    have hfresh : (fresh clock owner).tree.Shape 0 := Tree.shape_root (clock 0) owner
    have hnothing : Holds (fresh clock owner).tree 0 ino .empty := holds_root (clock 0) owner ino
    obtain ⟨hshape, -⟩ := shape_serveAll requests hfresh (by omega)
    have hholds := holds_serveAll requests hfresh hnothing (by omega)
    exact mirrors_of_holds hshape (by omega) hholds hn hfile
  · intro hello reads stop file fh hshort h hstop
    obtain ⟨chunks, hchunks, hall⟩ := h.reassembles hstop file
    refine ⟨chunks, _, hchunks, hall, rfl, ?_⟩
    have hcapacity : capacity < UInt64.size := by decide
    rw [hall]
    exact UInt64.toNat_ofNat_of_lt' (by omega)

/-- Two bytes are written behind a gap, one of them is cut off, and the file grows again. -/
def edits : List Operation := [
  .create rootInode [97] 0o644 0 0,
  .create rootInode [98] 0o644 0 0,
  .write 2 3 [1, 2] { fh := 0, flags := 0 },
  .write 3 0 [9] { fh := 0, flags := 0 },
  .setattr 2 { size := some 4 },
  .setattr 2 { size := some 7 },
  .open 3 openTruncate]

/-- The requests with the edits. -/
def editing : List (Request × Operation) :=
  edits.map fun op => (⟨0, 1, 0, 0, 0, op.kind, op.replyLimit⟩, op)

/-- The byte that was cut off reads as zero. -/
theorem what_was_cut_off_reads_as_zero :
    ∃ n, ((fresh (fun _ => .epoch) ⟨0, 0⟩).serveAll editing).1.tree.node? 2 = some n ∧
      n.data = [0, 0, 0, 1, 0, 0, 0] ∧
      (∀ r file, (((fresh (fun _ => .epoch) ⟨0, 0⟩).serveAll editing).1.handle r
        (.read 2 2 3 file)).2 = .reply (.data [0, 1, 0])) ∧
      ∃ (chunks : List Bytes) (a : Attr),
        [(0, 2), (2, 9)].map (fun p : UInt64 × UInt32 =>
          (⟨[104, 105, 33], .epoch⟩ : HelloFs).reply (.read 2 p.1 p.2 { fh := 0, flags := 0 })) =
            chunks.map .data ∧
        chunks.flatten = [104, 105, 33] ∧ a.size.toNat = chunks.flatten.length := by
  obtain ⟨hfiles, hhello⟩ :=
    files_are_arrays_of_bytes (fun _ => .epoch) ⟨0, 0⟩ editing (by decide +kernel)
  have hsome : (((fresh (fun _ => .epoch) ⟨0, 0⟩).serveAll editing).1.tree.node? 2).any
      (fun n => !n.isDir) = true := by decide +kernel
  obtain ⟨n, hn, hfile⟩ := (Option.any_eq_true _ _).mp hsome
  have hmirrors := hfiles 2 n hn (by simpa using hfile)
  have htiles : HelloFs.Tiles 0 [(0, 2), (2, 9)] 11 :=
    @HelloFs.Tiles.cons 0 2 _ _ (@HelloFs.Tiles.cons 2 9 _ _ (.nil 11))
  obtain ⟨chunks, a, hchunks, hall, -, hsize⟩ :=
    hhello ⟨[104, 105, 33], .epoch⟩ [(0, 2), (2, 9)] 11 { fh := 0, flags := 0 } none
      (by decide) htiles (by decide)
  refine ⟨n, hn, hmirrors.data.trans (by decide +kernel), fun r file => ?_, chunks, a, hchunks,
    hall, hsize⟩
  rw [hmirrors.read]
  exact congrArg (fun data => Outcome.reply (.data data)) (by decide +kernel)

end MemFs

end Fuse
