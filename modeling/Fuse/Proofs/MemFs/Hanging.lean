-- How the nodes of a tree hang together. What counts is who stands where and which
-- entries there are; a node that is put, removed or moved changes one entry, and the
-- rest hangs together as before.
import Fuse.Proofs.MemFs.Changes

namespace Fuse.MemFs.Tree

variable {t t' : Tree}

/-! ## Places and entries -/

/-- Where a node stands, and whether it is a directory. -/
def stand? (t : Tree) (ino : Inode) : Option (Inode × Bool) :=
  (t.node? ino).map fun n => (n.parent, n.isDir)

/-- The node that an entry leads to. -/
def target? (t : Tree) (dir : Inode) (name : Name) : Option Inode :=
  (t.node? dir).bind fun d => d.children.get? name

theorem hasEntry_iff {dir : Inode} {name : Name} {ino : Inode} :
    t.HasEntry dir name ino ↔ t.target? dir name = some ino := by
  unfold HasEntry target?
  rw [Option.bind_eq_some_iff]

theorem target?_eq {dir : Inode} {d : Node} (h : t.node? dir = some d) (name : Name) :
    t.target? dir name = d.children.get? name := by
  unfold target?
  rw [h]
  rfl

/-- A node without children has no entries. -/
theorem target?_childless {ino : Inode} {n : Node} (hn : t.node? ino = some n)
    (hc : n.children = []) (name : Name) : t.target? ino name = none := by
  rw [target?_eq hn, hc]
  rfl

theorem stand?_eq_some {ino : Inode} {n : Node} (h : t.node? ino = some n) :
    t.stand? ino = some (n.parent, n.isDir) := by
  unfold stand?
  rw [h]
  rfl

theorem node?_of_stand? {ino dir : Inode} {b : Bool} (h : t.stand? ino = some (dir, b)) :
    ∃ n, t.node? ino = some n ∧ n.parent = dir ∧ n.isDir = b := by
  obtain ⟨n, hn, he⟩ := Option.map_eq_some_iff.mp h
  cases he
  exact ⟨n, hn, rfl, rfl⟩

theorem isDirectory_eq (t : Tree) (ino : Inode) :
    t.isDirectory ino = (t.stand? ino).any (·.2) := by
  unfold isDirectory stand?
  cases t.node? ino <;> rfl

/-! ### After a change of one node -/

theorem target?_adjust (t : Tree) (ino dir : Inode) (f : Node → Node) (name : Name) :
    (t.adjust ino f).target? dir name =
      if dir = ino then (t.node? ino).bind fun d => (f d).children.get? name
      else t.target? dir name := by
  unfold target?
  rw [node?_adjust]
  by_cases h : dir = ino
  · rw [if_pos h, if_pos h, h]
    exact Option.bind_map
  · rw [if_neg h, if_neg h]

theorem target?_withoutChild (now : Timestamp) (t : Tree) (place : Inode) (gone : Name) (b : Bool)
    (dir : Inode) (name : Name) :
    (t.adjust place (withoutChild now gone b)).target? dir name =
      if dir = place ∧ name = gone then none else t.target? dir name := by
  rw [target?_adjust]
  by_cases hd : dir = place
  · subst hd
    rw [if_pos rfl]
    have hget (d : Node) : (withoutChild now gone b d).children.get? name =
        if name = gone then none else d.children.get? name := KeyedList.get?_erase _ _ _
    unfold target?
    simp only [hget, true_and]
    split <;> simp
  · rw [if_neg hd, if_neg (fun h => hd h.1)]

theorem target?_withChild (now : Timestamp) {t : Tree} {place : Inode} {d : Node}
    (hd : t.node? place = some d) (new : Name) (ino : Inode) (b : Bool) (dir : Inode)
    (name : Name) :
    (t.adjust place (withChild now new ino b)).target? dir name =
      if dir = place ∧ name = new then some ino else t.target? dir name := by
  rw [target?_adjust]
  by_cases hp : dir = place
  · subst hp
    have hget : (withChild now new ino b d).children.get? name =
        if name = new then some ino else d.children.get? name := KeyedList.get?_insert _ _ _ _
    unfold target?
    rw [if_pos rfl, hd]
    simp only [Option.bind_some, hget, true_and]
  · rw [if_neg hp, if_neg (fun h => hp h.1)]

/-- A change that keeps the children of a node keeps all entries. -/
theorem target?_of_children {f : Node → Node} (hf : ∀ n, (f n).children = n.children) (t : Tree)
    (ino dir : Inode) (name : Name) : (t.adjust ino f).target? dir name = t.target? dir name := by
  rw [target?_adjust]
  simp only [hf]
  split
  · rename_i h
    rw [h]
    rfl
  · rfl

theorem target?_drop (t : Tree) (ino dir : Inode) (name : Name) :
    (t.drop ino).target? dir name = if dir = ino then none else t.target? dir name := by
  unfold target?
  rw [node?_drop]
  split <;> rfl

theorem target?_grow (t : Tree) {n : Node} (hn : n.children = []) (dir : Inode) (name : Name) :
    (t.grow n).target? dir name = if dir = t.next then none else t.target? dir name := by
  unfold target?
  rw [node?_grow]
  split
  · rw [Option.bind_some, hn]
    rfl
  · rfl

theorem target?_moved (now : Timestamp) {t : Tree} {newParent : Inode} {d : Node}
    (hd : t.node? newParent = some d) (parent : Inode) (name newName : Name) (ino : Inode)
    (b : Bool) (dir : Inode) (x : Name) :
    (t.moved now parent name newParent newName ino b).target? dir x =
      if dir = newParent ∧ x = newName then some ino
      else if dir = parent ∧ x = name then none else t.target? dir x := by
  obtain ⟨d', hd'⟩ : ∃ d', (t.adjust parent (withoutChild now name b)).node? newParent =
      some d' := by
    rw [← Option.isSome_iff_exists, isSome_adjust]
    exact Option.isSome_of_eq_some hd
  unfold Tree.moved
  rw [target?_of_children (f := Tree.placed now newParent) (fun _ => rfl),
    target?_withChild now hd', target?_withoutChild]

/-- A change that moves no node and keeps its kind. -/
theorem stand?_of_akin {f : Node → Node} (hp : ∀ n, (f n).parent = n.parent)
    (hk : ∀ n, (f n).isDir = n.isDir) (t : Tree) (ino i : Inode) :
    (t.adjust ino f).stand? i = t.stand? i := by
  unfold stand?
  rw [node?_adjust]
  split
  · cases t.node? i with
    | none => rfl
    | some n =>
      simp only [Option.map_some, hp, hk]
  · rfl

theorem stand?_withoutChild (now : Timestamp) (t : Tree) (place : Inode) (name : Name) (b : Bool)
    (i : Inode) : (t.adjust place (withoutChild now name b)).stand? i = t.stand? i :=
  stand?_of_akin (f := withoutChild now name b) (fun _ => rfl) (fun _ => rfl) t place i

theorem stand?_withChild (now : Timestamp) (t : Tree) (place : Inode) (name : Name) (ino : Inode)
    (b : Bool) (i : Inode) : (t.adjust place (withChild now name ino b)).stand? i = t.stand? i :=
  stand?_of_akin (f := withChild now name ino b) (fun _ => rfl) (fun _ => rfl) t place i

theorem stand?_placed (now : Timestamp) (t : Tree) (ino dir i : Inode) :
    (t.adjust ino (placed now dir)).stand? i =
      if i = ino then (t.stand? i).map fun s => (dir, s.2) else t.stand? i := by
  unfold stand?
  rw [node?_adjust]
  split
  · rw [Option.map_map, Option.map_map]
    rfl
  · rfl

theorem stand?_drop (t : Tree) (ino i : Inode) :
    (t.drop ino).stand? i = if i = ino then none else t.stand? i := by
  unfold stand?
  rw [node?_drop]
  split <;> rfl

theorem stand?_grow (t : Tree) (n : Node) (i : Inode) :
    (t.grow n).stand? i = if i = t.next then some (n.parent, n.isDir) else t.stand? i := by
  unfold stand?
  rw [node?_grow]
  split <;> rfl

/-! ## Climbing -/

/-- Whoever climbs past only such nodes that stand where they stood climbs as before. -/
theorem Climbs.transfer {past past' : List Inode} {j : Inode} (c : t.Climbs past j)
    (ok : Inode → Prop) (hj : ok j)
    (h : ∀ i dir b, t.stand? i = some (dir, b) → i ∉ past → ok i →
      (∃ b', t'.stand? i = some (dir, b')) ∧ ok dir ∧ i ∉ past') : t'.Climbs past' j := by
  induction c with
  | root => exact .root
  | @up i n hn hp _ ih =>
    obtain ⟨⟨b', hb⟩, hdir, hpast⟩ := h i n.parent n.isDir (stand?_eq_some hn) hp hj
    obtain ⟨n', hn', hparent, -⟩ := node?_of_stand? hb
    have hup := ih hdir
    rw [← hparent] at hup
    exact .up hn' hpast hup

/-- Only the root is its own parent. -/
theorem Climbs.ne_parent {past : List Inode} {j : Inode} (c : t.Climbs past j) {b : Bool}
    (h : t.stand? j = some (j, b)) : j = rootInode := by
  induction c with
  | root => rfl
  | @up i n hn _ _ ih =>
    have hparent : n.parent = i := by
      rw [stand?_eq_some hn] at h
      exact congrArg Prod.fst (Option.some.inj h)
    rw [hparent] at ih
    exact ih h

/-- The walk that did not meet a node is a climb past it. -/
theorem climbs_of_climb {ino : Inode} {steps : Nat} {cursor : Inode}
    (h : t.climb ino steps cursor = some (.ok false)) : t.Climbs [ino] cursor := by
  induction steps generalizing cursor with
  | zero => cases h
  | succ steps ih =>
    unfold climb at h
    split at h
    · rename_i hroot
      rw [hroot]
      exact .root
    · split at h
      · cases h
      · rename_i hne
        split at h
        · rename_i n hn
          exact .up hn (by simpa using hne) (ih h)
        · cases h

/-! ## Hanging together -/

/-- Each node but the root stands in the one directory that has an entry for it, and
climbing leads to the root. -/
structure Hangs (t : Tree) : Prop where
  root : t.stand? rootInode = some (rootInode, true)
  entry : ∀ {dir name ino}, t.target? dir name = some ino →
    ino ≠ rootInode ∧ ∃ b, t.stand? ino = some (dir, b)
  placed : ∀ {ino dir b}, t.stand? ino = some (dir, b) → ino ≠ rootInode →
    ∃ name, t.target? dir name = some ino
  apart : ∀ {dir name name' ino}, t.target? dir name = some ino →
    t.target? dir name' = some ino → name' = name
  climbs : ∀ {ino s}, t.stand? ino = some s → t.Climbs [] ino

namespace Hangs

/-- No directory has an entry for itself. -/
theorem entry_ne {dir : Inode} {name : Name} {ino : Inode} (h : t.Hangs)
    (he : t.target? dir name = some ino) : ino ≠ dir := by
  rintro rfl
  obtain ⟨hroot, b, hb⟩ := h.entry he
  exact hroot ((h.climbs hb).ne_parent hb)

/-- A node has one place. -/
theorem entry_unique {dir dir' : Inode} {name name' : Name} {ino : Inode} (h : t.Hangs)
    (he : t.target? dir name = some ino) (he' : t.target? dir' name' = some ino) :
    dir' = dir ∧ name' = name := by
  obtain ⟨-, b, hb⟩ := h.entry he
  obtain ⟨-, b', hb'⟩ := h.entry he'
  rw [hb] at hb'
  cases hb'
  exact ⟨rfl, h.apart he he'⟩

/-- Trees with the same entries and nodes in the same places hang together alike. -/
theorem congr (h : t.Hangs) (hs : ∀ i, t'.stand? i = t.stand? i)
    (he : ∀ dir name, t'.target? dir name = t.target? dir name) : t'.Hangs := by
  refine ⟨?_, ?_, ?_, ?_, ?_⟩
  · rw [hs, h.root]
  · intro dir name ino hino
    rw [he] at hino
    rw [hs]
    exact h.entry hino
  · intro ino dir b hino hne
    rw [hs] at hino
    obtain ⟨name, hname⟩ := h.placed hino hne
    exact ⟨name, (he dir name).trans hname⟩
  · intro dir name name' ino hino hino'
    rw [he] at hino hino'
    exact h.apart hino hino'
  · intro ino s hino
    rw [hs] at hino
    refine (h.climbs hino).transfer (fun _ => True) trivial ?_
    intro i dir b hi _ _
    exact ⟨⟨b, (hs i).trans hi⟩, trivial, by simp⟩

/-- The child of a node is there. -/
theorem child {dir ino : Inode} {d : Node} {name : Name} (h : t.Hangs)
    (hd : t.node? dir = some d) (hn : d.children.get? name = some ino) :
    ∃ n, t.node? ino = some n := by
  obtain ⟨-, b, hb⟩ := h.entry ((target?_eq hd name).trans hn)
  obtain ⟨n, hn', -⟩ := node?_of_stand? hb
  exact ⟨n, hn'⟩

/-- Nothing stands in a node without entries. -/
theorem ne_of_stand {bare i dir : Inode} {b : Bool} (h : t.Hangs) (hroot : bare ≠ rootInode)
    (hbare : ∀ name, t.target? bare name = none) (hi : t.stand? i = some (dir, b)) :
    dir ≠ bare := by
  rintro rfl
  by_cases hr : i = rootInode
  · rw [hr, h.root] at hi
    cases hi
    exact hroot rfl
  · obtain ⟨name, hname⟩ := h.placed hi hr
    rw [hbare name] at hname
    cases hname

/-- No climb meets a node without entries, unless it starts there. -/
theorem climbs_past {bare j : Inode} (h : t.Hangs) (hroot : bare ≠ rootInode)
    (hbare : ∀ name, t.target? bare name = none) (hj : j ≠ bare) (c : t.Climbs [] j) :
    t.Climbs [bare] j := by
  refine c.transfer (fun i => i ≠ bare) hj ?_
  intro i dir b hi _ hne
  exact ⟨⟨b, hi⟩, h.ne_of_stand hroot hbare hi, by simpa using hne⟩

end Hangs

/-! ### The root alone -/

theorem node?_root (now : Timestamp) (owner : Owner) (i : Inode) :
    (root now owner).node? i = if i = rootInode then
      some { attr := freshAttr now rootInode .directory 0o755 owner, parent := rootInode }
      else none := by
  have hcons := KeyedList.get?_cons (rootInode,
    ({ attr := freshAttr now rootInode .directory 0o755 owner, parent := rootInode } : Node)) [] i
  simp only [eq_comm (a := rootInode)] at hcons
  exact hcons

theorem target?_root (now : Timestamp) (owner : Owner) (dir : Inode) (name : Name) :
    (root now owner).target? dir name = none := by
  unfold target?
  rw [node?_root]
  split <;> rfl

theorem hangs_root (now : Timestamp) (owner : Owner) : (root now owner).Hangs := by
  have hentry (dir : Inode) (name : Name) : (root now owner).target? dir name = none :=
    target?_root now owner dir name
  have hstand (i : Inode) : (root now owner).stand? i =
      if i = rootInode then some (rootInode, true) else none := by
    unfold stand?
    rw [node?_root]
    split <;> rfl
  refine ⟨?_, ?_, ?_, ?_, ?_⟩
  · rw [hstand, if_pos rfl]
  · intro dir name ino he
    rw [hentry] at he
    cases he
  · intro ino dir b hs hne
    rw [hstand, if_neg hne] at hs
    cases hs
  · intro dir name name' ino he
    rw [hentry] at he
    cases he
  · intro ino s hs
    rw [hstand] at hs
    split at hs
    · rename_i hi
      rw [hi]
      exact .root
    · cases hs

/-! ## One node in another place -/

/-- The second tree is the first with one node in another place, or in none. -/
structure Relinked (t t' : Tree) (ino : Inode) (place : Option (Inode × Name)) : Prop where
  entry : ∀ dir name j, t'.target? dir name = some j ↔
    j = ino ∧ place = some (dir, name) ∨ j ≠ ino ∧ t.target? dir name = some j
  stand : ∀ i, i ≠ ino → t'.stand? i = t.stand? i
  self : (t'.stand? ino).map (·.1) = place.map (·.1)

namespace Relinked

variable {ino : Inode}

/-- What climbs past the node climbs as before. -/
theorem climbs_past {place : Option (Inode × Name)} (r : t.Relinked t' ino place) {j : Inode}
    (c : t.Climbs [ino] j) : t'.Climbs [] j := by
  refine c.transfer (fun _ => True) trivial ?_
  intro i dir b hi hne _
  have hi' : i ≠ ino := by simpa using hne
  exact ⟨⟨b, (r.stand i hi').trans hi⟩, trivial, by simp⟩

/-- A node climbs from a place that can be climbed from past it. -/
theorem climbs_self {dir : Inode} {name : Name} (r : t.Relinked t' ino (some (dir, name)))
    (c : t.Climbs [ino] dir) : t'.Climbs [] ino := by
  obtain ⟨⟨d, b⟩, hs, rfl⟩ := Option.map_eq_some_iff.mp r.self
  obtain ⟨n, hn, hparent, -⟩ := node?_of_stand? hs
  refine .up hn (by simp) ?_
  rw [hparent]
  exact r.climbs_past c

/-- What stands below the node climbs by way of its new place. -/
theorem climbs {dir : Inode} {name : Name} (r : t.Relinked t' ino (some (dir, name)))
    (c : t.Climbs [ino] dir) {j : Inode} (cj : t.Climbs [] j) : t'.Climbs [] j := by
  induction cj with
  | root => exact .root
  | @up i n hn _ _ ih =>
    by_cases hi : i = ino
    · rw [hi]
      exact r.climbs_self c
    · have hstand := (r.stand i hi).trans (stand?_eq_some hn)
      obtain ⟨n', hn', hparent, -⟩ := node?_of_stand? hstand
      refine .up hn' (by simp) ?_
      rw [hparent]
      exact ih

end Relinked

/-- If the place can be climbed from past the node, or the node has no entries and gets
no place, the nodes still hang together. -/
theorem Hangs.relinked (h : t.Hangs) (ino : Inode) (place : Option (Inode × Name))
    (r : t.Relinked t' ino place) (hroot : ino ≠ rootInode)
    (hup : (∃ dir name, place = some (dir, name) ∧ t.Climbs [ino] dir) ∨
      place = none ∧ ∀ name, t.target? ino name = none) : t'.Hangs := by
  refine ⟨?_, ?_, ?_, ?_, ?_⟩
  · rw [r.stand _ (Ne.symm hroot), h.root]
  · intro dir name j hj
    rcases (r.entry dir name j).mp hj with ⟨rfl, hplace⟩ | ⟨hne, hj⟩
    · have hself := r.self
      rw [hplace] at hself
      obtain ⟨⟨d, b⟩, hs, rfl⟩ := Option.map_eq_some_iff.mp hself
      exact ⟨hroot, b, hs⟩
    · rw [r.stand j hne]
      exact h.entry hj
  · intro j dir b hj hjroot
    by_cases hne : j = ino
    · subst hne
      have hself := r.self
      rw [hj] at hself
      obtain ⟨⟨d, name⟩, hplace, rfl⟩ := Option.map_eq_some_iff.mp hself.symm
      exact ⟨name, (r.entry d name j).mpr (Or.inl ⟨rfl, hplace⟩)⟩
    · rw [r.stand j hne] at hj
      obtain ⟨name, hname⟩ := h.placed hj hjroot
      exact ⟨name, (r.entry dir name j).mpr (Or.inr ⟨hne, hname⟩)⟩
  · intro dir name name' j hj hj'
    rcases (r.entry dir name j).mp hj with ⟨rfl, hplace⟩ | ⟨hne, hj⟩
    · rcases (r.entry dir name' j).mp hj' with ⟨-, hplace'⟩ | ⟨hne, -⟩
      · rw [hplace] at hplace'
        cases hplace'
        rfl
      · exact absurd rfl hne
    · rcases (r.entry dir name' j).mp hj' with ⟨he, -⟩ | ⟨-, hj'⟩
      · exact absurd he hne
      · exact h.apart hj hj'
  · intro j s hj
    rcases hup with ⟨dir, name, rfl, c⟩ | ⟨rfl, hbare⟩
    · by_cases hne : j = ino
      · rw [hne]
        exact r.climbs_self c
      · rw [r.stand j hne] at hj
        exact r.climbs c (h.climbs hj)
    · have hne : j ≠ ino := by
        rintro rfl
        have hself := r.self
        rw [hj] at hself
        cases hself
      rw [r.stand j hne] at hj
      exact r.climbs_past (h.climbs_past hroot hbare hne (h.climbs hj))

namespace Hangs

/-! ## Making, removing and moving -/

/-- A new node hangs where it was made. -/
theorem grow {now : Timestamp} {parent : Inode} {d : Node} {name : Name} {b : Bool} {a : Attr}
    (h : t.Hangs) (hd : t.node? parent = some d) (hname : d.children.get? name = none)
    (hnew : t.node? t.next = none) :
    ((t.adjust parent (withChild now name t.next b)).grow { attr := a, parent }).Hangs := by
  have hnone : t.stand? t.next = none := by
    unfold stand?
    rw [hnew]
    rfl
  have hbare (x : Name) : t.target? t.next x = none := by
    unfold target?
    rw [hnew]
    rfl
  have hfree : t.target? parent name = none := (target?_eq hd name).trans hname
  have hunnamed (dir : Inode) (x : Name) : t.target? dir x ≠ some t.next := by
    intro he
    obtain ⟨-, b, hb⟩ := h.entry he
    rw [hnone] at hb
    cases hb
  have hroot : t.next ≠ rootInode := by
    intro he
    rw [he, h.root] at hnone
    cases hnone
  have hparent : parent ≠ t.next := by
    rintro rfl
    rw [hnew] at hd
    cases hd
  have hnext : (t.adjust parent (withChild now name t.next b)).next = t.next := rfl
  refine h.relinked t.next (some (parent, name)) ⟨?_, ?_, ?_⟩ hroot
    (Or.inl ⟨parent, name, rfl, ?_⟩)
  · intro dir x j
    rw [target?_grow _ rfl, target?_withChild now hd, hnext]
    grind
  · intro i hi
    rw [stand?_grow, stand?_withChild, hnext, if_neg hi]
  · rw [stand?_grow, hnext, if_pos rfl]
    rfl
  · exact h.climbs_past hroot hbare hparent (h.climbs (stand?_eq_some hd))

/-- The rest hangs as before when a node without entries is removed. -/
theorem drop {now : Timestamp} {parent ino : Inode} {name : Name} {b : Bool} (h : t.Hangs)
    (he : t.target? parent name = some ino) (hbare : ∀ x, t.target? ino x = none) :
    ((t.drop ino).adjust parent (withoutChild now name b)).Hangs := by
  have hunique (dir : Inode) (x : Name) (hx : t.target? dir x = some ino) :
      dir = parent ∧ x = name := h.entry_unique he hx
  refine h.relinked ino none ⟨?_, ?_, ?_⟩ (h.entry he).1
    (Or.inr ⟨rfl, hbare⟩)
  · intro dir x j
    rw [target?_withoutChild, target?_drop]
    grind
  · intro i hi
    rw [stand?_withoutChild, stand?_drop, if_neg hi]
  · rw [stand?_withoutChild, stand?_drop, if_pos rfl]
    rfl

/-- A node hangs where it was moved to, if it could be climbed from there past it. -/
theorem moved {now : Timestamp} {parent newParent ino : Inode} {name newName : Name} {d : Node}
    {b : Bool} (h : t.Hangs) (he : t.target? parent name = some ino)
    (hd : t.node? newParent = some d) (hfree : d.children.get? newName = none)
    (c : t.Climbs [ino] newParent) : (t.moved now parent name newParent newName ino b).Hangs := by
  have hunique (dir : Inode) (x : Name) (hx : t.target? dir x = some ino) :
      dir = parent ∧ x = name := h.entry_unique he hx
  have hnone : t.target? newParent newName = none := (target?_eq hd newName).trans hfree
  obtain ⟨hroot, k, hk⟩ := h.entry he
  refine h.relinked ino (some (newParent, newName)) ⟨?_, ?_, ?_⟩ hroot
    (Or.inl ⟨newParent, newName, rfl, c⟩)
  · intro dir x j
    rw [target?_moved now hd]
    grind
  · intro i hi
    unfold Tree.moved
    rw [stand?_placed, if_neg hi, stand?_withChild, stand?_withoutChild]
  · unfold Tree.moved
    rw [stand?_placed, if_pos rfl, stand?_withChild, stand?_withoutChild, hk]
    rfl

end Hangs

end Fuse.MemFs.Tree
