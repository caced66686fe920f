-- The laws of finite maps. A map is kept in the order of its keys, so each key
-- stands once, and what a key leads to is all that there is to know.
import Fuse.KeyedList

namespace Fuse.KeyedList

variable {κ ν : Type} [DecidableEq κ]

/-! ## Looking up -/

theorem get?_cons (p : κ × ν) (m : KeyedList κ ν) (k : κ) :
    get? (p :: m) k = if p.1 = k then some p.2 else get? m k := by
  unfold get?
  by_cases h : p.1 = k
  · simp [h]
  · simp [h]

theorem mem_of_get? {m : KeyedList κ ν} {k : κ} {v : ν} (h : m.get? k = some v) : (k, v) ∈ m := by
  induction m with
  | nil => simp [get?] at h
  | cons p m ih =>
    rw [get?_cons] at h
    split at h
    · rename_i hk
      cases h
      subst hk
      exact List.mem_cons_self
    · exact List.mem_cons_of_mem _ (ih h)

theorem get?_isSome_of_mem {m : KeyedList κ ν} {k : κ} {v : ν} (h : (k, v) ∈ m) :
    (m.get? k).isSome := by
  induction m with
  | nil => cases h
  | cons p m ih =>
    rw [get?_cons]
    split
    · rfl
    · rename_i hk
      rcases List.mem_cons.mp h with h | h
      · subst h; exact absurd rfl hk
      · exact ih h

/-! ## Taking out -/

theorem mem_erase {m : KeyedList κ ν} {k : κ} {p : κ × ν} :
    p ∈ m.erase k ↔ p ∈ m ∧ p.1 ≠ k := by
  simp [erase, List.mem_filter]

theorem get?_erase_self (m : KeyedList κ ν) (k : κ) : (m.erase k).get? k = none := by
  rw [Option.eq_none_iff_forall_not_mem]
  intro v hv
  exact (mem_erase.mp (mem_of_get? hv)).2 rfl

theorem get?_erase_of_ne (m : KeyedList κ ν) {k k' : κ} (h : k' ≠ k) :
    (m.erase k).get? k' = m.get? k' := by
  induction m with
  | nil => rfl
  | cons p m ih =>
    have hcons : erase (p :: m) k = if p.1 = k then erase m k else p :: erase m k := by
      by_cases hp : p.1 = k
      · simp [erase, hp]
      · simp [erase, hp]
    rw [hcons, get?_cons]
    by_cases hp : p.1 = k
    · rw [if_pos hp, if_neg (fun e => h (e.symm.trans hp)), ih]
    · rw [if_neg hp, get?_cons, ih]

theorem erase_of_get?_none {m : KeyedList κ ν} {k : κ} (h : m.get? k = none) : m.erase k = m := by
  refine List.filter_eq_self.mpr ?_
  intro p hp
  have hne : p.1 ≠ k := by
    intro he
    have hs := get?_isSome_of_mem (k := p.1) (v := p.2) hp
    rw [he, h] at hs
    cases hs
  simp [hne]

theorem get?_erase (m : KeyedList κ ν) (k k' : κ) :
    (m.erase k).get? k' = if k' = k then none else m.get? k' := by
  by_cases h : k' = k
  · rw [if_pos h, h, get?_erase_self]
  · rw [if_neg h, get?_erase_of_ne m h]

/-! ## Changing -/

theorem get?_modify (m : KeyedList κ ν) (k k' : κ) (f : ν → ν) :
    (m.modify k f).get? k' = if k' = k then (m.get? k').map f else m.get? k' := by
  induction m with
  | nil => simp [modify, get?]
  | cons p m ih =>
    have hcons : modify (p :: m) k f =
        (if p.1 = k then (p.1, f p.2) else p) :: modify m k f := rfl
    rw [hcons, get?_cons, get?_cons, ih]
    by_cases hp : p.1 = k
    · rw [if_pos hp]
      by_cases hk : k' = k
      · simp [hp, hk]
      · simp [hp, hk, Ne.symm hk]
    · rw [if_neg hp]
      by_cases hk : k' = k
      · simp [hk, hp]
      · simp [hk]

/-! ## Putting in -/

section Insert

variable [LT κ] [DecidableLT κ]

theorem mem_of_mem_insert {m : KeyedList κ ν} {k : κ} {v : ν} {p : κ × ν}
    (h : p ∈ insert k v m) : p = (k, v) ∨ p ∈ m := by
  induction m with
  | nil => exact Or.inl (List.mem_singleton.mp h)
  | cons q m ih =>
    unfold insert at h
    split at h
    · exact List.mem_cons.mp h
    · split at h
      · rcases List.mem_cons.mp h with h | h
        · exact Or.inl h
        · exact Or.inr (List.mem_cons_of_mem _ h)
      · rcases List.mem_cons.mp h with h | h
        · exact Or.inr (h ▸ List.mem_cons_self)
        · rcases ih h with h | h
          · exact Or.inl h
          · exact Or.inr (List.mem_cons_of_mem _ h)

theorem get?_insert_of_ne (m : KeyedList κ ν) {k k' : κ} (v : ν) (h : k' ≠ k) :
    (insert k v m).get? k' = m.get? k' := by
  induction m with
  | nil => simp [insert, get?, Ne.symm h]
  | cons q m ih =>
    unfold insert
    split
    · rw [get?_cons, if_neg (Ne.symm h)]
    · split
      · rename_i hq
        rw [get?_cons, if_neg (Ne.symm h), get?_cons, if_neg (hq ▸ Ne.symm h)]
      · rw [get?_cons, get?_cons, ih]

theorem get?_insert_self (m : KeyedList κ ν) (k : κ) (v : ν) :
    (insert k v m).get? k = some v := by
  induction m with
  | nil => simp [insert, get?]
  | cons q m ih =>
    unfold insert
    split
    · rw [get?_cons, if_pos rfl]
    · split
      · rw [get?_cons, if_pos rfl]
      · rename_i hne
        rw [get?_cons, if_neg (Ne.symm hne), ih]

theorem get?_insert (m : KeyedList κ ν) (k k' : κ) (v : ν) :
    (insert k v m).get? k' = if k' = k then some v else m.get? k' := by
  by_cases hk : k' = k
  · rw [if_pos hk, hk, get?_insert_self]
  · rw [if_neg hk, get?_insert_of_ne m v hk]

/-- A new key adds one entry. -/
theorem countP_insert {m : KeyedList κ ν} {k : κ} (h : m.get? k = none) (v : ν)
    (P : κ × ν → Bool) :
    (insert k v m).countP P = m.countP P + if P (k, v) = true then 1 else 0 := by
  induction m with
  | nil => simp [insert, List.countP_cons]
  | cons q m ih =>
    rw [get?_cons] at h
    split at h
    · cases h
    · rename_i hne
      unfold insert
      split
      · rw [List.countP_cons]
      · rw [if_neg (Ne.symm hne), List.countP_cons, List.countP_cons, ih h]
        exact Nat.add_right_comm _ _ _

end Insert

/-! ## The order of the keys -/

variable [LT κ]

/-- The keys rise from entry to entry. -/
def Sorted (m : KeyedList κ ν) : Prop := m.Pairwise fun p q => p.1 < q.1

theorem sorted_erase {m : KeyedList κ ν} (k : κ) (h : Sorted m) : Sorted (m.erase k) :=
  List.Pairwise.filter _ h

theorem sorted_modify {m : KeyedList κ ν} (k : κ) (f : ν → ν) (h : Sorted m) :
    Sorted (m.modify k f) := by
  have hkey (p : κ × ν) : (if p.1 = k then (p.1, f p.2) else p).1 = p.1 := by
    split <;> rfl
  apply List.pairwise_map.mpr
  apply h.imp
  intro p q hlt
  rw [hkey p, hkey q]
  exact hlt

section Distinct

variable [Std.Irrefl (α := κ) (· < ·)]

/-- In a sorted map an entry is what its key leads to. -/
theorem get?_eq_some_iff {m : KeyedList κ ν} (h : Sorted m) {k : κ} {v : ν} :
    m.get? k = some v ↔ (k, v) ∈ m := by
  constructor
  · exact mem_of_get?
  · intro hm
    induction m with
    | nil => cases hm
    | cons q m ih =>
      obtain ⟨hq, hs⟩ := List.pairwise_cons.mp h
      rw [get?_cons]
      rcases List.mem_cons.mp hm with hm | hm
      · subst hm; simp
      · have hlt := hq _ hm
        have hne : q.1 ≠ k := by
          intro he
          rw [he] at hlt
          exact Std.Irrefl.irrefl (r := (· < ·)) _ hlt
        rw [if_neg hne]
        exact ih hs hm

/-- A key of a sorted map stands in it once. -/
theorem countP_key {m : KeyedList κ ν} (h : Sorted m) (k : κ) :
    m.countP (fun p => decide (p.1 = k)) = if (get? m k).isSome then 1 else 0 := by
  induction m with
  | nil => rfl
  | cons q m ih =>
    obtain ⟨hq, hs⟩ := List.pairwise_cons.mp h
    rw [List.countP_cons, ih hs, get?_cons]
    by_cases hk : q.1 = k
    · have hnone : get? m k = none := by
        rw [Option.eq_none_iff_forall_not_mem]
        intro v hv
        have hlt := hq _ (mem_of_get? hv)
        rw [hk] at hlt
        exact Std.Irrefl.irrefl (r := (· < ·)) _ hlt
      simp [hk, hnone]
    · simp [hk]

/-- A key of a sorted map takes one entry with it. -/
theorem countP_erase {m : KeyedList κ ν} (hs : Sorted m) {k : κ} {v : ν}
    (h : m.get? k = some v) (P : κ × ν → Bool) :
    m.countP P = (m.erase k).countP P + if P (k, v) = true then 1 else 0 := by
  induction m with
  | nil => cases h
  | cons q m ih =>
    obtain ⟨hq, hm⟩ := List.pairwise_cons.mp hs
    rw [get?_cons] at h
    by_cases hk : q.1 = k
    · rw [if_pos hk] at h
      cases h
      subst hk
      have hnone : get? m q.1 = none := by
        rw [Option.eq_none_iff_forall_not_mem]
        intro w hw
        have hlt := hq _ (mem_of_get? hw)
        exact Std.Irrefl.irrefl (r := (· < ·)) _ hlt
      have herase : erase (q :: m) q.1 = m := by
        have hrest := erase_of_get?_none hnone
        unfold erase at hrest ⊢
        simpa using hrest
      rw [herase, List.countP_cons]
    · rw [if_neg hk] at h
      have herase : erase (q :: m) k = q :: erase m k := by simp [erase, hk]
      rw [herase, List.countP_cons, List.countP_cons, ih hm h]
      exact Nat.add_right_comm _ _ _

end Distinct

section Insert

variable [DecidableLT κ] [Std.Trichotomous (α := κ) (· < ·)]
  [Trans (α := κ) (· < ·) (· < ·) (· < ·)]

theorem sorted_insert {m : KeyedList κ ν} (k : κ) (v : ν) (h : Sorted m) :
    Sorted (insert k v m) := by
  induction m with
  | nil => exact List.pairwise_singleton _ _
  | cons q m ih =>
    obtain ⟨hq, hm⟩ := List.pairwise_cons.mp h
    unfold insert
    split
    · rename_i hlt
      refine List.pairwise_cons.mpr ⟨?_, h⟩
      intro p hp
      rcases List.mem_cons.mp hp with hp | hp
      · exact hp ▸ hlt
      · exact Trans.trans hlt (hq p hp)
    · rename_i hlt
      split
      · rename_i heq
        subst heq
        exact List.pairwise_cons.mpr ⟨hq, hm⟩
      · rename_i hne
        refine List.pairwise_cons.mpr ⟨?_, ih hm⟩
        intro p hp
        rcases mem_of_mem_insert hp with hp | hp
        · subst hp
          exact Decidable.byContradiction fun hgt =>
            hne (Std.Trichotomous.trichotomous (r := (· < ·)) _ _ hlt hgt)
        · exact hq p hp

end Insert

section UpTo

variable [LE κ] [DecidableLE κ] [Std.IsLinearOrder κ] [Std.LawfulOrderLT κ]

omit [DecidableEq κ]

/-- The entries up to a key come first. -/
theorem take_countP_le {m : KeyedList κ ν} (h : Sorted m) (k : κ) :
    m.take (m.countP fun p => decide (p.1 ≤ k)) = m.filter fun p => decide (p.1 ≤ k) := by
  induction m with
  | nil => rfl
  | cons q m ih =>
    obtain ⟨hlt, hm⟩ := List.pairwise_cons.mp h
    by_cases hq : q.1 ≤ k
    · simp [hq, ih hm]
    · have hnone : ∀ p ∈ m, ¬decide (p.1 ≤ k) = true := by
        intro p hp hle
        exact hq (Std.le_trans (Std.le_of_lt (hlt p hp)) (of_decide_eq_true hle))
      simp only [List.countP_cons, List.filter_cons, decide_eq_false hq,
        List.countP_eq_zero.mpr hnone, List.filter_eq_nil_iff.mpr hnone]
      rfl

/-- Up to the key of an entry there are all the entries before it, and itself. -/
theorem countP_le_key {m : KeyedList κ ν} (h : Sorted m) {i : Nat} {p : κ × ν}
    (hp : m[i]? = some p) : m.countP (fun q => decide (q.1 ≤ p.1)) = i + 1 := by
  induction m generalizing i with
  | nil => cases hp
  | cons q m ih =>
    obtain ⟨hq, hm⟩ := List.pairwise_cons.mp h
    cases i with
    | zero =>
      obtain rfl : q = p := Option.some.inj hp
      have hnone : m.countP (fun p => decide (p.1 ≤ q.1)) = 0 :=
        List.countP_eq_zero.mpr fun p hp => by simpa using Std.not_le.mpr (hq p hp)
      simp [hnone, Std.le_refl]
    | succ i =>
      have hle : q.1 ≤ p.1 := Std.le_of_lt (hq p (List.mem_of_getElem? hp))
      rw [List.countP_cons, ih hm hp, if_pos (decide_eq_true hle)]

end UpTo

end Fuse.KeyedList
