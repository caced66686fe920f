-- Which bodies can be read. Reading goes through a body in steps, and each step needs
-- just what the grammar asks for at its place: so a message can be read if, and only
-- if, its body begins as the grammar says.
import Fuse.Operation.Grammar
import Fuse.Proofs.Layout
import Fuse.Proofs.Taking

namespace Fuse

/-! ## Names -/

theorem Name.eq_append_of_split? {body rest : Bytes} {name : Name}
    (h : Name.split? body = some (name, rest)) : body = name ++ 0 :: rest ∧ 0 ∉ name := by
  induction body generalizing name with
  | nil => simp [Name.split?] at h
  | cons b body ih =>
    unfold Name.split? at h
    split at h
    · simp only [Option.some.injEq, Prod.mk.injEq] at h
      obtain ⟨rfl, rfl⟩ := h
      simp_all
    · rename_i hb
      simp only [Option.map_eq_some_iff, Prod.exists, Prod.mk.injEq] at h
      obtain ⟨front, rest', hf, rfl, rfl⟩ := h
      obtain ⟨hbody, hzero⟩ := ih hf
      simp [hbody, hzero, Ne.symm hb]

namespace Grammar

/-- The bytes begin with so many names, and the rest has a property. -/
def Follows : Nat → (Bytes → Prop) → Bytes → Prop
  | 0, P, bs => P bs
  | n + 1, P, bs => ∃ name rest, bs = name ++ 0 :: rest ∧ 0 ∉ name ∧ Follows n P rest

theorem follows_iff {n : Nat} {P : Bytes → Prop} {bs : Bytes} :
    Follows n P bs ↔ ∃ (names : List Name) (rest : Bytes),
      bs = names.flatMap Name.terminated ++ rest ∧ names.length = n ∧
        (∀ name ∈ names, 0 ∉ name) ∧ P rest := by
  induction n generalizing bs with
  | zero =>
    constructor
    · intro h
      exact ⟨[], bs, rfl, rfl, by simp, h⟩
    · rintro ⟨names, rest, rfl, hn, -, h⟩
      rw [List.length_eq_zero_iff.mp hn]
      exact h
  | succ n ih =>
    constructor
    · rintro ⟨name, rest, rfl, hz, h⟩
      obtain ⟨names, rest, rfl, hn, hzs, hP⟩ := ih.mp h
      refine ⟨name :: names, rest, ?_, ?_, ?_, hP⟩
      · simp [Name.terminated]
      · simp [hn]
      · exact List.forall_mem_cons.mpr ⟨hz, hzs⟩
    · rintro ⟨names, rest, rfl, hn, hzs, hP⟩
      cases names with
      | nil => simp at hn
      | cons name names =>
        rw [List.forall_mem_cons] at hzs
        refine ⟨name, names.flatMap Name.terminated ++ rest, ?_, hzs.1, ?_⟩
        · simp [Name.terminated]
        · exact ih.mpr ⟨names, rest, rfl, by simpa using hn, hzs.2, hP⟩

/-- The grammar, step by step: first the structure, then the names, then the data. -/
theorem accepts_iff {g : Grammar} {body : Bytes} :
    g.Accepts body ↔ g.fixed ≤ body.length ∧
      Follows g.names (fun rest => g.dataLength (body.take g.fixed) ≤ rest.length)
        (body.drop g.fixed) := by
  constructor
  · rintro ⟨fixed, names, data, rest, rfl, hf, hn, hz, hd⟩
    have hsplit : fixed ++ names.flatMap Name.terminated ++ data ++ rest =
        fixed ++ (names.flatMap Name.terminated ++ (data ++ rest)) := by simp
    rw [hsplit, ← hf, List.take_left, List.drop_left]
    refine ⟨by simp, follows_iff.mpr ⟨names, data ++ rest, rfl, hn, hz, ?_⟩⟩
    rw [← hd]
    simp
  · rintro ⟨hf, h⟩
    obtain ⟨names, rest, hrest, hn, hz, hd⟩ := follows_iff.mp h
    refine ⟨body.take g.fixed, names, rest.take (g.dataLength (body.take g.fixed)),
      rest.drop (g.dataLength (body.take g.fixed)), ?_, ?_, hn, hz, ?_⟩
    · rw [List.append_assoc, List.take_append_drop, List.append_assoc, ← hrest,
        List.take_append_drop]
    · simp [hf]
    · simp [hd]

end Grammar

/-! ## Steps -/

namespace Take

variable {α β : Type} {body : Bytes}

/-- Reading does not fail. -/
def Succeeds (t : Take α) (body : Bytes) : Prop := ∃ r, t body = .ok r

/-- Reading takes so many bytes, whatever they are, and fails only without them. -/
structure Fixed (t : Take α) (n : Nat) : Prop where
  enough : ∀ body : Bytes, n ≤ body.length → ∃ a, t body = .ok (a, body.drop n)
  needed : ∀ (body : Bytes) r, t body = .ok r → n ≤ body.length ∧ r.2 = body.drop n

@[simp] theorem succeeds_pure (a : α) : Succeeds (pure a) body := ⟨_, rfl⟩

theorem fixed_struct (α : Type) [Wire α] : Fixed (struct α) (Wire.size α) := by
  constructor
  · intro body h
    obtain ⟨a, ha⟩ := Wire.decode?_of_le (α := α) h
    exact ⟨a, struct_eq_ok.mpr ha⟩
  · intro body r h
    rw [Wire.eq_append_of_decode? (struct_eq_ok.mp h)]
    simp [List.drop_left']

theorem Fixed.map {t : Take α} {n : Nat} (h : Fixed t n) (f : α → β) :
    Fixed (do return f (← t)) n := by
  constructor
  · intro body hn
    obtain ⟨a, ha⟩ := h.enough body hn
    exact ⟨f a, bind_eq_ok.mpr ⟨a, _, ha, rfl⟩⟩
  · intro body r hr
    obtain ⟨a, mid, ha, hr⟩ := bind_eq_ok.mp hr
    rw [pure_eq_ok.mp hr]
    exact h.needed body _ ha

theorem Fixed.ite {c : Prop} [Decidable c] {t u : Take α} {n m : Nat} (ht : Fixed t n)
    (hu : Fixed u m) : Fixed (if c then t else u) (if c then n else m) := by
  split
  · exact ht
  · exact hu

theorem fixed_mknodIn (minor : UInt32) : Fixed (mknodIn minor) (if 12 ≤ minor then 16 else 8) :=
  (fixed_struct Kernel.MknodIn).ite ((fixed_struct Kernel.CompatMknodIn).map _)

theorem fixed_createIn (minor : UInt32) : Fixed (createIn minor) (if 12 ≤ minor then 16 else 8) :=
  (fixed_struct Kernel.CreateIn).ite ((fixed_struct Kernel.CompatCreateIn).map _)

theorem fixed_readIn (minor : UInt32) : Fixed (readIn minor) (if 9 ≤ minor then 40 else 24) :=
  (fixed_struct Kernel.ReadIn).ite ((fixed_struct Kernel.CompatReadIn).map _)

theorem fixed_writeIn (minor : UInt32) : Fixed (writeIn minor) (if 9 ≤ minor then 40 else 24) :=
  (fixed_struct Kernel.WriteIn).ite ((fixed_struct Kernel.CompatWriteIn).map _)

theorem fixed_releaseIn (minor : UInt32) :
    Fixed (releaseIn minor) (if 8 ≤ minor then 24 else 16) :=
  (fixed_struct Kernel.ReleaseIn).ite ((fixed_struct Kernel.CompatReleaseIn).map _)

theorem succeeds_name {f : Name → Take β} {n : Nat} {P : Bytes → Prop}
    (h : ∀ name rest, Succeeds (f name) rest ↔ Grammar.Follows n P rest) :
    Succeeds (name >>= f) body ↔ Grammar.Follows (n + 1) P body := by
  constructor
  · rintro ⟨r, hr⟩
    obtain ⟨name, rest, hname, hr⟩ := bind_eq_ok.mp hr
    obtain ⟨hbody, hz⟩ := Name.eq_append_of_split? (name_eq_ok.mp hname)
    exact ⟨name, rest, hbody, hz, (h name rest).mp ⟨r, hr⟩⟩
  · rintro ⟨name, rest, rfl, hz, hf⟩
    obtain ⟨r, hr⟩ := (h name rest).mpr hf
    exact ⟨r, bind_eq_ok.mpr ⟨name, rest, name_eq_ok.mpr (Name.split?_append name rest hz), hr⟩⟩

theorem succeeds_bytes {n : UInt32} {what : String} {f : Bytes → β} :
    Succeeds (do return f (← bytes n what)) body ↔ n.toNat ≤ body.length := by
  constructor
  · rintro ⟨r, hr⟩
    obtain ⟨data, rest, hdata, -⟩ := bind_eq_ok.mp hr
    obtain ⟨rfl, hn⟩ := Bytes.eq_append_of_split? (bytes_eq_ok.mp hdata)
    rw [List.length_append, hn]
    omega
  · intro hn
    have hsplit : bytes n what body = .ok (body.take n.toNat, body.drop n.toNat) :=
      bytes_eq_ok.mpr (Layout.split?_of_le hn)
    exact ⟨_, bind_eq_ok.mpr ⟨_, _, hsplit, rfl⟩⟩

/-! ## Whole bodies -/

/-- What can be read is just what the grammar accepts. -/
def Obeys (t : Take α) (g : Grammar) : Prop := ∀ body, Succeeds t body ↔ g.Accepts body

/-- After the structure it is up to the rest, which may look back at the structure. -/
theorem Fixed.obeys {t : Take α} {f : α → Take β} {g : Grammar} (h : Fixed t g.fixed)
    (hf : ∀ body a, t body = .ok (a, body.drop g.fixed) → ∀ rest, Succeeds (f a) rest ↔
      Grammar.Follows g.names (fun rest => g.dataLength (body.take g.fixed) ≤ rest.length) rest) :
    Obeys (t >>= f) g := by
  intro body
  rw [Grammar.accepts_iff]
  constructor
  · rintro ⟨r, hr⟩
    obtain ⟨a, mid, ha, hr⟩ := bind_eq_ok.mp hr
    obtain ⟨hn, hmid⟩ := h.needed body _ ha
    cases hmid
    exact ⟨hn, (hf body a ha _).mp ⟨r, hr⟩⟩
  · rintro ⟨hn, hrest⟩
    obtain ⟨a, ha⟩ := h.enough body hn
    obtain ⟨r, hr⟩ := (hf body a ha _).mpr hrest
    exact ⟨r, bind_eq_ok.mpr ⟨a, _, ha, hr⟩⟩

/-- Nothing comes before the names. -/
theorem obeys_names {t : Take α} {n : Nat}
    (h : ∀ rest, Succeeds t rest ↔ Grammar.Follows n (fun _ => True) rest) :
    Obeys t { names := n } := by
  intro body
  rw [h, Grammar.accepts_iff]
  simp [Grammar.dataLength]

/-- The structure comes last. -/
theorem Fixed.obeys_last {t : Take α} {n : Nat} (h : Fixed t n) (f : α → β) :
    Obeys (do return f (← t)) { fixed := n } :=
  h.obeys (g := { fixed := n }) fun _ _ _ _ => by simp [Grammar.Follows, Grammar.dataLength]

/-- A name follows the structure. -/
theorem Fixed.obeys_name {t : Take α} {n : Nat} (h : Fixed t n) (f : α → Name → β) :
    Obeys (do let a ← t; return f a (← name)) { fixed := n, names := 1 } := by
  refine h.obeys (g := { fixed := n, names := 1 }) ?_
  intro body a _ rest
  apply succeeds_name
  simp [Grammar.Follows, Grammar.dataLength]

/-- Two names follow the structure. -/
theorem Fixed.obeys_twoNames {t : Take α} {n : Nat} (h : Fixed t n) (f : α → Name → Name → β) :
    Obeys (do let a ← t; let one ← name; let two ← name; return f a one two)
      { fixed := n, names := 2 } := by
  refine h.obeys (g := { fixed := n, names := 2 }) ?_
  intro body a _ rest
  apply succeeds_name
  intro one rest
  apply succeeds_name
  simp [Grammar.Follows, Grammar.dataLength]

/-! ## Data -/

/-- The number that a structure announces is read where the structure has it. -/
theorem announced {α : Type} [Wire α] {a : α} {n place : Nat} {size : UInt32}
    {front back : Bytes} (ha : struct α body = .ok (a, body.drop n)) (hn : Wire.size α = n)
    (he : Wire.encode a = front ++ (Bytes.ofNat 4 size.toNat ++ back))
    (hf : front.length = place) :
    Bytes.toNat (((body.take n).drop place).take 4) = size.toNat := by
  have hbody := Wire.eq_append_of_decode? (struct_eq_ok.mp ha)
  have htake : body.take n = Wire.encode a := by
    rw [hbody, List.take_left' ((Wire.length_encode a).trans hn)]
  rw [htake, he, ← hf, List.drop_left, List.take_left' (Bytes.length_ofNat _ _)]
  exact Bytes.toNat_ofNat _ _ size.toNat_lt

theorem announced_writeIn {minor : UInt32} {a : Kernel.WriteIn} {n : Nat}
    (ha : writeIn minor body = .ok (a, body.drop n)) (hn : n = if 9 ≤ minor then 40 else 24) :
    Bytes.toNat (((body.take n).drop 16).take 4) = a.size.toNat := by
  have hfront (fh offset : UInt64) :
      (Bytes.ofNat 8 fh.toNat ++ Bytes.ofNat 8 offset.toNat).length = 16 := by simp
  unfold writeIn at ha
  split at ha
  · rename_i h
    rw [if_pos h] at hn
    exact announced ha hn.symm (List.append_assoc _ _ _).symm (hfront a.fh a.offset)
  · rename_i h
    rw [if_neg h] at hn
    obtain ⟨old, mid, hold, hr⟩ := bind_eq_ok.mp ha
    cases pure_eq_ok.mp hr
    exact announced hold hn.symm (List.append_assoc _ _ _).symm (hfront old.fh old.offset)

theorem obeys_write {minor : UInt32} (f : Kernel.WriteIn → Bytes → β) :
    Obeys (do let a ← writeIn minor; return f a (← bytes a.size "write data"))
      { fixed := if 9 ≤ minor then 40 else 24, announced := some 16 } := by
  refine (fixed_writeIn minor).obeys (g := ⟨_, 0, some 16⟩) ?_
  intro body a ha rest
  have hsize := announced_writeIn ha rfl
  rw [succeeds_bytes, ← hsize]
  exact Iff.rfl

theorem obeys_setxattr (f : Kernel.SetxattrIn → Name → Bytes → β) :
    Obeys
      (do
        let a ← struct Kernel.SetxattrIn
        let name ← name
        return f a name (← bytes a.size "xattr value"))
      { fixed := 8, names := 1, announced := some 0 } := by
  refine (fixed_struct Kernel.SetxattrIn).obeys (g := ⟨_, 1, some 0⟩) ?_
  intro body a ha rest
  apply succeeds_name
  intro name rest
  have hencode : Wire.encode a =
      [] ++ (Bytes.ofNat 4 a.size.toNat ++ Bytes.ofNat 4 a.flags.toNat) := rfl
  have hsize := announced ha rfl hencode rfl
  rw [succeeds_bytes, ← hsize]
  exact Iff.rfl

end Take

/-! ## All messages -/

/-- A message that carries an operation can be read just if the grammar accepts it. -/
theorem takeMessage_obeys {op : Opcode} {minor : UInt32} {g : Grammar}
    (hg : op.grammar? minor = some g) (ino : Inode) : (op.takeMessage minor ino).Obeys g := by
  have hone {β : Type} (f : Name → β) : Take.Obeys (do return f (← Take.name)) { names := 1 } := by
    apply Take.obeys_names
    intro rest
    apply Take.succeeds_name
    simp [Grammar.Follows]
  cases op <;> cases hg
  case lookup => exact hone _
  case unlink => exact hone _
  case rmdir => exact hone _
  case removexattr => exact hone _
  case symlink =>
    apply Take.obeys_names
    intro rest
    apply Take.succeeds_name
    intro name rest
    apply Take.succeeds_name
    simp [Grammar.Follows]
  case readlink => exact Take.obeys_names fun _ => by simp [Grammar.Follows, Opcode.takeMessage]
  case statfs => exact Take.obeys_names fun _ => by simp [Grammar.Follows, Opcode.takeMessage]
  case forget => exact (Take.fixed_struct Kernel.ForgetIn).obeys_last _
  case «open» => exact (Take.fixed_struct Kernel.OpenIn).obeys_last _
  case opendir => exact (Take.fixed_struct Kernel.OpenIn).obeys_last _
  case listxattr => exact (Take.fixed_struct Kernel.GetxattrIn).obeys_last _
  case access => exact (Take.fixed_struct Kernel.AccessIn).obeys_last _
  case fsync => exact (Take.fixed_struct Kernel.FsyncIn).obeys_last _
  case fsyncdir => exact (Take.fixed_struct Kernel.FsyncIn).obeys_last _
  case flush => exact (Take.fixed_struct Kernel.FlushIn).obeys_last _
  case setattr => exact (Take.fixed_struct Kernel.SetattrIn).obeys_last _
  case read => exact (Take.fixed_readIn minor).obeys_last _
  case readdir => exact (Take.fixed_readIn minor).obeys_last _
  case release => exact (Take.fixed_releaseIn minor).obeys_last _
  case releasedir => exact (Take.fixed_releaseIn minor).obeys_last _
  case mkdir => exact (Take.fixed_struct Kernel.MkdirIn).obeys_name _
  case link => exact (Take.fixed_struct Kernel.LinkIn).obeys_name _
  case getxattr => exact (Take.fixed_struct Kernel.GetxattrIn).obeys_name _
  case mknod => exact (Take.fixed_mknodIn minor).obeys_name _
  case create => exact (Take.fixed_createIn minor).obeys_name _
  case rename => exact (Take.fixed_struct Kernel.RenameIn).obeys_twoNames _
  case rename2 => exact (Take.fixed_struct Kernel.Rename2In).obeys_twoNames _
  case write => exact Take.obeys_write _
  case setxattr => exact Take.obeys_setxattr _
  case getattr =>
    unfold Opcode.takeMessage
    dsimp only
    split
    · exact (Take.fixed_struct Kernel.GetattrIn).obeys_last _
    · exact Take.obeys_names fun _ => by simp [Grammar.Follows]

end Fuse
