-- What can be read, and what comes of it. Whatever is read is an operation that the
-- kernel could have sent on the connection, and it depends on nothing but the bytes
-- that are taken.
import Fuse.Proofs.Encoding
import Fuse.Proofs.Grammar

namespace Fuse

/-! ## What was read could be written -/

namespace Take

variable {α β : Type} {P : α → Prop} {Q : β → Prop}

/-- Whatever is read has a property. -/
def Yields (t : Take α) (P : α → Prop) : Prop := ∀ body a rest, t body = .ok (a, rest) → P a

theorem yields_any (t : Take α) : Yields t fun _ => True := fun _ _ _ _ => trivial

theorem yields_pure {a : α} (h : P a) : Yields (pure a) P := by
  intro body b rest hb
  cases pure_eq_ok.mp hb
  exact h

theorem Yields.bind {t : Take α} {f : α → Take β} (h : Yields t P)
    (hf : ∀ a, P a → Yields (f a) Q) : Yields (t >>= f) Q := by
  intro body b rest hb
  obtain ⟨a, mid, ha, hb⟩ := bind_eq_ok.mp hb
  exact hf a (h body a mid ha) mid b rest hb

theorem Yields.map {t : Take α} {f : α → β} (h : Yields t P) (hf : ∀ a, P a → Q (f a)) :
    Yields (do return f (← t)) Q := h.bind fun a ha => yields_pure (hf a ha)

theorem yields_name : Yields name (0 ∉ ·) := by
  intro body name rest h
  exact (Name.eq_append_of_split? (name_eq_ok.mp h)).2

theorem yields_bytes (n : UInt32) (what : String) :
    Yields (bytes n what) (·.length < UInt32.size) := by
  intro body data rest h
  rw [(Bytes.eq_append_of_split? (bytes_eq_ok.mp h)).2]
  exact n.toNat_lt

/-- A structure that grew is whole, or it lacks what came later. -/
theorem yields_ite {c : Prop} [Decidable c] (t : Take α) (u : Take β) {f : β → α}
    (h : ∀ b, P (f b)) : Yields (if c then t else do return f (← u)) fun a => c ∨ P a := by
  split
  · rename_i hc
    exact fun _ _ _ _ => Or.inl hc
  · exact (yields_any u).map fun b _ => Or.inr (h b)

theorem yields_mknodIn (minor : UInt32) :
    Yields (mknodIn minor) fun a => 12 ≤ minor ∨ a.umask = 0 := yields_ite _ _ fun _ => rfl

theorem yields_createIn (minor : UInt32) :
    Yields (createIn minor) fun a => 12 ≤ minor ∨ a.umask = 0 := yields_ite _ _ fun _ => rfl

theorem selected_zero (word bits : UInt32) :
    selected word bits (0 : UInt64) = none ∨ selected word bits (0 : UInt64) = some 0 := by
  unfold selected
  split <;> simp

theorem yields_readIn (minor : UInt32) :
    Yields (readIn minor) fun a => 9 ≤ minor ∨ a.file.Bare :=
  yields_ite _ _ fun _ => ⟨rfl, selected_zero _ _⟩

theorem yields_writeIn (minor : UInt32) :
    Yields (writeIn minor) fun a => 9 ≤ minor ∨ a.file.Bare :=
  yields_ite _ _ fun _ => ⟨rfl, selected_zero _ _⟩

theorem lockOwner_releaseIn (minor : UInt32) (a : Kernel.ReleaseIn) :
    (a.file minor).lockOwner.isSome = true ↔
      8 ≤ minor ∧ ((a.file minor).flush = true ∨ (a.file minor).flockRelease = true) := by
  unfold Kernel.ReleaseIn.file
  by_cases hm : 8 ≤ minor <;> simp [hm]

end Take

open Take in
/-- Every operation that is read is one that the kernel could have sent. -/
theorem yields_expressible {op : Opcode} {minor : UInt32} {g : Grammar}
    (hg : op.grammar? minor = some g) (ino : Inode) :
    (op.takeMessage minor ino).Yields fun m =>
      ∃ operation : Operation, m = operation.message ∧ operation.Expressible minor := by
  cases op <;> cases hg
  case lookup => exact yields_name.map fun name hn => ⟨.lookup ino name, rfl, hn⟩
  case unlink => exact yields_name.map fun name hn => ⟨.unlink ino name, rfl, hn⟩
  case rmdir => exact yields_name.map fun name hn => ⟨.rmdir ino name, rfl, hn⟩
  case removexattr => exact yields_name.map fun name hn => ⟨.removexattr ino name, rfl, hn⟩
  case symlink =>
    refine yields_name.bind ?_
    intro name hn
    exact yields_name.map fun target ht => ⟨.symlink ino name target, rfl, hn, ht⟩
  case readlink => exact yields_pure ⟨.readlink ino, rfl, trivial⟩
  case statfs => exact yields_pure ⟨.statfs ino, rfl, trivial⟩
  case forget => exact (yields_any _).map fun a _ => ⟨.forget ino a.nlookup, rfl, trivial⟩
  case «open» => exact (yields_any _).map fun a _ => ⟨.open ino a.flags, rfl, trivial⟩
  case opendir => exact (yields_any _).map fun a _ => ⟨.opendir ino a.flags, rfl, trivial⟩
  case listxattr => exact (yields_any _).map fun a _ => ⟨.listxattr ino a.size, rfl, trivial⟩
  case access => exact (yields_any _).map fun a _ => ⟨.access ino a.mask, rfl, trivial⟩
  case setattr => exact (yields_any _).map fun a _ => ⟨.setattr ino a.changes, rfl, trivial⟩
  case fsync => exact (yields_any _).map fun a _ => ⟨.fsync ino _ _, rfl, rfl⟩
  case fsyncdir => exact (yields_any _).map fun a _ => ⟨.fsyncdir ino _ _, rfl, rfl⟩
  case flush => exact (yields_any _).map fun a _ => ⟨.flush ino _, rfl, a.lockOwner, rfl⟩
  case mkdir =>
    refine (yields_any _).bind ?_
    intro a _
    exact yields_name.map fun name hn => ⟨.mkdir ino name a.mode a.umask, rfl, hn⟩
  case link =>
    refine (yields_any _).bind ?_
    intro a _
    exact yields_name.map fun name hn => ⟨.link a.oldnodeid ino name, rfl, hn⟩
  case getxattr =>
    refine (yields_any _).bind ?_
    intro a _
    exact yields_name.map fun name hn => ⟨.getxattr ino name a.size, rfl, hn⟩
  case mknod =>
    refine (yields_mknodIn minor).bind ?_
    intro a ha
    exact yields_name.map fun name hn => ⟨.mknod ino name a.mode a.rdev a.umask, rfl, hn, ha⟩
  case create =>
    refine (yields_createIn minor).bind ?_
    intro a ha
    exact yields_name.map fun name hn => ⟨.create ino name a.mode a.umask a.flags, rfl, hn, ha⟩
  case rename =>
    refine (yields_any _).bind ?_
    intro a _
    refine yields_name.bind ?_
    intro name hn
    exact yields_name.map fun newName hn' => ⟨.rename ino name a.newdir newName 0, rfl, hn, hn'⟩
  case rename2 =>
    refine (yields_any _).bind ?_
    intro a _
    refine yields_name.bind ?_
    intro name hn
    exact yields_name.map fun newName hn' =>
      ⟨.rename ino name a.newdir newName a.flags, rfl, hn, hn'⟩
  case read =>
    exact (yields_readIn minor).map fun a ha =>
      ⟨.read ino a.offset a.size a.file, rfl, rfl, rfl, rfl, ha⟩
  case readdir =>
    exact (yields_readIn minor).map fun a ha =>
      ⟨.readdir ino a.offset a.size a.file, rfl, rfl, rfl, rfl, ha⟩
  case write =>
    refine (yields_writeIn minor).bind ?_
    intro a ha
    exact (yields_bytes _ _).map fun data hd =>
      ⟨.write ino a.offset data a.file, rfl, rfl, rfl, ha, hd⟩
  case release =>
    exact (yields_any _).map fun a _ =>
      ⟨.release ino (a.file minor), rfl, rfl, lockOwner_releaseIn minor a⟩
  case releasedir =>
    exact (yields_any _).map fun a _ =>
      ⟨.releasedir ino (a.file minor), rfl, rfl, lockOwner_releaseIn minor a⟩
  case setxattr =>
    refine (yields_any _).bind ?_
    intro a _
    refine yields_name.bind ?_
    intro name hn
    exact (yields_bytes _ _).map fun value hv => ⟨.setxattr ino name value a.flags, rfl, hn, hv⟩
  case getattr =>
    unfold Opcode.takeMessage
    dsimp only
    split
    · rename_i hm
      exact (yields_any _).map fun a _ => ⟨.getattr ino _, rfl, Or.inl hm⟩
    · exact yields_pure ⟨.getattr ino none, rfl, Or.inr rfl⟩

/-! ## What follows does not matter -/

namespace Take

variable {α β : Type}

/-- What is read depends on nothing but the bytes that are taken. -/
def Exact (t : Take α) : Prop :=
  ∀ body a rest, t body = .ok (a, rest) → ∃ front, body = front ++ rest ∧ t.Gives front a

theorem exact_pure (a : α) : Exact (pure a) := by
  intro body b rest h
  cases pure_eq_ok.mp h
  exact ⟨[], rfl, gives_pure a⟩

theorem Exact.bind {t : Take α} {f : α → Take β} (h : Exact t) (hf : ∀ a, Exact (f a)) :
    Exact (t >>= f) := by
  intro body b rest hb
  obtain ⟨a, mid, ha, hmid⟩ := bind_eq_ok.mp hb
  obtain ⟨front, rfl, hfront⟩ := h body a mid ha
  obtain ⟨back, rfl, hback⟩ := hf a mid b rest hmid
  exact ⟨front ++ back, (List.append_assoc _ _ _).symm, hfront.bind hback⟩

theorem Exact.map {t : Take α} (h : Exact t) (f : α → β) : Exact (do return f (← t)) :=
  h.bind fun a => exact_pure (f a)

theorem Exact.ite {c : Prop} [Decidable c] {t u : Take α} (ht : Exact t) (hu : Exact u) :
    Exact (if c then t else u) := by
  split
  · exact ht
  · exact hu

theorem exact_struct (α : Type) [Wire α] : Exact (struct α) := by
  intro body a rest h
  exact ⟨Wire.encode a, Wire.eq_append_of_decode? (struct_eq_ok.mp h), gives_struct a⟩

theorem exact_name : Exact name := by
  intro body name rest h
  obtain ⟨hbody, hz⟩ := Name.eq_append_of_split? (name_eq_ok.mp h)
  refine ⟨name.terminated, ?_, gives_name hz⟩
  simp [hbody, Name.terminated]

theorem exact_bytes (n : UInt32) (what : String) : Exact (bytes n what) := by
  intro body data rest h
  obtain ⟨hbody, hn⟩ := Bytes.eq_append_of_split? (bytes_eq_ok.mp h)
  refine ⟨data, hbody, ?_⟩
  intro rest
  rw [bytes_eq_ok, ← hn]
  exact Bytes.split?_append data rest

end Take

open Take in
theorem exact_takeMessage {op : Opcode} {minor : UInt32} {g : Grammar}
    (hg : op.grammar? minor = some g) (ino : Inode) : (op.takeMessage minor ino).Exact := by
  have hread : Exact (readIn minor) := (exact_struct _).ite ((exact_struct _).map _)
  have hwrite : Exact (writeIn minor) := (exact_struct _).ite ((exact_struct _).map _)
  have hrelease : Exact (releaseIn minor) := (exact_struct _).ite ((exact_struct _).map _)
  have hmknod : Exact (mknodIn minor) := (exact_struct _).ite ((exact_struct _).map _)
  have hcreate : Exact (createIn minor) := (exact_struct _).ite ((exact_struct _).map _)
  cases op <;> cases hg
  case getattr => exact ((exact_struct _).map _).ite (exact_pure _)
  case read => exact hread.map _
  case readdir => exact hread.map _
  case release => exact hrelease.map _
  case releasedir => exact hrelease.map _
  case mknod => exact hmknod.bind fun _ => exact_name.map _
  case create => exact hcreate.bind fun _ => exact_name.map _
  case write => exact hwrite.bind fun _ => (exact_bytes _ _).map _
  case setxattr =>
    exact (exact_struct _).bind fun _ => exact_name.bind fun _ => (exact_bytes _ _).map _
  case symlink => exact exact_name.bind fun _ => exact_name.map _
  case rename => exact (exact_struct _).bind fun _ => exact_name.bind fun _ => exact_name.map _
  case rename2 => exact (exact_struct _).bind fun _ => exact_name.bind fun _ => exact_name.map _
  all_goals first
    | exact exact_pure _
    | exact exact_name.map _
    | exact (exact_struct _).map _
    | exact (exact_struct _).bind fun _ => exact_name.map _

/-! ## Whole messages -/

theorem ofCode?_code (op : Opcode) : Opcode.ofCode? op.code = some op := by
  cases op <;> rfl

theorem decodeMessage_eq {header : Kernel.InHeader} {frame : Bytes} {op : Opcode}
    (hlen : header.len.toNat = frame.length) (hop : Opcode.ofCode? header.opcode = some op)
    (minor : UInt32) :
    decodeMessage header frame minor =
      (·.1) <$> op.takeMessage minor header.nodeid (frame.drop inHeaderSize) := by
  unfold decodeMessage
  rw [if_neg (not_not_intro hlen), hop]

theorem decodeMessage_eq_ok {header : Kernel.InHeader} {frame : Bytes} {op : Opcode}
    (hlen : header.len.toNat = frame.length) (hop : Opcode.ofCode? header.opcode = some op)
    {minor : UInt32} {m : Message} :
    decodeMessage header frame minor = .ok m ↔
      ∃ rest, op.takeMessage minor header.nodeid (frame.drop inHeaderSize) = .ok (m, rest) := by
  rw [decodeMessage_eq hlen hop]
  cases op.takeMessage minor header.nodeid (frame.drop inHeaderSize) with
  | error e =>
    constructor
    · intro h
      cases h
    · rintro ⟨rest, h⟩
      cases h
  | ok r =>
    constructor
    · intro h
      cases h
      exact ⟨r.2, rfl⟩
    · rintro ⟨rest, h⟩
      cases h
      rfl

/-! ## Frames -/

section

variable (header : Kernel.InHeader) (body : Bytes)

theorem length_header : (Wire.encode header).length = inHeaderSize := Wire.length_encode header

theorem drop_frame : (header.frame body).drop inHeaderSize = body :=
  List.drop_left' (length_header _)

theorem length_frame : (header.frame body).length = inHeaderSize + body.length := by
  unfold Kernel.InHeader.frame
  rw [List.length_append, length_header]

theorem decodeHeader_frame :
    decodeHeader (header.frame body) =
      .ok { header with len := .ofNat (inHeaderSize + body.length) } := by
  let sent : Kernel.InHeader := { header with len := .ofNat (inHeaderSize + body.length) }
  have hlen : ¬(header.frame body).length < inHeaderSize := by
    rw [length_frame]
    omega
  have htake : Take.struct Kernel.InHeader (header.frame body) = .ok (sent, body) :=
    Take.struct_eq_ok.mpr (Wire.decode?_encode sent body)
  unfold decodeHeader
  rw [if_neg hlen, htake]
  rfl

end

/-! ## The law -/

/-- For every opcode that carries an operation, a message can be read just if its body
begins as the grammar says. What is read is an operation that can be sent on the
connection, and bytes after it change nothing. And each operation that can be sent is
read as it was meant, whatever follows it. -/
theorem reading_follows_the_grammar_and_undoes_writing (minor : UInt32) :
    (∀ (header : Kernel.InHeader) (frame : Bytes) (op : Opcode) (g : Grammar),
      header.len.toNat = frame.length → inHeaderSize ≤ frame.length →
      Opcode.ofCode? header.opcode = some op → op.grammar? minor = some g →
      ((∃ m, decodeMessage header frame minor = .ok m) ↔
        g.Accepts (frame.drop inHeaderSize)) ∧
      ∀ m, decodeMessage header frame minor = .ok m →
        (∃ operation : Operation, m = operation.message ∧ operation.Expressible minor) ∧
        ∀ (longer : Kernel.InHeader) (more : Bytes), longer.opcode = header.opcode →
          longer.nodeid = header.nodeid → longer.len.toNat = (frame ++ more).length →
          decodeMessage longer (frame ++ more) minor = .ok m) ∧
    ∀ (op : Operation) (header : Kernel.InHeader) (more : Bytes), op.Expressible minor →
      header.opcode = (op.packet minor).opcode.code → header.nodeid = (op.packet minor).nodeid →
      inHeaderSize + ((op.packet minor).body ++ more).length < UInt32.size →
      (do
        let frame := header.frame ((op.packet minor).body ++ more)
        let header ← decodeHeader frame
        decodeMessage header frame minor) = .ok op.message := by
  refine ⟨?_, ?_⟩
  · intro header frame op g hlen hle hop hg
    refine ⟨?_, ?_⟩
    · rw [← takeMessage_obeys hg header.nodeid]
      constructor
      · rintro ⟨m, hm⟩
        obtain ⟨rest, hm⟩ := (decodeMessage_eq_ok hlen hop).mp hm
        exact ⟨(m, rest), hm⟩
      · rintro ⟨⟨m, rest⟩, hm⟩
        exact ⟨m, (decodeMessage_eq_ok hlen hop).mpr ⟨rest, hm⟩⟩
    · intro m hm
      obtain ⟨rest, hm⟩ := (decodeMessage_eq_ok hlen hop).mp hm
      refine ⟨yields_expressible hg header.nodeid _ _ _ hm, ?_⟩
      intro longer more hopcode hnode hlonger
      obtain ⟨front, hbody, hfront⟩ := exact_takeMessage hg header.nodeid _ _ _ hm
      rw [decodeMessage_eq_ok hlonger (hopcode ▸ hop), hnode]
      refine ⟨rest ++ more, ?_⟩
      rw [List.drop_append_of_le_length hle, hbody, List.append_assoc]
      exact hfront _
  · intro op header more hop hopcode hnode hlt
    let body := (op.packet minor).body ++ more
    let sent : Kernel.InHeader := { header with len := .ofNat (inHeaderSize + body.length) }
    have hcode : Opcode.ofCode? sent.opcode = some (op.packet minor).opcode :=
      hopcode ▸ ofCode?_code _
    have hlen : sent.len.toNat = (header.frame body).length := by
      rw [length_frame]
      exact UInt32.toNat_ofNat_of_lt' hlt
    have hread : decodeMessage sent (header.frame body) minor = .ok op.message := by
      refine (decodeMessage_eq_ok hlen hcode).mpr ⟨more, ?_⟩
      rw [drop_frame]
      show (op.packet minor).opcode.takeMessage minor header.nodeid body = _
      rw [hnode]
      exact gives_packet hop more
    dsimp only
    rw [decodeHeader_frame]
    exact hread

/-- A write on an old connection: it has a lock owner, but nobody knows which, and the
byte after its data is not its own. -/
theorem an_old_write_is_read_as_it_was_meant :
    (do
      let frame := Kernel.InHeader.frame
        { len := 0, opcode := 16, unique := 4, nodeid := 5, uid := 0, gid := 0, pid := 0 }
        (((Operation.write 5 4096 [1, 2, 3]
            { fh := 7, flags := 0, lockOwner := some 0, writepage := true }).packet 8).body ++ [9])
      let header ← decodeHeader frame
      decodeMessage header frame 8) =
      .ok (.operation (.write 5 4096 [1, 2, 3]
        { fh := 7, flags := 0, lockOwner := some 0, writepage := true })) := by
  have hexpressible : (Operation.write 5 4096 [1, 2, 3]
      { fh := 7, flags := 0, lockOwner := some 0, writepage := true }).Expressible 8 :=
    ⟨rfl, rfl, Or.inr ⟨rfl, Or.inr rfl⟩, by decide⟩
  exact (reading_follows_the_grammar_and_undoes_writing 8).2 _ _ [9] hexpressible rfl rfl
    (by decide)

end Fuse
