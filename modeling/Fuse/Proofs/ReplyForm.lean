-- Every frame that the kernel gets is a well-formed answer to its request. An answer
-- that passed the check has the form that its operation takes, and every other one
-- is an error, with a number that the kernel knows.
import Fuse.Proofs.Roll
import Fuse.Proofs.Layout
import Fuse.Reply.Form

namespace Fuse

/-! ## Errors -/

theorem refuses_of_valid {e : Errno} (he : e.valid = true) (unique : UInt64) :
    (Frame.ofErrno unique e).Refuses := by
  unfold Errno.valid at he
  simp only [Bool.and_eq_true, decide_eq_true_eq, Int32.lt_iff_toInt_lt,
    Int32.le_iff_toInt_le] at he
  obtain ⟨hpos, hle⟩ := he
  have hzero : (0 : Int32).toInt = 0 := rfl
  have hmax : (4095 : Int32).toInt = 4095 := rfl
  rw [hzero] at hpos
  rw [hmax] at hle
  refine ⟨rfl, e.raw.toInt.toNat, by omega, by omega, ?_⟩
  show (-e.raw).toInt = _
  rw [Int32.toInt_neg, Int.bmod_eq_of_le (by omega) (by omega)]
  omega

/-! ## Lengths -/

theorem length_entryPayload (e : Entry) (minor : UInt32) :
    (Reply.entryPayload e minor).length = entrySize minor := by
  have hlen : (Wire.encode e.toKernel).length = 128 := Wire.length_encode _
  unfold Reply.entryPayload entrySize
  dsimp only
  split
  · rw [List.length_take, hlen]
    rfl
  · exact hlen

theorem length_attrPayload (a : Attr) (ttl : Duration) (minor : UInt32) :
    (Reply.attrPayload a ttl minor).length = attrSize minor := by
  have hlen : (Wire.encode (a.toKernelFor ttl)).length = 104 := Wire.length_encode _
  unfold Reply.attrPayload attrSize
  dsimp only
  split
  · rw [List.length_take, hlen]
    rfl
  · exact hlen

theorem length_statfsPayload (st : StatFs) (minor : UInt32) :
    (Reply.statfsPayload st minor).length = statfsSize minor := by
  have hlen : (Wire.encode st.toKernel).length = 80 := Wire.length_encode _
  unfold Reply.statfsPayload statfsSize
  dsimp only
  split
  · rw [List.length_take, hlen]
    rfl
  · exact hlen

/-! ## Answers that were checked -/

theorem space_of_checkLength {r : Request} {n : Nat} (h : r.checkLength n = none) :
    n ≤ r.space.toNat := by
  unfold Request.checkLength at h
  split at h
  · cases h
  · omega

theorem space_of_limit {r : Request} {size : UInt32} (h : r.limit = some size) :
    r.space = size := by
  rw [Request.space, h]
  rfl

section

variable {r : Request} {op : Operation} {minor : UInt32} (hl : r.limit = op.replyLimit)

include hl

/-- No more is written than was sent. -/
theorem takes_write (ha : op.kind.accepts .write = true)
    (hw : ∀ ino offset data file, op = .write ino offset data file → data.length < UInt32.size)
    {n : UInt32} (hn : n.toNat ≤ r.space.toNat) :
    op.Takes minor (Wire.encode ({ size := n } : Kernel.WriteOut)) := by
  cases op <;> first | cases ha; done | skip
  rename_i ino offset data file
  rw [space_of_limit (hl.trans rfl), UInt32.toNat_ofNat_of_lt' (hw ino offset data file rfl)] at hn
  exact ⟨Wire.length_encode _, n, hn, rfl⟩

theorem takes_dir (ha : op.kind.accepts .dir = true) {bs : Bytes}
    (hfits : bs.length ≤ r.space.toNat) : op.Takes minor bs := by
  cases op <;> first | cases ha; done | skip
  rw [space_of_limit (hl.trans rfl)] at hfits
  exact hfits

/-- Data fit into the space for them, and extended attributes need a space. -/
theorem takes_data (ha : op.kind.accepts .data = true) {bs : Bytes}
    (hfits : bs.length ≤ r.space.toNat) (hx : op.kind = .read ∨ r.space ≠ 0) :
    op.Takes minor bs := by
  have hxattr {size : UInt32} (hs : op.replyLimit = some size) (hne : op.kind ≠ .read) :
      size ≠ 0 ∧ bs.length ≤ size.toNat := by
    rw [space_of_limit (hl.trans hs)] at hx hfits
    exact ⟨hx.resolve_left hne, hfits⟩
  cases op <;> first | cases ha; done | skip
  case read ino offset size file =>
    rw [space_of_limit (hl.trans rfl)] at hfits
    exact hfits
  case getxattr ino name size =>
    obtain ⟨hne, hlen⟩ := hxattr rfl OpKind.noConfusion
    rw [Operation.Takes, if_neg hne]
    exact hlen
  case listxattr ino size =>
    obtain ⟨hne, hlen⟩ := hxattr rfl OpKind.noConfusion
    rw [Operation.Takes, if_neg hne]
    exact hlen

/-- Without a space the answer is the size that it would take. -/
theorem takes_xattrSize (ha : op.kind.accepts .xattrSize = true) (hzero : r.space = 0)
    (n : UInt32) : op.Takes minor (Wire.encode ({ size := n } : Kernel.GetxattrOut)) := by
  cases op <;> first | cases ha; done | skip
  all_goals
    rw [space_of_limit (hl.trans rfl)] at hzero
    rw [Operation.Takes, if_pos hzero]
    exact ⟨Wire.length_encode _, n, rfl⟩

end

/-- An answer that passed the check has the form that its operation takes. -/
theorem admits_of_check {r : Request} {op : Operation} {reply : Reply} {f : Frame}
    {unique : UInt64} {minor : UInt32} (hk : r.kind = op.kind) (hl : r.limit = op.replyLimit)
    (hw : ∀ ino offset data file, op = .write ino offset data file → data.length < UInt32.size)
    (hc : r.check reply = none) (hf : reply.frame? unique minor = some f) :
    op.Admits minor f := by
  have ha := Hub.accepts_of_check hc
  rw [hk] at ha
  have hexpects : op.kind.expectsReply = true := by
    cases he : op.kind.expectsReply with
    | true => rfl
    | false =>
      have hshape := (Hub.shape_of_accepts ha).mpr he
      cases reply <;> first | cases hf; done | cases hshape
  have htakes (p : Bytes) (hp : op.Takes minor p) : op.Admits minor { unique, payload := p } :=
    ⟨hexpects, Or.inr ⟨rfl, hp⟩⟩
  unfold Request.check at hc
  rw [hk, ha] at hc
  simp only [Bool.not_true, Bool.false_eq_true, if_false] at hc
  cases reply with
  | none => cases hf
  | error e =>
    cases hf
    dsimp only at hc
    have he : e.valid = true := Decidable.byContradiction fun hv => by
      rw [if_neg hv] at hc
      cases hc
    exact ⟨hexpects, Or.inl (refuses_of_valid he unique)⟩
  | empty =>
    cases hf
    refine htakes _ ?_
    cases op <;> first | cases ha; done | rfl
  | entry e =>
    cases hf
    refine htakes _ ?_
    cases op <;> first | cases ha; done | exact length_entryPayload e minor
  | create e o =>
    cases hf
    have hlen : (Reply.entryPayload e minor ++ Wire.encode o.toKernel).length =
        entrySize minor + 16 := by
      rw [List.length_append, length_entryPayload, Wire.length_encode]
      rfl
    refine htakes _ ?_
    cases op <;> first | cases ha; done | exact hlen
  | attr a ttl =>
    cases hf
    refine htakes _ ?_
    cases op <;> first | cases ha; done | exact length_attrPayload a ttl minor
  | readlink bs =>
    cases hf
    refine htakes _ ?_
    cases op <;> first | cases ha; done | trivial
  | «open» o =>
    cases hf
    refine htakes _ ?_
    cases op <;> first | cases ha; done | exact Wire.length_encode _
  | statfs st =>
    cases hf
    refine htakes _ ?_
    cases op <;> first | cases ha; done | exact length_statfsPayload st minor
  | write n =>
    cases hf
    exact htakes _ (takes_write hl ha hw (space_of_checkLength hc))
  | dir l =>
    cases hf
    exact htakes _ (takes_dir hl ha (space_of_checkLength hc))
  | data bs =>
    cases hf
    obtain ⟨hlen, hx⟩ := Option.or_eq_none_iff.mp hc
    refine htakes _ (takes_data hl ha (space_of_checkLength hlen) ?_)
    by_cases hread : op.kind = .read
    · exact Or.inl hread
    · refine Or.inr fun hzero => ?_
      rw [if_pos ⟨hread, hzero⟩] at hx
      cases hx
  | xattrSize n =>
    cases hf
    dsimp only at hc
    have hzero : r.space = 0 := Decidable.byContradiction fun hne => by
      rw [if_pos hne] at hc
      cases hc
    exact htakes _ (takes_xattrSize hl ha hzero n)

end Fuse
