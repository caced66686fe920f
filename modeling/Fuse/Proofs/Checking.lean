-- Answers with which nothing is wrong. An answer of the right form passes if it is not too
-- long.
import Fuse.Contract
import Fuse.Proofs.Listing
import Fuse.Proofs.ReplyForm

namespace Fuse

/-! ## Answers -/

/-- Whether there is nothing else to an answer than its form. -/
def Reply.plain : Reply → Bool
  | .error _ | .write _ | .data _ | .dir _ | .xattrSize _ => false
  | _ => true

namespace Request

variable {r : Request}

theorem check_plain {kind : OpKind} {reply : Reply} (hk : r.kind = kind)
    (ha : kind.accepts reply.shape = true) (hp : reply.plain = true) : r.check reply = none := by
  unfold check
  rw [hk, ha]
  cases reply <;> first | rfl | cases hp

theorem check_error (hr : r.kind.expectsReply = true) {e : Errno} (he : e.valid = true) :
    r.check (.error e) = none := by
  unfold check
  simp [Reply.shape, OpKind.accepts, hr, he]

theorem checkLength_eq_none {n : Nat} (h : n ≤ r.space.toNat) : r.checkLength n = none :=
  if_neg (by omega)

theorem check_write (hk : r.kind = .write) {n : UInt32} (hl : r.limit = some n) :
    r.check (.write n) = none := by
  have hlength : r.checkLength n.toNat = none := by
    apply checkLength_eq_none
    exact Nat.le_of_eq (congrArg UInt32.toNat (space_of_limit hl).symm)
  simp [check, hk, OpKind.accepts, Reply.shape, hlength]

theorem check_data (hk : r.kind = .read) {size : UInt32} (hl : r.limit = some size) {bs : Bytes}
    (hbs : bs.length ≤ size.toNat) : r.check (.data bs) = none := by
  have hlength : r.checkLength bs.length = none := by
    apply checkLength_eq_none
    rwa [space_of_limit hl]
  simp [check, hk, OpKind.accepts, Reply.shape, hlength]

theorem check_page (hk : r.kind = .readdir) {size : UInt32} (hl : r.limit = some size)
    (offset : UInt64) (entries : List (Inode × FileType × Name)) :
    r.check (.dir (.page size offset entries)) = none := by
  have hlength : r.checkLength (Listing.page size offset entries).bytes.length = none := by
    apply checkLength_eq_none
    rw [space_of_limit hl]
    exact Listing.length_page size offset entries
  simp [check, hk, OpKind.accepts, Reply.shape, hlength]

end Request

namespace Outcome

variable {r : Request}

theorem satisfies_reply {reply : Reply} (h : r.check reply = none) :
    (Outcome.reply reply).Satisfies r := ⟨reply, rfl, h⟩

theorem satisfies_error (hr : r.kind.expectsReply = true) {e : Errno} (he : e.valid = true) :
    (Outcome.error e).Satisfies r := satisfies_reply (Request.check_error hr he)

/-- A handler that answers does not panic. -/
theorem Satisfies.ne_panicked {o : Outcome} (h : o.Satisfies r) (p : Panic) : o ≠ .panicked p := by
  obtain ⟨reply, rfl, -⟩ := h
  intro he
  cases congrArg Outcome.panic he

end Outcome

/-! ## Ranges of bytes -/

/-- A range that starts and ends within some bytes, if it can, is what a reader gets who
leaves out what is before and takes no more than it wants. -/
theorem slice?_clipped (bs : Bytes) (offset size : Nat) :
    slice? bs (min offset bs.length) (min (min offset bs.length + size) bs.length) =
      some ((bs.drop offset).take size) := by
  have hin : min offset bs.length ≤ min (min offset bs.length + size) bs.length ∧
      min (min offset bs.length + size) bs.length ≤ bs.length := by omega
  unfold slice?
  rw [if_pos hin]
  rcases Nat.lt_or_ge offset bs.length with h | h
  · have hlength : (bs.drop offset).length = bs.length - offset := List.length_drop
    rw [Nat.min_eq_left (Nat.le_of_lt h)]
    rcases Nat.le_total (offset + size) bs.length with hs | hs
    · rw [Nat.min_eq_left hs, Nat.add_sub_cancel_left]
    · rw [Nat.min_eq_right hs, ← hlength, List.take_length, List.take_of_length_le (by omega)]
  · -- Past the end there is nothing, and the range is empty.
    rw [Nat.min_eq_right h, List.drop_length, List.drop_eq_nil_of_le h, List.take_nil,
      List.take_nil]

/-! ## The file system with one file -/

namespace HelloFs

theorem contract_reply (fs : HelloFs) {r : Request} {op : Operation} (hk : r.kind = op.kind)
    (hl : r.limit = op.replyLimit) (hr : op.kind.expectsReply = true) : fs.Contract r op := by
  have herror {e : Errno} (he : e.valid = true) : r.check (.error e) = none :=
    Request.check_error (hk ▸ hr) he
  refine ⟨Outcome.satisfies_reply ?_, ?_⟩
  · cases op with
    | lookup parent name =>
      dsimp only [reply]
      split
      · exact herror rfl
      · split
        · exact Request.check_plain hk rfl rfl
        · exact herror rfl
    | getattr ino fh =>
      dsimp only [reply]
      split
      · exact Request.check_plain hk rfl rfl
      · exact herror rfl
    | «open» ino flags =>
      dsimp only [reply]
      split
      · exact herror rfl
      · split
        · exact herror rfl
        · exact Request.check_plain hk rfl rfl
    | read ino offset size file =>
      refine Request.check_data hk hl ?_
      rw [List.length_take]
      exact Nat.min_le_left _ _
    | opendir ino flags =>
      dsimp only [reply]
      split
      · exact herror rfl
      · exact Request.check_plain hk rfl rfl
    | readdir ino offset size file =>
      dsimp only [reply]
      split
      · exact herror rfl
      · exact Request.check_page hk hl offset entries
    | _ => exact herror rfl
  · intro hshort trap
    cases op with
    | read ino offset size file =>
      have hcapacity : MemFs.capacity + UInt32.size ≤ UInt64.size := by decide
      have hsize : size.toNat < UInt32.size := size.toNat_lt_size
      dsimp only [replyStrictly]
      rw [if_neg (by omega), slice?_clipped]
      rfl
    | _ => rfl

end HelloFs

end Fuse
