-- What it takes to read something off the front of a body, and what a message of
-- a given opcode can turn out to be.
import Fuse.Operation.Message

namespace Fuse

namespace Take

variable {α β : Type} {body rest : Bytes}

/-! ## One after another -/

theorem bind_eq_ok {t : Take α} {f : α → Take β} {r : β × Bytes} :
    (t >>= f) body = .ok r ↔ ∃ a mid, t body = .ok (a, mid) ∧ f a mid = .ok r := by
  show (t body >>= fun p => f p.1 p.2) = .ok r ↔ _
  cases h : t body with
  | error e =>
    constructor
    · intro hr
      cases hr
    · rintro ⟨a, mid, ha, -⟩
      cases ha
  | ok p =>
    constructor
    · intro hr
      exact ⟨p.1, p.2, rfl, hr⟩
    · rintro ⟨a, mid, ha, hr⟩
      cases ha
      exact hr

theorem pure_eq_ok {a : α} {r : α × Bytes} : (pure a : Take α) body = .ok r ↔ r = (a, body) := by
  show Except.ok (a, body) = .ok r ↔ _
  rw [Except.ok.injEq, eq_comm]

theorem struct_eq_ok [Wire α] {r : α × Bytes} :
    struct α body = .ok r ↔ Wire.decode? body = some r := by
  unfold struct
  cases Wire.decode? (α := α) body <;> simp

theorem name_eq_ok {r : Name × Bytes} : name body = .ok r ↔ Name.split? body = some r := by
  unfold name
  cases Name.split? body <;> simp

theorem bytes_eq_ok {n : UInt32} {what : String} {r : Bytes × Bytes} :
    bytes n what body = .ok r ↔ Bytes.split? n.toNat body = some r := by
  unfold bytes
  cases Bytes.split? n.toNat body <;> simp

end Take

/-! ## What a message turns out to be -/

/-- What reading a message can give, by its opcode. Data are never longer than
the number that announced them can say. -/
def Opcode.CanGive (op : Opcode) : Message → Prop
  | .forget _ => op.onlyForgets = true
  | .operation (.forget ..) => False
  | .operation (.write _ _ data _) => op.onlyForgets = false ∧ data.length < UInt32.size
  | _ => op.onlyForgets = false

theorem takeMessage_gives {op : Opcode} {minor : UInt32} {ino : Inode} {body rest : Bytes}
    {m : Message} (h : op.takeMessage minor ino body = .ok (m, rest)) : op.CanGive m := by
  cases op
  case write =>
    simp only [Opcode.takeMessage, Take.bind_eq_ok, Take.pure_eq_ok, Take.bytes_eq_ok] at h
    obtain ⟨a, _, -, data, _, hd, hm⟩ := h
    cases hm
    refine ⟨rfl, ?_⟩
    rw [(Bytes.eq_append_of_split? hd).2]
    exact a.size.toNat_lt
  case getattr =>
    unfold Opcode.takeMessage at h
    dsimp only at h
    split at h
    · simp only [Take.bind_eq_ok, Take.pure_eq_ok] at h
      obtain ⟨_, _, _, hm⟩ := h
      cases hm
      rfl
    · cases Take.pure_eq_ok.mp h
      rfl
  all_goals
    simp only [Opcode.takeMessage, Take.bind_eq_ok, Take.pure_eq_ok, Prod.mk.injEq] at h
    grind [Opcode.CanGive, Opcode.onlyForgets]

end Fuse
