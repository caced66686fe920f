-- Names of directory entries. A name is any run of bytes without a zero byte;
-- messages end each name with one.
import Fuse.Bytes

namespace Fuse

/-- A name, without the zero byte that ends it in a message. -/
abbrev Name := Bytes

namespace Name

/-- Take a name off the front of some bytes. The zero byte that ends the name
is dropped. There is no answer without such a byte. -/
def split? : Bytes → Option (Name × Bytes)
  | [] => none
  | b :: bs =>
    if b = 0 then some ([], bs)
    else (split? bs).map fun (name, rest) => (b :: name, rest)

/-- A name and its end are taken apart at the end. -/
theorem split?_append (name : Name) (rest : Bytes) (h : 0 ∉ name) :
    split? (name ++ 0 :: rest) = some (name, rest) := by
  induction name with
  | nil => rfl
  | cons b name ih =>
    simp only [List.mem_cons, not_or] at h
    have hb : ¬b = 0 := fun hb => h.1 hb.symm
    simp [split?, hb, ih h.2]

end Name

end Fuse
