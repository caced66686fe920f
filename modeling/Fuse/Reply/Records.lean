-- The kernel's side of a directory listing: it reads one record after another. A record
-- starts where the one before it ends, and zeros fill it up to a multiple of eight.
import Fuse.Reply.Listing

namespace Fuse

/-- A number is the least multiple of eight that is not below `n`. -/
def LeastMultiple (n size : Nat) : Prop :=
  8 ∣ size ∧ n ≤ size ∧ ∀ m, 8 ∣ m → n ≤ m → size ≤ m

/-- The file type that a directory record names, if it names one. -/
def FileType.ofDirentType? (word : UInt32) : Option FileType := all.find? (·.direntType == word)

/-- Read a record off the front of some bytes, and give the bytes after it. There is no
answer when the bytes end within the record, when it names no file type, or when something
else than zeros fills it up. -/
def DirEntry.read? (bs : Bytes) : Option (DirEntry × Bytes) := do
  let (fixed, bs) ← Wire.decode? (α := Kernel.Dirent) bs
  let (name, bs) ← bs.split? fixed.namelen.toNat
  let (filling, bs) ← bs.split? ((8 - (24 + name.length) % 8) % 8)
  let kind ← FileType.ofDirentType? fixed.type
  if filling.all (· == 0) then
    return ({ ino := fixed.ino, offset := fixed.off, kind, name }, bs)
  else failure

namespace Listing

/-- The bytes are records of these entries, one after another, and nothing else. -/
inductive Reads : Bytes → List DirEntry → Prop
  | nil : Reads [] []
  | cons {bs rest : Bytes} {e : DirEntry} {es : List DirEntry}
      (h : DirEntry.read? bs = some (e, rest)) (r : Reads rest es) : Reads bs (e :: es)

/-- The entries that were added, when every one of these was tried in turn. -/
def accepted (l : Listing) : List DirEntry → List DirEntry
  | [] => []
  | e :: es =>
    let (l, added) := l.push e
    if added then e :: l.accepted es else l.accepted es

end Listing

end Fuse
