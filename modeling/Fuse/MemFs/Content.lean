-- What a file holds, going by what was done to it: a number of bytes, and each byte by its
-- place. And what reads of the one file of the other file system have to cover.
import Fuse.HelloFs
import Fuse.MemFs.Failing
import Fuse.MemFs.Shape

namespace Fuse

namespace MemFs

/-! ## Arrays of bytes -/

/-- What a file holds. Only the places below the length count. -/
structure Content where
  length : Nat
  byte : Nat → UInt8

namespace Content

/-- No bytes at all. -/
def empty : Content := ⟨0, fun _ => 0⟩

/-- The byte at a place, if zeros followed the end. -/
def padded (c : Content) (i : Nat) : UInt8 := if i < c.length then c.byte i else 0

/-- Data is put at a place. What lies between the end and the place becomes zeros. -/
def write (start : Nat) (data : Bytes) (c : Content) : Content where
  length := max c.length (start + data.length)
  byte i := if start ≤ i ∧ i < start + data.length then data.getD (i - start) 0 else c.padded i

/-- The length is set. What was cut off does not come back. -/
def resize (length : Nat) (c : Content) : Content where
  length
  byte := c.padded

/-- All bytes in turn. -/
def bytes (c : Content) : Bytes := (List.range c.length).map c.byte

/-- The bytes from a place on, as many as were asked for, or up to the end. -/
def read (c : Content) (start count : Nat) : Bytes :=
  (List.range' start (min (start + count) c.length - start)).map c.byte

end Content

/-! ## What was done to a file -/

/-- The file whose content an operation changes if it succeeds, and how. -/
def edit? : Operation → Option (Inode × (Content → Content))
  | .write ino offset data _ => some (ino, .write offset.toNat data)
  | .setattr ino set => set.size.map fun size => (ino, .resize size.toNat)
  | .open ino flags =>
    if Kernel.hasFlag flags openTruncate then some (ino, fun _ => .empty) else none
  | _ => none

/-- What was asked of a file system, with the outcomes. -/
def history (fs : MemFs) : List (Request × Operation) → List (Operation × Outcome)
  | [] => []
  | (r, op) :: rest => (op, (fs.handle r op).2) :: (fs.handle r op).1.history rest

/-- What a file holds after an operation with this outcome. -/
def Content.after (ino : Inode) (c : Content) : Operation × Outcome → Content
  | (op, o) =>
    match edit? op with
    | some (target, f) => if target = ino ∧ o.fails = false then f c else c
    | none => c

/-- What a file holds after all that was done since there were no files. -/
def Content.following (ino : Inode) (past : List (Operation × Outcome)) : Content :=
  past.foldl (.after ino) .empty

/-- The file holds this, and behaves like it: what it holds is what a read gives and
what the attributes say, a write stores all of its data, and only an operation on
the file itself changes what it holds. -/
structure Mirrors (fs : MemFs) (ino : Inode) (n : Node) (c : Content) : Prop where
  data : n.data = c.bytes
  size : n.attr.size.toNat = c.length
  blocks : n.attr.blocks.toNat = (c.length + 511) / 512
  shown : ∀ r fh, (fs.handle r (.getattr ino fh)).2 = .reply (.attr n.attr ttl)
  read : ∀ r offset size file, (fs.handle r (.read ino offset size file)).2 =
    .reply (.data (c.read offset.toNat size.toNat))
  written : ∀ r offset data file, (fs.handle r (.write ino offset data file)).2.fails = false →
    data.length < UInt32.size →
    ∃ count, (fs.handle r (.write ino offset data file)).2 = .reply (.write count) ∧
      count.toNat = data.length
  apart : ∀ r op, (∀ f, edit? op ≠ some (ino, f)) →
    ∀ n', (fs.handle r op).1.tree.node? ino = some n' → n'.data = n.data
  untouched : ∀ r op target f, edit? op = some (target, f) → target ≠ ino →
    (fs.handle r op).1.tree.node? ino = some n

end MemFs

/-! ## Reads in a row -/

namespace HelloFs

/-- Each read begins where the one before it was to end, from one place to another. -/
inductive Tiles : Nat → List (UInt64 × UInt32) → Nat → Prop
  | nil (start : Nat) : Tiles start [] start
  | cons {offset : UInt64} {size : UInt32} {rest : List (UInt64 × UInt32)} {stop : Nat}
      (h : Tiles (offset.toNat + size.toNat) rest stop) :
      Tiles offset.toNat ((offset, size) :: rest) stop

end HelloFs

end Fuse
