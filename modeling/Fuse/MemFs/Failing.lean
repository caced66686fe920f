-- When an operation fails, and the parts of a rename: what it checks, how it makes room,
-- and how it takes a node to its new place.
import Fuse.MemFs.Server

namespace Fuse

/-- Whether an operation failed: it was answered with an error, or its handler panicked. -/
def Outcome.fails (o : Outcome) : Bool :=
  o.panic.isSome ||
    match o.use with
    | .answer (.reply (.error _)) => true
    | _ => false

namespace MemFs.Tree

/-- What a rename is to do: which node moves, whether it is a directory, and whether
another node gives way to it. -/
structure Plan where
  ino : Inode
  dir : Bool
  replaces : Bool
deriving DecidableEq

/-- The checks of a rename. There is nothing to do if both names lead to one node. -/
def plan (parent : Inode) (name : Name) (newParent : Inode) (newName : Name) (flags : UInt32) :
    Change (Option Plan) := do
  if flags &&& ~~~renameNoreplace ≠ 0 then fail .einval
  let ino ← child parent name
  let _ ← directory newParent
  let dir := (← node ino).isDir
  if dir then checkOutside ino newParent
  match (← directory newParent).children.get? newName with
  | some target =>
    if target = ino then return none
    if flags &&& renameNoreplace ≠ 0 then fail .eexist
    let targetDir := (← node target).isDir
    if !dir && targetDir then fail .eisdir
    if dir && !targetDir then fail .enotdir
    return some { ino, dir, replaces := true }
  | none => return some { ino, dir, replaces := false }

/-- Remove the node that has to give way, if there is one. -/
def makeRoom (now : Timestamp) (newParent : Inode) (newName : Name) (p : Plan) : Change Unit :=
  if p.replaces then remove now newParent newName p.dir else pure ()

/-- Take a node to its new place and its new name. -/
def relocate (now : Timestamp) (parent : Inode) (name : Name) (newParent : Inode) (newName : Name)
    (p : Plan) : Change Unit := do
  update parent fun d =>
    { d with
      children := d.children.erase name
      attr := { touch now d.attr with nlink := if p.dir then d.attr.nlink - 1 else d.attr.nlink } }
  update newParent fun d =>
    { d with
      children := d.children.insert newName p.ino
      attr := { touch now d.attr with nlink := if p.dir then d.attr.nlink + 1 else d.attr.nlink } }
  update p.ino fun n => { n with parent := newParent, attr := { n.attr with ctime := now } }

end MemFs.Tree

end Fuse
