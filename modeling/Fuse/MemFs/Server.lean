-- The file system over a tree in memory. Each operation is one change of the
-- tree, made at one reading of the clock.
import Fuse.MemFs.Tree
import Fuse.Session.Table

namespace Fuse

/-- What the file system keeps: the tree, and a clock with the number of times
that it was read. -/
structure MemFs where
  tree : MemFs.Tree
  clock : Nat → Timestamp
  readings : Nat := 0

namespace MemFs

/-- How long the kernel may keep what it learns. -/
def ttl : Duration := .ofSecs 1

/-- A file system with nothing but its root. -/
def fresh (clock : Nat → Timestamp) (owner : Owner) : MemFs where
  tree := .root (clock 0) owner
  clock
  readings := 1

/-- The permissions of a new node. -/
def permissions (mode umask : UInt32) : UInt16 := (mode &&& ~~~umask &&& 0o7777).toUInt16

def entryOf (a : Attr) : Entry := { attr := a, attrTtl := ttl, entryTtl := ttl }

def ownerOf (r : Request) : Owner := ⟨r.uid, r.gid⟩

/-- An open that empties the file. -/
def openTruncate : UInt32 := 0o1000

/-- Make a change and answer with its result. One reading of the clock serves the whole
operation. That each part of an operation reads the clock for itself, so that the times it
sets can lie apart, is not modelled. -/
def answering {α : Type} (fs : MemFs) (change : Timestamp → Change α) (reply : α → Reply) :
    MemFs × Outcome :=
  let (result, tree) := (change (fs.clock fs.readings)).run.run fs.tree
  ({ fs with tree, readings := fs.readings + 1 },
    match result with
    | .ok a => .reply (reply a)
    | .error (.errno e) => .error e
    | .error (.fault f) => .panicked (.fault f))

/-- Serve an operation. -/
def handle : Handler MemFs := fun fs r op =>
  match op with
  | .lookup parent name => fs.answering (fun _ => Tree.lookup parent name) (.entry <| entryOf ·)
  | .getattr ino _ => fs.answering (fun _ => Tree.getattr ino) (.attr · ttl)
  | .setattr ino set => fs.answering (Tree.setattr · ino set) (.attr · ttl)
  | .mkdir parent name mode umask =>
    fs.answering
      (Tree.create · parent name .directory (permissions mode umask) (ownerOf r))
      (.entry <| entryOf ·)
  | .create parent name mode umask _ =>
    fs.answering
      (Tree.create · parent name .regularFile (permissions mode umask) (ownerOf r))
      fun a => .create (entryOf a) { fh := 0 }
  | .open ino flags =>
    fs.answering (Tree.openFile · ino (Kernel.hasFlag flags openTruncate))
      fun _ => .open { fh := 0 }
  | .read ino offset size _ => fs.answering (fun _ => Tree.read ino offset size) .data
  | .write ino offset data _ => fs.answering (Tree.write · ino offset data) .write
  | .flush .. | .release .. | .fsync .. | .releasedir .. => (fs, .reply .empty)
  | .unlink parent name => fs.answering (Tree.remove · parent name false) fun _ => .empty
  | .rmdir parent name => fs.answering (Tree.remove · parent name true) fun _ => .empty
  | .rename parent name newParent newName flags =>
    fs.answering (Tree.rename · parent name newParent newName flags) fun _ => .empty
  | .opendir ino _ => fs.answering (fun _ => Tree.directory ino) fun _ => .open { fh := 0 }
  | .readdir ino offset size _ =>
    fs.answering (fun _ => Tree.entries ino) fun entries => .dir (.page size offset entries)
  | .statfs _ => (fs, .reply (.statfs fs.tree.statfs))
  | _ => (fs, .error .enosys)

/-- The operations that the file system serves. -/
def served : List OpKind := [
  .lookup, .getattr, .setattr, .mkdir, .create, .open, .read, .write, .flush, .release, .fsync,
  .unlink, .rmdir, .rename, .opendir, .readdir, .releasedir, .statfs]

def table : Table MemFs where
  handler kind := if kind ∈ served then some handle else none
  onDestroy := some fun fs _ => { user := fun _ => fs }

end MemFs

end Fuse
