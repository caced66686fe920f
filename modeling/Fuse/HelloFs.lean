-- A file system with one file, which can only be read.
import Fuse.Session.Table

namespace Fuse

/-- What the file system keeps: the content of the file, and the time at which
it was mounted. -/
structure HelloFs where
  content : Bytes
  mountedAt : Timestamp

namespace HelloFs

/-- The file. -/
def fileInode : Inode := 2

/-- The name of the file, `hello`. -/
def fileName : Name := [0x68, 0x65, 0x6c, 0x6c, 0x6f]

/-- How long the kernel may keep what it learns. -/
def ttl : Duration := .ofSecs 1

/-- The attributes of the two nodes. -/
def attr? (fs : HelloFs) (ino : Inode) : Option Attr :=
  let stamped (a : Attr) : Attr :=
    { a with atime := fs.mountedAt, mtime := fs.mountedAt, ctime := fs.mountedAt }
  if ino = rootInode then some (stamped { ino, kind := .directory, perm := 0o755 })
  else if ino = fileInode then
    let size := fs.content.length
    some (stamped
      { ino, kind := .regularFile, perm := 0o444, size := .ofNat size,
        blocks := .ofNat ((size + 511) / 512) })
  else none

/-- The bits of the open flags that say what the file is opened for. -/
def accessModes : UInt32 := 3

/-- The root directory with its entries. -/
def entries : List (Inode × FileType × Name) := [
  (rootInode, .directory, [0x2e]),
  (rootInode, .directory, [0x2e, 0x2e]),
  (fileInode, .regularFile, fileName)]

/-- Serve an operation. -/
def reply (fs : HelloFs) : Operation → Reply
  | .lookup parent name =>
    if parent ≠ rootInode ∨ name ≠ fileName then .error .enoent
    else
      match fs.attr? fileInode with
      | some attr => .entry { attr, attrTtl := ttl, entryTtl := ttl }
      | none => .error .enoent
  | .getattr ino _ =>
    match fs.attr? ino with
    | some attr => .attr attr ttl
    | none => .error .enoent
  | .open ino flags =>
    if ino ≠ fileInode then .error .eisdir
    else if Kernel.hasFlag flags accessModes then .error .eacces
    else .open (Opened.keepCache { fh := 0 })
  | .read _ offset size _ => .data ((fs.content.drop offset.toNat).take size.toNat)
  | .opendir ino _ => if ino ≠ rootInode then .error .enotdir else .open { fh := 0 }
  | .readdir ino offset size _ =>
    if ino ≠ rootInode then .error .enotdir else .dir (.page size offset entries)
  | _ => .error .enosys

/-- The operations that the file system serves. -/
def served : List OpKind := [.lookup, .getattr, .open, .read, .opendir, .readdir]

def table : Table HelloFs where
  handler kind := if kind ∈ served then some fun fs _ op => (fs, .reply (fs.reply op)) else none
  onInit := some fun fs _ _ => { user := fs, settings := [.removeWant .writebackCache] }
  onDestroy := some fun fs _ => { user := fun _ => fs }

end HelloFs

end Fuse
