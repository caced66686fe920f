-- The kinds of operations that a file system can serve.
namespace Fuse

/-- A kind of operation. The first two belong to the connection itself and
carry no request that could be answered. -/
inductive OpKind where
  | init
  | destroy
  | lookup
  | forget
  | getattr
  | setattr
  | readlink
  | mknod
  | mkdir
  | unlink
  | rmdir
  | symlink
  | rename
  | link
  | open
  | read
  | write
  | flush
  | release
  | fsync
  | opendir
  | readdir
  | releasedir
  | fsyncdir
  | statfs
  | setxattr
  | getxattr
  | listxattr
  | removexattr
  | access
  | create
deriving DecidableEq, Repr

namespace OpKind

def all : List OpKind := [
  .init, .destroy, .lookup, .forget, .getattr, .setattr, .readlink, .mknod, .mkdir, .unlink,
  .rmdir, .symlink, .rename, .link, .open, .read, .write, .flush, .release, .fsync, .opendir,
  .readdir, .releasedir, .fsyncdir, .statfs, .setxattr, .getxattr, .listxattr, .removexattr,
  .access, .create]

def name : OpKind → String
  | .init => "init"
  | .destroy => "destroy"
  | .lookup => "lookup"
  | .forget => "forget"
  | .getattr => "getattr"
  | .setattr => "setattr"
  | .readlink => "readlink"
  | .mknod => "mknod"
  | .mkdir => "mkdir"
  | .unlink => "unlink"
  | .rmdir => "rmdir"
  | .symlink => "symlink"
  | .rename => "rename"
  | .link => "link"
  | .open => "open"
  | .read => "read"
  | .write => "write"
  | .flush => "flush"
  | .release => "release"
  | .fsync => "fsync"
  | .opendir => "opendir"
  | .readdir => "readdir"
  | .releasedir => "releasedir"
  | .fsyncdir => "fsyncdir"
  | .statfs => "statfs"
  | .setxattr => "setxattr"
  | .getxattr => "getxattr"
  | .listxattr => "listxattr"
  | .removexattr => "removexattr"
  | .access => "access"
  | .create => "create"

def ofName? (name : String) : Option OpKind := all.find? (·.name == name)

/-- The name with a capital letter. -/
def title (k : OpKind) : String := k.name.capitalize

/-- The place of a kind in the list of all kinds. -/
def position (k : OpKind) : Nat := all.idxOf k

/-- The kernel waits for an answer to every request but a forget. -/
def expectsReply (k : OpKind) : Bool := k != .forget

/-- Whether an operation of this kind comes with a request. -/
def carriesRequest (k : OpKind) : Bool := k != .init && k != .destroy

end OpKind

end Fuse
