-- Error numbers, as the kernel takes them in a reply.
namespace Fuse

/-- The error number of a failed request. It is kept positive here and
negated when it is written into a reply. -/
structure Errno where
  raw : Int32
deriving DecidableEq, Repr

namespace Errno

def enoent : Errno := ⟨2⟩
def eio : Errno := ⟨5⟩
def eagain : Errno := ⟨11⟩
def eacces : Errno := ⟨13⟩
def eexist : Errno := ⟨17⟩
def enotdir : Errno := ⟨20⟩
def eisdir : Errno := ⟨21⟩
def einval : Errno := ⟨22⟩
def efbig : Errno := ⟨27⟩
def enametoolong : Errno := ⟨36⟩
def enosys : Errno := ⟨38⟩
def enotempty : Errno := ⟨39⟩
def eproto : Errno := ⟨71⟩
def enotconn : Errno := ⟨107⟩

/-- Whether the kernel takes this number in a reply. -/
def valid (e : Errno) : Bool := decide (0 < e.raw) && decide (e.raw ≤ 4095)

/-- The error of a node or a name that does not exist. -/
def isNotExist (e : Errno) : Bool := e == enoent

/-- The error of a directory where a file was expected. -/
def isDir (e : Errno) : Bool := e == eisdir

/-- The error of something else where a directory was expected. -/
def isNotDir (e : Errno) : Bool := e == enotdir

/-- The text of an error number. -/
def message (e : Errno) : String := s!"errno is {e.raw.toInt}"

/-- The text that shows how an error number is made. -/
def debugText (e : Errno) : String := s!"Errno({e.raw.toInt})"

end Errno

end Fuse
