-- The capabilities that the two sides of a connection agree on. The bits are
-- the kernel's own, so that a set goes into the handshake as it is.
namespace Fuse

/-- A set of capabilities, one bit each. A set may hold bits that have no name. -/
structure Capabilities where
  bits : UInt32
deriving DecidableEq, Repr

namespace Capabilities

/-- The names of the capabilities, from the lowest bit up. -/
def names : List String := [
  "ASYNC_READ", "POSIX_LOCKS", "FILE_OPS", "ATOMIC_O_TRUNC", "EXPORT_SUPPORT", "BIG_WRITES",
  "DONT_MASK", "SPLICE_WRITE", "SPLICE_MOVE", "SPLICE_READ", "FLOCK_LOCKS", "HAS_IOCTL_DIR",
  "AUTO_INVAL_DATA", "DO_READDIRPLUS", "READDIRPLUS_AUTO", "ASYNC_DIO", "WRITEBACK_CACHE",
  "NO_OPEN_SUPPORT", "PARALLEL_DIROPS", "HANDLE_KILLPRIV", "POSIX_ACL", "ABORT_ERROR",
  "MAX_PAGES", "CACHE_SYMLINKS", "NO_OPENDIR_SUPPORT", "EXPLICIT_INVAL_DATA", "MAP_ALIGNMENT"]

/-! ## Sets -/

def empty : Capabilities := ⟨0⟩

/-- Every capability that has a name. -/
def known : Capabilities := ⟨0x07ffffff⟩

def asyncRead : Capabilities := ⟨0x1⟩
def atomicOTrunc : Capabilities := ⟨0x8⟩
def bigWrites : Capabilities := ⟨0x20⟩
def autoInvalData : Capabilities := ⟨0x1000⟩
def asyncDio : Capabilities := ⟨0x8000⟩
def writebackCache : Capabilities := ⟨0x10000⟩
def parallelDirops : Capabilities := ⟨0x40000⟩
def maxPages : Capabilities := ⟨0x400000⟩

def union (a b : Capabilities) : Capabilities := ⟨a.bits ||| b.bits⟩

def inter (a b : Capabilities) : Capabilities := ⟨a.bits &&& b.bits⟩

/-- The capabilities of `a` that are not in `b`. -/
def diff (a b : Capabilities) : Capabilities := ⟨a.bits &&& ~~~b.bits⟩

/-- Whether every capability of `b` is in `a`. -/
def contains (a b : Capabilities) : Bool := a.inter b == b

/-- The set that a flag word means. Bits without a name are dropped. -/
def ofWord (word : UInt32) : Capabilities := inter ⟨word⟩ known

/-- What a session asks for unless it is told otherwise. -/
def defaultWant : Capabilities :=
  [bigWrites, atomicOTrunc, autoInvalData, asyncDio, parallelDirops, maxPages].foldl union
    asyncRead

/-! ## Texts -/

/-- The names of the capabilities in the set, from the lowest bit up. -/
def namesIn (a : Capabilities) : List String :=
  (names.zipIdx.filter fun (_, i) => a.bits.toNat.testBit i).map (·.1)

/-- The parts of the text of a set: its names, and then the bits without a name
as one number. -/
def textParts (a : Capabilities) : List String :=
  let rest := (a.diff known).bits
  a.namesIn ++
    if rest = 0 then [] else ["0x" ++ String.ofList (Nat.toDigits 16 rest.toNat)]

/-- The text of a set. -/
def debugText (a : Capabilities) : String :=
  let parts := if a = empty then ["0x0"] else a.textParts
  "CapabilityFlags(" ++ " | ".intercalate parts ++ ")"

end Capabilities

end Fuse
