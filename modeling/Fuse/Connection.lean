-- The parameters of a connection: what the kernel proposes, what the file
-- system may change about it, and what both sides keep to from then on.
import Fuse.Capabilities
import Fuse.Kernel.Header

namespace Fuse

/-! ## Limits of this protocol version -/

/-- The major version of the protocol. -/
def protocolMajor : UInt32 := 7

/-- The newest minor version that is understood. -/
def protocolMinor : UInt32 := 31

/-- The largest write that a session takes. -/
def maxWriteSize : UInt32 := 1048576

/-- The smallest limit on writes that a session sets. -/
def minWriteSize : UInt32 := 4096

/-- The size of a memory page. -/
def pageSize : UInt32 := 4096

/-! ## Settings -/

/-- The parameters of a connection while they may still change. The version and
the capable set are the kernel's. -/
structure Config where
  major : UInt32
  minor : UInt32
  capable : Capabilities
  want : Capabilities
  maxReadahead : UInt32
  maxWrite : UInt32
  maxRead : UInt32
  maxBackground : UInt16
  congestionThreshold : UInt16
  timeGran : UInt32
deriving DecidableEq, Repr

namespace Config

/-- The parameters at the start of a handshake. Capabilities without a name are
not taken from the kernel. -/
def ofInit (init : Kernel.InitIn) (minor : UInt32) : Config where
  major := init.major
  minor := minor
  capable := .ofWord init.flags
  want := (Capabilities.ofWord init.flags).inter .defaultWant
  maxReadahead := init.maxReadahead
  maxWrite := maxWriteSize
  maxRead := 0
  maxBackground := 16
  congestionThreshold := 12
  timeGran := 1

/-- One change that a file system makes to the parameters. -/
inductive Setting where
  | want (set : Capabilities)
  | addWant (set : Capabilities)
  | removeWant (set : Capabilities)
  | maxReadahead (n : UInt32)
  | maxWrite (n : UInt32)
  | maxRead (n : UInt32)
  | maxBackground (n : UInt16)
  | congestionThreshold (n : UInt16)
  | timeGran (n : UInt32)
deriving DecidableEq, Repr

def apply (c : Config) : Setting → Config
  | .want set => { c with want := set }
  | .addWant set => { c with want := c.want.union set }
  | .removeWant set => { c with want := c.want.diff set }
  | .maxReadahead n => { c with maxReadahead := n }
  | .maxWrite n => { c with maxWrite := n }
  | .maxRead n => { c with maxRead := n }
  | .maxBackground n => { c with maxBackground := n }
  | .congestionThreshold n => { c with congestionThreshold := n }
  | .timeGran n => { c with timeGran := n }

def applyAll (c : Config) (settings : List Setting) : Config := settings.foldl apply c

end Config

/-! ## The agreed parameters -/

/-- The parameters of an open connection. They never change. -/
structure Connection where
  major : UInt32
  minor : UInt32
  capable : Capabilities
  want : Capabilities
  maxReadahead : UInt32
  maxWrite : UInt32
  maxRead : UInt32
  maxBackground : UInt16
  congestionThreshold : UInt16
  timeGran : UInt32
  maxPages : UInt16
deriving DecidableEq, Repr

/-- The number in `lo` to `hi` that is nearest to `n`. -/
def clamp (lo hi n : UInt32) : UInt32 := max lo (min hi n)

/-- The pages that a write of `size` bytes takes, as far as they can be told to
the kernel. -/
def pagesFor (size : UInt32) : UInt16 :=
  .ofNat (min ((size.toNat + (pageSize.toNat - 1)) / pageSize.toNat) 65535)

/-- Settle the parameters. A file system that wants what the kernel does not
offer gets the missing capabilities back. `kernelReadahead` is what the kernel
proposed; the file system can only lower it. -/
def Config.finish (c : Config) (kernelReadahead : UInt32) : Except Capabilities Connection :=
  if c.capable.contains c.want then
    let maxWrite := clamp minWriteSize maxWriteSize c.maxWrite
    .ok {
      major := c.major
      minor := c.minor
      capable := c.capable
      want := c.want
      maxReadahead := min c.maxReadahead kernelReadahead
      maxWrite
      maxRead := c.maxRead
      maxBackground := c.maxBackground
      congestionThreshold := min c.congestionThreshold c.maxBackground
      timeGran := clamp 1 1000000000 c.timeGran
      maxPages := if c.want.contains .maxPages then pagesFor maxWrite else 0 }
  else
    .error (c.want.diff c.capable)

namespace Connection

/-- The structure that tells the kernel what was settled. -/
def initOut (c : Connection) : Kernel.InitOut where
  major := protocolMajor
  minor := c.minor
  maxReadahead := c.maxReadahead
  flags := c.want.bits
  maxBackground := c.maxBackground
  congestionThreshold := c.congestionThreshold
  maxWrite := c.maxWrite
  timeGran := c.timeGran
  maxPages := c.maxPages

end Connection

end Fuse
