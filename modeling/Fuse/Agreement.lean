-- What it means that a connection keeps to what was proposed: to the offer of the
-- kernel, and to what the file system made of it.
import Fuse.Connection

namespace Fuse

/-- Whether a set has the capability that a bit stands for. -/
def Capabilities.has (a : Capabilities) (bit : Nat) : Bool := a.bits.toNat.testBit bit

/-- The bit that says how many pages a write may take. -/
def Capabilities.maxPagesBit : Nat := 22

/-- A number of pages covers a size, and no smaller number does. -/
def LeastPages (size pages : Nat) : Prop :=
  size ≤ pages * 4096 ∧ ∀ n, size ≤ n * 4096 → pages ≤ n

/-- The connection keeps to the kernel's proposal and to the file system's settings:
it has the older version and the smaller window, it wants nothing that was not
offered, and each number is as the file system set it, as far as its bounds allow. -/
structure Connection.Keeps (c : Connection) (init : Kernel.InitIn) (config : Config) : Prop where
  minor : c.minor.toNat = min init.minor.toNat 31
  want : c.want = config.want
  offered : ∀ bit, c.want.has bit = true → init.flags.toNat.testBit bit = true ∧ bit < 27
  maxReadahead : c.maxReadahead.toNat = min init.maxReadahead.toNat config.maxReadahead.toNat
  maxWrite : 4096 ≤ c.maxWrite.toNat ∧ c.maxWrite.toNat ≤ 1048576
  maxWriteKept : 4096 ≤ config.maxWrite.toNat → config.maxWrite.toNat ≤ 1048576 →
    c.maxWrite = config.maxWrite
  maxRead : c.maxRead = config.maxRead
  maxBackground : c.maxBackground = config.maxBackground
  congestionThreshold :
    c.congestionThreshold.toNat = min config.congestionThreshold.toNat c.maxBackground.toNat
  timeGran : 1 ≤ c.timeGran.toNat ∧ c.timeGran.toNat ≤ 1000000000
  timeGranKept : 1 ≤ config.timeGran.toNat → config.timeGran.toNat ≤ 1000000000 →
    c.timeGran = config.timeGran
  maxPages :
    if c.want.has Capabilities.maxPagesBit then LeastPages c.maxWrite.toNat c.maxPages.toNat
    else c.maxPages = 0

/-- The structure tells the kernel what the connection is. -/
structure Kernel.InitOut.Tells (out : Kernel.InitOut) (c : Connection) : Prop where
  major : out.major = 7
  minor : out.minor = c.minor
  maxReadahead : out.maxReadahead = c.maxReadahead
  flags : out.flags = c.want.bits
  maxBackground : out.maxBackground = c.maxBackground
  congestionThreshold : out.congestionThreshold = c.congestionThreshold
  maxWrite : out.maxWrite = c.maxWrite
  timeGran : out.timeGran = c.timeGran
  maxPages : out.maxPages = c.maxPages

/-- How much of the structure the kernel gets, by the minor version. -/
def initOutSize (minor : UInt32) : Nat := if minor < 5 then 8 else if minor < 23 then 24 else 64

end Fuse
