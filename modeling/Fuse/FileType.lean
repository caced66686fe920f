-- The kinds of nodes in a file system, and how a mode word names them.
namespace Fuse

/-- What a node is. -/
inductive FileType where
  | namedPipe
  | charDevice
  | blockDevice
  | directory
  | regularFile
  | symlink
  | socket
deriving DecidableEq, Repr

namespace FileType

def all : List FileType :=
  [namedPipe, charDevice, blockDevice, directory, regularFile, symlink, socket]

def name : FileType → String
  | namedPipe => "NamedPipe"
  | charDevice => "CharDevice"
  | blockDevice => "BlockDevice"
  | directory => "Directory"
  | regularFile => "RegularFile"
  | symlink => "Symlink"
  | socket => "Socket"

def ofName? (name : String) : Option FileType := all.find? (·.name == name)

/-- The bits of a mode word that hold the file type. -/
def modeMask : UInt32 := 0xf000

/-- The file type as it stands in a mode word. -/
def modeBits : FileType → UInt32
  | namedPipe => 0x1000
  | charDevice => 0x2000
  | directory => 0x4000
  | blockDevice => 0x6000
  | regularFile => 0x8000
  | symlink => 0xa000
  | socket => 0xc000

/-- The file type as it stands in a directory record. -/
def direntType (t : FileType) : UInt32 := t.modeBits >>> 12

/-- The file type that a mode word names, if it names one. -/
def ofMode? (mode : UInt32) : Option FileType := all.find? (·.modeBits == mode &&& modeMask)

end FileType

end Fuse
