-- The options of a mount, and the two texts in which they are handed on: to the
-- kernel directly, or to the helper program that mounts for ordinary users.
import Fuse.Bytes

namespace Fuse

/-- The options of a mount. Options that are not set have a default, or are
left out. -/
structure MountOptions where
  fsName : Option String := none
  subtype : Option String := none
  uid : Option UInt32 := none
  gid : Option UInt32 := none
  allowOther : Bool := false
  allowRoot : Bool := false
  readOnly : Bool := false
  defaultPermissions : Bool := false
  nonempty : Bool := false
  maxRead : Option UInt32 := none
  rootmode : Option UInt32 := none
  debug : Bool := false
  customOptions : Option Bytes := none
deriving DecidableEq, Repr

namespace MountOptions

/-! ## Setting options -/

/-- One option with its value. -/
inductive Setting where
  | fsName (name : String)
  | subtype (subtype : String)
  | uid (uid : UInt32)
  | gid (gid : UInt32)
  | allowOther (on : Bool)
  | allowRoot (on : Bool)
  | readOnly (on : Bool)
  | defaultPermissions (on : Bool)
  | nonempty (on : Bool)
  | maxRead (bytes : UInt32)
  | rootmode (mode : UInt32)
  | debug (on : Bool)
  | customOptions (text : Bytes)
deriving DecidableEq, Repr

/-- Set an option. The last value of an option counts. -/
def set (o : MountOptions) : Setting → MountOptions
  | .fsName name => { o with fsName := some name }
  | .subtype subtype => { o with subtype := some subtype }
  | .uid uid => { o with uid := some uid }
  | .gid gid => { o with gid := some gid }
  | .allowOther on => { o with allowOther := on }
  | .allowRoot on => { o with allowRoot := on }
  | .readOnly on => { o with readOnly := on }
  | .defaultPermissions on => { o with defaultPermissions := on }
  | .nonempty on => { o with nonempty := on }
  | .maxRead bytes => { o with maxRead := some bytes }
  | .rootmode mode => { o with rootmode := some mode }
  | .debug on => { o with debug := on }
  | .customOptions text => { o with customOptions := some text }

def setAll (o : MountOptions) (settings : List Setting) : MountOptions := settings.foldl set o

/-! ## The texts -/

/-- The user and the group on whose behalf a program runs. -/
structure Owner where
  uid : UInt32
  gid : UInt32

/-- What is mounted, as the list of mounts shows it. -/
def source (o : MountOptions) : String := o.fsName.getD "fuse"

/-- The type of the mount, as the list of mounts shows it. -/
def fsType (o : MountOptions) : String :=
  match o.subtype with
  | some subtype => "fuse." ++ subtype
  | none => "fuse"

/-- An option that stands in the text only if it is on. -/
def whenSet (on : Bool) (text : String) : List String := if on then [text] else []

/-- The mode of the root node, a directory unless it is set, in base eight. -/
def rootmodeText (o : MountOptions) : String :=
  String.ofList (Nat.toDigits 8 (o.rootmode.getD 0o40000).toNat)

/-- Who owns the mount, and what its root is. -/
def ownerOptions (o : MountOptions) (process : Owner) : List String := [
  "user_id=" ++ toString (o.uid.getD process.uid).toNat,
  "group_id=" ++ toString (o.gid.getD process.gid).toNat,
  "rootmode=" ++ o.rootmodeText]

/-- The options that both texts have. -/
def commonOptions (o : MountOptions) : List String :=
  whenSet o.allowOther "allow_other" ++ whenSet o.allowRoot "allow_root" ++
    whenSet o.defaultPermissions "default_permissions" ++
    (o.maxRead.toList.map fun bytes => "max_read=" ++ toString bytes.toNat)

/-- The options side by side, and the text of the caller's own options as it
is. -/
def render (o : MountOptions) (options : List String) : Bytes :=
  let text := (",".intercalate options).toUTF8.toList
  match o.customOptions with
  | none | some [] => text
  | some custom => text ++ ",".toUTF8.toList ++ custom

/-- The text for the kernel. The device is open already. -/
def kernelText (o : MountOptions) (process : Owner) (fd : Int32) : Bytes :=
  o.render (("fd=" ++ toString fd.toInt) :: (o.ownerOptions process ++ o.commonOptions))

/-- The text for the helper program. -/
def helperText (o : MountOptions) (process : Owner) : Bytes :=
  o.render <|
    ("fsname=" ++ o.source) :: o.ownerOptions process ++
      (o.subtype.toList.map fun subtype => "subtype=" ++ subtype) ++
      whenSet o.readOnly "ro" ++ whenSet o.nonempty "nonempty" ++ o.commonOptions

end MountOptions

end Fuse
