-- How a text of options is read: which items it has, and what each of them tells. And what it
-- ought to tell, the options that are in effect after some settings.
import Fuse.MountOptions

namespace Fuse

namespace MountOptions

/-! ## Items -/

def comma : UInt8 := 0x2c

def backslash : UInt8 := 0x5c

def equalsSign : UInt8 := 0x3d

def minus : UInt8 := 0x2d

/-- The items of a text, as the helper program takes them apart. A comma ends an item. A
backslash takes the byte behind it into the item, whichever that is; at the end of the text it
stands for itself. The kernel knows no backslash, but there is none in what it is told. -/
def items : Bytes → List Bytes
  | [] => [[]]
  | b :: bs =>
    if b = comma then [] :: items bs
    else if b = backslash then
      match bs with
      | [] => [[backslash]]
      | c :: rest => (items rest).modifyHead (c :: ·)
    else (items bs).modifyHead (b :: ·)

@[simp] theorem items_nil : items [] = [[]] := by simp [items]

@[simp] theorem items_comma (bs : Bytes) : items (comma :: bs) = [] :: items bs := by
  rw [items.eq_def]
  simp

@[simp] theorem items_backslash_at_end : items [backslash] = [[backslash]] := by decide

@[simp] theorem items_backslash (c : UInt8) (rest : Bytes) :
    items (backslash :: c :: rest) = (items rest).modifyHead (c :: ·) := by
  have hne : backslash ≠ comma := by decide
  rw [items.eq_def]
  simp [hne]

theorem items_other {b : UInt8} (hcomma : b ≠ comma) (hbackslash : b ≠ backslash) (bs : Bytes) :
    items (b :: bs) = (items bs).modifyHead (b :: ·) := by
  rw [items.eq_def]
  simp [hcomma, hbackslash]

/-- Nothing in the text ends an item, and nothing is left out of it. -/
def Plain (text : Bytes) : Prop := comma ∉ text ∧ backslash ∉ text

instance (text : Bytes) : Decidable (Plain text) := inferInstanceAs (Decidable (_ ∧ _))

/-- The text ends with a backslash, and is plain before it. -/
def EndsWithBackslash (text : Bytes) : Prop := ∃ front, Plain front ∧ text = front ++ [backslash]

/-! ## What an item tells -/

/-- The bytes of a text. -/
def utf8 (text : String) : Bytes := text.toUTF8.data.toList

/-- The options that an item may be about. -/
inductive Key where
  | fd
  | fsname
  | subtype
  | userId
  | groupId
  | rootmode
  | ro
  | nonempty
  | allowOther
  | allowRoot
  | defaultPermissions
  | maxRead
deriving DecidableEq, Repr

def Key.all : List Key := [.fd, .fsname, .subtype, .userId, .groupId, .rootmode, .ro, .nonempty,
  .allowOther, .allowRoot, .defaultPermissions, .maxRead]

def Key.name : Key → String
  | .fd => "fd"
  | .fsname => "fsname"
  | .subtype => "subtype"
  | .userId => "user_id"
  | .groupId => "group_id"
  | .rootmode => "rootmode"
  | .ro => "ro"
  | .nonempty => "nonempty"
  | .allowOther => "allow_other"
  | .allowRoot => "allow_root"
  | .defaultPermissions => "default_permissions"
  | .maxRead => "max_read"

/-- What stands behind the name: nothing, a text, or a number to some base. -/
inductive Form where
  | flag
  | text
  | number (base : Nat)
deriving DecidableEq, Repr

def Key.form : Key → Form
  | .fd | .userId | .groupId | .maxRead => .number 10
  | .rootmode => .number 8
  | .fsname | .subtype => .text
  | .ro | .nonempty | .allowOther | .allowRoot | .defaultPermissions => .flag

inductive Value where
  | flag (on : Bool)
  | text (bytes : Bytes)
  | number (n : Int)
deriving DecidableEq, Repr

/-- An option and its value. -/
structure Told where
  key : Key
  value : Value
deriving DecidableEq, Repr

/-- The number that some digits spell, the first of them being the greatest. -/
def natural? (base : Nat) (digits : Bytes) : Option Nat :=
  if digits.isEmpty then none
  else if digits.all fun d => decide (48 ≤ d.toNat ∧ d.toNat < 48 + base) then
    some (digits.foldl (fun n d => base * n + (d.toNat - 48)) 0)
  else none

def integer? (base : Nat) : Bytes → Option Int
  | [] => none
  | d :: digits =>
    if d = minus then (natural? base digits).map fun (n : Nat) => -(n : Int)
    else (natural? base (d :: digits)).map fun (n : Nat) => (n : Int)

/-- The value in what stands behind a name. -/
def Form.value? : Form → Bytes → Option Value
  | .flag, [] => some (.flag true)
  | .text, b :: bytes => if b = equalsSign then some (.text bytes) else none
  | .number base, b :: digits =>
    if b = equalsSign then (integer? base digits).map .number else none
  | _, _ => none

/-- What an item tells. A name that is not known is refused. -/
def told? (item : Bytes) : Option Told :=
  (Key.all.find? fun key => utf8 key.name = item.takeWhile (· ≠ equalsSign)).bind fun key =>
    (key.form.value? (item.dropWhile (· ≠ equalsSign))).map fun value => ⟨key, value⟩

/-- What a text tells, item by item. -/
def reads? (text : Bytes) : Option (List Told) := (items text).mapM told?

/-! ## What there is to tell -/

/-- The option that is set. What asks for a log stays within the program, and a text of the
caller's own is not read here. -/
def Setting.told? : Setting → Option Told
  | .fsName name => some ⟨.fsname, .text (utf8 name)⟩
  | .subtype name => some ⟨.subtype, .text (utf8 name)⟩
  | .uid user => some ⟨.userId, .number user.toNat⟩
  | .gid group => some ⟨.groupId, .number group.toNat⟩
  | .allowOther on => some ⟨.allowOther, .flag on⟩
  | .allowRoot on => some ⟨.allowRoot, .flag on⟩
  | .readOnly on => some ⟨.ro, .flag on⟩
  | .defaultPermissions on => some ⟨.defaultPermissions, .flag on⟩
  | .nonempty on => some ⟨.nonempty, .flag on⟩
  | .maxRead size => some ⟨.maxRead, .number size.toNat⟩
  | .rootmode bits => some ⟨.rootmode, .number bits.toNat⟩
  | .debug _ | .customOptions _ => none

/-- The value that is given to the option, if it is this one that is set. -/
def Setting.value? (key : Key) (setting : Setting) : Option Value :=
  (setting.told?.filter (·.key = key)).map (·.value)

/-- The last value that was given to an option. -/
def lastSet (settings : List Setting) (key : Key) : Option Value :=
  settings.reverse.findSome? (Setting.value? key)

/-- The value of an option that is not set: the name is `fuse`, who runs the program owns the
mount, and its root is a directory. -/
def standard (process : Owner) : Key → Option Value
  | .fsname => some (.text (utf8 "fuse"))
  | .userId => some (.number process.uid.toNat)
  | .groupId => some (.number process.gid.toNat)
  | .rootmode => some (.number 0o40000)
  | _ => none

/-- The value of an option in effect. One that is off is not in effect. -/
def inEffect (process : Owner) (settings : List Setting) (key : Key) : Option Value :=
  ((lastSet settings key).or (standard process key)).filter (· ≠ .flag false)

/-- Those of some options that are in effect. -/
def effects (process : Owner) (settings : List Setting) (keys : List Key) : List Told :=
  keys.filterMap fun key => (inEffect process settings key).map fun value => ⟨key, value⟩

/-- The options behind the subtype, in the text for the helper program. -/
def closingKeys : List Key :=
  [.ro, .nonempty, .allowOther, .allowRoot, .defaultPermissions, .maxRead]

/-- The options that the helper program is told, in the order in which it is told them. -/
def helperKeys : List Key := [.fsname, .userId, .groupId, .rootmode, .subtype] ++ closingKeys

/-- The options that both are told. -/
def sharedKeys : List Key :=
  [.userId, .groupId, .rootmode, .allowOther, .allowRoot, .defaultPermissions, .maxRead]

end MountOptions

end Fuse
