-- The layouts of the kernel's structures: words side by side, in the order in
-- which they are declared, with nothing between them. One encoder and one
-- decoder serve every layout.
import Fuse.Bytes

namespace Fuse

/-- How a structure lies in a message. -/
inductive Layout where
  | u16
  | u32
  | u64
  | i32
  | pair (first second : Layout)
  | array (count : Nat) (item : Layout)

namespace Layout

/-- Several parts side by side. -/
@[reducible] def seq : Layout → List Layout → Layout
  | first, [] => first
  | first, second :: rest => .pair first (seq second rest)

/-- What a structure of this layout holds. -/
@[reducible] def Value : Layout → Type
  | .u16 => UInt16
  | .u32 => UInt32
  | .u64 => UInt64
  | .i32 => Int32
  | .pair first second => first.Value × second.Value
  | .array count item => Vector item.Value count

/-- The number of bytes that a structure of this layout takes. -/
def size : Layout → Nat
  | .u16 => 2
  | .u32 | .i32 => 4
  | .u64 => 8
  | .pair first second => first.size + second.size
  | .array count item => count * item.size

/-- Read `count` items in a row. -/
def decodeArray {α : Type} (item : Bytes → Option (α × Bytes)) :
    (count : Nat) → Bytes → Option (Vector α count × Bytes)
  | 0, bs => some (#v[], bs)
  | count + 1, bs => do
    let (items, bs) ← decodeArray item count bs
    let (last, bs) ← item bs
    return (items.push last, bs)

/-- The bytes of a structure. -/
def encode : (layout : Layout) → layout.Value → Bytes
  | .u16, v => Bytes.ofNat 2 (UInt16.toNat v)
  | .u32, v => Bytes.ofNat 4 (UInt32.toNat v)
  | .u64, v => Bytes.ofNat 8 (UInt64.toNat v)
  | .i32, v => Bytes.ofNat 4 (Int32.toUInt32 v).toNat
  | .pair first second, v => first.encode v.1 ++ second.encode v.2
  | .array _ item, v => v.toList.flatMap item.encode

/-- Read a structure from the front of some bytes, and give the bytes after
it. There is no answer when the bytes end within the structure. -/
def decode : (layout : Layout) → Bytes → Option (layout.Value × Bytes)
  | .u16, bs => (bs.split? 2).map fun (w, rest) => (UInt16.ofNat w.toNat, rest)
  | .u32, bs => (bs.split? 4).map fun (w, rest) => (UInt32.ofNat w.toNat, rest)
  | .u64, bs => (bs.split? 8).map fun (w, rest) => (UInt64.ofNat w.toNat, rest)
  | .i32, bs => (bs.split? 4).map fun (w, rest) => ((UInt32.ofNat w.toNat).toInt32, rest)
  | .pair first second, bs => do
    let (a, bs) ← first.decode bs
    let (b, bs) ← second.decode bs
    return ((a, b), bs)
  | .array count item, bs => decodeArray item.decode count bs

end Layout

/-! ## Types with a layout -/

/-- A type whose values lie in a message as its layout says. The two
conversions undo each other, so nothing is lost on the way. -/
class Wire (α : Type) where
  layout : Layout
  toValue : α → layout.Value
  ofValue : layout.Value → α
  ofValue_toValue : ∀ a, ofValue (toValue a) = a := by intro _; rfl
  toValue_ofValue : ∀ v, toValue (ofValue v) = v := by intro _; rfl

namespace Wire

variable {α : Type} [Wire α]

/-- The number of bytes that a value takes. -/
def size (α : Type) [Wire α] : Nat := (layout α).size

/-- The bytes of a value. -/
def encode (a : α) : Bytes := (layout α).encode (toValue a)

/-- Read a value from the front of some bytes, and give the bytes after it. -/
def decode? (bs : Bytes) : Option (α × Bytes) :=
  ((layout α).decode bs).map fun (v, rest) => (ofValue v, rest)

end Wire

end Fuse
