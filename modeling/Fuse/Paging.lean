-- How the kernel lists a directory. It asks for one page after another, each from the offset
-- of the last record that it has, until a page is empty. Between two pages it may ask for
-- anything else.
import Fuse.Reply.Records
import Fuse.Session.Table

namespace Fuse

variable {σ : Type}

/-! ## Records -/

/-- What a record says of the entry, without its offset. -/
def DirEntry.said (e : DirEntry) : Inode × FileType × Name := (e.ino, e.kind, e.name)

/-- The records in some bytes, up to the first place where there is none. -/
def Listing.records (bs : Bytes) : List DirEntry := upTo bs.length bs
where
  /-- At most so many of them. -/
  upTo : Nat → Bytes → List DirEntry
    | 0, _ => []
    | count + 1, bs =>
      match DirEntry.read? bs with
      | some (e, rest) => e :: upTo count rest
      | none => []

/-! ## Pages -/

/-- A page of a directory: what the file system kept when the page was asked for, the offset
from which on, the space that there was, and the bytes that came. -/
structure Page (σ : Type) where
  user : σ
  offset : UInt64
  space : UInt32
  bytes : Bytes

namespace Page

def records (p : Page σ) : List DirEntry := Listing.records p.bytes

/-- Where the next page starts: at the offset of the last record. -/
def next (p : Page σ) : UInt64 := (p.records.getLast?.map (·.offset)).getD p.offset

end Page

/-- What comes of an operation: what the file system keeps then, and the answer, if one was
given at once. -/
def Table.serve (t : Table σ) (user : σ) (r : Request) (op : Operation) : σ × Option Reply :=
  match t.resolve op.kind with
  | some handler =>
    let (user, outcome) := handler user r op
    (user,
      match outcome.use with
      | .answer (.reply reply) => some reply
      | _ => none)
  | none => (user, none)

/-- What the kernel asks for next while it lists a directory. -/
inductive Ask where
  | page (r : Request) (space : UInt32) (file : FileInfo)
  | other (r : Request) (op : Operation)

/-- The pages of a directory from an offset on. An empty page is the last one, and so is the
one before an error. -/
def Table.pages (t : Table σ) (dir : Inode) : σ → UInt64 → List Ask → List (Page σ)
  | _, _, [] => []
  | user, offset, .other r op :: asks => t.pages dir (t.serve user r op).1 offset asks
  | user, offset, .page r space file :: asks =>
    match t.serve user r (.readdir dir offset space file) with
    | (user', some (.dir l)) =>
      let p : Page σ := ⟨user, offset, space, l.bytes⟩
      if l.bytes = [] then [p] else p :: t.pages dir user' p.next asks
    | _ => []

/-! ## Complete listings -/

/-- What all the records of some pages say. -/
def told (ps : List (Page σ)) : List (Inode × FileType × Name) :=
  (ps.flatMap Page.records).map DirEntry.said

/-- Whether an entry has the name and leads to the node. -/
def isFor (name : Name) (ino : Inode) : Inode × FileType × Name → Bool
  | (i, _, x) => decide (i = ino ∧ x = name)

/-- How often some pages tell the name of a node. -/
def timesTold (name : Name) (ino : Inode) (ps : List (Page σ)) : Nat :=
  (told ps).countP (isFor name ino)

/-- Each page has space for the record of the first entry that is still missing, if one is. -/
def Roomy (es : List (Inode × FileType × Name)) (ps : List (Page σ)) : Prop :=
  ∀ before p after, ps = before ++ p :: after →
    ∀ ino kind name, es[(told before).length]? = some (ino, kind, name) →
      align8 (24 + name.length) ≤ p.space.toNat

/-- These are the answers to so many questions for a page. They tell the entries in their
order, and an empty one comes when all are told, which is soon enough. None is longer than
its space, and none has anything but records. -/
structure Tells (es : List (Inode × FileType × Name)) (asked : Nat) (ps : List (Page σ)) : Prop where
  inOrder : told ps <+: es
  whole : ∀ p ∈ ps, p.bytes = [] → told ps = es
  answered : ps.length = asked ∨ ∃ p ∈ ps, p.bytes = []
  ends : es.length < asked → ∃ p ∈ ps, p.bytes = []
  within : ∀ p ∈ ps, p.bytes.length ≤ p.space.toNat
  readable : ∀ p ∈ ps, Listing.Reads p.bytes p.records

/-- Whoever lists the directory from the start, by pages that have space enough, is told these
entries. -/
def Table.Lists (t : Table σ) (user : σ) (dir : Inode) (es : List (Inode × FileType × Name)) :
    Prop :=
  ∀ asks : List (Request × UInt32 × FileInfo),
    let ps := t.pages dir user 0 (asks.map fun (r, space, file) => .page r space file)
    Roomy es ps → Tells es asks.length ps

end Fuse
