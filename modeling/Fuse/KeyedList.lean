-- Finite maps as lists of pairs, in the order of their keys. Each key stands at
-- most once.
namespace Fuse

/-- A finite map. -/
abbrev KeyedList (κ ν : Type) := List (κ × ν)

namespace KeyedList

variable {κ ν : Type}

/-- The value of a key. -/
def get? [DecidableEq κ] (m : KeyedList κ ν) (k : κ) : Option ν :=
  (m.find? fun p => decide (p.1 = k)).map (·.2)

/-- Give a key a value, in place of the one that it had. -/
def insert [LT κ] [DecidableLT κ] [DecidableEq κ] (k : κ) (v : ν) :
    KeyedList κ ν → KeyedList κ ν
  | [] => [(k, v)]
  | (k', v') :: m =>
    if k < k' then (k, v) :: (k', v') :: m
    else if k = k' then (k, v) :: m
    else (k', v') :: insert k v m

/-- Take a key out. -/
def erase [DecidableEq κ] (m : KeyedList κ ν) (k : κ) : KeyedList κ ν :=
  m.filter fun p => !decide (p.1 = k)

/-- Change the value of a key, if it has one. -/
def modify [DecidableEq κ] (m : KeyedList κ ν) (k : κ) (f : ν → ν) : KeyedList κ ν :=
  m.map fun p => if p.1 = k then (p.1, f p.2) else p

/-- Whether a key has a value. -/
def has [DecidableEq κ] (m : KeyedList κ ν) (k : κ) : Bool := (m.get? k).isSome

end KeyedList

end Fuse
