-- The faults of arithmetic and of memory, and the two profiles that a program
-- is built in. In the development profile a fault stops the work at hand; in
-- the release profile plain arithmetic wraps around instead.
namespace Fuse

/-- How strict the program is with itself. -/
inductive Profile where
  | dev
  | release
deriving DecidableEq, Repr

/-- A computation that cannot give its result. -/
inductive Fault where
  | addOverflow
  | subOverflow
  | negateOverflow
  | durationOverflow
  | instantAddOverflow
  | instantSubOverflow
  | capacityOverflow
deriving DecidableEq, Repr

/-- The text of a fault. -/
def Fault.message : Fault → String
  | .addOverflow => "attempt to add with overflow"
  | .subOverflow => "attempt to subtract with overflow"
  | .negateOverflow => "attempt to negate with overflow"
  | .durationOverflow => "overflow in Duration::new"
  | .instantAddOverflow => "overflow when adding duration to `SystemTime`"
  | .instantSubOverflow => "overflow when subtracting duration from `SystemTime`"
  | .capacityOverflow => "capacity overflow"

/-- The result of plain arithmetic on words. A result that is out of range stops the
development profile; the release profile goes on with what a word keeps of it. -/
def Profile.plain {α : Type} (profile : Profile) (inRange : Bool) (fault : Fault) (word : α) :
    Except Fault α :=
  if profile = .dev ∧ inRange = false then .error fault else .ok word

end Fuse
