-- Points in time as the kernel sends them, and as a system clock counts them.
-- The kernel splits a time into seconds and nanoseconds and checks neither; the
-- clock keeps the nanoseconds below a second.
import Fuse.Fault

namespace Fuse

/-- The nanoseconds of a second. -/
def nanosPerSecond : Nat := 1000000000

/-- A point in time as a message carries it. -/
structure Timestamp where
  sec : Int64
  nsec : UInt32
deriving DecidableEq, Repr

def Timestamp.epoch : Timestamp := ⟨0, 0⟩

/-- A length of time. -/
structure Duration where
  secs : UInt64
  nanos : UInt32
deriving DecidableEq, Repr

namespace Duration

/-- A length of time, with whole seconds carried over from the nanoseconds. -/
def ofParts (secs : UInt64) (nanos : UInt32) : Except Fault Duration :=
  let total := secs.toNat + nanos.toNat / nanosPerSecond
  if total < UInt64.size then
    .ok ⟨.ofNat total, .ofNat (nanos.toNat % nanosPerSecond)⟩
  else
    .error .durationOverflow

def ofSecs (secs : UInt64) : Duration := ⟨secs, 0⟩

/-- The whole length in nanoseconds. -/
def toNanos (d : Duration) : Nat := d.secs.toNat * nanosPerSecond + d.nanos.toNat

end Duration

/-! ## The clock -/

/-- A point in time on the system clock. -/
structure Instant where
  sec : Int64
  nsec : UInt32
  nsec_lt : nsec.toNat < nanosPerSecond
deriving DecidableEq

namespace Instant

/-- The distance from the epoch in nanoseconds. -/
def toNanos (t : Instant) : Int := t.sec.toInt * nanosPerSecond + t.nsec.toNat

/-- The point at a distance from the epoch. The clock counts its seconds in 64
bits, so there is not one for every distance. -/
def ofNanos? (n : Int) : Option Instant :=
  let sec := n.fdiv nanosPerSecond
  let nsec := (n.fmod nanosPerSecond).toNat
  if h : nsec < nanosPerSecond then
    if Int64.minValue.toInt ≤ sec ∧ sec ≤ Int64.maxValue.toInt then
      some ⟨.ofInt sec, .ofNat nsec, by
        simp only [nanosPerSecond] at *
        rw [UInt32.toNat_ofNat']
        omega⟩
    else none
  else none

def epoch : Instant := ⟨0, 0, by decide⟩

def add (t : Instant) (d : Duration) : Except Fault Instant :=
  match ofNanos? (t.toNanos + d.toNanos) with
  | some t => .ok t
  | none => .error .instantAddOverflow

def sub (t : Instant) (d : Duration) : Except Fault Instant :=
  match ofNanos? (t.toNanos - d.toNanos) with
  | some t => .ok t
  | none => .error .instantSubOverflow

/-- How far the point is from the epoch, before or after it. -/
def fromEpoch (t : Instant) : Duration :=
  let nanos := t.toNanos.natAbs
  ⟨.ofNat (nanos / nanosPerSecond), .ofNat (nanos % nanosPerSecond)⟩

/-- The point in time as a message carries it. Before the epoch the distance is split anew,
so that the nanoseconds count forward. The lowest number of seconds has no opposite. -/
def toTimestamp (profile : Profile) (t : Instant) : Except Fault Timestamp :=
  let distance := t.fromEpoch
  let secs := distance.secs.toInt64
  if 0 ≤ t.toNanos then .ok ⟨secs, distance.nanos⟩
  else do
    let back ← profile.plain (secs != .minValue) .negateOverflow (-secs)
    if distance.nanos = 0 then return ⟨back, 0⟩
    let whole := UInt32.ofNat nanosPerSecond
    let sec ← profile.plain (back != .minValue) .subOverflow (back - 1)
    let nsec ← profile.plain (distance.nanos ≤ whole) .subOverflow (whole - distance.nanos)
    return ⟨sec, nsec⟩

end Instant

/-- The point on the clock that a timestamp means. The nanoseconds count
forward from the seconds, and may be more than a second. -/
def Timestamp.toInstant (t : Timestamp) : Except Fault Instant :=
  if 0 ≤ t.sec then do
    Instant.epoch.add (← Duration.ofParts t.sec.toUInt64 t.nsec)
  else do
    let whole ← Instant.epoch.sub (.ofSecs (UInt64.ofNat t.sec.toInt.natAbs))
    whole.add (← Duration.ofParts 0 t.nsec)

end Fuse
