import JobLedger.Time.Calendar
import JobLedger.Time.Span
/-!
# Instants

Points of time in UTC from the year -262143 to the year 262142, to the nanosecond. A leap second is counted
as the second nanosecond billion of the second before it, which may be any.
-/
namespace JobLedger

def nanosPerSecond : Nat := 1000000000

/-- A point of time: a second counted from 1970-01-01T00:00:00, and nanoseconds since its start. -/
structure Instant where
  second : Int
  nano : Nat
  /-- The second lies in the range of years. -/
  inRange : -8334601228800 ≤ second ∧ second ≤ 8210266876799
  /-- A second is followed by one leap second at most. -/
  nano_lt : nano < 2000000000
deriving DecidableEq

namespace Instant

/-- The instant of a second and nanoseconds, if there is such an instant. -/
def make? (second : Int) (nano : Nat) : Option Instant :=
  if h : (-8334601228800 ≤ second ∧ second ≤ 8210266876799) ∧ nano < 2000000000 then some ⟨second, nano, h.1, h.2⟩
  else none

/-- The last instant outside a leap second. -/
def last : Instant := ⟨8210266876799, 999999999, by decide, by decide⟩

def epoch : Instant := ⟨0, 0, by decide, by decide⟩

instance : Inhabited Instant := ⟨epoch⟩

def before (s t : Instant) : Bool :=
  s.second < t.second || (s.second == t.second && s.nano < t.nano)

def order (s t : Instant) : Ordering := (compare s.second t.second).then (compare s.nano t.nano)

/-- The instant a number of nanoseconds later. A leap second is left as if it were the second before it. -/
def plusNanos? (t : Instant) (n : Nat) : Option Instant :=
  let seconds := n / nanosPerSecond
  let nanos := n % nanosPerSecond
  if nanosPerSecond ≤ t.nano ∧ seconds = 0 ∧ t.nano + nanos < 2 * nanosPerSecond then
    make? t.second (t.nano + nanos)
  else
    let nano := (if nanosPerSecond ≤ t.nano then t.nano - nanosPerSecond else t.nano) + nanos
    make? (t.second + seconds + nano / nanosPerSecond) (nano % nanosPerSecond)

/-- The instant a span later, or the last one. -/
def plus (t : Instant) (d : Span) : Instant := (t.plusNanos? (d.milliseconds * 1000000)).getD last

/-- Nanoseconds from the epoch, a leap second counted together with the second after it. -/
def nanos (t : Instant) : Int := t.second * 1000000000 + t.nano

def millis (t : Instant) : Int := t.nanos / 1000000

theorem make?_self (t : Instant) : make? t.second t.nano = some t := by
  simp [make?, t.inRange, t.nano_lt]

theorem make?_eq_some {u : Instant} {second : Int} {nano : Nat} :
    make? second nano = some u ↔ u.second = second ∧ u.nano = nano := by
  constructor
  · intro h
    simp only [make?] at h
    split at h
    · cases h
      exact ⟨rfl, rfl⟩
    · cases h
  · rintro ⟨rfl, rfl⟩
    exact make?_self u

end Instant

end JobLedger
