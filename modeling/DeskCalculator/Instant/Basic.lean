import DeskCalculator.Instant.Calendar

/-!
# DeskCalculator.Instant.Basic — points in time, and the clock that gives them

An instant is a count of seconds and nanoseconds in universal time.  During a leap second the count
of seconds stands still and that of nanoseconds goes on above `10 ^ 9`.  A clock is the sequence of
its readings; a calculator takes them one by one, one for each record that it makes.
-/

namespace DeskCalculator

/-- A point in time, `seconds` and `nanos` after 1 January 1970. -/
structure Instant where
  seconds : Int
  nanos : Nat
deriving DecidableEq

namespace Instant

/-- The nanoseconds of a second. -/
def nanosPerSecond : Nat := 1000000000

/-- The instant a number of nanoseconds after 1 January 1970. -/
def ofNanos (n : Int) : Instant := ⟨n / nanosPerSecond, (n % nanosPerSecond).toNat⟩

/-- The instant a number of milliseconds later.  From within a leap second it is left to either side
as if it were the second after or before it. -/
def addMillis (t : Instant) (millis : Int) : Instant :=
  let seconds := Int.tdiv millis 1000
  let nanos := Int.tmod millis 1000 * 1000000
  let moved (s : Int) (n : Int) : Instant :=
    ofNanos ((s + seconds) * nanosPerSecond + n + nanos)
  if t.nanos < nanosPerSecond then moved t.seconds t.nanos
  else if 0 < seconds ∨ (0 < nanos ∧ 2 * nanosPerSecond ≤ t.nanos + nanos) then
    moved t.seconds (t.nanos - nanosPerSecond)
  else if seconds < 0 then moved (t.seconds + 1) (t.nanos - nanosPerSecond)
  else ⟨t.seconds, (t.nanos + nanos).toNat⟩

end Instant

/-- A source of instants: its readings in order. -/
structure Clock where
  reading : Nat → Instant

namespace Clock

/-- The clock that shows `start` first and then moves on by `tick` milliseconds at each reading. -/
def ticking (start : Instant) (tick : Int) : Clock := ⟨fun n => start.addMillis (n * tick)⟩

/-- The clock that always shows the same instant. -/
def still (instant : Instant) : Clock := ⟨fun _ => instant⟩

end Clock

end DeskCalculator
