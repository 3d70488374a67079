import ChassisCooling.Calendar.Instant

/-! # Clocks

A clock that is set by hand shows the instant that it was set to. The clock of the system counts up
from 1970-01-01T00:00:00Z. When it stands before that, or beyond the calendar, it shows nothing, and
what wanted to read it fails.
-/

namespace ChassisCooling.Calendar

/-- A kind of clock. -/
inductive Clock where
  | manual
  | system
deriving DecidableEq, Repr

/-- What a clock that stands at an instant shows. -/
def Clock.read (clock : Clock) (t : Instant) : Except OutOfCalendar Instant :=
  match clock with
  | manual => .ok t
  | system => if t.second < 0 then .error .outOfCalendar else t.checked

end ChassisCooling.Calendar
