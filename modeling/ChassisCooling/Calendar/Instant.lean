import ChassisCooling.Calendar.Date

/-! # Instants and spans

An instant is a second, counted from 1970-01-01T00:00:00Z, and a number of nanoseconds in it. A
written time may lie in a leap second; it then has a thousand million nanoseconds or more and comes
after every other instant of its second. Clocks never show such a time.

The calendar ends: an instant or a span beyond its range does not exist, and a computation that
would need one fails as a whole.
-/

namespace ChassisCooling.Calendar

/-- A computation needed a time or a span beyond the calendar, or one that a clock does not show. -/
inductive OutOfCalendar where
  | outOfCalendar
deriving DecidableEq, Repr

/-- A length of time, in nanoseconds; it may be negative. -/
structure Span where
  nanos : Int
deriving DecidableEq, Repr

namespace Span

/-- The greatest number of whole seconds in a span. -/
def maxSeconds : Int := 9223372036854775

/-- The greatest number of milliseconds in a span. -/
def maxMillis : Int := 9223372036854775807

/-- A number of seconds as a span. -/
def ofSeconds (seconds : Int) : Except OutOfCalendar Span :=
  if -maxSeconds ≤ seconds ∧ seconds ≤ maxSeconds then .ok ⟨seconds * 1000000000⟩
  else .error .outOfCalendar

/-- A number of milliseconds as a span. -/
def ofMillis (millis : Int) : Except OutOfCalendar Span :=
  if -maxMillis ≤ millis ∧ millis ≤ maxMillis then .ok ⟨millis * 1000000⟩
  else .error .outOfCalendar

/-- The whole seconds of a span, rounded towards zero. -/
def wholeSeconds (s : Span) : Int :=
  s.nanos.tdiv 1000000000

/-- The whole milliseconds of a span, rounded towards zero. -/
def wholeMillis (s : Span) : Int :=
  s.nanos.tdiv 1000000

instance : LE Span := ⟨fun a b => a.nanos ≤ b.nanos⟩
instance : LT Span := ⟨fun a b => a.nanos < b.nanos⟩
instance (a b : Span) : Decidable (a ≤ b) := inferInstanceAs (Decidable (a.nanos ≤ b.nanos))
instance (a b : Span) : Decidable (a < b) := inferInstanceAs (Decidable (a.nanos < b.nanos))

/-- The bits of an unsigned number of 64 bits read as a signed one. -/
def signedSeconds (n : UInt64) : Int :=
  if n.toNat < 9223372036854775808 then n.toNat else n.toNat - 18446744073709551616

end Span

/-- A point in time. -/
structure Instant where
  second : Int
  nano : Nat
  nano_lt : nano < 2000000000 := by omega
deriving DecidableEq

namespace Instant

/-- The place of an instant in the order of time. -/
def rank (t : Instant) : Int :=
  t.second * 2000000000 + t.nano

instance : LE Instant := ⟨fun a b => a.rank ≤ b.rank⟩
instance : LT Instant := ⟨fun a b => a.rank < b.rank⟩
instance (a b : Instant) : Decidable (a ≤ b) := inferInstanceAs (Decidable (a.rank ≤ b.rank))
instance (a b : Instant) : Decidable (a < b) := inferInstanceAs (Decidable (a.rank < b.rank))

/-- The nanoseconds since 1970-01-01T00:00:00Z, where each second counts for a thousand million. -/
def nanos (t : Instant) : Int :=
  t.second * 1000000000 + t.nano

/-- The instant so many nanoseconds after 1970-01-01T00:00:00Z. -/
def ofNanos (n : Int) : Instant :=
  ⟨n / 1000000000, (n % 1000000000).toNat, by omega⟩

/-- The instant so many milliseconds after 1970-01-01T00:00:00Z. -/
def ofMillis (n : Int) : Instant :=
  ofNanos (n * 1000000)

/-- The milliseconds since 1970-01-01T00:00:00Z, rounded down. -/
def millis (t : Instant) : Int :=
  t.second * 1000 + (t.nano / 1000000 : Nat)

/-- The first second of the calendar. -/
def firstSecond : Int :=
  (⟨-262143, 1, 1⟩ : Date).toDays * 86400

/-- The last second of the calendar. -/
def lastSecond : Int :=
  (⟨262142, 12, 31⟩ : Date).toDays * 86400 + 86399

/-- The second lies in the calendar. -/
def inCalendar (second : Int) : Bool :=
  firstSecond ≤ second && second ≤ lastSecond

/-- The instant, if it lies in the calendar. -/
def checked (t : Instant) : Except OutOfCalendar Instant :=
  if inCalendar t.second then .ok t else .error .outOfCalendar

/-- The instant a span later. -/
def add (t : Instant) (s : Span) : Except OutOfCalendar Instant :=
  (ofNanos (t.nanos + s.nanos)).checked

/-- The instant a span earlier. -/
def sub (t : Instant) (s : Span) : Except OutOfCalendar Instant :=
  (ofNanos (t.nanos - s.nanos)).checked

/-- The span from one instant to another. -/
def since (later earlier : Instant) : Span :=
  ⟨later.nanos - earlier.nanos⟩

end Instant

end ChassisCooling.Calendar
