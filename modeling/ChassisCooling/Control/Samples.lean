import ChassisCooling.Calendar.Instant

/-! # Temperature samples

The temperatures of one sensor over time, oldest first, and how fast they have been rising.
-/

namespace ChassisCooling.Control

open Calendar

/-- A temperature at a time. -/
structure Sample where
  value : Int32
  time : Instant
deriving DecidableEq

/-- The samples of one sensor, oldest first. -/
abbrev Samples := List Sample

namespace Samples

/-- Adds the newest sample. -/
def push (samples : Samples) (value : Int32) (now : Instant) : Samples :=
  samples ++ [⟨value, now⟩]

/-- Drops the samples from the front that are no younger than the retention. -/
def trim (samples : Samples) (now : Instant) (retention : Span) : Except OutOfCalendar Samples := do
  let cutoff ← now.sub retention
  pure (samples.dropWhile fun s => s.time ≤ cutoff)

/-- The length of time that a trend looks back over. -/
def trendWindow : Span :=
  ⟨60 * 1000000000⟩

/-- The least time between the first and the last sample of a trend, in milliseconds. -/
def minTrendMillis : Int :=
  6000

/-- Degrees per minute between two samples. The difference is one of 32 bits. -/
def slope (first last : Sample) : Float :=
  let minutes := Float.ofInt (last.time.since first.time).wholeMillis / 60000.0
  Float.ofInt (last.value - first.value).toInt / minutes

/-- The slope between the oldest and the newest sample of the last minute; zero when they lie too
close together or are one and the same. -/
def trend (samples : Samples) (now : Instant) : Except OutOfCalendar Float := do
  let cutoff ← now.sub trendWindow
  match samples.filter fun s => cutoff < s.time with
  | first :: second :: rest =>
    let last := (second :: rest).getLastD second
    if (last.time.since first.time).wholeMillis < minTrendMillis then pure 0.0
    else pure (slope first last)
  | _ => pure 0.0

end Samples

end ChassisCooling.Control
