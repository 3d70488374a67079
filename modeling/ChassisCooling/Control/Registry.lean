import ChassisCooling.Fault
import ChassisCooling.Status
import ChassisCooling.Text.Utf8

/-! # The registry of hints and the override

Each source has at most one hint, and there is at most one override. An entry whose time lies
behind is as good as absent for every question, whether or not it has been evicted.
-/

namespace ChassisCooling.Control

open Calendar

/-- A hint as a source asks for it. -/
structure HintRequest where
  kind : String
  action : String
  intensity : String
  source : String
  /-- A hint of no positive duration stays until it is withdrawn. -/
  duration : Span

/-- The hints, in ascending order of their sources, and the override. -/
structure Registry where
  hints : List Hint
  override : Option Override

/-- When something that begins now ends by itself. -/
def expiry (now : Instant) (duration : Span) : Except OutOfCalendar (Option Instant) :=
  if duration.nanos ≤ 0 then .ok none else (now.add duration).map some

/-- Sources are ordered by the bytes of their names. -/
def sourceBefore (a b : String) : Bool :=
  decide (Text.Utf8.encodeString a < Text.Utf8.encodeString b)

/-- Adds a hint to hints in ascending order of their sources, in place of the one of its source. -/
def insertHint (hint : Hint) : List Hint → List Hint
  | [] => [hint]
  | other :: rest =>
    if other.source = hint.source then hint :: rest
    else if sourceBefore hint.source other.source then hint :: other :: rest
    else other :: insertHint hint rest

namespace Registry

def empty : Registry :=
  ⟨[], none⟩

/-- The hint that a request made now asks for. -/
def hintOf (request : HintRequest) (now : Instant) : Except OutOfCalendar Hint := do
  pure {
    kind := request.kind
    action := request.action
    intensity := request.intensity
    source := request.source
    floor := (Intensity.ofLabel request.intensity).floor
    expires := ← expiry now request.duration
    created := now }

/-- Adds the hint of a source, in place of the one that the source has. -/
def addHint (r : Registry) (request : HintRequest) (now : Instant) :
    Except OutOfCalendar (Hint × Registry) := do
  let hint ← hintOf request now
  pure (hint, { r with hints := insertHint hint r.hints })

/-- The source has a hint, live or not. -/
def hasHint (r : Registry) (source : String) : Bool :=
  r.hints.any fun h => h.source == source

/-- Withdraws the hint of a source. -/
def removeHint (r : Registry) (source : String) : Registry :=
  { r with hints := r.hints.filter fun h => h.source != source }

/-- Sets the override, in place of the one that is set. A speed that is no percentage is refused
and changes nothing. -/
def setOverride (r : Registry) (speed : Int) (duration : Span) (reason : String) (now : Instant) :
    Except OutOfCalendar (Except Fault Override × Registry) := do
  if 0 ≤ speed ∧ speed ≤ 100 then
    let override : Override := {
      speed := UInt8.ofNat speed.toNat
      reason
      expires := ← expiry now duration
      created := now }
    pure (.ok override, { r with override := some override })
  else pure (.error (.invalidSpeed speed), r)

/-- Clears the override. -/
def clearOverride (r : Registry) : Registry :=
  { r with override := none }

/-- The hints that are not past. -/
def liveHints (r : Registry) (now : Instant) : List Hint :=
  r.hints.filter fun h => !h.isExpired now

/-- The override, unless it is past. -/
def activeOverride (r : Registry) (now : Instant) : Option Override :=
  r.override.filter fun o => !o.isExpired now

/-- Removes what is past. -/
def evict (r : Registry) (now : Instant) : Registry :=
  ⟨r.liveHints now, r.activeOverride now⟩

/-- The number of hints, and whether an override, that an eviction would remove. -/
def evicted (r : Registry) (now : Instant) : Nat × Bool :=
  (r.hints.length - (r.liveHints now).length, r.override.any fun o => o.isExpired now)

/-- The highest floor among the hints that are not past. -/
def hintFloor (r : Registry) (now : Instant) : Option UInt8 :=
  ((r.liveHints now).map Hint.floor).max?

/-- What decides the speed. -/
def mode (r : Registry) (now : Instant) : Mode :=
  if (r.activeOverride now).isSome then .override
  else if (r.liveHints now).isEmpty then .auto
  else .hinted

end Registry

end ChassisCooling.Control
