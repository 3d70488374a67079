import ChassisCooling.Calendar.Rfc3339
import ChassisCooling.Json.Record

/-! # Hints and overrides

Two ways to steer the fans from outside: a hint announces a workload and puts a floor under the
speed, an override fixes the speed. Either may end by itself at a given time.
-/

namespace ChassisCooling

open Calendar

/-- The time of something that may end lies behind: it counts up to and including its last
instant. -/
def isPast (expires : Option Instant) (now : Instant) : Bool :=
  match expires with
  | none => false
  | some t => t < now

/-- How heavy an announced workload is. -/
inductive Intensity where
  | low
  | medium
  | high
  | other
deriving DecidableEq, Repr

namespace Intensity

/-- Labels are matched exactly; every other label is `other`. -/
def ofLabel (label : String) : Intensity :=
  if label = "low" then low
  else if label = "medium" then medium
  else if label = "high" then high
  else other

/-- The speed below which the fans do not fall, in percent. -/
def floor : Intensity → UInt8
  | high => 45
  | low => 15
  | medium | other => 25

end Intensity

/-- A workload announced by some source. -/
structure Hint where
  kind : String
  action : String
  intensity : String
  source : String
  floor : UInt8
  /-- Absent when the hint stays until it is withdrawn. -/
  expires : Option Instant
  created : Instant
deriving DecidableEq

/-- A fixed speed in place of automatic control. -/
structure Override where
  speed : UInt8
  reason : String
  /-- Absent when the override stays until it is cleared. -/
  expires : Option Instant
  created : Instant
deriving DecidableEq

/-- A time. -/
def Json.time (t : Instant) : Json :=
  .str (Rfc3339.text t)

/-- A time. -/
def Json.asTime? (j : Json) : Option Instant :=
  j.asString?.bind Rfc3339.read?

namespace Hint

def isExpired (h : Hint) (now : Instant) : Bool :=
  isPast h.expires now

def toJson (h : Hint) : Json :=
  .obj <|
    [("type", .str h.kind), ("action", .str h.action), ("intensity", .str h.intensity),
      ("source", .str h.source), ("min_fan_speed", .uint8 h.floor)] ++
    Json.optional "expires_at" (h.expires.map .time) ++
    [("created_at", .time h.created)]

def fieldNames : List String :=
  ["type", "action", "intensity", "source", "min_fan_speed", "expires_at", "created_at"]

def ofJson? (j : Json) : Option Hint := do
  match ← j.fields? fieldNames with
  | [kind, action, intensity, source, floor, expires, created] =>
    pure {
      kind := ← Json.required? Json.asString? kind
      action := ← Json.required? Json.asString? action
      intensity := ← Json.required? Json.asString? intensity
      source := ← Json.required? Json.asString? source
      floor := ← Json.required? Json.asUInt8? floor
      expires := ← Json.optional? Json.asTime? expires
      created := ← Json.required? Json.asTime? created }
  | _ => none

end Hint

namespace Override

def isExpired (o : Override) (now : Instant) : Bool :=
  isPast o.expires now

def toJson (o : Override) : Json :=
  .obj <|
    [("speed", .uint8 o.speed), ("reason", .str o.reason)] ++
    Json.optional "expires_at" (o.expires.map .time) ++
    [("created_at", .time o.created)]

def ofJson? (j : Json) : Option Override := do
  match ← j.fields? ["speed", "reason", "expires_at", "created_at"] with
  | [speed, reason, expires, created] =>
    pure {
      speed := ← Json.required? Json.asUInt8? speed
      reason := ← Json.required? Json.asString? reason
      expires := ← Json.optional? Json.asTime? expires
      created := ← Json.required? Json.asTime? created }
  | _ => none

end Override

end ChassisCooling
