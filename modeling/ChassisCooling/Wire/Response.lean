import ChassisCooling.History.Point
import ChassisCooling.Status

/-! # Responses -/

namespace ChassisCooling.Wire

/-- What a successful response carries. -/
structure Payload where
  value : Option String := none
  status : Option Status := none
  history : Option (List History.Point) := none
  hint : Option Hint := none
  override : Option Override := none
  config : Option Json := none

namespace Payload

def empty : Payload := {}

def ofText (text : String) : Payload := { value := some text }

def ofStatus (status : Status) : Payload := { status := some status }

def ofHistory (points : List History.Point) : Payload := { history := some points }

def ofHint (hint : Hint) : Payload := { hint := some hint }

def ofOverride (o : Override) : Payload := { override := some o }

def ofConfig (config : Json) : Payload := { config := some config }

def members (p : Payload) : List (String × Json) :=
  Json.optional "value" (p.value.map .str) ++
  Json.optional "controller" (p.status.map Status.toJson) ++
  Json.optional "history" (p.history.map fun points => .array (points.map History.Point.toJson)) ++
  Json.optional "hint" (p.hint.map Hint.toJson) ++
  Json.optional "override" (p.override.map Override.toJson) ++
  Json.optional "config" p.config

def fieldNames : List String :=
  ["value", "controller", "history", "hint", "override", "config"]

/-- Free data, as it is kept. -/
def asFree? (j : Json) : Option Json :=
  some j.canonical

def ofMembers? (members : List (String × Json)) : Option Payload := do
  match ← Json.namedFields? fieldNames members with
  | [value, status, history, hint, override, config] =>
    pure {
      value := ← Json.optional? Json.asString? value
      status := ← Json.optional? (Status.ofJson? true) status
      history := ← Json.optional? (Json.asList? History.Point.ofJson?) history
      hint := ← Json.optional? Hint.ofJson? hint
      override := ← Json.optional? Override.ofJson? override
      config := ← Json.optional? asFree? config }
  | _ => none

end Payload

/-- The daemon's answer to a request. -/
inductive Response where
  | ok (payload : Payload)
  | error (message : String)

end ChassisCooling.Wire
