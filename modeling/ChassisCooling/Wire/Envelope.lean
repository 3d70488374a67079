import ChassisCooling.Json.Reader
import ChassisCooling.Json.Writer
import ChassisCooling.Wire.Request
import ChassisCooling.Wire.Response

/-! # Envelopes

Requests and responses travel one on a line, each as a JSON object with a number that ties a
response to its request. A request names its command under `cmd` and holds its arguments under
`data`; a response says under `status` how the request went and holds its payload beside it.

The object is kept as a whole before it is understood, so every part of it has to be whole even
where nothing reads it.
-/

namespace ChassisCooling.Wire

/-- A request and its number. -/
structure RequestEnvelope where
  id : UInt64
  request : Request
deriving DecidableEq, Repr

/-- A response and the number of its request. -/
structure ResponseEnvelope where
  id : UInt64
  response : Response

/-- How many levels of arrays and objects a document may have. -/
def maxDepth : Nat := 127

/-- The number of an envelope and its other members, all of them whole. -/
def envelopeMembers? : Json → Option (UInt64 × List (String × Json))
  | .object members => do
    let members ← Json.namedMembers? members
    let id ← Json.required? Json.asUInt64? (← Json.field? members "id")
    let others := members.filter fun member => member.1 != "id"
    if others.all fun member => member.2.isWhole (maxDepth - 1) then pure (id, others) else none
  | _ => none

/-! ## Requests -/

namespace Request

/-- The arguments of a request, if its command has any. -/
def data? : Request → Option Json
  | getHistory duration => some (.obj [("duration", .uint64 duration)])
  | addHint kind action intensity duration source =>
    some (.obj [("type", .str kind), ("action", .str action), ("intensity", .str intensity),
      ("duration_estimate", .int64 duration), ("source", .str source)])
  | removeHint source => some (.obj [("source", .str source)])
  | setOverride speed duration reason =>
    some (.obj [("speed", .int64 speed), ("duration", .int64 duration), ("reason", .str reason)])
  | _ => none

/-- The window of a history request that does not say one, in seconds. -/
def defaultWindow : UInt64 := 3600

/-- A command without arguments: `data` is absent or null. -/
def bare? (request : Request) : Option Json → Option Request
  | none | some .null => some request
  | some _ => none

/-- The members that hold the arguments of a command. -/
def arguments? (names : List String) : Option Json → Option (List (Option Json))
  | some (.object members) => (Json.namedMembers? members).bind (Json.namedFields? names)
  | _ => none

def getHistory? (data : Option Json) : Option Request := do
  match ← arguments? ["duration"] data with
  | [duration] => pure (.getHistory (← Json.defaulted? Json.asUInt64? defaultWindow duration))
  | _ => none

def addHint? (data : Option Json) : Option Request := do
  match ← arguments? ["type", "action", "intensity", "duration_estimate", "source"] data with
  | [kind, action, intensity, duration, source] =>
    pure (.addHint
      (← Json.required? Json.asString? kind)
      (← Json.required? Json.asString? action)
      (← Json.defaulted? Json.asString? "" intensity)
      (← Json.defaulted? Json.asInt64? 0 duration)
      (← Json.required? Json.asString? source))
  | _ => none

def removeHint? (data : Option Json) : Option Request := do
  match ← arguments? ["source"] data with
  | [source] => pure (.removeHint (← Json.required? Json.asString? source))
  | _ => none

def setOverride? (data : Option Json) : Option Request := do
  match ← arguments? ["speed", "duration", "reason"] data with
  | [speed, duration, reason] =>
    pure (.setOverride
      (← Json.required? Json.asInt64? speed)
      (← Json.defaulted? Json.asInt64? 0 duration)
      (← Json.defaulted? Json.asString? "" reason))
  | _ => none

/-- The request with a given command and given arguments. -/
def ofCommand? (command : String) (data : Option Json) : Option Request :=
  match command with
  | "Ping" => bare? .ping data
  | "Version" => bare? .version data
  | "GetStatus" => bare? .getStatus data
  | "GetHistory" => getHistory? data
  | "AddHint" => addHint? data
  | "RemoveHint" => removeHint? data
  | "SetOverride" => setOverride? data
  | "ClearOverride" => bare? .clearOverride data
  | "GetConfig" => bare? .getConfig data
  | _ => none

end Request

namespace RequestEnvelope

def toJson (e : RequestEnvelope) : Json :=
  .obj <|
    [("id", .uint64 e.id), ("cmd", .str e.request.name)] ++ Json.optional "data" e.request.data?

def ofJson? (j : Json) : Option RequestEnvelope := do
  let (id, members) ← envelopeMembers? j
  let command ← Json.required? (Json.asWord? true) (← Json.field? members "cmd")
  let request ← Request.ofCommand? command (← Json.field? members "data")
  pure ⟨id, request⟩

/-- The line of a request, without its end. -/
def line (e : RequestEnvelope) : String :=
  e.toJson.compactString

/-- The request on a line. -/
def read? (line : List Char) : Option RequestEnvelope :=
  (Json.read? line).bind ofJson?

end RequestEnvelope

/-! ## Responses -/

namespace Response

/-- How a request went: a word, or the place of the word among the two. -/
def isOk? : Json → Option Bool
  | .string (some "ok") => some true
  | .string (some "error") => some false
  | .number n => match n.toInt? with
    | some 0 => some true
    | some 1 => some false
    | _ => none
  | _ => none

def members : Response → List (String × Json)
  | ok payload => ("status", .str "ok") :: payload.members
  | error message => [("status", .str "error"), ("message", .str message)]

def ofMembers? (members : List (String × Json)) : Option Response := do
  if ← Json.required? isOk? (← Json.field? members "status") then
    (Payload.ofMembers? members).map .ok
  else
    (Json.required? Json.asString? (← Json.field? members "message")).map .error

end Response

namespace ResponseEnvelope

def toJson (e : ResponseEnvelope) : Json :=
  .obj (("id", .uint64 e.id) :: e.response.members)

def ofJson? (j : Json) : Option ResponseEnvelope := do
  let (id, members) ← envelopeMembers? j
  pure ⟨id, ← Response.ofMembers? members⟩

/-- The line of a response, without its end. -/
def line (e : ResponseEnvelope) : String :=
  e.toJson.compactString

/-- The response on a line. -/
def read? (line : List Char) : Option ResponseEnvelope :=
  (Json.read? line).bind ofJson?

end ResponseEnvelope

end ChassisCooling.Wire
