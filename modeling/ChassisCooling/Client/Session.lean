import ChassisCooling.Calendar.Instant
import ChassisCooling.Client.Link
import ChassisCooling.Wire.Envelope

/-! # Sessions with a daemon

Requests are sent one at a time, each with a number of its own. The response has to bear the number
of the request; the number 0 is that of an answer to a line that the daemon did not understand.
-/

namespace ChassisCooling.Client

open Calendar Wire

/-- A client: the number of its next request, its connection, and the daemon at the other end. The
requests of a program are counted together; no other client of it counts on meanwhile. -/
structure Session (π : Type) where
  nextId : UInt64
  link : Link
  daemon : π

namespace Session

variable {π : Type}

/-- The first request has the number 1. -/
def start (daemon : π) : Session π :=
  ⟨1, .fresh, daemon⟩

/-- Puts a new connection in place of the old one. -/
def reconnect (s : Session π) : Session π :=
  { s with link := .fresh }

/-- The line of a request, with its end. -/
def lineOf (e : RequestEnvelope) : List UInt8 :=
  Text.Utf8.encode (e.toJson.compact ++ ['\n'])

/-- What a response line means to the one who waits for the answer to a request. -/
def understand (id : UInt64) (line : List UInt8) : Except Fault Payload :=
  match (Text.Utf8.decode? line).bind ResponseEnvelope.read? with
  | none => .error .document
  | some e =>
    if e.id ≠ id ∧ e.id ≠ 0 then
      .error (.response s!"Response id {e.id.toNat} does not match request id {id.toNat}")
    else match e.response with
      | .ok payload => .ok payload
      | .error message => .error (.response message)

/-- Sends a request and waits for its answer. A request that is refused is not sent. -/
def request (peer : Peer π) (s : Session π) (r : Request) : Except Fault Payload × Session π :=
  match r.check with
  | .error refusal => (.error (.invalidRequest refusal.message), s)
  | .ok () =>
    let id := s.nextId
    let s := { s with nextId := id + 1 }
    match s.link.send peer (lineOf ⟨id, r⟩) s.daemon with
    | (.error fault, daemon) => (.error fault, { s with daemon })
    | (.ok link, daemon) =>
      match link.receive with
      | (.error fault, link) => (.error fault, { s with link, daemon })
      | (.ok line, link) => (understand id line, { s with link, daemon })

/-- Sends a request and takes something out of its answer. -/
def ask {α : Type} (peer : Peer π) (s : Session π) (r : Request)
    (take : Payload → Except Fault α) : Except Fault α × Session π :=
  let (result, s) := s.request peer r
  (result.bind take, s)

def ping (peer : Peer π) (s : Session π) : Except Fault String × Session π :=
  s.ask peer .ping fun p => .ok (p.value.getD "")

def version (peer : Peer π) (s : Session π) : Except Fault String × Session π :=
  s.ask peer .version fun p => .ok (p.value.getD "")

def status (peer : Peer π) (s : Session π) : Except Fault Status × Session π :=
  s.ask peer .getStatus fun p =>
    match p.status with
    | some status => .ok status
    | none => .error (.response "Missing status in response")

/-- The history of a window in whole seconds, at least one. -/
def history (peer : Peer π) (s : Session π) (window : Span) :
    Except Fault (List History.Point) × Session π :=
  let seconds := UInt64.ofNat (max window.wholeSeconds 1).toNat
  s.ask peer (.getHistory seconds) fun p => .ok (p.history.getD [])

/-- Starts the hint of a source, or replaces it. -/
def startHint (peer : Peer π) (s : Session π) (source kind intensity : String)
    (duration : Int64) : Except Fault (Option Hint) × Session π :=
  s.ask peer (.addHint kind "start" intensity duration source) fun p => .ok p.hint

def removeHint (peer : Peer π) (s : Session π) (source : String) :
    Except Fault Unit × Session π :=
  s.ask peer (.removeHint source) fun _ => .ok ()

def setOverride (peer : Peer π) (s : Session π) (speed duration : Int64) (reason : String) :
    Except Fault (Option Override) × Session π :=
  s.ask peer (.setOverride speed duration reason) fun p => .ok p.override

def clearOverride (peer : Peer π) (s : Session π) : Except Fault Unit × Session π :=
  s.ask peer .clearOverride fun _ => .ok ()

def config (peer : Peer π) (s : Session π) : Except Fault Json × Session π :=
  s.ask peer .getConfig fun p => .ok (p.config.getD .null)

/-- Whether a daemon answers on a new connection, given whether one could be made. -/
def isAvailable (peer : Peer π) (s : Session π) (reached : Except Cause Unit) :
    Bool × Session π :=
  match reached with
  | .error _ => (false, s)
  | .ok () =>
    let (result, s) := s.reconnect.ping peer
    (result.toOption.isSome, s)

end Session

end ChassisCooling.Client
