import ChassisCooling.Client.Session
import ChassisCooling.CommandLine.Command
import ChassisCooling.CommandLine.Report
import ChassisCooling.Settings.Basic
import ChassisCooling.Version

/-! # Carrying out commands

A command connects to the daemon, sends its requests, and shows what came back.
-/

namespace ChassisCooling.CommandLine

open Calendar Client

variable {π : Type}

/-- Sends a request and shows its answer. -/
def showing {α : Type} (result : Except Fault α × Session π) (text : α → String) :
    Except Fault String × Session π :=
  (result.1.map text, result.2)

/-- The hint that was started. Without a hint in the answer only its source is known. -/
def startedText (source : String) : Option Hint → String
  | some h => line s!"Hint '{h.source}' active, fan floor {h.floor.toNat}%"
  | none => line s!"Hint '{source}' active"

/-- The speed that is held. Without an override in the answer it is the speed that was asked for. -/
def heldText (speed duration : Int64) (o : Option Override) : String :=
  let held := (o.map fun o => (o.speed.toNat : Int)).getD speed.toInt
  if 0 < duration.toInt then line s!"Fans held at {held}% for {duration.toInt}s"
  else line s!"Fans held at {held}% until cleared"

/-- A daemon that answers but does not tell its version still counts as answering. -/
def pingText (peer : Peer π) (s : Session π) : Except Fault String × Session π :=
  match s.ping peer with
  | (.error fault, s) => (.error fault, s)
  | (.ok reply, s) =>
    let (version, s) := s.version peer
    let version := version.toOption.getD "unknown"
    (.ok (line s!"{reply} (ofcd {version})"), s)

/-- The window of a history command. -/
def windowOf : Command → Except OutOfCalendar Span
  | .history duration _ => Span.ofSeconds (min (duration.toNat : Int) 9223372036854775807)
  | _ => .ok ⟨0⟩

/-- Sends the requests of a command and shows what came back. -/
def Command.perform (peer : Peer π) (s : Session π) (window : Span) :
    Command → Except Fault String × Session π
  | ping => pingText peer s
  | config => showing (s.config peer) fun config => line config.indentedString
  | status json => showing (s.status peer) fun status =>
    if json then line status.toJson.indentedString else statusReport status
  | history _ json => showing (s.history peer window) fun points =>
    if json then line (Json.array (points.map History.Point.toJson)).indentedString
    else historyReport points
  | hintStart source kind intensity duration =>
    showing (s.startHint peer source kind intensity duration) (startedText source)
  | hintStop source =>
    showing (s.removeHint peer source) fun _ => line s!"Hint '{source}' removed"
  | overrideSet speed duration reason =>
    showing (s.setOverride peer speed duration reason) (heldText speed duration)
  | overrideClear => showing (s.clearOverride peer) fun _ => line "Override cleared"

/-- The advice to one whose daemon cannot be reached. -/
def unreachableText (path : Files.Path) (cause : Cause) : String :=
  (unreachable path cause).message ++
    "\nIs ofcd running? (systemctl status only-fan-controller)"

/-- Carries out a command: what it shows, or the text of its failure. A window beyond the calendar
is found before anything is sent. -/
def Command.run (peer : Peer π) (path : Files.Path) (reached : Except Cause Unit) (daemon : π)
    (c : Command) : Except OutOfCalendar (Except String String × π) := do
  let window ← windowOf c
  match reached with
  | .error cause => pure (.error (unreachableText path cause), daemon)
  | .ok () =>
    let (result, s) := c.perform peer (.start daemon) window
    pure (result.mapError Fault.message, s.daemon)

/-- How the client ends when a command has been carried out. -/
def endingOf : Except String String → Ending
  | .ok shown => ⟨0, shown, ""⟩
  | .error text => ⟨1, "", line s!"Error: {text}"⟩

/-- The whole client, from its words to its end. `reach` says whether the socket at a path leads to
the daemon, and `socket` is the one named by the environment. -/
def client (peer : Peer π) (reach : Files.Path → Except Cause Unit) (socket : Option String)
    (words : List String) (daemon : π) : Except OutOfCalendar (Ending × π) :=
  match Invocation.ofWords words with
  | .error usage => .ok (usage.ending Invocation.grammar "ofc" version, daemon)
  | .ok invocation => do
    let path := invocation.socketPath socket Settings.defaultSocket
    let (result, daemon) ← invocation.command.run peer path (reach path) daemon
    pure (endingOf result, daemon)

end ChassisCooling.CommandLine
