import ChassisCooling.Client.Link
import ChassisCooling.Daemon.Startup
import ChassisCooling.Server.Connection

/-! # Serving and stopping

A daemon serves connections one after another until it is told to stop; then it gives the fans back
and removes its socket. Once an hour it removes what is too old from its history. Whenever serving a
request or a cleanup breaks off it gives the fans back at once.
-/

namespace ChassisCooling.Daemon

open Calendar Server Wire

variable {σ : Type}

/-- Gives the fans back once for each crash. -/
def afterCrashes (hardware : Hardware (Devices σ)) : Nat → Devices σ → Devices σ
  | 0, d => d
  | n + 1, d => afterCrashes hardware n (giveBack hardware d)

/-- Cleans up the history as the settings say: how many points were removed, or why none, and the
machine afterwards. -/
def prune (s : Settings) (m : Machine σ) :
    Except OutOfCalendar (Except Fault Nat × Machine σ) := do
  let retention ← s.monitoring.effectiveRetention
  let cleaned ← m.store.cleanup m.disk m.now retention
  pure (cleaned.removed, { m with store := cleaned.store, disk := cleaned.disk })

namespace Running

/-- Serves a connection from its first byte to its last: the responses, and whether it broke. A
connection for which there is no slot has no responses. -/
def connection (d : Running σ) (bytes : Incoming) : List ResponseEnvelope × Bool × Running σ :=
  match d.slots.take? with
  | none => ([], true, d)
  | some slots =>
    let served := serve d.service bytes
    let s := served.service
    let devices := afterCrashes d.hardware (s.crashes - d.service.crashes) s.machine.devices
    let service := { s with machine := { s.machine with devices } }
    (served.responses, served.broken, { d with service, slots := slots.release served.broken })

/-- A daemon at the other end of a client's link, where each line counts as a connection. -/
def peer : Client.Peer (Running σ) := fun line d =>
  let (responses, broken, d) := d.connection [line]
  (⟨written responses, broken⟩, d)

/-- Cleans up the history. Whatever comes of it, the daemon goes on. -/
def prune (d : Running σ) : Running σ :=
  let s := d.service
  let machine := match Daemon.prune s.settings s.machine with
    | .ok (_, machine) => machine
    | .error _ => { s.machine with devices := giveBack d.hardware s.machine.devices }
  { d with service := { s with machine }, untilPruning := pruningPeriod }

/-- One second goes by: the clock goes on, a cycle runs if it is due, and so does a cleanup. -/
def second (d : Running σ) : Running σ :=
  let s := d.service
  let now := Instant.ofNanos (s.machine.now.nanos + 1000000000)
  let (controller, machine) :=
    s.controller.second (Machine.host d.hardware) s.settings { s.machine with now }
  let untilPruning := d.untilPruning - 1
  let d := { d with service := { s with controller, machine }, untilPruning }
  if untilPruning = 0 then d.prune else d

/-- Time goes on to some instant, second by second. -/
def passTo (d : Running σ) (now : Instant) : Running σ :=
  let seconds := (now.since d.service.machine.now).wholeSeconds.toNat
  let s := (Nat.repeat second seconds d).service
  { d with service := { s with machine := { s.machine with now } } }

/-- Stops a daemon. -/
def stop (d : Running σ) : Running σ :=
  let s := d.service
  let (_, controller, m) := s.controller.stop (Machine.host d.hardware) s.machine
  let disk := unlisten m.disk s.settings.socket
  { d with service := { s with controller, machine := { m with disk } } }

end Running

end ChassisCooling.Daemon
