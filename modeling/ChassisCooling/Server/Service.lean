import ChassisCooling.Control.Controller
import ChassisCooling.History.Store
import ChassisCooling.Settings.Document
import ChassisCooling.Version
import ChassisCooling.Wire.Envelope

/-! # The service behind the socket

A controller, its settings, and the history that it writes. A request is read from a line, checked,
and answered; every line has exactly one answer.
-/

namespace ChassisCooling.Server

open Calendar Control Wire

/-- Sensors and fans, with a state of their own. -/
structure Hardware (τ : Type) where
  readCpu : Nat → τ → Outcome CpuReading × τ
  readGpu : Nat → τ → Outcome GpuReading × τ
  enableManual : τ → Outcome Unit × τ
  restoreAuto : τ → Outcome Unit × τ
  setSpeed : UInt8 → τ → Outcome Unit × τ
  /-- The fans are real. -/
  live : Bool

/-- The machine that a service runs on. The history goes by the system's clock. -/
structure Machine (τ : Type) where
  now : Instant
  /-- The clock that the controller goes by. -/
  clock : Clock
  disk : Files.Disk
  store : History.Store
  devices : τ
  /-- What the runtime says of a task that breaks off, by the number of requests that have broken off
  before it. -/
  abortNote : Nat → String

namespace Machine

variable {τ : Type}

/-- What the controller's clock shows. -/
def time (m : Machine τ) : Except OutOfCalendar Instant :=
  m.clock.read m.now

/-- Adds a cycle to the history. -/
def record (m : Machine τ) (cpu gpu : Int32) (speed : UInt8) : Outcome Unit × Machine τ :=
  match m.store.recordReading m.disk m.now cpu gpu speed with
  | .ok disk => (.ok (), { m with disk })
  | .error _ => (.crashed, m)

/-- Uses the devices. -/
def use {α : Type} (m : Machine τ) (f : τ → α × τ) : α × Machine τ :=
  let (result, devices) := f m.devices
  (result, { m with devices })

/-- The machine as the surroundings of a controller. -/
def host (hw : Hardware τ) : Host (Machine τ) where
  now := Machine.time
  readCpu := fun hints m => m.use (hw.readCpu hints)
  readGpu := fun hints m => m.use (hw.readGpu hints)
  perform := fun command m =>
    match command with
    | .enableManual => m.use hw.enableManual
    | .restoreAuto => m.use hw.restoreAuto
    | .setSpeed percent => m.use (hw.setSpeed percent)
    | .record cpu gpu speed => m.record cpu gpu speed
  live := hw.live
  keepsHistory := true

end Machine

/-- A controller with its settings, on a machine. -/
structure Service (τ : Type) where
  settings : Settings
  controller : Controller
  machine : Machine τ
  /-- How many requests broke off since a time lay beyond the calendar. -/
  crashes : Nat

namespace Service

variable {τ : Type}

/-- A service whose controller has not been started. -/
def new (settings : Settings) (machine : Machine τ) : Service τ :=
  ⟨settings, .new settings, machine, 0⟩

/-- A request broke off. -/
def crash (s : Service τ) : Service τ :=
  { s with crashes := s.crashes + 1 }

/-- The seconds that a window of the history may be asked for at most. -/
def windowSeconds (duration : UInt64) : Int :=
  min (duration.toNat : Int) 9223372036854775807

/-- The answer to a history request. A query whose window reaches beyond the calendar breaks off,
which is an error that tells what the runtime says of it; a window that is longer than any span has
no answer. -/
def history (s : Service τ) (duration : UInt64) :
    Except OutOfCalendar (Response × Service τ) := do
  let window ← Span.ofSeconds (windowSeconds duration)
  match s.machine.store.history s.machine.disk s.machine.now window with
  | .error _ =>
    pure (.error s!"History query aborted: {s.machine.abortNote s.crashes}", s.crash)
  | .ok (.error fault) => pure (.error s!"History query failed: {fault.message}", s)
  | .ok (.ok points) => pure (.ok (.ofHistory points), s)

/-- Withdraws the hint of a source. -/
def removeHint (s : Service τ) (source : String) : Response × Service τ :=
  (.ok .empty, { s with controller := s.controller.removeHint source })

/-- The answer to a request that has been checked. -/
def perform (s : Service τ) (request : Request) : Except OutOfCalendar (Response × Service τ) := do
  match request with
  | .ping => pure (.ok (.ofText "pong"), s)
  | .version => pure (.ok (.ofText version), s)
  | .getStatus =>
    pure (.ok (.ofStatus (← s.controller.state.status s.settings (← s.machine.time))), s)
  | .getHistory duration => s.history duration
  | .addHint kind action intensity duration source =>
    if Text.equalIgnoringAsciiCase action "stop" then pure (s.removeHint source)
    else
      let duration ← Span.ofSeconds duration.toInt
      let (hint, controller) ←
        s.controller.addHint { kind, action, intensity, source, duration } (← s.machine.time)
      pure (.ok (.ofHint hint), { s with controller })
  | .removeHint source => pure (s.removeHint source)
  | .setOverride speed duration reason =>
    let duration ← Span.ofSeconds duration.toInt
    match ← s.controller.setOverride speed.toInt duration reason (← s.machine.time) with
    | (.ok override, controller) => pure (.ok (.ofOverride override), { s with controller })
    | (.error fault, controller) => pure (.error fault.message, { s with controller })
  | .clearOverride => pure (.ok .empty, { s with controller := s.controller.clearOverride })
  | .getConfig => pure (.ok (.ofConfig s.settings.shown), s)

/-- The answer to a line. What is no request is answered under the number 0. -/
def answer (s : Service τ) (line : List Char) :
    Except OutOfCalendar (ResponseEnvelope × Service τ) :=
  match RequestEnvelope.read? (Text.trim line) with
  | none => .ok (⟨0, .error "Invalid request format"⟩, s)
  | some ⟨id, request⟩ =>
    match request.check with
    | .error refusal => .ok (⟨id, .error refusal.message⟩, s)
    | .ok () => do
      let (response, s) ← s.perform request
      pure (⟨id, response⟩, s)

/-- Runs a cycle of the controller. -/
def cycle (hw : Hardware τ) (s : Service τ) : Option Report × Service τ :=
  let (report, controller, machine) :=
    s.controller.runCycle (Machine.host hw) s.settings s.machine
  (report, { s with controller, machine })

end Service

end ChassisCooling.Server
