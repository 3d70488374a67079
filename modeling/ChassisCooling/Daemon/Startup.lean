import ChassisCooling.CommandLine.Report
import ChassisCooling.Daemon.Devices
import ChassisCooling.Daemon.Options
import ChassisCooling.Server.Listener
import ChassisCooling.Server.Slots
import ChassisCooling.Settings.Environment
import ChassisCooling.Settings.File

/-! # Starting the daemon

The daemon chooses its settings, opens the history, takes the fans over, and only then listens. When
it cannot listen it gives the fans back before it ends.
-/

namespace ChassisCooling.Daemon

open Calendar CommandLine Control Files Server

/-! ## Settings -/

/-- Settings that are wrong give way to the default ones, but not the socket. -/
def soundSettings (s : Settings) : Settings :=
  match s.check with
  | .ok () => s
  | .error _ => { Settings.default with socket := s.socket }

/-- The settings of a daemon: those of the file, or the default ones when it cannot be read; then
what the environment says; then the socket of the command line. -/
def chooseSettings (d : Disk) (e : Environment) (o : Options) : Settings :=
  let s := ((Settings.load d o.settingsPath).toOption.getD .default).overrideBy e
  soundSettings { s with socket := o.socket.getD s.socket }

/-! ## Failures -/

/-- Why a daemon did not come up. -/
inductive StartFault where
  | usage (usage : Usage)
  | history (path : Path) (fault : Fault)
  | listening (fault : ListenFault)
  /-- A time lay beyond the calendar. -/
  | crashed

/-- A text of several lines with a mark in front; all lines begin at the same column. -/
def hanging (mark text : String) : String :=
  let margin := String.ofList ('\n' :: List.replicate mark.length ' ')
  mark ++ String.intercalate margin ((Text.split '\n' text.toList).map String.ofList)

/-- What was tried, and the reasons why it failed, outermost first. -/
def failureText (tried : String) (reasons : List String) : String :=
  let listed := match reasons with
    | [] => []
    | [reason] => [hanging "    " reason]
    | _ => reasons.mapIdx fun i reason => hanging s!"    {i}: " reason
  let causes := if listed.isEmpty then [] else ["", "Caused by:"] ++ listed
  String.join ((s!"Error: {tried}" :: causes).map line)

namespace StartFault

/-- How the daemon ends. -/
def ending : StartFault → Ending
  | usage u => u.ending Options.grammar "ofcd" version
  | history path fault =>
    let reasons := fault.message :: fault.cause?.toList.map Cause.message
    ⟨1, "", failureText s!"opening history store at {path}" reasons⟩
  | listening fault => match fault.chain with
    | [] => ⟨1, "", ""⟩
    | tried :: reasons => ⟨1, "", failureText tried reasons⟩
  | crashed => ⟨101, "", ""⟩

end StartFault

/-! ## Startup -/

/-- The seconds from one cleanup of the history to the next. -/
def pruningPeriod : Nat := 3600

/-- A daemon that serves. -/
structure Running (σ : Type) where
  hardware : Hardware (Devices σ)
  service : Service (Devices σ)
  slots : Slots
  /-- The seconds to the next cleanup of the history. -/
  untilPruning : Nat := pruningPeriod

/-- The world that a daemon starts in. -/
structure Surroundings (σ : Type) where
  environment : Environment
  disk : Disk
  now : Instant
  tools : σ
  /-- What the runtime says of tasks that break off. -/
  abortNote : Nat → String

/-- What came of a start: a daemon that serves, or a fault and the world that it left. -/
inductive Started (σ : Type) where
  | serving (daemon : Running σ)
  | ended (fault : StartFault) (tools : σ)

variable {σ : Type}

/-- Gives real fans back; simulated ones are not asked. -/
def giveBack (hardware : Hardware (Devices σ)) (d : Devices σ) : Devices σ :=
  if hardware.live then (hardware.restoreAuto d).2 else d

/-- Listens for requests to a service whose controller runs. -/
def listenOn (hardware : Hardware (Devices σ)) (s : Service (Devices σ)) : Started σ :=
  let m := s.machine
  match Server.listen m.disk s.settings.socket with
  | (.ok (), disk) =>
    .serving { hardware, service := { s with machine := { m with disk } }, slots := ⟨0⟩ }
  | (.error fault, disk) =>
    let m := { m with disk }
    let (_, _, m) := s.controller.stop (Machine.host hardware) m
    .ended (.listening fault) m.devices.tools

/-- Starts the controller of a service and then listens. A crash gives the fans back, but a daemon
whose loop alone has crashed serves. -/
def launch (hardware : Hardware (Devices σ)) (s : Service (Devices σ)) : Started σ :=
  match s.settings.monitoring.effectiveRetention with
  | .error _ => .ended .crashed (giveBack hardware s.machine.devices).tools
  | .ok _ =>
    match s.controller.start (Machine.host hardware) s.settings s.machine with
    | (.aborted, _, m) | (.refused _, _, m) =>
      .ended .crashed (giveBack hardware m.devices).tools
    | (.loopCrashed, controller, m) =>
      let machine := { m with devices := giveBack hardware m.devices }
      listenOn hardware { s with controller, machine }
    | (.started, controller, machine) => listenOn hardware { s with controller, machine }

/-- Starts a daemon with the words after its name. -/
def start (run : Sensors.Runner σ) (w : Surroundings σ) (words : List String) : Started σ :=
  match Options.ofWords words with
  | .error usage => .ended (.usage usage) w.tools
  | .ok options =>
    let settings := chooseSettings w.disk w.environment options
    match History.Store.open? w.disk settings.historyPath with
    | .error fault => .ended (.history settings.historyPath fault) w.tools
    | .ok (store, disk) =>
      let hardware := if options.demo then Devices.pretended else Devices.real run settings
      launch hardware (.new settings ⟨w.now, .system, disk, store, ⟨w.tools, .start⟩, w.abortNote⟩)

end ChassisCooling.Daemon
