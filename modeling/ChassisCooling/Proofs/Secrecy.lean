import ChassisCooling.Daemon.Devices
import ChassisCooling.Proofs.Framing
import ChassisCooling.Proofs.Indifference

/-! # The password stays inside

Two services have the same settings but for the password of the management controller, and their
devices answer alike; the password itself goes to the devices, which may keep it. A cycle looks at
the monitoring and at the fan control alone, and a client is shown the settings with the password
masked. So whatever happens to the two services, what they send is the same byte for byte.
-/

namespace ChassisCooling

open Calendar

/-! ## Settings with another password -/

namespace Settings

/-- The settings with another password. -/
def withPassword (s : Settings) (password : String) : Settings :=
  { s with bmc := { s.bmc with password } }

theorem redacted_withPassword (s : Settings) {password : String} (some : password ≠ "") :
    (s.withPassword password).redacted = s.withPassword "********" := by
  have shown : ¬ password.isEmpty = true := mt String.isEmpty_iff.mp some
  exact if_neg shown

theorem redacted_withoutPassword (s : Settings) :
    (s.withPassword "").redacted = s.withPassword "" :=
  rfl

/-- The access to the management controller is found in what is shown. -/
theorem fields_shown (s : Settings) :
    s.shown.fields? ["idrac"] = some [some s.redacted.bmc.toJson.canonical] := by
  simp only [shown, toJson, Json.obj, List.map_cons, List.map_nil, Json.canonical,
    Json.canonicalMembers, Json.insertMember, String.reduceLT, String.reduceEq, ↓reduceIte]
  rfl

theorem fields_bmc (b : Bmc) :
    b.toJson.canonical.fields? ["password"] = some [some (.str b.password)] := by
  simp only [Bmc.toJson, Json.obj, List.map_cons, List.map_nil, Json.canonical,
    Json.canonicalMembers, Json.insertMember, String.reduceLT, String.reduceEq, ↓reduceIte]
  rfl

/-- What is shown in place of the password can be read off. -/
theorem password_of_shown_eq {s₁ s₂ : Settings} (same : s₁.shown = s₂.shown) :
    s₁.redacted.bmc.password = s₂.redacted.bmc.password := by
  have bmc := congrArg (Json.fields? ["idrac"]) same
  simp only [fields_shown, Option.some.injEq, List.cons.injEq, and_true] at bmc
  have password := congrArg (Json.fields? ["password"]) bmc
  simpa only [fields_bmc, Option.some.injEq, List.cons.injEq, and_true, Json.str,
    Json.string.injEq] using password

/-- Of a password is shown whether there is one, and nothing else. -/
theorem shown_withPassword_iff (s : Settings) (p₁ p₂ : String) :
    (s.withPassword p₁).shown = (s.withPassword p₂).shown ↔ (p₁ = "" ↔ p₂ = "") := by
  constructor
  · intro same
    have masked := password_of_shown_eq same
    by_cases first : p₁ = ""
    · by_cases second : p₂ = ""
      · exact iff_of_true first second
      · rw [first, redacted_withoutPassword, redacted_withPassword s second] at masked
        exact absurd (show "" = "********" from masked) (by decide)
    · by_cases second : p₂ = ""
      · rw [second, redacted_withoutPassword, redacted_withPassword s first] at masked
        exact absurd (show "********" = "" from masked) (by decide)
      · exact iff_of_false first second
  · intro both
    by_cases first : p₁ = ""
    · rw [first, both.mp first]
    · rw [shown, shown, redacted_withPassword s first,
        redacted_withPassword s (mt both.mpr first)]

end Settings

namespace Control

variable {σ : Type} (host : Host σ) (s : Settings) (password : String)

/-! ## Cycles do not look at the password -/

theorem advance_withPassword (p : Progress σ) :
    p.advance host (s.withPassword password) = p.advance host s := by
  obtain ⟨phase, st, w⟩ := p
  cases phase <;> rfl

theorem cycle_withPassword (st : State) (w : σ) :
    cycle host (s.withPassword password) st w = cycle host s st w := by
  have same : Progress.advance host (s.withPassword password) = Progress.advance host s :=
    funext (advance_withPassword host s password)
  rw [cycle, cycle, same]

namespace Controller

theorem runCycle_withPassword (c : Controller) (w : σ) :
    c.runCycle host (s.withPassword password) w = c.runCycle host s w := by
  rw [runCycle, runCycle, cycle_withPassword]

theorem start_withPassword (c : Controller) (w : σ) :
    c.start host (s.withPassword password) w = c.start host s w := by
  simp only [start, runCycle_withPassword]
  rfl

theorem tick_withPassword (c : Controller) (l : Loop) (w : σ) :
    c.tick host (s.withPassword password) l w = c.tick host s l w := by
  simp only [tick, runCycle_withPassword]
  rfl

theorem ticks_withPassword (loops : List Loop) (c : Controller) (w : σ) :
    ticks host (s.withPassword password) loops c w = ticks host s loops c w := by
  induction loops generalizing c w with
  | nil => rfl
  | cons l rest ih => simp only [ticks_cons, attend, tick_withPassword, ih]

theorem second_withPassword (c : Controller) (w : σ) :
    c.second host (s.withPassword password) w = c.second host s w := by
  rw [second, second, ticks_withPassword]

end Controller

theorem Plant.after_withPassword (p : Plant σ) (operation : Operation σ) :
    p.after host (s.withPassword password) operation = p.after host s operation := by
  cases operation with
  | runCycle => simp only [after, Controller.runCycle_withPassword]
  | start => simp only [after, Controller.start_withPassword]
  | second => simp only [after, Controller.second_withPassword]
  | stop | addHint | removeHint | setOverride | clearOverride | turn => rfl

end Control

namespace Server

open Control Wire

variable {τ τ₁ τ₂ : Type}

/-! ## Machines side by side -/

/-- Two calls end in the same way, and leave states that are related. -/
def SameCall {α : Type} (R : τ₁ → τ₂ → Prop) (call₁ : α × τ₁) (call₂ : α × τ₂) : Prop :=
  ∃ result d₁ d₂, call₁ = (result, d₁) ∧ call₂ = (result, d₂) ∧ R d₁ d₂

/-- Two kinds of devices, with a relation between their states that every call keeps. Reads end in
the same way. -/
structure Hardware.Alike (hw₁ : Hardware τ₁) (hw₂ : Hardware τ₂) (R : τ₁ → τ₂ → Prop) : Prop where
  live : hw₁.live = hw₂.live
  readCpu : ∀ {d₁ d₂}, R d₁ d₂ → ∀ hints,
    SameCall R (hw₁.readCpu hints d₁) (hw₂.readCpu hints d₂)
  readGpu : ∀ {d₁ d₂}, R d₁ d₂ → ∀ hints,
    SameCall R (hw₁.readGpu hints d₁) (hw₂.readGpu hints d₂)
  enableManual : ∀ {d₁ d₂}, R d₁ d₂ → R (hw₁.enableManual d₁).2 (hw₂.enableManual d₂).2
  restoreAuto : ∀ {d₁ d₂}, R d₁ d₂ → R (hw₁.restoreAuto d₁).2 (hw₂.restoreAuto d₂).2
  setSpeed : ∀ {d₁ d₂}, R d₁ d₂ → ∀ percent,
    R (hw₁.setSpeed percent d₁).2 (hw₂.setSpeed percent d₂).2

/-- Two machines that differ in their devices at most. The runtime says the same of tasks that break
off. -/
structure Machine.Beside (R : τ₁ → τ₂ → Prop) (m₁ : Machine τ₁) (m₂ : Machine τ₂) : Prop where
  now : m₁.now = m₂.now
  clock : m₁.clock = m₂.clock
  disk : m₁.disk = m₂.disk
  store : m₁.store = m₂.store
  devices : R m₁.devices m₂.devices
  abortNote : m₁.abortNote = m₂.abortNote

section Hosts

variable {hw₁ : Hardware τ₁} {hw₂ : Hardware τ₂} {R : τ₁ → τ₂ → Prop} {m₁ : Machine τ₁}
  {m₂ : Machine τ₂}

theorem Machine.Beside.time (beside : Beside R m₁ m₂) : m₁.time = m₂.time := by
  rw [Machine.time, Machine.time, beside.clock, beside.now]

theorem Machine.Beside.withDevices (beside : Beside R m₁ m₂) {d₁ : τ₁} {d₂ : τ₂}
    (related : R d₁ d₂) : Beside R { m₁ with devices := d₁ } { m₂ with devices := d₂ } :=
  { beside with devices := related }

theorem Machine.Beside.record (beside : Beside R m₁ m₂) (cpu gpu : Int32) (speed : UInt8) :
    Beside R (m₁.record cpu gpu speed).2 (m₂.record cpu gpu speed).2 := by
  have same : m₁.store.recordReading m₁.disk m₁.now cpu gpu speed =
      m₂.store.recordReading m₂.disk m₂.now cpu gpu speed := by
    rw [beside.store, beside.disk, beside.now]
  rw [Machine.record, Machine.record, same]
  split
  · exact { beside with disk := rfl }
  · exact beside

/-- Machines whose devices are alike are alike as surroundings of a controller. -/
theorem Hardware.Alike.host (alike : hw₁.Alike hw₂ R) :
    Control.Alike (Machine.host hw₁) (Machine.host hw₂) (Machine.Beside R) where
  live := alike.live
  keepsHistory := rfl
  now beside := beside.time
  reads {m₁ m₂} beside hints := by
    obtain ⟨cpu, d₁, d₂, first, second, related⟩ := alike.readCpu beside.devices hints
    obtain ⟨gpu, e₁, e₂, third, fourth, afterwards⟩ := alike.readGpu related hints
    simp only [Host.reads, Machine.host, Machine.use, first, second]
    cases cpu with
    | crashed => exact ⟨.refl _, beside.withDevices related⟩
    | ok | failed =>
      simp only [third, fourth]
      exact ⟨.refl _, beside.withDevices afterwards⟩
  perform {m₁ m₂} beside command := by
    cases command with
    | enableManual => exact beside.withDevices (alike.enableManual beside.devices)
    | restoreAuto => exact beside.withDevices (alike.restoreAuto beside.devices)
    | setSpeed percent => exact beside.withDevices (alike.setSpeed beside.devices percent)
    | record cpu gpu speed => exact beside.record cpu gpu speed

end Hosts

/-! ## Requests of two services -/

/-- Two services that differ in their passwords and their devices at most. -/
structure Service.Twins (R : τ₁ → τ₂ → Prop) (s₁ : Service τ₁) (s₂ : Service τ₂) : Prop where
  settings : ∃ s p₁ p₂, p₁ ≠ "" ∧ p₂ ≠ "" ∧ s₁.settings = Settings.withPassword s p₁ ∧
    s₂.settings = s.withPassword p₂
  controller : s₁.controller = s₂.controller
  machine : Machine.Beside R s₁.machine s₂.machine
  crashes : s₁.crashes = s₂.crashes

namespace Service

/-- Two requests are answered in the same way and leave twins, or both break off. -/
inductive SameReply {α : Type} (R : τ₁ → τ₂ → Prop) :
    Except OutOfCalendar (α × Service τ₁) → Except OutOfCalendar (α × Service τ₂) → Prop
  | ok (reply : α) {s₁ : Service τ₁} {s₂ : Service τ₂} (twins : Twins R s₁ s₂) :
      SameReply R (.ok (reply, s₁)) (.ok (reply, s₂))
  | error (e : OutOfCalendar) : SameReply R (.error e) (.error e)

section Replies

variable {α β : Type} {R : τ₁ → τ₂ → Prop}

theorem SameReply.bind (x : Except OutOfCalendar β)
    {f₁ : β → Except OutOfCalendar (α × Service τ₁)}
    {f₂ : β → Except OutOfCalendar (α × Service τ₂)}
    (each : ∀ b, SameReply R (f₁ b) (f₂ b)) : SameReply R (x >>= f₁) (x >>= f₂) := by
  cases x with
  | error e => exact .error e
  | ok b => exact each b

variable {s₁ : Service τ₁} {s₂ : Service τ₂}

namespace Twins

theorem withController (twins : Twins R s₁ s₂) (controller : Controller) :
    Twins R { s₁ with controller } { s₂ with controller } :=
  { twins with controller := rfl }

theorem crash (twins : Twins R s₁ s₂) : Twins R s₁.crash s₂.crash :=
  { twins with crashes := congrArg (· + 1) twins.crashes }

theorem shown (twins : Twins R s₁ s₂) : s₁.settings.shown = s₂.settings.shown := by
  obtain ⟨s, p₁, p₂, first, second, same₁, same₂⟩ := twins.settings
  rw [same₁, same₂]
  exact (s.shown_withPassword_iff p₁ p₂).mpr (iff_of_false first second)

theorem status (twins : Twins R s₁ s₂) (now : Instant) :
    s₁.controller.state.status s₁.settings now = s₂.controller.state.status s₂.settings now := by
  obtain ⟨s, p₁, p₂, -, -, same₁, same₂⟩ := twins.settings
  rw [same₁, same₂, twins.controller]
  rfl

theorem history (twins : Twins R s₁ s₂) (duration : UInt64) :
    SameReply R (s₁.history duration) (s₂.history duration) := by
  have machine := twins.machine
  rw [Service.history, Service.history, machine.store, machine.disk, machine.now,
    machine.abortNote, twins.crashes]
  refine .bind _ fun window => ?_
  split
  · exact .ok _ twins.crash
  · exact .ok _ twins
  · exact .ok _ twins

theorem removeHint (twins : Twins R s₁ s₂) (source : String) :
    Twins R (s₁.removeHint source).2 (s₂.removeHint source).2 := by
  rw [Service.removeHint, Service.removeHint, twins.controller]
  exact twins.withController _

/-- A request is answered by twins in the same way. -/
theorem perform (twins : Twins R s₁ s₂) (request : Request) :
    SameReply R (s₁.perform request) (s₂.perform request) := by
  cases request with
  | ping | version => exact .ok _ twins
  | getConfig =>
    rw [Service.perform, Service.perform, twins.shown]
    exact .ok _ twins
  | getStatus =>
    simp only [Service.perform, twins.machine.time, twins.status]
    exact .bind _ fun now => .bind _ fun status => .ok _ twins
  | getHistory duration => exact twins.history duration
  | removeHint source => exact .ok _ (twins.removeHint source)
  | clearOverride =>
    rw [Service.perform, Service.perform, twins.controller]
    exact .ok _ (twins.withController _)
  | addHint kind action intensity duration source =>
    rw [Service.perform, Service.perform, twins.controller, twins.machine.time]
    split
    · exact .ok _ (twins.removeHint source)
    · refine .bind _ fun span => .bind _ fun now => .bind _ fun added => ?_
      exact .ok _ (twins.withController added.2)
  | setOverride speed duration reason =>
    rw [Service.perform, Service.perform, twins.controller, twins.machine.time]
    refine .bind _ fun span => .bind _ fun now => .bind _ fun set => ?_
    obtain ⟨result, controller⟩ := set
    cases result with
    | ok override => exact .ok _ (twins.withController controller)
    | error fault => exact .ok _ (twins.withController controller)

/-- A line is answered by twins in the same way. -/
theorem answer (twins : Twins R s₁ s₂) (line : List Char) :
    SameReply R (s₁.answer line) (s₂.answer line) := by
  rw [Service.answer, Service.answer]
  split
  · exact .ok _ twins
  · next id request _ =>
    split
    · exact .ok _ twins
    · have same := twins.perform request
      generalize s₁.perform request = performed₁, s₂.perform request = performed₂ at same ⊢
      cases same with
      | error e => exact .error e
      | ok response twins => exact .ok _ twins

end Twins

end Replies

end Service

/-! ## Connections of two services -/

/-- Two connections are served in the same way, and leave twins. -/
structure Served.Same (R : τ₁ → τ₂ → Prop) (served₁ : Served τ₁) (served₂ : Served τ₂) : Prop where
  responses : served₁.responses = served₂.responses
  broken : served₁.broken = served₂.broken
  twins : Service.Twins R served₁.service served₂.service

section Connections

variable {R : τ₁ → τ₂ → Prop} {s₁ : Service τ₁} {s₂ : Service τ₂}

theorem Service.Twins.replies (twins : Twins R s₁ s₂) (texts : List (List Char)) :
    Served.Same R (s₁.replies texts) (s₂.replies texts) := by
  induction texts generalizing s₁ s₂ with
  | nil => exact ⟨rfl, rfl, twins⟩
  | cons text rest ih =>
    rw [Service.replies, Service.replies]
    have same := twins.answer text
    generalize s₁.answer text = answered₁, s₂.answer text = answered₂ at same ⊢
    cases same with
    | error e => exact ⟨rfl, rfl, twins.crash⟩
    | ok response twins =>
      have later := ih twins
      exact ⟨congrArg (response :: ·) later.responses, later.broken, later.twins⟩

theorem Served.Same.close {served₁ : Served τ₁} {served₂ : Served τ₂}
    (same : Same R served₁ served₂) (farewell : List ResponseEnvelope) :
    Same R (served₁.close farewell) (served₂.close farewell) := by
  rw [Served.close, Served.close, same.broken]
  split
  · exact same
  · exact ⟨congrArg (· ++ farewell) same.responses, rfl, same.twins⟩

theorem Service.Twins.serve (twins : Twins R s₁ s₂) (chunks : Incoming) :
    Served.Same R (serve s₁ chunks) (serve s₂ chunks) := by
  rw [serve_eq, serve_eq]
  exact (twins.replies _).close _

end Connections

/-! ## What is sent in a run -/

/-- What happens to a service. -/
inductive Event (τ : Type) where
  /-- Something is asked of the controller from inside, or something happens around it. -/
  | operation (operation : Operation (Machine τ))
  /-- A line comes in on a connection that goes on. -/
  | line (text : List Char)
  /-- A connection is served from its first byte to its last. -/
  | connection (chunks : Incoming)

/-- The same event for two services. What happens around them keeps a relation. -/
inductive Event.Matches (R : τ₁ → τ₂ → Prop) : Event τ₁ → Event τ₂ → Prop
  | operation {operation₁ operation₂}
      (same : Operation.Matches (Machine.Beside R) operation₁ operation₂) :
      Matches R (.operation operation₁) (.operation operation₂)
  | line (text) : Matches R (.line text) (.line text)
  | connection (chunks) : Matches R (.connection chunks) (.connection chunks)

namespace Service

/-- An operation of the controller on its machine. -/
def operate (hw : Hardware τ) (s : Service τ) (operation : Operation (Machine τ)) : Service τ :=
  let plant := Plant.after (Machine.host hw) s.settings ⟨s.controller, s.machine, []⟩ operation
  { s with controller := plant.controller, machine := plant.world }

/-- What comes of an event. -/
def meet (hw : Hardware τ) (s : Service τ) : Event τ → Served τ
  | .operation operation => ⟨[], s.operate hw operation, false⟩
  | .line text => s.replies [text]
  | .connection chunks => serve s chunks

/-- What is sent in answer to each event, and whether a connection breaks on it. -/
def sent (hw : Hardware τ) (s : Service τ) : List (Event τ) → List (List UInt8 × Bool)
  | [] => []
  | event :: rest =>
    let served := s.meet hw event
    (written served.responses, served.broken) :: served.service.sent hw rest

variable {hw₁ : Hardware τ₁} {hw₂ : Hardware τ₂} {R : τ₁ → τ₂ → Prop} {s₁ : Service τ₁}
  {s₂ : Service τ₂}

theorem Twins.operate (alike : hw₁.Alike hw₂ R) (twins : Twins R s₁ s₂)
    {operation₁ : Operation (Machine τ₁)} {operation₂ : Operation (Machine τ₂)}
    (same : operation₁.Matches (Machine.Beside R) operation₂) :
    Twins R (s₁.operate hw₁ operation₁) (s₂.operate hw₂ operation₂) := by
  obtain ⟨s, p₁, p₂, first, second, same₁, same₂⟩ := twins.settings
  have start : Plant.InStep (Machine.Beside R) ⟨s₁.controller, s₁.machine, []⟩
      ⟨s₂.controller, s₂.machine, []⟩ := ⟨twins.controller, rfl, twins.machine⟩
  obtain ⟨-, next⟩ := start.after (s := s) alike.host same
  rw [Service.operate, Service.operate, same₁, same₂, Plant.after_withPassword,
    Plant.after_withPassword]
  exact ⟨⟨s, p₁, p₂, first, second, rfl, rfl⟩, next.controller, next.world, twins.crashes⟩

/-- An event comes to the same for twins. -/
theorem Twins.meet (alike : hw₁.Alike hw₂ R) (twins : Twins R s₁ s₂) {event₁ : Event τ₁}
    {event₂ : Event τ₂} (same : event₁.Matches R event₂) :
    Served.Same R (s₁.meet hw₁ event₁) (s₂.meet hw₂ event₂) := by
  cases same with
  | operation same => exact ⟨rfl, rfl, twins.operate alike same⟩
  | line text => exact twins.replies [text]
  | connection chunks => exact twins.serve chunks

theorem Twins.sent (alike : hw₁.Alike hw₂ R) {events₁ : List (Event τ₁)}
    {events₂ : List (Event τ₂)} (same : List.Forall₂ (Event.Matches R) events₁ events₂)
    (twins : Twins R s₁ s₂) : s₁.sent hw₁ events₁ = s₂.sent hw₂ events₂ := by
  induction same generalizing s₁ s₂ with
  | nil => rfl
  | cons first _ ih =>
    have served := twins.meet alike first
    rw [Service.sent, Service.sent, served.responses, served.broken, ih served.twins]

end Service

/-! ## Real devices -/

section Devices

open Daemon Sensors

variable {σ : Type} {run : Runner σ} {R : σ → σ → Prop}

/-- Programs that end in the same way with two accesses to the management controller. What they
leave behind, where the passwords may be found, keeps a relation. -/
structure SameRuns (run : Runner σ) (R : σ → σ → Prop) (bmc₁ bmc₂ : Bmc) : Prop where
  controller : ∀ {w₁ w₂}, R w₁ w₂ → ∀ args,
    SameCall R (run.start Ipmi.program (Ipmi.arguments bmc₁ args) w₁)
      (run.start Ipmi.program (Ipmi.arguments bmc₂ args) w₂)
  other : ∀ {w₁ w₂}, R w₁ w₂ → ∀ program args,
    SameCall R (run.start program args w₁) (run.start program args w₂)

theorem sameCall_call {α : Type} (f₁ f₂ : σ → Except Fault α × σ) {d₁ d₂ : Devices σ}
    (same : SameCall R (f₁ d₁.tools) (f₂ d₂.tools)) :
    SameCall (fun d₁ d₂ => R d₁.tools d₂.tools) (Devices.call f₁ d₁) (Devices.call f₂ d₂) := by
  obtain ⟨result, w₁, w₂, first, second, related⟩ := same
  simp only [Devices.call, first, second]
  exact ⟨_, _, _, rfl, rfl, related⟩

namespace SameRuns

variable {s₁ s₂ : Settings} {d₁ d₂ : Devices σ}

theorem drive (same : SameRuns run R s₁.bmc s₂.bmc) (related : R d₁.tools d₂.tools)
    (purpose : Ipmi.Purpose) :
    R (Devices.drive run s₁.bmc purpose d₁).2.tools
      (Devices.drive run s₂.bmc purpose d₂).2.tools := by
  obtain ⟨result, w₁, w₂, first, second, kept⟩ := same.controller related purpose.arguments
  simp only [Devices.drive, Devices.call, Ipmi.drive, first, second]
  split <;> exact kept

/-- Real devices are alike with either access, if the programs behind them are. -/
theorem alike (same : SameRuns run R s₁.bmc s₂.bmc) (monitoring : s₁.monitoring = s₂.monitoring) :
    (Devices.real run s₁).Alike (Devices.real run s₂) fun d₁ d₂ => R d₁.tools d₂.tools where
  live := rfl
  readCpu related hints := by
    refine sameCall_call (Ipmi.read run Ipmi.program s₁.bmc) (Ipmi.read run Ipmi.program s₂.bmc) ?_
    obtain ⟨result, w₁, w₂, first, second, kept⟩ := same.controller related Ipmi.listArguments
    simp only [Ipmi.read, first, second]
    split <;> exact ⟨_, _, _, rfl, rfl, kept⟩
  readGpu related hints := by
    refine sameCall_call (Nvidia.read run s₁.monitoring) (Nvidia.read run s₂.monitoring) ?_
    obtain ⟨result, w₁, w₂, first, second, kept⟩ :=
      same.other related s₂.monitoring.gpuTool Nvidia.queryArguments
    rw [Nvidia.read, Nvidia.read, monitoring]
    split
    · simp only [first, second]
      split <;> exact ⟨_, _, _, rfl, rfl, kept⟩
    · exact ⟨_, _, _, rfl, rfl, related⟩
  enableManual related := same.drive related .enableManual
  restoreAuto related := same.drive related .restoreAuto
  setSpeed related percent := same.drive related (.setSpeed percent)

end SameRuns

end Devices

/-- Two services have the same settings but for their passwords, which are not empty, and the same
controller; their machines differ in the devices alone, and those answer alike, whatever they do
with a password. The runtime says the same of requests that break off. Then all that is sent is the
same, byte for byte, whatever cycles, requests and other events come. -/
theorem password_stays_inside (settings : Settings) {p₁ p₂ : String} (first : p₁ ≠ "")
    (second : p₂ ≠ "") {hw₁ : Hardware τ₁} {hw₂ : Hardware τ₂} {R : τ₁ → τ₂ → Prop}
    (alike : hw₁.Alike hw₂ R) (controller : Controller) {m₁ : Machine τ₁} {m₂ : Machine τ₂}
    (beside : Machine.Beside R m₁ m₂) (crashes : Nat) {events₁ : List (Event τ₁)}
    {events₂ : List (Event τ₂)} (same : List.Forall₂ (Event.Matches R) events₁ events₂) :
    Service.sent hw₁ ⟨settings.withPassword p₁, controller, m₁, crashes⟩ events₁ =
      Service.sent hw₂ ⟨settings.withPassword p₂, controller, m₂, crashes⟩ events₂ :=
  Service.Twins.sent alike same
    ⟨⟨settings, p₁, p₂, first, second, rfl, rfl⟩, rfl, beside, rfl⟩

/-- Settings for a management controller that is reached over the network. -/
def remoteSettings : Settings :=
  { Settings.default with bmc := ⟨"10.0.0.7", "root", ""⟩ }

/-- A program that keeps the words that it is run with, and says nothing. -/
def attentive : Sensors.Runner (List (List String)) := fun program args heard =>
  (.exited 0 [] [], (program :: args) :: heard)

theorem start_attentive {password : String} (clean : '\x00' ∉ password.toList)
    (args : List String) (heard : List (List String)) :
    let bmc := (remoteSettings.withPassword password).bmc
    attentive.start Sensors.Ipmi.program (Sensors.Ipmi.arguments bmc args) heard =
      if args.any fun text => text.toList.contains '\x00' then
        (.notStarted (.other "nul byte found in provided data"), heard)
      else (.exited 0 [] [],
        (Sensors.Ipmi.program :: Sensors.Ipmi.arguments bmc args) :: heard) := by
  intro bmc
  have remote : Sensors.Ipmi.isLocal bmc = false := rfl
  have words : ((Sensors.Ipmi.program :: Sensors.Ipmi.arguments bmc args).any fun text =>
      text.toList.contains '\x00') = args.any fun text => text.toList.contains '\x00' := by
    rw [Sensors.Ipmi.arguments, remote]
    simp [bmc, Settings.withPassword, remoteSettings, Sensors.Ipmi.program, clean]
  rw [Sensors.Runner.start, words]
  rfl

theorem sameRuns_attentive {p₁ p₂ : String} (first : '\x00' ∉ p₁.toList)
    (second : '\x00' ∉ p₂.toList) :
    SameRuns attentive (fun _ _ => True) (remoteSettings.withPassword p₁).bmc
      (remoteSettings.withPassword p₂).bmc where
  controller _ args := by
    rw [start_attentive first, start_attentive second]
    split <;> exact ⟨_, _, _, rfl, rfl, trivial⟩
  other _ program args := by
    rw [Sensors.Runner.start, Sensors.Runner.start]
    split <;> exact ⟨_, _, _, rfl, rfl, trivial⟩

/-- The program hears the passwords of two services, and their clients do not. -/
theorem heard_by_tools_only :
    let settings (password : String) := remoteSettings.withPassword password
    let service (password : String) : Service (Daemon.Devices (List (List String))) :=
      .new (settings password)
        ⟨.ofMillis 1748764800000, .manual, .empty, ⟨"history.jsonl", 0⟩, ⟨[], .start⟩,
          fun _ => "task panicked"⟩
    let devices (password : String) := Daemon.Devices.real attentive (settings password)
    let events : List (Event (Daemon.Devices (List (List String)))) :=
      [.operation .start, .line (RequestEnvelope.line ⟨1, .getConfig⟩).toList, .operation .stop,
        .line (RequestEnvelope.line ⟨2, .getHistory 9223372036854775⟩).toList,
        .connection [Text.Utf8.encodeString (RequestEnvelope.line ⟨3, .getConfig⟩), [lineFeed]]]
    (service "first").sent (devices "first") events =
      (service "second").sent (devices "second") events := by
  intro settings service devices events
  have alike : Hardware.Alike (devices "first") (devices "second") _ :=
    (sameRuns_attentive (by decide) (by decide)).alike rfl
  refine password_stays_inside remoteSettings (by decide) (by decide) alike _
    ⟨rfl, rfl, rfl, rfl, trivial, rfl⟩ 0 ?_
  exact .cons (.operation .start) (.cons (.line _) (.cons (.operation .stop) (.cons (.line _)
    (.cons (.connection _) .nil))))

end Server

end ChassisCooling
