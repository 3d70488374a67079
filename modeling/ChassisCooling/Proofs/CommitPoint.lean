import ChassisCooling.Proofs.Indifference

/-! # A cycle happens where it commits

While a cycle is under way requests come in between its phases, and the clock goes on. What the
cycle has counted, read and seen before its commit is its own, and what it does after the commit
follows from its report. So a run in which requests fall into cycles is heard, reported and
commanded like one of whole cycles: each has the readings and the time that it had taken, and stands
among the requests where it committed.
-/

namespace ChassisCooling.Control

open Calendar

variable {σ : Type}

/-! ## Requests during a cycle -/

/-- What can be asked of a controller while a cycle is under way. -/
inductive Inquiry where
  | addHint (request : HintRequest)
  | removeHint (source : String)
  | setOverride (speed : Int) (duration : Span) (reason : String)
  | clearOverride
  | status

/-- The operation that is asked for. To look at the status is none. -/
def Inquiry.operation? : Inquiry → Option (Operation σ)
  | addHint request => some (.addHint request)
  | removeHint source => some (.removeHint source)
  | setOverride speed duration reason => some (.setOverride speed duration reason)
  | clearOverride => some .clearOverride
  | status => none

/-- What is answered to an inquiry. -/
inductive Told where
  | reply (reply : Reply)
  | status (result : Except OutOfCalendar Status)

/-- The answer to an inquiry, and the plant afterwards. -/
def Plant.ask (host : Host σ) (s : Settings) (p : Plant σ) (inquiry : Inquiry) : Told × Plant σ :=
  match inquiry.operation? with
  | some operation => (.reply (p.reply host s operation), p.after host s operation)
  | none => (.status (p.status host s), p)

/-- A plant in which a cycle may be under way, with the phase of the latest cycle. -/
structure BusyPlant (σ : Type) where
  plant : Plant σ
  phase : Phase

/-- The cycle has come to its end, or broken off. -/
def Phase.isOver : Phase → Bool
  | .finished _ | .aborted => true
  | _ => false

/-- What can happen next in a busy plant. -/
inductive Moment (σ : Type) where
  /-- A cycle begins, unless one is under way. -/
  | begin
  /-- The cycle under way goes through its next phase. -/
  | advance
  | ask (inquiry : Inquiry)
  /-- The clock moves, or the sensors, the fans and the history come to behave in another way. -/
  | turn (change : σ → σ)

/-- A moment of a plant whose calls are kept. The surroundings cannot change the calls. -/
def Moment.logged : Moment σ → Moment (List Call × σ)
  | .begin => .begin
  | .advance => .advance
  | .ask inquiry => .ask inquiry
  | .turn change => .turn fun (calls, w) => (calls, change w)

namespace BusyPlant

/-- A plant where no cycle is under way. -/
def idle (p : Plant σ) : BusyPlant σ :=
  ⟨p, .aborted⟩

/-- The next phase of a cycle. A report comes when the cycle has come to its end. -/
def advance (host : Host σ) (s : Settings) (b : BusyPlant σ) : BusyPlant σ :=
  let next := Progress.advance host s ⟨b.phase, b.plant.controller.state, b.plant.world⟩
  { plant := {
      controller := { b.plant.controller with state := next.state }
      world := next.world
      reports := next.phase.report?.toList ++ b.plant.reports }
    phase := next.phase }

/-- What a moment leads to, with what is told. -/
def step (host : Host σ) (s : Settings) (b : BusyPlant σ) : Moment σ → Option Told × BusyPlant σ
  | .begin => (none, if b.phase.isOver then { b with phase := .started } else b)
  | .advance => (none, if b.phase.isOver then b else b.advance host s)
  | .ask inquiry =>
    let (told, plant) := b.plant.ask host s inquiry
    (some told, { b with plant })
  | .turn change => (none, { b with plant.world := change b.plant.world })

/-- What moments lead to, one after another, with all that is told. -/
def run (host : Host σ) (s : Settings) (b : BusyPlant σ) :
    List (Moment σ) → List Told × BusyPlant σ
  | [] => ([], b)
  | moment :: rest =>
    let (told, b) := b.step host s moment
    let (others, b) := b.run host s rest
    (told.toList ++ others, b)

end BusyPlant

/-! ## Whole cycles -/

/-- What a cycle finds in its surroundings, and what an inquiry reads off the clock. -/
structure Scene where
  shown : Except OutOfCalendar Instant
  cpu : CpuReading
  gpu : GpuReading

/-- Surroundings that show one scene, and where every command succeeds. -/
def Host.posed (keepsHistory : Bool) : Host Scene where
  now scene := scene.shown
  readCpu _ scene := (.ok scene.cpu, scene)
  readGpu _ scene := (.ok scene.gpu, scene)
  perform _ scene := (.ok (), scene)
  live := true
  keepsHistory := keepsHistory

/-- A cycle as a whole with what it has read and the time that it has taken, or an inquiry with what
the clock shows. -/
inductive Whole where
  | cycle (cpu : CpuReading) (gpu : GpuReading) (now : Instant)
  | ask (inquiry : Inquiry) (shown : Except OutOfCalendar Instant)

namespace Plant

/-- The plant with another scene around it. -/
def inScene (p : Plant (List Call × Scene)) (scene : Scene) : Plant (List Call × Scene) :=
  { p with world := (p.world.1, scene) }

/-- A whole cycle, or an inquiry, with what is told. -/
def atOnce (keepsHistory : Bool) (s : Settings) (p : Plant (List Call × Scene)) :
    Whole → Option Told × Plant (List Call × Scene)
  | .cycle cpu gpu now =>
    (none, (p.inScene ⟨.ok now, cpu, gpu⟩).after (Host.posed keepsHistory).logged s .runCycle)
  | .ask inquiry shown =>
    let (told, p) :=
      (p.inScene { p.world.2 with shown }).ask (Host.posed keepsHistory).logged s inquiry
    (some told, p)

/-- Whole cycles and inquiries one after another, with all that is told. -/
def inTurn (keepsHistory : Bool) (s : Settings) (p : Plant (List Call × Scene)) :
    List Whole → List Told × Plant (List Call × Scene)
  | [] => ([], p)
  | whole :: rest =>
    let (told, p) := p.atOnce keepsHistory s whole
    let (others, p) := p.inTurn keepsHistory s rest
    (told.toList ++ others, p)

theorem inTurn_append (keepsHistory : Bool) (s : Settings) (p : Plant (List Call × Scene))
    (first second : List Whole) : p.inTurn keepsHistory s (first ++ second) =
      let before := p.inTurn keepsHistory s first
      let after := before.2.inTurn keepsHistory s second
      (before.1 ++ after.1, after.2) := by
  induction first generalizing p with
  | nil => rfl
  | cons whole rest ih => simp only [List.cons_append, inTurn, ih, List.append_assoc]

end Plant

namespace BusyPlant

/-- What happens as a whole at a moment: the cycle that commits, or the inquiry that is made. -/
def whole? (host : Host σ) (b : BusyPlant σ) : Moment σ → Option Whole
  | .advance =>
    match b.phase with
    | .timed cpu gpu now => some (.cycle cpu gpu now)
    | _ => none
  | .ask inquiry => some (.ask inquiry (host.now b.plant.world))
  | _ => none

/-- The cycles that commit and the inquiries that are made, in their order. -/
def order (host : Host σ) (s : Settings) (b : BusyPlant σ) : List (Moment σ) → List Whole
  | [] => []
  | moment :: rest => (b.whole? host moment).toList ++ (b.step host s moment).2.order host s rest

end BusyPlant

/-! ## What is still to come of a cycle -/

/-- The report of a cycle that has committed and is still under way. -/
def Phase.owedReports : Phase → List Report
  | .decided report | .driven report => [report]
  | _ => []

/-- The commands that are still to come of a cycle that has committed, newest first. -/
def Host.owedCommands (host : Host σ) : Phase → List Call
  | .decided report => host.conclusion report
  | .driven report =>
    if host.keepsHistory then
      [.perform (.record report.cpuMax report.gpuMax report.speed)]
    else []
  | _ => []

/-- The call is a command to the fans or to the history. -/
def Call.isCommand : Call → Bool
  | .perform _ => true
  | _ => false

theorem owed_of_isOver (host : Host σ) {phase : Phase} (ended : phase.isOver = true) :
    phase.owedReports = [] ∧ host.owedCommands phase = [] := by
  cases phase with
  | finished | aborted => exact ⟨rfl, rfl⟩
  | started | counted | sensed | timed | decided | driven => cases ended

theorem Host.owedCommands_decided (host : Host σ) (report : Report) :
    host.owedCommands (.decided report) =
      host.owedCommands (.driven report) ++ [.perform (.setSpeed report.speed)] := by
  rw [owedCommands, owedCommands, conclusion]
  split <;> rfl

theorem isCommand_conclusion (host : Host σ) (report : Report) :
    (host.conclusion report).filter Call.isCommand = host.conclusion report := by
  rw [Host.conclusion]
  split <;> rfl

theorem isCommand_readCalls (host : Host σ) (hints : Nat) (w : σ) :
    (host.readCalls hints w).filter Call.isCommand = [] := by
  rw [Host.readCalls]
  split <;> rfl

/-! ## Side by side -/

/-- A busy plant has the controller of a plant where cycles are whole, and is behind it by no more
than the cycle that has committed and is still under way. -/
structure BusyPlant.InPace (host : Host σ) (b : BusyPlant (List Call × σ))
    (p : Plant (List Call × Scene)) : Prop where
  controller : b.plant.controller = p.controller
  reports : b.phase.owedReports ++ b.plant.reports = p.reports
  commands : host.owedCommands b.phase ++ b.plant.world.1.filter Call.isCommand =
    p.world.1.filter Call.isCommand

section Steps

variable {host : Host σ} {s : Settings}

/-- An inquiry depends on the controller and on what the clock shows, and reaches the controller
alone. -/
theorem Plant.ask_eq {σ₁ σ₂ : Type} {host₁ : Host σ₁} {host₂ : Host σ₂} {p₁ : Plant σ₁}
    {p₂ : Plant σ₂} (same : p₁.controller = p₂.controller)
    (shown : host₁.now p₁.world = host₂.now p₂.world) (inquiry : Inquiry) :
    ∃ told controller, p₁.ask host₁ s inquiry = (told, { p₁ with controller }) ∧
      p₂.ask host₂ s inquiry = (told, { p₂ with controller }) := by
  obtain ⟨c, w₁, reports₁⟩ := p₁
  obtain ⟨_, w₂, reports₂⟩ := p₂
  obtain rfl : c = _ := same
  have shown : host₁.now w₁ = host₂.now w₂ := shown
  cases inquiry with
  | status =>
    refine ⟨_, c, rfl, ?_⟩
    simp only [ask, Inquiry.operation?, status, shown]
  | removeHint | clearOverride => exact ⟨_, _, rfl, rfl⟩
  | addHint | setOverride =>
    simp only [ask, Inquiry.operation?, reply, after, timed, shown]
    split <;> exact ⟨_, _, rfl, rfl⟩

/-- A cycle in surroundings that show one scene is its commit, and what follows from it. -/
theorem cycle_posed (keepsHistory : Bool) (s : Settings) (st : State) (calls : List Call)
    (cpu : CpuReading) (gpu : GpuReading) (now : Instant) :
    ∃ hints, cycle (Host.posed keepsHistory).logged s st (calls, ⟨.ok now, cpu, gpu⟩) =
      match st.commit s cpu gpu now with
      | (st', .error _) =>
        ⟨.aborted, st', (.readGpu hints :: .readCpu hints :: calls, ⟨.ok now, cpu, gpu⟩)⟩
      | (st', .ok report) =>
        ⟨.finished report, st', ((Host.posed keepsHistory).conclusion report ++
          .readGpu hints :: .readCpu hints :: calls, ⟨.ok now, cpu, gpu⟩)⟩ := by
  refine ⟨(st.registry.liveHints now).length, ?_⟩
  have shown : (Host.posed keepsHistory).logged.now (calls, ⟨.ok now, cpu, gpu⟩) = .ok now := rfl
  rw [cycle_eq, shown]
  dsimp only
  generalize (st.registry.liveHints now).length = hints
  have sensed : (Host.posed keepsHistory).logged.sense hints (calls, ⟨.ok now, cpu, gpu⟩) =
      ((cpu, gpu), (.readGpu hints :: .readCpu hints :: calls, ⟨.ok now, cpu, gpu⟩)) := rfl
  have shown : (Host.posed keepsHistory).logged.now
      (.readGpu hints :: .readCpu hints :: calls, ⟨.ok now, cpu, gpu⟩) = .ok now := rfl
  rw [sensed]
  dsimp only
  rw [shown]
  dsimp only
  obtain ⟨st', result⟩ := st.commit s cpu gpu now
  cases result with
  | error e => rfl
  | ok report => cases keepsHistory <;> rfl

namespace BusyPlant.InPace

variable {b : BusyPlant (List Call × σ)} {p : Plant (List Call × Scene)}

/-- A cycle that has committed is done at once on the other side. -/
theorem commit {cpu : CpuReading} {gpu : GpuReading} {now : Instant} (pace : b.InPace host p)
    (timed : b.phase = .timed cpu gpu now) :
    (b.advance host.logged s).InPace host
      (p.atOnce host.keepsHistory s (.cycle cpu gpu now)).2 := by
  obtain ⟨⟨c, ⟨calls, w⟩, reports⟩, phase⟩ := b
  obtain ⟨_, ⟨calls', scene⟩, reports'⟩ := p
  obtain ⟨rfl, rfl, commands⟩ := pace
  obtain rfl : phase = .timed cpu gpu now := timed
  obtain ⟨hints, whole⟩ := cycle_posed host.keepsHistory s c.state calls' cpu gpu now
  have commands : calls.filter Call.isCommand = calls'.filter Call.isCommand := commands
  simp only [advance, Progress.advance, Plant.atOnce, Plant.inScene, Plant.after,
    Controller.runCycle, whole]
  obtain ⟨st', result⟩ := c.state.commit s cpu gpu now
  cases result with
  | error e => exact ⟨rfl, rfl, commands⟩
  | ok report =>
    refine ⟨rfl, rfl, ?_⟩
    have concluded : (Host.posed host.keepsHistory).conclusion report = host.conclusion report :=
      rfl
    dsimp only
    rw [concluded, List.filter_append, isCommand_conclusion]
    exact congrArg (host.conclusion report ++ ·) commands

/-- All other phases of a cycle are passed over on the other side. -/
theorem advance (pace : b.InPace host p)
    (untimed : ∀ cpu gpu now, b.phase ≠ .timed cpu gpu now) (under : b.phase.isOver = false) :
    (b.advance host.logged s).InPace host p := by
  obtain ⟨⟨c, ⟨calls, w⟩, reports⟩, phase⟩ := b
  obtain ⟨_, ⟨calls', scene⟩, reports'⟩ := p
  obtain ⟨rfl, rfl, commands⟩ := pace
  cases phase with
  | timed cpu gpu now => exact absurd rfl (untimed cpu gpu now)
  | finished | aborted => cases under
  | started | sensed =>
    simp only [BusyPlant.advance, Progress.advance]
    split <;> exact ⟨rfl, rfl, commands⟩
  | counted hints =>
    refine ⟨rfl, rfl, ?_⟩
    have read := sense_logged_calls host hints calls w
    simp only [BusyPlant.advance, Progress.advance, read, List.filter_append, isCommand_readCalls]
    exact commands
  | decided report =>
    refine ⟨rfl, rfl, ?_⟩
    rw [← commands, host.owedCommands_decided, List.append_assoc]
    rfl
  | driven report =>
    have keeps : host.logged.keepsHistory = host.keepsHistory := rfl
    simp only [BusyPlant.advance, Progress.advance, keeps]
    cases history : host.keepsHistory with
    | false =>
      refine ⟨rfl, rfl, ?_⟩
      rw [← commands, Host.owedCommands, history]
      rfl
    | true =>
      refine ⟨rfl, rfl, ?_⟩
      rw [← commands, Host.owedCommands, history]
      rfl

theorem ask (pace : b.InPace host p) (inquiry : Inquiry) :
    (b.step host.logged s (.ask inquiry)).1 =
        (p.atOnce host.keepsHistory s (.ask inquiry (host.logged.now b.plant.world))).1 ∧
      (b.step host.logged s (.ask inquiry)).2.InPace host
        (p.atOnce host.keepsHistory s (.ask inquiry (host.logged.now b.plant.world))).2 := by
  let scene : Scene := { p.world.2 with shown := host.logged.now b.plant.world }
  have shown : host.logged.now b.plant.world =
      (Host.posed host.keepsHistory).logged.now (p.inScene scene).world := rfl
  have same : b.plant.controller = (p.inScene scene).controller := pace.controller
  obtain ⟨told, controller, first, second⟩ := Plant.ask_eq (s := s) same shown inquiry
  rw [step, Plant.atOnce, first, second]
  exact ⟨rfl, rfl, pace.reports, pace.commands⟩

/-- What happens as a whole at a moment is told on both sides, and keeps them in pace. -/
theorem step (pace : b.InPace host p) (moment : Moment σ) :
    let whole := p.inTurn host.keepsHistory s (b.whole? host.logged moment.logged).toList
    (b.step host.logged s moment.logged).1.toList = whole.1 ∧
      (b.step host.logged s moment.logged).2.InPace host whole.2 := by
  cases moment with
  | begin =>
    refine ⟨rfl, ?_⟩
    simp only [Moment.logged, BusyPlant.step, whole?, Option.toList_none, Plant.inTurn]
    split
    · next ended =>
      obtain ⟨reports, commands⟩ := owed_of_isOver host ended
      have caughtUp := pace.commands
      rw [commands] at caughtUp
      refine ⟨pace.controller, ?_, caughtUp⟩
      rw [← pace.reports, reports]
      rfl
    · exact pace
  | advance =>
    simp only [Moment.logged, BusyPlant.step, whole?]
    split
    · next cpu gpu now timed =>
      rw [timed]
      exact ⟨rfl, pace.commit timed⟩
    · next untimed =>
      refine ⟨rfl, ?_⟩
      split
      · exact pace
      · next under => exact pace.advance untimed (Bool.not_eq_true _ ▸ under)
  | ask inquiry =>
    obtain ⟨told, next⟩ := pace.ask (s := s) inquiry
    simp only [Moment.logged, whole?, Option.toList_some, Plant.inTurn, List.append_nil, told]
    exact ⟨trivial, next⟩
  | turn change => exact ⟨rfl, pace.controller, pace.reports, pace.commands⟩

/-- Whatever happens, the same is told on both sides, and they stay in pace. -/
theorem run (pace : b.InPace host p) (moments : List (Moment σ)) :
    let busy := b.run host.logged s (moments.map .logged)
    let whole := p.inTurn host.keepsHistory s (b.order host.logged s (moments.map .logged))
    busy.1 = whole.1 ∧ busy.2.InPace host whole.2 := by
  induction moments generalizing b p with
  | nil => exact ⟨rfl, pace⟩
  | cons moment rest ih =>
    obtain ⟨told, next⟩ := pace.step (s := s) moment
    obtain ⟨others, last⟩ := ih next
    simp only [List.map_cons, BusyPlant.run, order, Plant.inTurn_append, told, others]
    exact ⟨trivial, last⟩

end BusyPlant.InPace

end Steps

/-- Requests that come in during cycles find and leave the controller as if every cycle happened as
a whole where it commits, with the readings and the time that it had taken: the controller is the
same afterwards, the same is told to every inquiry, and the same reports and commands come in the
same order. Only a cycle that has committed and is still under way owes some of them. -/
theorem cycles_happen_at_commit (host : Host σ) (s : Settings) (c : Controller) (w : σ)
    (scene : Scene) (moments : List (Moment σ)) :
    let began := BusyPlant.idle ⟨c, ([], w), []⟩
    let order := began.order host.logged s (moments.map .logged)
    let busy := began.run host.logged s (moments.map .logged)
    let whole := Plant.inTurn host.keepsHistory s ⟨c, ([], scene), []⟩ order
    busy.2.plant.controller = whole.2.controller ∧ busy.1 = whole.1 ∧
      busy.2.phase.owedReports ++ busy.2.plant.reports = whole.2.reports ∧
      host.owedCommands busy.2.phase ++ busy.2.plant.world.1.filter Call.isCommand =
        whole.2.world.1.filter Call.isCommand := by
  intro began order busy whole
  have idle : began.InPace host ⟨c, ([], scene), []⟩ := ⟨rfl, rfl, rfl⟩
  obtain ⟨told, pace⟩ := idle.run (s := s) moments
  exact ⟨pace.controller, told, pace.reports, pace.commands⟩

/-- A hint that comes once the sensors have been read stands before their cycle. -/
example (t : Instant) (cpu : CpuReading) (request : HintRequest) (c : Controller) :
    (BusyPlant.idle ⟨c, (), []⟩).order (Host.still t cpu .empty) .default
        [.begin, .advance, .advance, .advance, .ask (.addHint request), .advance, .ask .status] =
      [.ask (.addHint request) (.ok t), .cycle cpu .empty t, .ask .status (.ok t)] :=
  rfl

end ChassisCooling.Control
