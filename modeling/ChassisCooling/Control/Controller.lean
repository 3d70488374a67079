import ChassisCooling.Control.Cycle

/-! # Starting and stopping

A running controller takes the fans over, runs a cycle at once, and then one after every period of
its timer, until it is stopped and gives the fans back. Times of the timer are whole seconds since
it was first looked at; the clock of the host may jump without moving them.

The later cycles are run by a loop. A loop knows the number of the start that began it, so it can
tell that it is not wanted any more: it ends at its next tick, or when it is woken before.
-/

namespace ChassisCooling.Control

open Calendar

/-- The last second of the timer that a loop can wait for. Behind the timer stands a clock of 2^63
seconds, which was set going before. -/
def lastTick : Nat := 9223372036854775000

/-- A loop that waits for its next tick. -/
structure Loop where
  /-- The number of the start that began it. -/
  number : Nat
  /-- The second of the timer at which it runs its next cycle. -/
  nextTick : Nat
deriving DecidableEq, Repr

/-- A controller, its timer, and the loops that wait for a tick. -/
structure Controller where
  state : State
  running : Bool
  /-- How often the controller was started. -/
  starts : Nat
  /-- The seconds that the timer has counted. -/
  timer : Nat
  loops : List Loop
  /-- A loop is to be woken, now or when there is one. -/
  wakeUp : Bool

namespace Controller

variable {σ : Type}

/-- A controller that has not been started. -/
def new (s : Settings) : Controller where
  state := .start s
  running := false
  starts := 0
  timer := 0
  loops := []
  wakeUp := false

/-- A loop is still wanted: the controller runs, and was not started again. -/
def wants (c : Controller) (l : Loop) : Bool :=
  c.running && c.starts == l.number

/-- The first loop that waits is woken, if one is to be: it ends unless it is still wanted, and then
waits on for the same tick. -/
def wake (c : Controller) : Controller :=
  match c.wakeUp, c.loops with
  | true, l :: rest =>
    { c with loops := if c.wants l then l :: rest else rest, wakeUp := false }
  | _, _ => c

/-- Runs a cycle. Nothing comes back when a time lay beyond the calendar. -/
def runCycle (host : Host σ) (s : Settings) (c : Controller) (world : σ) :
    Option Report × Controller × σ :=
  let p := cycle host s c.state world
  (p.phase.report?, { c with state := p.state }, p.world)

/-! ## The life of a controller -/

/-- How an attempt to start ended. -/
inductive Started where
  | started
  | refused (fault : Fault)
  /-- Started, but the loop crashed: its first tick would have come after the last possible one. -/
  | loopCrashed
  /-- The first cycle did not come to its end. -/
  | aborted

/-- Takes the fans over, runs a cycle, and begins a loop. A controller that runs is not started
again. -/
def start (host : Host σ) (s : Settings) (c : Controller) (world : σ) :
    Started × Controller × σ :=
  if c.running then (.refused .alreadyRunning, c, world)
  else
    let c := { c with running := true, starts := c.starts + 1 }
    let world := (host.perform .enableManual world).2
    match c.runCycle host s world with
    | (some _, c, world) =>
      let l : Loop := ⟨c.starts, c.timer + s.monitoring.period⟩
      if l.nextTick ≤ lastTick then (.started, wake { c with loops := c.loops ++ [l] }, world)
      else (.loopCrashed, c, world)
    | (none, c, world) => (.aborted, c, world)

/-- Gives the fans back and wakes the loop. Says whether there was anything to stop. -/
def stop (host : Host σ) (c : Controller) (world : σ) : Bool × Controller × σ :=
  if c.running then
    let world := if host.live then (host.perform .restoreAuto world).2 else world
    (true, wake { c with running := false, wakeUp := true }, world)
  else (false, c, world)

/-- The tick of a loop: it runs a cycle and waits for its next tick. It ends instead if it is not
wanted any more, or if its cycle does not come to its end. -/
def tick (host : Host σ) (s : Settings) (c : Controller) (l : Loop) (world : σ) :
    Option Loop × Controller × σ :=
  if c.wants l then
    match c.runCycle host s world with
    | (some _, c, world) =>
      (some { l with nextTick := l.nextTick + s.monitoring.period }, c, world)
    | (none, c, world) => (none, c, world)
  else (none, c, world)

/-- The ticks of those loops whose time has come, one after another, and the loops that are left. -/
def ticks (host : Host σ) (s : Settings) :
    List Loop → Controller → σ → List Loop × Controller × σ
  | [], c, world => ([], c, world)
  | l :: rest, c, world =>
    let (kept, c, world) :=
      if l.nextTick = c.timer then c.tick host s l world else (some l, c, world)
    let (others, c, world) := ticks host s rest c world
    (kept.toList ++ others, c, world)

/-- One second of the timer. -/
def second (host : Host σ) (s : Settings) (c : Controller) (world : σ) : Controller × σ :=
  let c := { c with timer := c.timer + 1 }
  let (loops, c, world) := ticks host s c.loops c world
  ({ c with loops }, world)

/-! ## Hints and the override -/

/-- Adds the hint of a source. -/
def addHint (c : Controller) (request : HintRequest) (now : Instant) :
    Except OutOfCalendar (Hint × Controller) := do
  let (hint, registry) ← c.state.registry.addHint request now
  pure (hint, { c with state := { c.state with registry } })

/-- Withdraws the hint of a source. -/
def removeHint (c : Controller) (source : String) : Controller :=
  { c with state := { c.state with registry := c.state.registry.removeHint source } }

/-- Sets the override. -/
def setOverride (c : Controller) (speed : Int) (duration : Span) (reason : String) (now : Instant) :
    Except OutOfCalendar (Except Fault Override × Controller) := do
  let (result, registry) ← c.state.registry.setOverride speed duration reason now
  pure (result, { c with state := { c.state with registry } })

/-- Clears the override. -/
def clearOverride (c : Controller) : Controller :=
  { c with state := { c.state with registry := c.state.registry.clearOverride } }

end Controller

end ChassisCooling.Control
