/-! # Starts, stops and loops side by side

Starting, stopping and the loops are tasks that run at the same time. A task goes on by one atomic
step at a time, and between any two steps of one task others may take theirs. A task that needs the
fans waits at a gate, behind which there is at most one.

A start sets the running flag, takes its number, and then at the gate takes the fans over and runs a
cycle, after which its loop begins. A stop clears the flag, wakes a loop, and then at the gate gives
the fans back. A loop looks at the flag and at the number of the latest start, one after the other,
before it waits for a tick and again behind the gate.
-/

namespace ChassisCooling.Control.Tasks

/-- The next step of a start, which after its second step knows its number. -/
inductive StartPoint where
  | claim
  | number
  | enter (number : Nat)
  | enable (number : Nat)
  | cycle (number : Nat)
  | leave (number : Nat)
  | spawn (number : Nat)
  | done (number : Nat)
  | refused
deriving DecidableEq, Repr

/-- The next step of a stop. -/
inductive StopPoint where
  | claim
  | notify
  | enter
  | restore
  | leave
  | done
  /-- There was nothing to stop. -/
  | idle
deriving DecidableEq, Repr

/-- The next step of a loop. -/
inductive LoopPoint where
  | checkRunning
  | checkNumber
  | wait
  | enter
  | recheckRunning
  | recheckNumber
  | cycle
  /-- Leaves the gate, and goes on if it has run a cycle. -/
  | leave (again : Bool)
  | over
deriving DecidableEq, Repr

/-- A task and its next step. -/
inductive Task where
  | start (point : StartPoint)
  | stop (point : StopPoint)
  | loop (number : Nat) (point : LoopPoint)
deriving DecidableEq, Repr

/-- What is done to the fans. -/
inductive Act where
  | enableManual
  | cycle
  | restoreAuto
deriving DecidableEq, Repr

/-- All tasks, and what they share. -/
structure Arena where
  running : Bool
  /-- The number of the latest start. -/
  starts : Nat
  /-- The task behind the gate. -/
  gate : Option Nat
  /-- A loop that waits is to be woken. -/
  wakeUp : Bool
  tasks : List Task
  /-- What was done to the fans and by which task, newest first. -/
  acts : List (Nat × Act)
deriving DecidableEq, Repr

namespace Arena

/-- A controller that has not been started. -/
def start : Arena :=
  ⟨false, 0, none, false, [], []⟩

/-- A task goes on to another point. -/
def move (a : Arena) (i : Nat) (t : Task) : Arena :=
  { a with tasks := a.tasks.set i t }

/-- A task goes through the gate, if nobody is behind it. -/
def enter (a : Arena) (i : Nat) (t : Task) : Option Arena :=
  if a.gate.isNone then some { a.move i t with gate := some i } else none

/-- A task leaves the gate. -/
def leave (a : Arena) (i : Nat) (t : Task) : Arena :=
  { a.move i t with gate := none }

/-- A task does something to the fans. -/
def act (a : Arena) (i : Nat) (t : Task) (what : Act) : Arena :=
  { a.move i t with acts := (i, what) :: a.acts }

/-- The step of a start. -/
def stepStart (a : Arena) (i : Nat) : StartPoint → Option Arena
  | .claim =>
    if a.running then some (a.move i (.start .refused))
    else some { a.move i (.start .number) with running := true }
  | .number => some { a.move i (.start (.enter (a.starts + 1))) with starts := a.starts + 1 }
  | .enter n => a.enter i (.start (.enable n))
  | .enable n => some (a.act i (.start (.cycle n)) .enableManual)
  | .cycle n => some (a.act i (.start (.leave n)) .cycle)
  | .leave n => some (a.leave i (.start (.spawn n)))
  | .spawn n =>
    let moved := a.move i (.start (.done n))
    some { moved with tasks := moved.tasks ++ [.loop n .checkRunning] }
  | .done _ | .refused => none

/-- The step of a stop. -/
def stepStop (a : Arena) (i : Nat) : StopPoint → Option Arena
  | .claim =>
    if a.running then some { a.move i (.stop .notify) with running := false }
    else some (a.move i (.stop .idle))
  | .notify => some { a.move i (.stop .enter) with wakeUp := true }
  | .enter => a.enter i (.stop .restore)
  | .restore => some (a.act i (.stop .leave) .restoreAuto)
  | .leave => some (a.leave i (.stop .done))
  | .done | .idle => none

/-- The step of a loop. A wait ends by a tick. -/
def stepLoop (a : Arena) (i n : Nat) : LoopPoint → Option Arena
  | .checkRunning => some (a.move i (.loop n (if a.running then .checkNumber else .over)))
  | .checkNumber => some (a.move i (.loop n (if a.starts = n then .wait else .over)))
  | .wait => some (a.move i (.loop n .enter))
  | .enter => a.enter i (.loop n .recheckRunning)
  | .recheckRunning =>
    some (a.move i (.loop n (if a.running then .recheckNumber else .leave false)))
  | .recheckNumber =>
    some (a.move i (.loop n (if a.starts = n then .cycle else .leave false)))
  | .cycle => some (a.act i (.loop n (.leave true)) .cycle)
  | .leave again => some (a.leave i (.loop n (if again then .checkRunning else .over)))
  | .over => none

/-- A task takes its next step, if it has one that it can take. -/
def step (a : Arena) (i : Nat) : Option Arena :=
  match a.tasks[i]? with
  | none => none
  | some (.start point) => a.stepStart i point
  | some (.stop point) => a.stepStop i point
  | some (.loop n point) => a.stepLoop i n point

/-- A loop that waits is woken, if one is to be. -/
def wake (a : Arena) (i : Nat) : Option Arena :=
  match a.wakeUp, a.tasks[i]? with
  | true, some (.loop n .wait) => some { a.move i (.loop n .checkRunning) with wakeUp := false }
  | _, _ => none

/-- What can happen next. -/
inductive Move where
  /-- Somebody asks for a start. -/
  | callStart
  /-- Somebody asks for a stop. -/
  | callStop
  | step (task : Nat)
  | wake (task : Nat)
deriving DecidableEq, Repr

/-- What a move leads to, if it can be made. -/
def after (a : Arena) : Move → Option Arena
  | .callStart => some { a with tasks := a.tasks ++ [.start .claim] }
  | .callStop => some { a with tasks := a.tasks ++ [.stop .claim] }
  | .step i => a.step i
  | .wake i => a.wake i

/-- What moves lead to, one after another. -/
def run (a : Arena) (moves : List Move) : Option Arena :=
  moves.foldlM after a

end Arena

namespace Task

/-- A start or a stop that has not come to its end. -/
def isCall : Task → Bool
  | start (.done _) | start .refused | stop .done | stop .idle | loop .. => false
  | start _ | stop _ => true

/-- A loop that is behind the gate. -/
def isInGate : Task → Bool
  | loop _ point => match point with
    | .recheckRunning | .recheckNumber | .cycle | .leave _ => true
    | _ => false
  | _ => false

end Task

/-- No start, stop or cycle is in progress. -/
def Arena.isQuiet (a : Arena) : Bool :=
  a.tasks.all fun t => !t.isCall && !t.isInGate

end ChassisCooling.Control.Tasks
