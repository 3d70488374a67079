import ChassisCooling.CommandLine.Run
import ChassisCooling.Daemon.Serving
import Std.Time.DateTime.Timestamp

/-! # The programs

The daemon `ofcd` and its client `ofc`; the first word says which of the two is meant. Sensors and
fans are simulated and the files are kept in memory. The daemon takes request lines from standard
input and writes the responses to standard output, one on a line, until the input ends. The client
talks to a daemon that lives only for its command.
-/

namespace ChassisCooling.Program

open Calendar Daemon

/-- The time of the system's clock. -/
def wallClock : IO Instant := do
  let now ← Std.Time.Timestamp.now
  pure (Instant.ofNanos now.toNanosecondsSinceUnixEpoch.val)

/-- The variables of the environment that matter. -/
def environment : IO Environment := do
  let values ← Settings.variableNames.mapM fun name => do pure ((← IO.getEnv name).map (name, ·))
  pure (.ofList (values.filterMap id))

/-- A world without programs. -/
def noPrograms : Sensors.Runner Unit :=
  fun _ _ w => (.notStarted .noEntry, w)

/-- Starts a daemon whose sensors and fans are simulated and whose files are in memory. -/
def startDaemon (words : List String) : IO (Started Unit) := do
  let surroundings : Surroundings Unit :=
    { environment := ← environment, disk := .empty, now := ← wallClock, tools := (),
      abortNote := fun task => s!"task {task} panicked" }
  let words := if words.contains "--demo" then words else "--demo" :: words
  pure (Daemon.start noPrograms surroundings words)

/-- Writes what a program shows, and gives its exit code. -/
def finish (e : CommandLine.Ending) : IO UInt32 := do
  (← IO.getStdout).putStr e.stdout
  (← IO.getStderr).putStr e.stderr
  pure (UInt32.ofNat e.code)

/-- Answers lines until the input ends. -/
partial def answerLines (input output : IO.FS.Stream) (d : Running Unit) : IO UInt32 := do
  let line ← input.getLine
  if line.isEmpty then pure 0
  else
    let (responses, _, d) :=
      (d.passTo (← wallClock)).connection [Text.Utf8.encodeString line]
    for response in responses do
      output.putStr (response.line ++ "\n")
    output.flush
    answerLines input output d

/-- The daemon. -/
def runDaemon (words : List String) : IO UInt32 := do
  match ← startDaemon words with
  | .ended fault _ => finish fault.ending
  | .serving d => answerLines (← IO.getStdin) (← IO.getStdout) d

/-- The client. -/
def runClient (words : List String) : IO UInt32 := do
  match ← startDaemon [] with
  | .ended fault _ => finish fault.ending
  | .serving d =>
    let reach := Client.reach d.service.machine.disk fun _ => true
    match CommandLine.client Running.peer reach (← IO.getEnv "OFC_SOCKET") words d with
    | .ok (e, _) => finish e
    | .error _ => pure 101

end ChassisCooling.Program

/-- The first word chooses the program. -/
def main (words : List String) : IO UInt32 :=
  match words with
  | "ofcd" :: rest => ChassisCooling.Program.runDaemon rest
  | "ofc" :: rest => ChassisCooling.Program.runClient rest
  | _ => ChassisCooling.Program.finish ⟨2, "", "Usage: ofcd [OPTIONS] or ofc [OPTIONS] <COMMAND>\n"⟩
