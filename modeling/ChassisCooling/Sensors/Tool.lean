import ChassisCooling.Fault
import ChassisCooling.Text.Blank
import ChassisCooling.Text.Utf8

/-! # Programs that are run for their output -/

namespace ChassisCooling.Sensors

/-- How the run of a program ended. -/
inductive Run where
  | notStarted (cause : Cause)
  | exited (code : Nat) (stdout stderr : List UInt8)
deriving Repr

/-- Output that is no text counts as no output. -/
def outputText (bytes : List UInt8) : String :=
  (Text.Utf8.decodeString? bytes).getD ""

/-- What a program wrote, if it ran and ended well. -/
def Run.output (run : Run) (program : String) : Except Fault String :=
  match run with
  | .notStarted cause => .error (.toolNotStarted program cause)
  | .exited code stdout stderr =>
    if code = 0 then .ok (outputText stdout)
    else .error (.toolFailed program (Text.trimString (outputText stderr)))

/-- Runs a program with arguments. -/
abbrev Runner (σ : Type) := String → List String → σ → Run × σ

/-- Runs a program with arguments, unless one of them holds the character U+0000, which no argument
can. -/
def Runner.start {σ : Type} (run : Runner σ) (program : String) (args : List String) (w : σ) :
    Run × σ :=
  if (program :: args).any fun text => text.toList.contains '\x00' then
    (.notStarted (.other "nul byte found in provided data"), w)
  else run program args w

end ChassisCooling.Sensors
