import ChassisCooling.CommandLine.Grammar
import ChassisCooling.Files.Path
import ChassisCooling.Settings.Basic

/-! # The command line of the daemon -/

namespace ChassisCooling.Daemon

open CommandLine

/-- What the words after the name of the daemon say. -/
structure Options where
  settingsPath : Files.Path
  /-- Sensors and fans are simulated. -/
  demo : Bool
  socket : Option String
deriving DecidableEq, Repr

namespace Options

/-- The command line of the daemon. -/
def grammar : Grammar :=
  .level [
    ⟨"config", some 'c', some .path, false⟩,
    ⟨"demo", none, none, false⟩,
    ⟨"socket", some 's', some .text, false⟩] none []

/-- The options that the words stand for. -/
def ofWords (words : List String) : Except Usage Options := do
  let levels ← read grammar words
  let text (name : String) : Option String := (deepest? levels name).bind Value.text?
  pure {
    settingsPath := (text "config").getD Settings.defaultPath
    demo := (deepest? levels "demo").isSome
    socket := text "socket" }

end Options

end ChassisCooling.Daemon
