import ChassisCooling.CommandLine.Grammar
import ChassisCooling.Wire.Envelope

/-! # The commands of the client

What a user can ask for on the command line of `ofc`, and how the words say it.
-/

namespace ChassisCooling.CommandLine

/-- A command of the client. -/
inductive Command where
  | ping
  | config
  | status (json : Bool)
  /-- The last so many seconds of the history. -/
  | history (duration : UInt64) (json : Bool)
  | hintStart (source kind intensity : String) (duration : Int64)
  | hintStop (source : String)
  | overrideSet (speed duration : Int64) (reason : String)
  | overrideClear
deriving DecidableEq, Repr

/-- A command, and the socket that was named for it. -/
structure Invocation where
  socket : Option String
  command : Command
deriving DecidableEq, Repr

namespace Invocation

/-- The option for the socket, which every level has. -/
def socketChoice : Choice :=
  ⟨"socket", none, some .text, false⟩

/-- A level without commands. -/
def leaf (choices : List Choice) (operand : Option Operand) : Grammar :=
  .level (choices ++ [socketChoice]) operand []

/-- A level that only leads to commands. -/
def branch (commands : List (String × Grammar)) : Grammar :=
  .level [socketChoice] none commands

def jsonChoice : Choice :=
  ⟨"json", none, none, false⟩

def sourceChoice : Choice :=
  ⟨"source", none, some .text, true⟩

/-- An option with a value of its own when it is not given. -/
def valueChoice (name : String) (kind : ValueKind) : Choice :=
  ⟨name, none, some kind, false⟩

/-- The command line of the client. -/
def grammar : Grammar :=
  branch [
    ("status", leaf [jsonChoice] none),
    ("history", leaf [valueChoice "duration" .unsigned, jsonChoice] none),
    ("hint", branch [
      ("start", leaf [sourceChoice, valueChoice "type" .text, valueChoice "intensity" .text,
        valueChoice "duration" .signed] none),
      ("stop", leaf [sourceChoice] none)]),
    ("override", branch [
      ("set", leaf [valueChoice "duration" .signed, valueChoice "reason" .text]
        (some ⟨"speed", .signed⟩)),
      ("clear", leaf [] none)]),
    ("config", leaf [] none),
    ("ping", leaf [] none)]

/-- The text under a name, or the one that stands for it. -/
def text (l : Level) (name value : String) : String :=
  ((l.value? name).bind Value.text?).getD value

/-- The number under a name, or the one that stands for it. -/
def number (l : Level) (name : String) (value : Int) : Int :=
  ((l.value? name).bind Value.number?).getD value

/-- The signed number under a name, or 0. -/
def signed (l : Level) (name : String) : Int64 :=
  Int64.ofInt (number l name 0)

/-- The command that the words of a level without commands stand for. -/
def commandOf? (l : Level) : Option Command :=
  match l.path with
  | ["status"] => some (.status (l.value? "json").isSome)
  | ["history"] =>
    let duration := number l "duration" Wire.Request.defaultWindow.toNat
    some (.history (UInt64.ofNat duration.toNat) (l.value? "json").isSome)
  | ["hint", "start"] =>
    some (.hintStart (text l "source" "") (text l "type" "gpu") (text l "intensity" "medium")
      (signed l "duration"))
  | ["hint", "stop"] => some (.hintStop (text l "source" ""))
  | ["override", "set"] =>
    some (.overrideSet (signed l "speed") (signed l "duration") (text l "reason" ""))
  | ["override", "clear"] => some .overrideClear
  | ["config"] => some .config
  | ["ping"] => some .ping
  | _ => none

/-- The invocation that the words after the name of the program stand for. -/
def ofWords (words : List String) : Except Usage Invocation := do
  let levels ← read grammar words
  match levels.getLast?.bind commandOf? with
  | some command => pure ⟨(deepest? levels "socket").bind Value.text?, command⟩
  | none => .error .missingCommand

/-- The socket of the daemon: the one named by an option comes before the one named by the
environment, and that before the usual one. -/
def socketPath (i : Invocation) (environment : Option String) (usual : String) : String :=
  (i.socket <|> environment).getD usual

end Invocation

end ChassisCooling.CommandLine
