import ChassisCooling.CommandLine.Word

/-! # Grammars of command lines

A level of a command line has options, perhaps an operand, and perhaps commands, each of which is a
level of its own. Words are taken from left to right. A command hands all later words to its own
level, and only when that level has been read to its end is the last value of the level above it
looked at.

Every level knows `-h`, `--help`, `-V` and `--version`, and a level with commands also has the
command `help`.
-/

namespace ChassisCooling.CommandLine

/-- An option of a level. -/
structure Choice where
  long : String
  short : Option Char := none
  /-- The kind of its value; absent when it takes none. -/
  takes : Option ValueKind
  required : Bool := false
deriving DecidableEq, Repr

/-- A word that stands for itself, without an option. -/
structure Operand where
  name : String
  kind : ValueKind
deriving DecidableEq, Repr

/-- A level of a command line. -/
inductive Grammar where
  | level (choices : List Choice) (operand : Option Operand) (commands : List (String × Grammar))

namespace Grammar

def choices : Grammar → List Choice
  | level choices _ _ => choices

def operand : Grammar → Option Operand
  | level _ operand _ => operand

def commands : Grammar → List (String × Grammar)
  | level _ _ commands => commands

/-- The level that a command leads to. -/
def command? (g : Grammar) (name : String) : Option Grammar :=
  (g.commands.find? fun c => c.1 == name).map Prod.snd

def hasCommands (g : Grammar) : Bool :=
  !g.commands.isEmpty

def long? (g : Grammar) (name : String) : Option Choice :=
  g.choices.find? fun c => c.long == name

def short? (g : Grammar) (letter : Char) : Option Choice :=
  g.choices.find? fun c => c.short == some letter

/-- The names of what has to be given. An operand always has. -/
def required (g : Grammar) : List String :=
  (g.choices.filter Choice.required).map Choice.long ++ g.operand.toList.map Operand.name

end Grammar

/-! ## Reading one level -/

/-- An option or operand whose value is not looked at yet; an option may still wait for it. -/
structure Pending where
  name : String
  kind : ValueKind
  value : Option String
deriving DecidableEq, Repr

/-- What the words of a level have given so far. -/
structure Level where
  /-- The commands that lead to the level. -/
  path : List String
  values : List (String × Value)
  pending : Option Pending
  /-- Two dashes were met. -/
  plainOnly : Bool
deriving DecidableEq, Repr

namespace Level

/-- A level of which no word has been taken. -/
def start (path : List String) : Level :=
  ⟨path, [], none, false⟩

/-- The value given under a name. -/
def value? (l : Level) (name : String) : Option Value :=
  (l.values.find? fun v => v.1 == name).map Prod.snd

/-- The last option waits for its value. -/
def awaits (l : Level) : Bool :=
  !l.plainOnly && l.pending.any fun p => p.value.isNone

/-- A value joins those of the level. Each name has one value. -/
def add (l : Level) (name : String) (value : Value) : Except Usage Level :=
  if (l.value? name).isSome then .error .repeated
  else .ok { l with values := l.values ++ [(name, value)] }

/-- The value of an option or operand is looked at. -/
def accept (l : Level) (name : String) (kind : ValueKind) (value : String) : Except Usage Level :=
  if (l.value? name).isSome then .error .repeated
  else do l.add name (← kind.read value)

/-- The value that was last taken in is looked at. -/
def resolve (l : Level) : Except Usage Level :=
  match l.pending with
  | none => .ok l
  | some p =>
    match p.value with
    | none => .error .missingValue
    | some value => accept { l with pending := none } p.name p.kind value

/-- An option that takes no value. -/
def flag (l : Level) (c : Choice) : Except Usage Level := do
  (← l.resolve).add c.long .present

/-- An option that takes a value: one that is attached is looked at, otherwise it is waited for. -/
def option (l : Level) (c : Choice) (kind : ValueKind) (attached : Option String) :
    Except Usage Level := do
  let l ← l.resolve
  match attached with
  | some value => l.accept c.long kind value
  | none => pure { l with pending := some ⟨c.long, kind, none⟩ }

/-- What was asked for is shown, once the value before it has been looked at. -/
def ask (l : Level) (request : Usage) : Except Usage Level := do
  let _ ← l.resolve
  .error request

/-- An option by its long name. -/
def long (g : Grammar) (l : Level) (name : String) (attached : Option String) :
    Except Usage Level :=
  match g.long? name with
  | some c =>
    match c.takes with
    | some kind => l.option c kind attached
    | none => if attached.isSome then .error .needlessValue else l.flag c
  | none =>
    let request? := if name == "help" then some (Usage.help l.path)
      else if name == "version" then some (Usage.version l.path)
      else none
    match request? with
    | none => .error .unknownArgument
    | some request => if attached.isSome then .error .needlessValue else l.ask request

/-- What follows the letter of an option in its word, as an attached value. -/
def attachedTo : List Char → Option String
  | [] => none
  | '=' :: value => some (String.ofList value)
  | value => some (String.ofList value)

/-- Options by their letters. The first that takes a value takes the rest of the word. -/
def short (g : Grammar) (l : Level) : List Char → Except Usage Level
  | [] => .ok l
  | c :: rest =>
    match g.short? c with
    | some choice =>
      match choice.takes with
      | some kind => l.option choice kind (attachedTo rest)
      | none => do short g (← l.flag choice) rest
    | none =>
      if c == 'h' then l.ask (.help l.path)
      else if c == 'V' then l.ask (.version l.path)
      else .error .unknownArgument

/-- Something was given under a name, looked at or not. -/
def mentions (l : Level) (name : String) : Bool :=
  (l.value? name).isSome || l.pending.any fun p => p.name == name

/-- A word in the place of an operand. -/
def place (g : Grammar) (l : Level) (word : String) : Except Usage Level :=
  match g.operand.filter fun operand => !l.mentions operand.name with
  | some operand => do
    pure { ← l.resolve with pending := some ⟨operand.name, operand.kind, some word⟩ }
  | none =>
    let isCommand := (g.command? word).isSome || word == "help"
    if g.hasCommands && !(l.plainOnly && isCommand) then .error .unknownCommand
    else .error .unknownArgument

/-- A plain word is the value that is waited for, or stands in the place of an operand. -/
def plain (g : Grammar) (l : Level) (word : String) : Except Usage Level :=
  match l.awaits, l.pending with
  | true, some p => .ok { l with pending := some { p with value := some word } }
  | _, _ => l.place g word

/-- A word that is no command. -/
def take (g : Grammar) (l : Level) (word : String) : Except Usage Level :=
  if l.plainOnly then l.place g word
  else match Word.ofString word with
    | .dashes => .ok { l with plainOnly := true }
    | .long name value => l.long g name value
    | .short letters => l.short g letters
    | .plain text => l.plain g text

/-- What has to be given has been given. -/
def complete (g : Grammar) (l : Level) : Except Usage Level :=
  if g.required.all fun name => (l.value? name).isSome then .ok l else .error .missingArgument

/-- The end of the words, with no command among them. -/
def finish (g : Grammar) (l : Level) : Except Usage Level := do
  let l ← l.resolve
  if g.hasCommands then
    if l.values.isEmpty then .error .helpForNothing else .error .missingCommand
  else l.complete g

end Level

/-! ## Reading all levels -/

/-- The words after the command `help` name commands, one below the other. -/
def helpFor (g : Grammar) (path : List String) : List String → Usage
  | [] => .help path
  | word :: rest =>
    match g.command? word with
    | some below => helpFor below (path ++ [word]) rest
    | none =>
      if g.hasCommands && word == "help" && rest.isEmpty then .help (path ++ [word])
      else .unknownCommand

/-- Reads the words of a level of which some have been taken, and of the levels below it. -/
def readFrom (g : Grammar) (l : Level) : List String → Except Usage (List Level)
  | [] => do pure [← l.finish g]
  | word :: rest =>
    if l.plainOnly || l.awaits then do readFrom g (← l.take g word) rest
    else if g.hasCommands && word == "help" then .error (helpFor g l.path rest)
    else match g.command? word with
      | some below => do
        let levels ← readFrom below (.start (l.path ++ [word])) rest
        let l ← l.resolve
        pure ((← l.complete g) :: levels)
      | none => do readFrom g (← l.take g word) rest

/-- Reads the words after the name of a program: the levels that they go through, outermost
first. -/
def read (g : Grammar) (words : List String) : Except Usage (List Level) :=
  readFrom g (.start []) words

/-- The value under a name that lies deepest. -/
def deepest? (levels : List Level) (name : String) : Option Value :=
  levels.reverse.findSome? fun l => l.value? name

/-! ## Usage -/

/-- The name that stands for a value. -/
def valueName (name : String) : String :=
  "<" ++ name.toUpper ++ ">"

namespace Grammar

/-- The level that some commands lead to. -/
def below? (g : Grammar) : List String → Option Grammar
  | [] => some g
  | name :: path => (g.command? name).bind fun g => g.below? path

/-- How the words of a level are put together. -/
def usage (g : Grammar) : List String :=
  let required := (g.choices.filter Choice.required).map fun c =>
    "--" ++ c.long ++ " " ++ valueName c.long
  ["[OPTIONS]"] ++ required ++ g.operand.toList.map (fun o => valueName o.name) ++
    if g.hasCommands then [valueName "command"] else []

end Grammar

/-- How a program ended. -/
structure Ending where
  code : Nat
  stdout : String
  stderr : String
deriving DecidableEq, Repr

/-- The line that says how a program is called. -/
def usageLine (g : Grammar) (program : String) (path : List String) : String :=
  "Usage: " ++ String.intercalate " " (program :: path ++ ((g.below? path).getD g).usage) ++ "\n"

/-- How a program ends whose words are not carried out. -/
def Usage.ending (g : Grammar) (program version : String) (u : Usage) : Ending :=
  match u with
  | help path => ⟨u.exitCode, usageLine g program path, ""⟩
  | Usage.version path =>
    ⟨u.exitCode, String.intercalate "-" (program :: path) ++ " " ++ version ++ "\n", ""⟩
  | _ => ⟨u.exitCode, "", usageLine g program []⟩

end ChassisCooling.CommandLine
