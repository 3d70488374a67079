import ChassisCooling.Text.Digit
import ChassisCooling.Text.Split

/-! # Words of a command line

A word that starts with dashes names options; every other word is plain. A value may be attached to
an option behind an equals sign.
-/

namespace ChassisCooling.CommandLine

/-- A word as it looks, before any option is known. -/
inductive Word where
  /-- Two dashes alone: no later word names options. -/
  | dashes
  /-- An option by its long name, perhaps with a value attached. -/
  | long (name : String) (value : Option String)
  /-- Options by their letters; what follows a letter may be its value. -/
  | short (letters : List Char)
  | plain (text : String)
deriving DecidableEq, Repr

/-- The texts before and after the first equals sign. -/
def cutAtEquals (text : List Char) : String × Option String :=
  let name := text.takeWhile fun c => c != '='
  match text.drop name.length with
  | [] => (String.ofList name, none)
  | _ :: value => (String.ofList name, some (String.ofList value))

/-- The look of a word. A dash alone is plain. -/
def Word.ofString (text : String) : Word :=
  match text.toList with
  | ['-', '-'] => .dashes
  | '-' :: '-' :: rest =>
    let (name, value) := cutAtEquals rest
    .long name value
  | '-' :: c :: rest => .short (c :: rest)
  | _ => .plain text

/-! ## Values -/

/-- What a value has to be. -/
inductive ValueKind where
  | text
  /-- A text that is not empty. -/
  | path
  /-- A whole number that fits into 64 bits. -/
  | unsigned
  /-- A whole number with a sign that fits into 64 bits. -/
  | signed
deriving DecidableEq, Repr

/-- A value that was given. -/
inductive Value where
  /-- The presence of an option that takes no value. -/
  | present
  | text (value : String)
  | number (value : Int)
deriving DecidableEq, Repr

namespace Value

/-- The text of a value. -/
def text? : Value → Option String
  | text value => some value
  | _ => none

/-- The number of a value. -/
def number? : Value → Option Int
  | number value => some value
  | _ => none

end Value

/-- Why the words are not carried out as a command. -/
inductive Usage where
  /-- An option that there is not, or a word that has no place. -/
  | unknownArgument
  /-- An option without its value. -/
  | missingValue
  /-- A value that is not what it has to be. -/
  | badValue
  /-- An option or operand that is given twice. -/
  | repeated
  /-- A value attached to an option that takes none. -/
  | needlessValue
  | unknownCommand
  | missingCommand
  /-- An option or operand that has to be given. -/
  | missingArgument
  /-- Help is asked for, at the level of these commands. -/
  | help (path : List String)
  /-- The version is asked for, at the level of these commands. -/
  | version (path : List String)
  /-- Help in place of a command, since there are no words at all. -/
  | helpForNothing
deriving DecidableEq, Repr

namespace Usage

/-- Help and the version are what was asked for; all else is an error. -/
def exitCode : Usage → Nat
  | help _ | version _ => 0
  | _ => 2

end Usage

/-- Reads a value. -/
def ValueKind.read (kind : ValueKind) (value : String) : Except Usage Value :=
  let number (n : Option Int) (low high : Int) : Except Usage Value :=
    match n.filter fun n => low ≤ n ∧ n ≤ high with
    | some n => .ok (.number n)
    | none => .error .badValue
  match kind with
  | text => .ok (.text value)
  | path => if value.isEmpty then .error .missingValue else .ok (.text value)
  | unsigned =>
    number ((Text.readUnsigned? value.toList).map Int.ofNat) 0 18446744073709551615
  | signed =>
    number (Text.readSigned? value.toList) (-9223372036854775808) 9223372036854775807

end ChassisCooling.CommandLine
