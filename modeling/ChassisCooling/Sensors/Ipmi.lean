import ChassisCooling.Reading
import ChassisCooling.Sensors.Tool
import ChassisCooling.Settings.Basic
import ChassisCooling.Text.Digit
import ChassisCooling.Text.Lines

/-! # The board's management controller

The processors' temperatures are read from, and the fans are driven through, a program that talks
to the management controller. Its temperature listing has a row for each sensor. The rows of the
processors are bare: their name is `Temp` alone, without a word for where in the airflow the sensor
sits.
-/

namespace ChassisCooling.Sensors.Ipmi

/-! ## Temperatures in a listing -/

/-- The word after a temperature. -/
def degrees : List Char := ['d', 'e', 'g', 'r', 'e', 'e', 's']

/-- The digits of a temperature that starts right here: digits, blanks, and the word. -/
def digitsHere? (text : List Char) : Option (List Char) :=
  let (ds, rest) := text.span Text.isDecimalDigit
  if !ds.isEmpty && degrees.isPrefixOf (rest.dropWhile Text.isBlank) then some ds else none

/-- The digits of the first temperature in a text. `inRun` says that a run of digits goes on here
which is known to be none. -/
def firstDigitsFrom? (inRun : Bool) : List Char → Option (List Char)
  | [] => none
  | c :: rest =>
    let isDigit := Text.isDecimalDigit c
    match if inRun && isDigit then none else digitsHere? (c :: rest) with
    | some ds => some ds
    | none => firstDigitsFrom? isDigit rest

/-- The digits of the first temperature in a text. -/
def firstDigits? (text : List Char) : Option (List Char) :=
  firstDigitsFrom? false text

/-- The degrees from which a temperature is noise. -/
def maxPlausible : Nat := 120

/-- The temperature that a row gives, if it is plausible. -/
def plausibleTemp? (row : List Char) : Option Int32 :=
  ((firstDigits? row).bind Text.readDigits?).bind fun n =>
    if 0 < n ∧ n < maxPlausible then some (Int32.ofNat n) else none

/-- A row for a processor. -/
def isBare (row : List Char) : Bool :=
  let lower := row.map Text.lowerAscii
  !Text.occursIn ['i', 'n', 'l', 'e', 't'] lower &&
    !Text.occursIn ['e', 'x', 'h', 'a', 'u', 's', 't'] lower &&
    ['T', 'e', 'm', 'p'].isPrefixOf (Text.trimStart row)

/-- The processors' temperatures in a listing: those of the bare rows, or of all rows if no bare row
has one. -/
def temperatures (listing : String) : List Int32 :=
  let rows := Text.lines listing.toList
  match (rows.filter isBare).filterMap plausibleTemp? with
  | [] => rows.filterMap plausibleTemp?
  | temps => temps

/-! ## Calls of the program -/

/-- The name of the program. -/
def program : String := "ipmitool"

/-- The controller is that of the machine itself. -/
def isLocal (bmc : Bmc) : Bool :=
  bmc.host == "local"

/-- The arguments that reach the controller, and the ones given. -/
def arguments (bmc : Bmc) (args : List String) : List String :=
  if isLocal bmc then args
  else ["-I", "lanplus", "-H", bmc.host, "-U", bmc.username, "-P", bmc.password] ++ args

/-- The argument for a percentage: two hexadecimal digits. -/
def percentArgument (percent : UInt8) : String :=
  let n := percent.toNat
  String.ofList ['0', 'x', Nat.digitChar (n / 16), Nat.digitChar (n % 16)]

def listArguments : List String :=
  ["sdr", "type", "temperature"]

def manualArguments : List String :=
  ["raw", "0x30", "0x30", "0x01", "0x00"]

def autoArguments : List String :=
  ["raw", "0x30", "0x30", "0x01", "0x01"]

/-- A speed is at most 100 percent. -/
def speedArguments (percent : UInt8) : List String :=
  ["raw", "0x30", "0x30", "0x02", "0xff", percentArgument (min percent 100)]

/-- What a call is made for, as its failure names it. -/
inductive Purpose where
  | enableManual
  | restoreAuto
  | setSpeed (percent : UInt8)

namespace Purpose

def arguments : Purpose → List String
  | enableManual => manualArguments
  | restoreAuto => autoArguments
  | setSpeed percent => speedArguments percent

def name : Purpose → String
  | enableManual => "enable manual fan control"
  | restoreAuto => "restore automatic fan control"
  | setSpeed _ => "set fan speed"

end Purpose

variable {σ : Type}

/-- Reads the processors' temperatures. -/
def read (run : Runner σ) (program : String) (bmc : Bmc) (w : σ) : Except Fault CpuReading × σ :=
  let (result, w) := run.start program (arguments bmc listArguments) w
  match result.output program with
  | .ok listing => (.ok (.ofTemps (temperatures listing)), w)
  | .error fault => (.error (.sensorRead "ipmitool sdr" fault.message), w)

/-- Drives the fans. -/
def drive (run : Runner σ) (program : String) (bmc : Bmc) (purpose : Purpose) (w : σ) :
    Except Fault Unit × σ :=
  let (result, w) := run.start program (arguments bmc purpose.arguments) w
  match result.output program with
  | .ok _ => (.ok (), w)
  | .error fault => (.error (.actuator s!"{purpose.name}: {fault.message}"), w)

end ChassisCooling.Sensors.Ipmi
