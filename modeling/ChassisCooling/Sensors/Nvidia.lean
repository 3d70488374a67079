import ChassisCooling.Reading
import ChassisCooling.Sensors.Tool
import ChassisCooling.Settings.Basic
import ChassisCooling.Text.Digit
import ChassisCooling.Text.Lines
import ChassisCooling.Text.Split

/-! # Graphics cards

A program lists the graphics cards, one on a line, with the fields of a card between commas.
-/

namespace ChassisCooling.Sensors.Nvidia

/-- The words for a value that a card does not have. -/
def absentWords : List (List Char) :=
  [[], ['N', '/', 'A'], ['[', 'N', '/', 'A', ']'],
    ['[', 'N', 'o', 't', ' ', 'S', 'u', 'p', 'p', 'o', 'r', 't', 'e', 'd', ']']]

/-- The whole part of a number of at most 64 bits; anything else is 0. -/
def value (field : List Char) : Int :=
  if absentWords.contains field then 0
  else
    match Text.readSigned? (field.takeWhile fun c => c != '.') with
    | some n => if -9223372036854775808 ≤ n ∧ n ≤ 9223372036854775807 then n else 0
    | none => 0

/-- The card on a line; a line of fewer than seven fields has none, and further fields are passed
over. -/
def device? (line : List Char) : Option GpuDevice :=
  match (Text.split ',' line).map Text.trim with
  | index :: name :: temp :: utilization :: used :: total :: power :: _ =>
    some {
      index := UInt32.ofNat (value index).toNat
      name := String.ofList name
      temp := Int32.ofInt (value temp)
      utilization := Int32.ofInt (value utilization)
      memoryUsed := Int64.ofInt (value used)
      memoryTotal := Int64.ofInt (value total)
      powerDraw := Int32.ofInt (value power) }
  | _ => none

/-- The cards in a listing. -/
def devices (listing : String) : List GpuDevice :=
  ((Text.lines listing.toList).filter fun line => !line.all Text.isBlank).filterMap device?

/-- The arguments that ask for the listing. -/
def queryArguments : List String :=
  ["--query-gpu=index,name,temperature.gpu,utilization.gpu,memory.used,memory.total,power.draw",
    "--format=csv,noheader,nounits"]

/-- Reads the graphics cards. Where they are not watched the program is not run. -/
def read {σ : Type} (run : Runner σ) (m : Monitoring) (w : σ) : Except Fault GpuReading × σ :=
  if m.gpuEnabled then
    let (result, w) := run.start m.gpuTool queryArguments w
    match result.output m.gpuTool with
    | .ok listing => (.ok (.ofDevices (devices listing)), w)
    | .error fault => (.error (.sensorRead "nvidia-smi" fault.message), w)
  else (.ok .empty, w)

end ChassisCooling.Sensors.Nvidia
