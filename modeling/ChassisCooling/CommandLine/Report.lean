import ChassisCooling.Decimal.Fixed
import ChassisCooling.History.Point
import ChassisCooling.Status

/-! # Reports

The state and the history as they are shown to a person.
-/

namespace ChassisCooling.CommandLine

open Calendar

/-- A line with its end. -/
def line (text : String) : String :=
  text ++ "\n"

/-- A trend with its sign and one decimal place. -/
def trendText (trend : Float) : String :=
  String.ofList (Decimal.signedFixed 1 trend) ++ "°C/min"

/-- Temperatures in brackets. -/
def coresText (temps : List Int32) : String :=
  "[" ++ String.intercalate ", " (temps.map fun t => toString t.toInt) ++ "]"

/-- A temperature with its trend and its threshold. -/
def heatText (temp : Int32) (trend : Float) (threshold : Int32) : String :=
  s!"{temp.toInt}°C  trend {trendText trend}  threshold {threshold.toInt}°C"

def processorLine (s : Status) : String :=
  line s!"CPU:    {heatText s.cpu.max s.cpuTrend s.cpuThreshold}  cores {coresText s.cpu.temps}"

def cardsLine (s : Status) : String :=
  line s!"GPU:    {heatText s.gpu.max s.gpuTrend s.gpuThreshold}"

/-- How busy a card is. -/
def loadText (d : GpuDevice) : String :=
  s!"{d.utilization.toInt}% util, {d.memoryUsed.toInt}/{d.memoryTotal.toInt} MiB"

def deviceLine (d : GpuDevice) : String :=
  line s!"  [{d.index.toNat}] {d.name}: {d.temp.toInt}°C, {loadText d}, {d.powerDraw.toInt} W"

/-- When the override ends. -/
def untilText (o : Override) : String :=
  match o.expires with
  | some t => Rfc3339.textWithOffset t
  | none => "cleared"

def overrideLine (o : Override) : String :=
  line s!"Override: {o.speed.toNat}% until {untilText o} ({o.reason})"

def hintLine (h : Hint) : String :=
  line s!"  {h.source} ({h.kind}, {h.intensity}) floor {h.floor.toNat}%"

/-- The lines about the override, if there is one. -/
def overrideSection (o : Option Override) : List String :=
  match o with
  | none => []
  | some o => [line "", overrideLine o]

/-- The lines about the hints, if there are any. -/
def hintSection (hints : List Hint) : List String :=
  if hints.isEmpty then [] else [line "", line "Hints:"] ++ hints.map hintLine

/-- The state, as it is shown to a person. -/
def statusReport (s : Status) : String :=
  String.join <|
    [line "Fan Controller Status",
      line "=====================",
      line "",
      line s!"Mode:   {s.mode.name}",
      line s!"Zone:   {s.zone.name}",
      line s!"Fans:   {s.currentSpeed.toNat}% (target {s.targetSpeed.toNat}%)",
      line "",
      processorLine s,
      cardsLine s] ++
    s.gpu.devices.map deviceLine ++
    overrideSection s.override ++
    hintSection s.hints

/-! ## The history as a table -/

/-- A row of four columns. -/
def row (time cpu gpu fan : List Char) : String :=
  line (String.ofList (Text.padRight 26 time ++ ' ' :: Text.padLeft 5 cpu ++
    ' ' :: Text.padLeft 5 gpu ++ ' ' :: Text.padLeft 5 fan))

/-- The time of a point to the second. -/
def pointTime (t : Instant) : List Char :=
  Rfc3339.dateText t ++ ' ' :: Rfc3339.clockText t ++ [' ', 'U', 'T', 'C']

def pointRow (p : History.Point) : String :=
  row (pointTime p.timestamp) (Text.integerText p.cpuTemp.toInt) (Text.integerText p.gpuTemp.toInt)
    (Text.digits p.fanSpeed.toNat ++ ['%'])

/-- The history, as it is shown to a person. -/
def historyReport (points : List History.Point) : String :=
  if points.isEmpty then line "No history recorded in this window"
  else String.join <|
    row ['T', 'I', 'M', 'E'] ['C', 'P', 'U'] ['G', 'P', 'U'] ['F', 'A', 'N'] ::
      points.map pointRow

end ChassisCooling.CommandLine
