import ChassisCooling.Json.Record

/-! # Temperature readings

What the sensors report in one control cycle: the temperatures of the processors and the state of
the graphics cards, each with the highest temperature among them.
-/

namespace ChassisCooling

/-- The highest of some temperatures, or 0 if there is none. -/
def hottest : List Int32 → Int32
  | [] => 0
  | t :: rest => rest.foldl max t

/-- The higher of two temperatures is one of them, and none is above it. -/
theorem higher_cases (s t : Int32) : (max s t = s ∨ max s t = t) ∧ s ≤ max s t ∧ t ≤ max s t := by
  rw [show max s t = if s ≤ t then t else s from rfl]
  split
  · next below => exact ⟨.inr rfl, below, Int32.le_refl t⟩
  · next above => exact ⟨.inl rfl, Int32.le_refl s, (Int32.le_total s t).resolve_left above⟩

/-- The highest of some temperatures is one of them, and none is above it. -/
theorem hottest_greatest {temps : List Int32} (filled : temps ≠ []) :
    hottest temps ∈ temps ∧ ∀ t ∈ temps, t ≤ hottest temps := by
  obtain ⟨first, rest, rfl⟩ := List.exists_cons_of_ne_nil filled
  clear filled
  induction rest generalizing first with
  | nil =>
    constructor
    · exact List.mem_singleton.mpr rfl
    · intro t among
      exact Int32.le_of_eq (List.mem_singleton.mp among)
  | cons next rest ih =>
    obtain ⟨held, above⟩ := ih (max first next)
    obtain ⟨one, left, right⟩ := higher_cases first next
    change hottest (max first next :: rest) ∈ first :: next :: rest ∧
      ∀ t ∈ first :: next :: rest, t ≤ hottest (max first next :: rest)
    have top := above (max first next) (List.mem_cons_self ..)
    simp only [List.mem_cons] at held above ⊢
    constructor
    · rcases held with same | later
      · rw [same]
        exact one.imp_right .inl
      · exact .inr (.inr later)
    · rintro t (rfl | rfl | among)
      · exact Int32.le_trans left top
      · exact Int32.le_trans right top
      · exact above t (.inr among)

/-- The temperatures of the processors. -/
structure CpuReading where
  temps : List Int32
  max : Int32
deriving DecidableEq, Repr

/-- One graphics card. -/
structure GpuDevice where
  index : UInt32
  name : String
  temp : Int32
  utilization : Int32
  memoryUsed : Int64
  memoryTotal : Int64
  powerDraw : Int32
deriving DecidableEq, Repr

/-- The graphics cards. -/
structure GpuReading where
  devices : List GpuDevice
  max : Int32
deriving DecidableEq, Repr

namespace CpuReading

/-- The reading with the given temperatures. -/
def ofTemps (temps : List Int32) : CpuReading :=
  ⟨temps, hottest temps⟩

/-- The reading that stands for a failed one. -/
def empty : CpuReading :=
  ⟨[], 0⟩

def toJson (r : CpuReading) : Json :=
  .obj [("Temps", .array (r.temps.map Json.int32)), ("Max", .int32 r.max)]

def ofJson? (j : Json) : Option CpuReading := do
  match ← j.fields? ["Temps", "Max"] with
  | [temps, max] =>
    pure ⟨← Json.required? (Json.asList? Json.asInt32?) temps, ← Json.required? Json.asInt32? max⟩
  | _ => none

end CpuReading

namespace GpuDevice

def toJson (d : GpuDevice) : Json :=
  .obj [
    ("index", .uint32 d.index),
    ("name", .str d.name),
    ("temp", .int32 d.temp),
    ("utilization", .int32 d.utilization),
    ("memory_used", .int64 d.memoryUsed),
    ("memory_total", .int64 d.memoryTotal),
    ("power_draw", .int32 d.powerDraw)]

def fieldNames : List String :=
  ["index", "name", "temp", "utilization", "memory_used", "memory_total", "power_draw"]

def ofJson? (j : Json) : Option GpuDevice := do
  match ← j.fields? fieldNames with
  | [index, name, temp, utilization, memoryUsed, memoryTotal, powerDraw] =>
    pure {
      index := ← Json.required? Json.asUInt32? index
      name := ← Json.required? Json.asString? name
      temp := ← Json.required? Json.asInt32? temp
      utilization := ← Json.required? Json.asInt32? utilization
      memoryUsed := ← Json.required? Json.asInt64? memoryUsed
      memoryTotal := ← Json.required? Json.asInt64? memoryTotal
      powerDraw := ← Json.required? Json.asInt32? powerDraw }
  | _ => none

end GpuDevice

namespace GpuReading

/-- The reading with the given cards. -/
def ofDevices (devices : List GpuDevice) : GpuReading :=
  ⟨devices, hottest (devices.map GpuDevice.temp)⟩

/-- The reading that stands for a failed one, and for a host whose cards are not watched. -/
def empty : GpuReading :=
  ⟨[], 0⟩

def toJson (r : GpuReading) : Json :=
  .obj [("Devices", .array (r.devices.map GpuDevice.toJson)), ("Max", .int32 r.max)]

def ofJson? (j : Json) : Option GpuReading := do
  match ← j.fields? ["Devices", "Max"] with
  | [devices, max] =>
    pure ⟨← Json.required? (Json.asList? GpuDevice.ofJson?) devices,
      ← Json.required? Json.asInt32? max⟩
  | _ => none

end GpuReading

end ChassisCooling
