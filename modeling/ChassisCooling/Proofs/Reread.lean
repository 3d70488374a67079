import ChassisCooling.Proofs.Doubles
import ChassisCooling.Proofs.Requests
import ChassisCooling.Proofs.Times

/-! # Records read back

A record is written as an object of its fields, without those that are absent, and each field is
found again under its name. So a record is read back if the values of its fields are; of these only
times and doubles need a condition.
-/

namespace ChassisCooling

open Calendar

namespace Json

/-! ## Fields -/

/-- The members of an object: fields in order, without those that are absent. -/
def given (fields : List (String × Option Json)) : List (String × Json) :=
  fields.flatMap fun field => optional field.1 field.2

variable {fields : List (String × Option Json)} {key : String} {value : Option Json}

theorem given_cons (key : String) (value : Option Json) (fields : List (String × Option Json)) :
    given ((key, value) :: fields) = optional key value ++ given fields :=
  List.flatMap_cons

theorem valuesOf_append (members others : List (String × Json)) (key : String) :
    valuesOf (members ++ others) key = valuesOf members key ++ valuesOf others key := by
  rw [valuesOf, List.filter_append, List.map_append]
  rfl

theorem valuesOf_optional (key : String) (value : Option Json) :
    valuesOf (optional key value) key = value.toList := by
  cases value with
  | none => rfl
  | some j =>
    rw [optional, valuesOf, List.filter_cons_of_pos (by simp)]
    rfl

theorem name_mem_of_mem_given {member : String × Json} (among : member ∈ given fields) :
    member.1 ∈ fields.map Prod.fst := by
  obtain ⟨field, listed, inside⟩ := List.mem_flatMap.mp among
  obtain ⟨j, -, rfl⟩ := mem_optional.mp inside
  exact List.mem_map_of_mem listed

theorem valuesOf_given_of_notMem (missing : key ∉ fields.map Prod.fst) :
    valuesOf (given fields) key = [] := by
  rw [valuesOf, List.map_eq_nil_iff, List.filter_eq_nil_iff]
  intro member among same
  rw [beq_iff_eq] at same
  exact missing (same ▸ name_mem_of_mem_given among)

theorem valuesOf_given (distinct : (fields.map Prod.fst).Nodup) (listed : (key, value) ∈ fields) :
    valuesOf (given fields) key = value.toList := by
  induction fields with
  | nil => cases listed
  | cons field fields ih =>
    obtain ⟨name, content⟩ := field
    obtain ⟨fresh, distinct⟩ := List.nodup_cons.mp distinct
    rw [given_cons, valuesOf_append]
    rcases List.mem_cons.mp listed with here | later
    · obtain ⟨rfl, rfl⟩ := Prod.mk.inj here
      rw [valuesOf_optional, valuesOf_given_of_notMem fresh, List.append_nil]
    · have other : name ≠ key := by
        intro same
        have among : key ∈ fields.map Prod.fst := List.mem_map.mpr ⟨_, later, rfl⟩
        exact fresh (same ▸ among)
      have absent : valuesOf (optional name content) key = [] := by
        cases content with
        | none => rfl
        | some j =>
          rw [optional, valuesOf, List.filter_cons_of_neg (by simpa using other)]
          rfl
      rw [absent, List.nil_append, ih distinct later]

/-- A field is found under its name. -/
theorem field?_given (distinct : (fields.map Prod.fst).Nodup) (listed : (key, value) ∈ fields) :
    field? (given fields) key = some value := by
  rw [field?, valuesOf_given distinct listed]
  cases value <;> rfl

/-- Reading every item gives something if it does so for each item. -/
theorem mapM_eq_some_map {α β γ : Type} {read : β → Option γ} {write : α → β} {value : α → γ}
    {items : List α} (each : ∀ a ∈ items, read (write a) = some (value a)) :
    (items.map write).mapM read = some (items.map value) := by
  induction items with
  | nil => rfl
  | cons a items ih =>
    obtain ⟨here, later⟩ := List.forall_mem_cons.mp each
    rw [List.map_cons, List.mapM_cons, here, ih later]
    rfl

theorem namedFields?_given {wanted : List (String × Option Json)}
    (distinct : (fields.map Prod.fst).Nodup) (part : wanted ⊆ fields) :
    namedFields? (wanted.map Prod.fst) (given fields) = some (wanted.map Prod.snd) :=
  mapM_eq_some_map fun _ listed => field?_given distinct (part listed)

theorem fields?_obj (names : List String) (members : List (String × Json)) :
    (obj members).fields? names = namedFields? names members := by
  rw [obj, fields?, namedMembers?_map, Option.bind_some]

/-- The fields of a record are read from the object of the record. -/
theorem fields?_given (fields : List (String × Option Json)) {names : List String}
    (named : fields.map Prod.fst = names) (distinct : names.Nodup) :
    (obj (given fields)).fields? names = some (fields.map Prod.snd) := by
  subst named
  rw [fields?_obj, namedFields?_given distinct (List.Subset.refl _)]

/-! ## Values -/

@[simp]
theorem asUInt8?_uint8 (n : UInt8) : (uint8 n).asUInt8? = some n := by
  have bound := n.toNat_lt
  rw [asUInt8?, uint8, nat, asRange?_int (by omega) (by omega), Option.map_some,
    Int.toNat_natCast, UInt8.ofNat_toNat]

@[simp]
theorem asUInt32?_uint32 (n : UInt32) : (uint32 n).asUInt32? = some n := by
  have bound := n.toNat_lt
  rw [asUInt32?, uint32, nat, asRange?_int (by omega) (by omega), Option.map_some,
    Int.toNat_natCast, UInt32.ofNat_toNat]

@[simp]
theorem asInt32?_int32 (n : Int32) : (int32 n).asInt32? = some n := by
  have low := n.le_toInt
  have high := n.toInt_lt
  rw [asInt32?, int32, asRange?_int (by omega) (by omega), Option.map_some, Int32.ofInt_toInt]

theorem asTime?_time {t : Instant} (writable : t.IsWritable) : (time t).asTime? = some t := by
  rw [asTime?, time, asString?_str, Option.bind_some, Rfc3339.read?_text writable]

theorem asList?_map {α : Type} {read : Json → Option α} {write : α → Json} {items : List α}
    (each : ∀ a ∈ items, read (write a) = some a) :
    asList? read (.array (items.map write)) = some items := by
  rw [asList?, mapM_eq_some_map each, List.map_id']

@[simp]
theorem asWord?_str (held : Bool) (text : String) : (str text).asWord? held = some text :=
  rfl

@[simp]
theorem required?_some {α : Type} (read : Json → Option α) (j : Json) :
    required? read (some j) = read j :=
  rfl

/-- What may be absent is read back when it is given. -/
theorem optional?_map {α : Type} {read : Json → Option α} {write : α → Json} {value : Option α}
    (filled : ∀ a, write a ≠ .null) (back : ∀ a ∈ value, read (write a) = some a) :
    optional? read (value.map write) = some value := by
  cases value with
  | none => rfl
  | some a =>
    have same : asNullable? read (write a) = (read (write a)).map some :=
      asNullable?.eq_2 _ _ (filled a)
    rw [Option.map_some, optional?, defaulted?, same, back a rfl]
    rfl

end Json

open Json

/-! ## Readings -/

namespace CpuReading

/-- The fields of a reading. -/
def entries (r : CpuReading) : List (String × Option Json) :=
  [("Temps", some (.array (r.temps.map Json.int32))), ("Max", some (.int32 r.max))]

@[simp]
theorem ofJson?_toJson (r : CpuReading) : ofJson? r.toJson = some r := by
  have fields : r.toJson.fields? ["Temps", "Max"] = some (r.entries.map Prod.snd) :=
    fields?_given r.entries rfl (by decide)
  have temps : asList? asInt32? (.array (r.temps.map Json.int32)) = some r.temps :=
    asList?_map fun t _ => asInt32?_int32 t
  rw [ofJson?, fields]
  simp [entries, temps]

end CpuReading

namespace GpuDevice

/-- The fields of a card. -/
def entries (d : GpuDevice) : List (String × Option Json) :=
  [("index", some (.uint32 d.index)), ("name", some (.str d.name)), ("temp", some (.int32 d.temp)),
    ("utilization", some (.int32 d.utilization)), ("memory_used", some (.int64 d.memoryUsed)),
    ("memory_total", some (.int64 d.memoryTotal)), ("power_draw", some (.int32 d.powerDraw))]

@[simp]
theorem ofJson?_toJson (d : GpuDevice) : ofJson? d.toJson = some d := by
  have fields : d.toJson.fields? fieldNames = some (d.entries.map Prod.snd) :=
    fields?_given d.entries rfl (by decide)
  rw [ofJson?, fields]
  simp [entries]

end GpuDevice

namespace GpuReading

/-- The fields of a reading. -/
def entries (r : GpuReading) : List (String × Option Json) :=
  [("Devices", some (.array (r.devices.map GpuDevice.toJson))), ("Max", some (.int32 r.max))]

@[simp]
theorem ofJson?_toJson (r : GpuReading) : ofJson? r.toJson = some r := by
  have fields : r.toJson.fields? ["Devices", "Max"] = some (r.entries.map Prod.snd) :=
    fields?_given r.entries rfl (by decide)
  have devices : asList? GpuDevice.ofJson? (.array (r.devices.map GpuDevice.toJson)) =
      some r.devices :=
    asList?_map fun d _ => d.ofJson?_toJson
  rw [ofJson?, fields]
  simp [entries, devices]

end GpuReading

@[simp]
theorem Zone.ofName?_name (zone : Zone) : ofName? zone.name = some zone := by
  cases zone <;> rfl

@[simp]
theorem Mode.ofName?_name (mode : Mode) : ofName? mode.name = some mode := by
  cases mode <;> rfl

namespace ZoneBand

/-- The fields of a row. -/
def entries (b : ZoneBand) : List (String × Option Json) :=
  [("name", some (.str b.name)), ("cpu_max", some (.int32 b.cpuMax)),
    ("gpu_max", some (.int32 b.gpuMax)), ("fan_speed", some (.uint8 b.fanSpeed))]

@[simp]
theorem ofJson?_toJson (b : ZoneBand) : ofJson? b.toJson = some b := by
  have fields : b.toJson.fields? ["name", "cpu_max", "gpu_max", "fan_speed"] =
      some (b.entries.map Prod.snd) :=
    fields?_given b.entries rfl (by decide)
  rw [ofJson?, fields]
  simp [entries]

end ZoneBand

/-! ## Records with times -/

/-- The times of a hint can be written. -/
structure Hint.IsWritable (h : Hint) : Prop where
  created : h.created.IsWritable
  expires : ∀ t ∈ h.expires, t.IsWritable

namespace Hint

variable {h : Hint}

/-- The fields of a hint. -/
def entries (h : Hint) : List (String × Option Json) :=
  [("type", some (.str h.kind)), ("action", some (.str h.action)),
    ("intensity", some (.str h.intensity)), ("source", some (.str h.source)),
    ("min_fan_speed", some (.uint8 h.floor)), ("expires_at", h.expires.map .time),
    ("created_at", some (.time h.created))]

theorem ofJson?_toJson (writable : h.IsWritable) : ofJson? h.toJson = some h := by
  have fields : h.toJson.fields? fieldNames = some (h.entries.map Prod.snd) :=
    fields?_given h.entries rfl (by decide)
  have expires : optional? asTime? (h.expires.map .time) = some h.expires :=
    optional?_map nofun fun t ends => asTime?_time (writable.expires t ends)
  rw [ofJson?, fields]
  simp [entries, expires, asTime?_time writable.created]

end Hint

/-- The times of an override can be written. -/
structure Override.IsWritable (o : Override) : Prop where
  created : o.created.IsWritable
  expires : ∀ t ∈ o.expires, t.IsWritable

namespace Override

variable {o : Override}

/-- The fields of an override. -/
def entries (o : Override) : List (String × Option Json) :=
  [("speed", some (.uint8 o.speed)), ("reason", some (.str o.reason)),
    ("expires_at", o.expires.map .time), ("created_at", some (.time o.created))]

theorem ofJson?_toJson (writable : o.IsWritable) : ofJson? o.toJson = some o := by
  have fields : o.toJson.fields? ["speed", "reason", "expires_at", "created_at"] =
      some (o.entries.map Prod.snd) :=
    fields?_given o.entries rfl (by decide)
  have expires : optional? asTime? (o.expires.map .time) = some o.expires :=
    optional?_map nofun fun t ends => asTime?_time (writable.expires t ends)
  rw [ofJson?, fields]
  simp [entries, expires, asTime?_time writable.created]

end Override

namespace History.Point

variable {p : Point}

/-- The fields of a point. -/
def entries (p : Point) : List (String × Option Json) :=
  [("timestamp", some (.time p.timestamp)), ("cpu_temp", some (.int32 p.cpuTemp)),
    ("gpu_temp", some (.int32 p.gpuTemp)), ("fan_speed", some (.uint8 p.fanSpeed))]

theorem ofJson?_toJson (writable : p.timestamp.IsWritable) : ofJson? p.toJson = some p := by
  have fields : p.toJson.fields? ["timestamp", "cpu_temp", "gpu_temp", "fan_speed"] =
      some (p.entries.map Prod.snd) :=
    fields?_given p.entries rfl (by decide)
  rw [ofJson?, fields]
  simp [entries, asTime?_time writable]

end History.Point

/-- All times in a state can be written. -/
structure Status.IsWritable (s : Status) : Prop where
  timestamp : s.timestamp.IsWritable
  hints : ∀ h ∈ s.hints, h.IsWritable
  override : ∀ o ∈ s.override, o.IsWritable

namespace Status

variable {s : Status}

/-- The fields of a state. -/
def entries (s : Status) : List (String × Option Json) :=
  [("timestamp", some (.time s.timestamp)), ("cpu", some s.cpu.toJson), ("gpu", some s.gpu.toJson),
    ("current_speed", some (.uint8 s.currentSpeed)),
    ("target_speed", some (.uint8 s.targetSpeed)), ("zone", some (.str s.zone.name)),
    ("mode", some (.str s.mode.name)),
    ("active_hints", some (.array (s.hints.map Hint.toJson))),
    ("override", s.override.map Override.toJson), ("cpu_trend", some (.float s.cpuTrend)),
    ("gpu_trend", some (.float s.gpuTrend)),
    ("zones", some (.array (s.zones.map ZoneBand.toJson))),
    ("cpu_threshold", some (.int32 s.cpuThreshold)),
    ("gpu_threshold", some (.int32 s.gpuThreshold)), ("idle_speed", some (.uint8 s.idleSpeed))]

/-- A state is read back if and only if its trends are. -/
theorem ofJson?_toJson_iff (held : Bool) (writable : s.IsWritable) :
    ofJson? held s.toJson = some s ↔
      ∀ x ∈ [s.cpuTrend, s.gpuTrend], (float x).asFloat? = some x := by
  have fields : s.toJson.fields? fieldNames = some (s.entries.map Prod.snd) :=
    fields?_given s.entries rfl (by decide)
  have hints : asList? Hint.ofJson? (.array (s.hints.map Hint.toJson)) = some s.hints :=
    asList?_map fun h listed => Hint.ofJson?_toJson (writable.hints h listed)
  have override : optional? Override.ofJson? (s.override.map Override.toJson) = some s.override :=
    optional?_map nofun fun o set => Override.ofJson?_toJson (writable.override o set)
  have zones : asList? ZoneBand.ofJson? (.array (s.zones.map ZoneBand.toJson)) = some s.zones :=
    asList?_map fun b _ => b.ofJson?_toJson
  have read : ofJson? held s.toJson = (float s.cpuTrend).asFloat?.bind fun cpuTrend =>
      (float s.gpuTrend).asFloat?.bind fun gpuTrend => some { s with cpuTrend, gpuTrend } := by
    have zone : (some s.zone.name).bind Zone.ofName? = some s.zone := s.zone.ofName?_name
    have mode : (some s.mode.name).bind Mode.ofName? = some s.mode := s.mode.ofName?_name
    rw [ofJson?, fields, Option.bind_eq_bind, Option.bind_some]
    -- only the fields here, and the binds at once after them: taking one bind apart goes over all
    -- those inside it again
    simp only [entries, List.map_cons, List.map_nil, required?_some, hints, override, zones,
      asTime?_time writable.timestamp, CpuReading.ofJson?_toJson, GpuReading.ofJson?_toJson,
      asUInt8?_uint8, asInt32?_int32, asWord?_str, zone, mode]
    rfl
  rw [read, List.forall_mem_cons, List.forall_mem_singleton]
  constructor
  · intro same
    obtain ⟨x, cpu, same⟩ := Option.bind_eq_some_iff.mp same
    obtain ⟨y, gpu, same⟩ := Option.bind_eq_some_iff.mp same
    have first : x = s.cpuTrend := congrArg Status.cpuTrend (Option.some.inj same)
    have second : y = s.gpuTrend := congrArg Status.gpuTrend (Option.some.inj same)
    exact ⟨first ▸ cpu, second ▸ gpu⟩
  · rintro ⟨cpu, gpu⟩
    rw [cpu, gpu]
    rfl

end Status

end ChassisCooling
