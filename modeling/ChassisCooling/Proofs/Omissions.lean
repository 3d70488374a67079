import ChassisCooling.Proofs.Fields
import ChassisCooling.Proofs.Layout
import ChassisCooling.Proofs.Reread

/-! # What is left out of settings

A document of settings from which sections are left out, or fields of sections, is read as the
settings with the default values in those places, and as the settings themselves if nothing is.
-/

namespace ChassisCooling

namespace Json

variable {form : Numeral → Prop} {members : List (String × Json)} {names : List String}
  {kept : String → Bool} {j : Json}

/-- An object without the members that are left out; anything else stays as it is. -/
def keeping (kept : String → Bool) : Json → Json
  | .object members => .object (members.filter fun m => m.1.all kept)
  | j => j

theorem keeping_obj (kept : String → Bool) (members : List (String × Json)) :
    (obj members).keeping kept = obj (members.filter fun m => kept m.1) := by
  rw [obj, keeping, obj, List.filter_map]
  rfl

theorem IsMadeOf.keeping (made : j.IsMadeOf form) (kept : String → Bool) :
    (j.keeping kept).IsMadeOf form := by
  cases made with
  | object keys values =>
    exact .object (fun m among => keys m (List.mem_filter.mp among).1)
      fun m among => values m (List.mem_filter.mp among).1
  | null => exact .null
  | bool b => exact .bool b
  | number formed => exact .number formed
  | string text => exact .string text
  | array each => exact .array each

theorem keeping_all (j : Json) : j.keeping (fun _ => true) = j := by
  cases j with
  | object members =>
    have all : ∀ m ∈ members, m.1.all (fun _ => true) = true := by
      intro m _
      cases m.1 <;> rfl
    rw [keeping, List.filter_eq_self.mpr all]
  | null | bool | number | string | array => rfl

/-- What is left of an object when members are left out, and members of its members. -/
def part (keepsSection : String → Bool) (keepsField : String → String → Bool) : Json → Json
  | .object sections =>
    let left := sections.map fun m => (m.1, m.2.keeping fun name => m.1.all (keepsField · name))
    (Json.object left).keeping keepsSection
  | j => j

theorem part_obj (keepsSection : String → Bool) (keepsField : String → String → Bool)
    (sections : List (String × Json)) : (obj sections).part keepsSection keepsField =
      (obj (sections.map fun m => (m.1, m.2.keeping (keepsField m.1)))).keeping keepsSection := by
  rw [obj, part, List.map_map, obj, List.map_map]
  rfl

theorem part_all (j : Json) : j.part (fun _ => true) (fun _ _ => true) = j := by
  cases j with
  | object sections =>
    have same : ∀ m ∈ sections, (m.1, m.2.keeping fun _ => m.1.all fun _ => true) = m := by
      intro m _
      have all : (m.1.all fun _ => true) = true := by cases m.1 <;> rfl
      rw [all, keeping_all]
    rw [part, keeping_all, List.map_congr_left same, List.map_id']
  | null | bool | number | string | array => rfl

theorem IsMadeOf.part (made : j.IsMadeOf form) (keepsSection : String → Bool)
    (keepsField : String → String → Bool) : (j.part keepsSection keepsField).IsMadeOf form := by
  cases made with
  | object keys values =>
    rw [Json.part]
    apply IsMadeOf.keeping
    refine .object (fun m among => ?_) fun m among => ?_
    · obtain ⟨m, listed, rfl⟩ := List.mem_map.mp among
      exact keys m listed
    · obtain ⟨m, listed, rfl⟩ := List.mem_map.mp among
      exact (values m listed).keeping _
  | null => exact .null
  | bool b => exact .bool b
  | number formed => exact .number formed
  | string text => exact .string text
  | array each => exact .array each

/-- Members that may be left out are fields that may be absent. -/
theorem filter_eq_given (kept : String → Bool) (members : List (String × Json)) :
    members.filter (fun m => kept m.1) =
      given (members.map fun m => (m.1, if kept m.1 then some m.2 else none)) := by
  induction members with
  | nil => rfl
  | cons m members ih =>
    rw [List.map_cons, given_cons, ← ih, List.filter_cons]
    split
    · rfl
    · rfl

/-- The fields of an object, without those that are left out. -/
def left (kept : String → Bool) (members : List (String × Json)) : List (Option Json) :=
  members.map fun m => if kept m.1 then some m.2 else none

/-- The fields that are left out are absent, the others are found under their names. -/
theorem fields?_keeping (kept : String → Bool) (members : List (String × Json))
    {names : List String} (named : members.map Prod.fst = names) (distinct : names.Nodup) :
    ((obj members).keeping kept).fields? names = some (left kept members) := by
  rw [keeping_obj, filter_eq_given, fields?_given _ _ distinct, List.map_map]
  · rfl
  · rw [List.map_map, ← named]
    rfl

/-- An absent field has its default value. -/
theorem defaulted?_ite {α : Type} {read : Json → Option α} {value : α} (back : read j = some value)
    (default : α) (given : Bool) : defaulted? read default (if given then some j else none) =
      some (if given then value else default) := by
  cases given
  · rfl
  · exact back

theorem asBool?_bool (b : Bool) : (Json.bool b).asBool? = some b :=
  rfl

end Json

open Json

/-! ## Sections -/

namespace Bmc

/-- The members of the section. -/
def members (b : Bmc) : List (String × Json) :=
  [("host", .str b.host), ("username", .str b.username), ("password", .str b.password)]

theorem ofJson?_keeping (b : Bmc) (kept : String → Bool) : ofJson? (b.toJson.keeping kept) = some {
    host := if kept "host" then b.host else default.host
    username := if kept "username" then b.username else default.username
    password := if kept "password" then b.password else default.password } := by
  have fields : (b.toJson.keeping kept).fields? ["host", "username", "password"] =
      some (left kept b.members) :=
    fields?_keeping kept b.members rfl (by decide)
  rw [ofJson?, fields]
  simp only [left, members, List.map_cons, List.map_nil, Option.bind_eq_bind, Option.bind_some,
    defaulted?_ite (asString?_str _)]
  rfl

end Bmc

namespace Monitoring

/-- The members of the section. -/
def members (m : Monitoring) : List (String × Json) :=
  [("interval", .uint64 m.interval), ("history_retention", .uint64 m.retention),
    ("gpu_enabled", .bool m.gpuEnabled), ("nvidia_smi_path", .str m.gpuTool)]

theorem ofJson?_keeping (m : Monitoring) (kept : String → Bool) :
    ofJson? (m.toJson.keeping kept) = some {
      interval := if kept "interval" then m.interval else default.interval
      retention := if kept "history_retention" then m.retention else default.retention
      gpuEnabled := if kept "gpu_enabled" then m.gpuEnabled else default.gpuEnabled
      gpuTool := if kept "nvidia_smi_path" then m.gpuTool else default.gpuTool } := by
  have fields : (m.toJson.keeping kept).fields?
      ["interval", "history_retention", "gpu_enabled", "nvidia_smi_path"] =
        some (left kept m.members) :=
    fields?_keeping kept m.members rfl (by decide)
  rw [ofJson?, fields]
  simp only [left, members, List.map_cons, List.map_nil, Option.bind_eq_bind, Option.bind_some,
    defaulted?_ite (asString?_str _), defaulted?_ite (asUInt64?_uint64 _),
    defaulted?_ite (asBool?_bool _)]
  rfl

end Monitoring

namespace FanControl

/-- The members of the section. -/
def members (c : FanControl) : List (String × Json) :=
  [("min_speed", .uint8 c.minSpeed), ("max_speed", .uint8 c.maxSpeed),
    ("idle_speed", .uint8 c.idleSpeed), ("cpu_threshold", .int32 c.cpuThreshold),
    ("gpu_threshold", .int32 c.gpuThreshold), ("step_size", .uint8 c.stepSize),
    ("cooldown_delay", .uint64 c.cooldown)]

theorem ofJson?_keeping (c : FanControl) (kept : String → Bool) :
    ofJson? (c.toJson.keeping kept) = some {
      minSpeed := if kept "min_speed" then c.minSpeed else default.minSpeed
      maxSpeed := if kept "max_speed" then c.maxSpeed else default.maxSpeed
      idleSpeed := if kept "idle_speed" then c.idleSpeed else default.idleSpeed
      cpuThreshold := if kept "cpu_threshold" then c.cpuThreshold else default.cpuThreshold
      gpuThreshold := if kept "gpu_threshold" then c.gpuThreshold else default.gpuThreshold
      stepSize := if kept "step_size" then c.stepSize else default.stepSize
      cooldown := if kept "cooldown_delay" then c.cooldown else default.cooldown } := by
  have fields : (c.toJson.keeping kept).fields? fieldNames = some (left kept c.members) :=
    fields?_keeping kept c.members rfl (by decide)
  rw [ofJson?, fields]
  simp only [left, members, List.map_cons, List.map_nil, Option.bind_eq_bind, Option.bind_some,
    defaulted?_ite (asUInt8?_uint8 _), defaulted?_ite (asInt32?_int32 _),
    defaulted?_ite (asUInt64?_uint64 _)]
  rfl

end FanControl

namespace Settings

theorem textSection?_keeping (name value text : String) (kept : String → Bool) :
    textSection? name value ((obj [(name, .str text)]).keeping kept) =
      some (if kept name then text else value) := by
  have fields : ((obj [(name, .str text)]).keeping kept).fields? [name] =
      some (left kept [(name, .str text)]) :=
    fields?_keeping kept [(name, .str text)] rfl (List.pairwise_singleton _ name)
  rw [textSection?, fields]
  exact defaulted?_ite (asString?_str text) value (kept name)

/-! ## Documents -/

/-- The sections of a document of settings. -/
def sections (s : Settings) : List (String × Json) :=
  [("idrac", s.bmc.toJson), ("monitoring", s.monitoring.toJson),
    ("zones", .array (s.zones.map ZoneBand.toJson)), ("fan_control", s.fanControl.toJson),
    ("api", .obj [("socket", .str s.socket)]), ("storage", .obj [("path", .str s.historyPath)]),
    ("logging", .obj [("level", .str s.logLevel)])]

/-- The section that a field stands in. -/
def Field.home : Field → String
  | .host | .username | .password => "idrac"
  | .interval | .retention | .gpuEnabled | .gpuTool => "monitoring"
  | .zones => "zones"
  | .minSpeed | .maxSpeed | .idleSpeed | .cpuThreshold | .gpuThreshold | .stepSize | .cooldown =>
    "fan_control"
  | .socket => "api"
  | .historyPath => "storage"
  | .logLevel => "logging"

/-- The name of a field in its section. The bands of temperature are a section by themselves. -/
def Field.name? : Field → Option String
  | .host => some "host"
  | .username => some "username"
  | .password => some "password"
  | .interval => some "interval"
  | .retention => some "history_retention"
  | .gpuEnabled => some "gpu_enabled"
  | .gpuTool => some "nvidia_smi_path"
  | .zones => none
  | .minSpeed => some "min_speed"
  | .maxSpeed => some "max_speed"
  | .idleSpeed => some "idle_speed"
  | .cpuThreshold => some "cpu_threshold"
  | .gpuThreshold => some "gpu_threshold"
  | .stepSize => some "step_size"
  | .cooldown => some "cooldown_delay"
  | .socket => some "socket"
  | .historyPath => some "path"
  | .logLevel => some "level"

/-- A field is in what is left of a document. -/
def Field.isKept (keepsSection : String → Bool) (keepsField : String → String → Bool) (f : Field) :
    Bool :=
  keepsSection f.home && f.name?.all (keepsField f.home)

/-- What is left of a document is read as the settings with the default values in place of what is
left out. The bands of temperature are no object, so no part of them is left out. -/
theorem ofJson?_part (keepsSection : String → Bool) (keepsField : String → String → Bool)
    (s : Settings) : ∃ t, ofJson? (s.toJson.part keepsSection keepsField) = some t ∧
      ∀ f : Field, t.value f =
        if f.isKept keepsSection keepsField then s.value f else Settings.default.value f := by
  have fields : (s.toJson.part keepsSection keepsField).fields? sectionNames =
      some (left keepsSection (s.sections.map fun m => (m.1, m.2.keeping (keepsField m.1)))) := by
    rw [show s.toJson = obj s.sections from rfl, part_obj]
    exact fields?_keeping keepsSection _ rfl (by decide)
  have zones : asList? ZoneBand.ofJson?
      ((Json.array (s.zones.map ZoneBand.toJson)).keeping (keepsField "zones")) = some s.zones :=
    asList?_map fun b _ => b.ofJson?_toJson
  rw [ofJson?, fields]
  simp only [left, sections, List.map_cons, List.map_nil, Option.bind_eq_bind, Option.bind_some,
    defaulted?_ite (Bmc.ofJson?_keeping _ _), defaulted?_ite (Monitoring.ofJson?_keeping _ _),
    defaulted?_ite (FanControl.ofJson?_keeping _ _), defaulted?_ite zones,
    defaulted?_ite (textSection?_keeping _ _ _ _)]
  refine ⟨_, rfl, ?_⟩
  intro f
  rw [Field.isKept]
  cases whole : keepsSection f.home with
  | false =>
    cases f
    all_goals
      rw [Field.home] at whole
      simp only [value, whole]
      rfl
  | true =>
    cases given : f.name?.all (keepsField f.home) with
    | false => cases f <;> simp_all [Field.home, Field.name?, value] <;> rfl
    | true => cases f <;> simp_all [Field.home, Field.name?, value]

end Settings

end ChassisCooling
