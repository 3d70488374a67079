import ChassisCooling.Proofs.FreeData
import ChassisCooling.Proofs.Reread
import ChassisCooling.Proofs.Utf8
import ChassisCooling.Server.Connection

/-! # Answers read back

An answer is read from its own line. Its texts, times and whole numbers come back whatever they are,
and so do the settings that it shows; of the doubles in it, the two trends of a state, it depends on
the double whether its written form is read as the same one.
-/

namespace ChassisCooling

open Calendar

namespace Json

/-! ## Doubles -/

instance : CoversDoubles Numeral.IsWritten :=
  ⟨Numeral.isWritten_ofFloat?⟩

/-- A double is read from its written form. -/
def IsLossless (x : Float) : Prop :=
  (read? (float x).compact).bind asFloat? = some x

theorem isLossless_iff {x : Float} : IsLossless x ↔ (float x).asFloat? = some x := by
  rw [IsLossless, read?_compact (isMadeOf_float x), Option.bind_some]

/-! ## Parts that can be kept -/

theorem isWhole_of_asFloat? {j : Json} {x : Float} (double : j.asFloat? = some x) (depth : Nat) :
    j.isWhole depth = true := by
  cases j with
  | number n => exact Option.isSome_of_eq_some double
  | null | bool | string | array | object => cases double

@[simp]
theorem isWhole_int32 (depth : Nat) (n : Int32) : (int32 n).isWhole depth = true := by
  have low := n.le_toInt
  have high := n.toInt_lt
  exact isWhole_int depth (by omega) (by omega)

@[simp]
theorem isWhole_uint8 (depth : Nat) (n : UInt8) : (uint8 n).isWhole depth = true := by
  have bound := n.toNat_lt
  exact isWhole_int depth (by omega) (by omega)

@[simp]
theorem isWhole_uint32 (depth : Nat) (n : UInt32) : (uint32 n).isWhole depth = true := by
  have bound := n.toNat_lt
  exact isWhole_int depth (by omega) (by omega)

@[simp]
theorem isWhole_bool (depth : Nat) (b : Bool) : (Json.bool b).isWhole depth = true := by
  rw [isWhole]

@[simp]
theorem isWhole_time (depth : Nat) (t : Instant) : (time t).isWhole depth = true :=
  isWhole_str depth _

@[simp]
theorem isWhole_array (depth : Nat) (items : List Json) :
    (array items).isWhole (depth + 1) = true ↔ ∀ item ∈ items, item.isWhole depth = true := by
  rw [isWhole, areWhole_iff]

@[simp]
theorem all_optional {key : String} {value : Option Json} {test : String × Json → Bool} :
    (optional key value).all test = value.toList.all fun j => test (key, j) := by
  cases value <;> simp [optional]

/-! ## Settings as free data -/

theorem Numeral.isInt_ofInt {n : Int} (low : -9223372036854775808 ≤ n)
    (high : n < 18446744073709551616) : (ofInt n).IsInt := by
  rw [IsInt, toInt?_ofInt low high]
  rfl

@[simp]
theorem isMadeOf_int32_isInt (n : Int32) : (int32 n).IsMadeOf Numeral.IsInt := by
  have low := n.le_toInt
  have high := n.toInt_lt
  exact .number (Numeral.isInt_ofInt (by omega) (by omega))

@[simp]
theorem isMadeOf_uint8_isInt (n : UInt8) : (uint8 n).IsMadeOf Numeral.IsInt := by
  have bound := n.toNat_lt
  exact .number (Numeral.isInt_ofInt (by omega) (by omega))

@[simp]
theorem isMadeOf_uint64_isInt (n : UInt64) : (uint64 n).IsMadeOf Numeral.IsInt := by
  have bound := n.toNat_lt
  exact .number (Numeral.isInt_ofInt (by omega) (by omega))

end Json

open Json

namespace Settings

theorem isMadeOf_toJson_isInt (s : Settings) : s.toJson.IsMadeOf Numeral.IsInt := by
  simp [toJson, Monitoring.toJson, FanControl.toJson, ZoneBand.toJson]

theorem isWhole_toJson (s : Settings) (depth : Nat) : s.toJson.isWhole (depth + 3) = true := by
  simp [toJson, Bmc.toJson, Monitoring.toJson, FanControl.toJson, ZoneBand.toJson]

end Settings

/-! ## Records that can be kept -/

@[simp]
theorem CpuReading.isWhole_toJson (r : CpuReading) (depth : Nat) :
    r.toJson.isWhole (depth + 2) = true := by
  simp [toJson]

@[simp]
theorem GpuDevice.isWhole_toJson (d : GpuDevice) (depth : Nat) :
    d.toJson.isWhole (depth + 1) = true := by
  simp [toJson]

@[simp]
theorem GpuReading.isWhole_toJson (r : GpuReading) (depth : Nat) :
    r.toJson.isWhole (depth + 3) = true := by
  simp [toJson]

@[simp]
theorem ZoneBand.isWhole_toJson (b : ZoneBand) (depth : Nat) :
    b.toJson.isWhole (depth + 1) = true := by
  simp [toJson]

@[simp]
theorem Hint.isWhole_toJson (h : Hint) (depth : Nat) : h.toJson.isWhole (depth + 1) = true := by
  simp [toJson]

@[simp]
theorem Override.isWhole_toJson (o : Override) (depth : Nat) :
    o.toJson.isWhole (depth + 1) = true := by
  simp [toJson]

@[simp]
theorem History.Point.isWhole_toJson (p : Point) (depth : Nat) :
    p.toJson.isWhole (depth + 1) = true := by
  simp [toJson]

theorem Status.isWhole_toJson {s : Status} (cpu : (float s.cpuTrend).asFloat? = some s.cpuTrend)
    (gpu : (float s.gpuTrend).asFloat? = some s.gpuTrend) (depth : Nat) :
    s.toJson.isWhole (depth + 4) = true := by
  simp [toJson, isWhole_of_asFloat? cpu, isWhole_of_asFloat? gpu]

namespace Wire

/-! ## Payloads -/

/-- The times in a payload can be written, and its configuration is that of some host. -/
structure Payload.IsWritable (p : Payload) : Prop where
  status : ∀ s ∈ p.status, s.IsWritable
  history : ∀ points ∈ p.history, ∀ q ∈ points, q.timestamp.IsWritable
  hint : ∀ h ∈ p.hint, h.IsWritable
  override : ∀ o ∈ p.override, o.IsWritable
  config : ∀ j ∈ p.config, ∃ s : Settings, j = s.toJson.canonical

namespace Payload

variable {p : Payload}

/-- The doubles in a payload. -/
def trends (p : Payload) : List Float :=
  p.status.toList.flatMap fun s => [s.cpuTrend, s.gpuTrend]

/-- The fields of a payload. -/
def entries (p : Payload) : List (String × Option Json) :=
  [("value", p.value.map .str), ("controller", p.status.map Status.toJson),
    ("history", p.history.map fun points => .array (points.map History.Point.toJson)),
    ("hint", p.hint.map Hint.toJson), ("override", p.override.map Override.toJson),
    ("config", p.config)]

/-- The fields of a successful answer. -/
def answered (p : Payload) : List (String × Option Json) :=
  ("status", some (.str "ok")) :: p.entries

theorem distinct_answered (p : Payload) : (p.answered.map Prod.fst).Nodup := by
  have names : ("status" :: fieldNames).Nodup := by decide
  exact names

theorem members_answered (p : Payload) : ("status", .str "ok") :: p.members = given p.answered := by
  simp [members, answered, entries, given, Json.optional]

theorem optional?_status (writable : p.IsWritable) :
    optional? (Status.ofJson? true) (p.status.map Status.toJson) = some p.status ↔
      ∀ x ∈ p.trends, (float x).asFloat? = some x := by
  cases shown : p.status with
  | none => simp [trends, shown, optional?, defaulted?]
  | some s =>
    have read : optional? (Status.ofJson? true) (some s.toJson) =
        (Status.ofJson? true s.toJson).map some :=
      rfl
    have only : p.trends = [s.cpuTrend, s.gpuTrend] := by
      rw [trends, shown]
      rfl
    rw [Option.map_some, read, only, ← Status.ofJson?_toJson_iff true (writable.status s shown)]
    simp

theorem optional?_config (writable : p.IsWritable) :
    optional? asFree? p.config = some p.config := by
  cases shown : p.config with
  | none => rfl
  | some j =>
    obtain ⟨s, rfl⟩ := writable.config j shown
    have kept := s.isMadeOf_toJson_isInt.canonical_canonical
    exact congrArg (fun j => some (some j)) kept

/-- A payload is read back if and only if the doubles in it are. -/
theorem ofMembers?_members_iff (writable : p.IsWritable) :
    ofMembers? (("status", .str "ok") :: p.members) = some p ↔
      ∀ x ∈ p.trends, (float x).asFloat? = some x := by
  have fields : namedFields? fieldNames (given p.answered) = some (p.entries.map Prod.snd) :=
    namedFields?_given p.distinct_answered (List.subset_cons_self _ _)
  have value : optional? asString? (p.value.map .str) = some p.value :=
    optional?_map nofun fun text _ => asString?_str text
  have history : optional? (asList? History.Point.ofJson?)
      (p.history.map fun points => .array (points.map History.Point.toJson)) = some p.history :=
    optional?_map nofun fun points shown => asList?_map fun q listed =>
      History.Point.ofJson?_toJson (writable.history points shown q listed)
  have hint : optional? Hint.ofJson? (p.hint.map Hint.toJson) = some p.hint :=
    optional?_map nofun fun h shown => Hint.ofJson?_toJson (writable.hint h shown)
  have override : optional? Override.ofJson? (p.override.map Override.toJson) = some p.override :=
    optional?_map nofun fun o shown => Override.ofJson?_toJson (writable.override o shown)
  have read : ofMembers? (given p.answered) =
      (optional? (Status.ofJson? true) (p.status.map Status.toJson)).bind
        fun status => some { p with status } := by
    rw [ofMembers?, fields]
    simp [entries, value, history, hint, override, optional?_config writable]
  rw [members_answered, read, ← optional?_status writable]
  constructor
  · intro same
    obtain ⟨status, shown, same⟩ := Option.bind_eq_some_iff.mp same
    have kept : status = p.status := congrArg Payload.status (Option.some.inj same)
    rw [shown, kept]
  · intro shown
    rw [shown]
    rfl

end Payload

/-! ## Answers -/

namespace Response

/-- The times in an answer can be written, and its configuration is that of some host. -/
def IsWritable : Response → Prop
  | ok p => p.IsWritable
  | error _ => True

/-- The doubles in an answer. -/
def trends : Response → List Float
  | ok p => p.trends
  | error _ => []

variable {r : Response}

theorem ofMembers?_members_iff (writable : r.IsWritable) :
    ofMembers? r.members = some r ↔ ∀ x ∈ r.trends, (float x).asFloat? = some x := by
  cases r with
  | error message => exact iff_of_true rfl nofun
  | ok p =>
    have status : field? (("status", .str "ok") :: p.members) "status" =
        some (some (.str "ok")) := by
      rw [p.members_answered]
      exact field?_given p.distinct_answered (List.mem_cons_self ..)
    have read : ofMembers? (members (ok p)) =
        (Payload.ofMembers? (("status", .str "ok") :: p.members)).map ok := by
      rw [members, ofMembers?, status]
      rfl
    rw [read, trends, ← Payload.ofMembers?_members_iff writable]
    simp

/-- No field of an answer is taken for the number of its request. -/
theorem fresh_members (r : Response) : ∀ m ∈ r.members, m.1 ≠ "id" := by
  cases r with
  | error message => simp [members]
  | ok p =>
    intro m among same
    rw [members, p.members_answered] at among
    have named : m.1 ∈ "status" :: Payload.fieldNames := name_mem_of_mem_given among
    rw [same] at named
    revert named
    decide

theorem all_isWhole_members (writable : r.IsWritable)
    (doubles : ∀ x ∈ r.trends, (float x).asFloat? = some x) (depth : Nat) :
    (r.members.all fun m => m.2.isWhole (depth + 4)) = true := by
  cases r with
  | error message => simp [members]
  | ok p =>
    have status : ∀ s ∈ p.status, s.toJson.isWhole (depth + 4) = true := by
      intro s shown
      have inside : ∀ x ∈ [s.cpuTrend, s.gpuTrend], x ∈ p.trends := fun x listed =>
        List.mem_flatMap.mpr ⟨s, Option.mem_toList.mpr shown, listed⟩
      exact s.isWhole_toJson (doubles _ (inside _ (by simp))) (doubles _ (inside _ (by simp))) depth
    have config : ∀ j ∈ p.config, j.isWhole (depth + 4) = true := by
      intro j shown
      obtain ⟨s, rfl⟩ := writable.config j shown
      exact s.isMadeOf_toJson_isInt.isWhole_canonical (s.isWhole_toJson (depth + 1))
    simpa [members, Payload.members] using ⟨status, config⟩

end Response

namespace ResponseEnvelope

variable {e : ResponseEnvelope}

theorem ofJson?_toJson_iff (writable : e.response.IsWritable) :
    ofJson? e.toJson = some e ↔ ∀ x ∈ e.response.trends, (float x).asFloat? = some x := by
  have members : envelopeMembers? e.toJson =
      if e.response.members.all fun m => m.2.isWhole (maxDepth - 1) then
        some (e.id, e.response.members)
      else none :=
    envelopeMembers?_obj_eq e.response.fresh_members
  rw [ofJson?, members]
  split
  · rw [← Response.ofMembers?_members_iff writable]
    have read : ((Response.ofMembers? e.response.members).bind fun r => some ⟨e.id, r⟩) = some e ↔
        Response.ofMembers? e.response.members = some e.response := by
      constructor
      · intro same
        obtain ⟨r, taken, same⟩ := Option.bind_eq_some_iff.mp same
        have kept : r = e.response := congrArg ResponseEnvelope.response (Option.some.inj same)
        rw [taken, kept]
      · intro taken
        rw [taken]
        rfl
    exact read
  · next broken =>
    refine iff_of_false nofun fun doubles => broken ?_
    exact e.response.all_isWhole_members writable doubles 122

theorem toList_line (e : ResponseEnvelope) : e.line.toList = e.toJson.compact := by
  rw [line, Json.compactString, String.toList_ofList]

theorem isMadeOf_toJson_isWritten (writable : e.response.IsWritable) :
    e.toJson.IsMadeOf Numeral.IsWritten := by
  refine e.isMadeOf_toJson ?_
  intro p answered j shown
  rw [answered] at writable
  obtain ⟨s, rfl⟩ := writable.config j shown
  exact s.isMadeOf_toJson.canonical

/-- An answer is read from its line, and from the bytes that carry the line to a client, if and
only if the doubles in it are read from their written forms. -/
theorem answer_read_back_iff (e : ResponseEnvelope) (writable : e.response.IsWritable) :
    (read? e.line.toList = some e ↔ ∀ x ∈ e.response.trends, IsLossless x) ∧
      ((Text.Utf8.decode? (Server.written [e])).bind read? = some e ↔
        ∀ x ∈ e.response.trends, IsLossless x) := by
  have made := isMadeOf_toJson_isWritten writable
  have onLine : read? e.line.toList = ofJson? e.toJson := by
    rw [read?, toList_line, read?_compact made, Option.bind_some]
  have inBytes : (Text.Utf8.decode? (Server.written [e])).bind read? = ofJson? e.toJson := by
    have bytes : Server.written [e] = Text.Utf8.encode (e.toJson.compact ++ ['\n']) := by
      rw [Text.Utf8.encode_append, ← toList_line]
      exact List.append_nil _
    rw [bytes, Text.Utf8.decode?_encode, Option.bind_some, read?, read?_compact_lineFeed made,
      Option.bind_some]
  simp only [onLine, inBytes, isLossless_iff, ofJson?_toJson_iff writable, and_self]

/-! An answer with all that an answer can carry. -/

def sampleTime : Instant :=
  ⟨1748764800, 123456789, by omega⟩

def sampleHint : Hint :=
  ⟨"build \"x\"", "start", "high", "ci\n", 45, some sampleTime, sampleTime⟩

def sampleOverride : Override :=
  ⟨60, "test", none, sampleTime⟩

def sampleStatus : Status where
  timestamp := sampleTime
  cpu := .ofTemps [61, -5]
  gpu := .ofDevices [⟨0, "A100", 55, 80, 1024, 40960, 250⟩]
  currentSpeed := 35
  targetSpeed := 45
  zone := .active
  mode := .hinted
  hints := [sampleHint]
  override := some sampleOverride
  cpuTrend := 1.5
  gpuTrend := -0.25
  zones := Settings.default.zones
  cpuThreshold := 65
  gpuThreshold := 60
  idleSpeed := 20

def fullAnswer : ResponseEnvelope where
  id := 7
  response := .ok {
    value := some "pong"
    status := some sampleStatus
    history := some [⟨sampleTime, 61, 55, 35⟩]
    hint := some sampleHint
    override := some sampleOverride
    config := some Settings.default.toJson.canonical }

theorem fullAnswer_read_back :
    fullAnswer.response.IsWritable ∧ (∀ x ∈ fullAnswer.response.trends, IsLossless x) ∧
      read? fullAnswer.line.toList = some fullAnswer := by
  have time : sampleTime.IsWritable := ⟨by decide, .inl (by decide)⟩
  have hint : sampleHint.IsWritable := ⟨time, by rintro t ⟨⟩; exact time⟩
  have override : sampleOverride.IsWritable := ⟨time, nofun⟩
  have writable : fullAnswer.response.IsWritable := by
    constructor
    · rintro s ⟨⟩
      exact ⟨time, List.forall_mem_singleton.mpr hint, by rintro o ⟨⟩; exact override⟩
    · rintro points ⟨⟩
      exact List.forall_mem_singleton.mpr time
    · rintro h ⟨⟩
      exact hint
    · rintro o ⟨⟩
      exact override
    · rintro j ⟨⟩
      exact ⟨.default, rfl⟩
  have lossless : ∀ x ∈ fullAnswer.response.trends, IsLossless x := by
    refine List.forall_mem_cons.mpr ⟨?_, List.forall_mem_singleton.mpr ?_⟩
    · rw [IsLossless]
      decide +kernel
    · rw [IsLossless]
      decide +kernel
  exact ⟨writable, lossless, (answer_read_back_iff fullAnswer writable).1.mpr lossless⟩

end ResponseEnvelope

end Wire

end ChassisCooling
