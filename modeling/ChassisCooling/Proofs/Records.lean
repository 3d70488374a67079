import ChassisCooling.Proofs.Documents
import ChassisCooling.Settings.Document
import ChassisCooling.Wire.Envelope

/-! # What records are made of

Every record that is sent is a document made of texts, whole numbers and doubles. The lemmas below
are read from the records downwards, one for each kind of value and one for each record.
-/

namespace ChassisCooling

namespace Json

/-- A form that all whole numbers are written in. -/
class CoversInts (form : Numeral → Prop) : Prop where
  int : ∀ n, form (.ofInt n)

/-- A form that all doubles are written in. -/
class CoversDoubles (form : Numeral → Prop) : Prop where
  double : ∀ {x n}, Numeral.ofFloat? x = some n → form n

instance : CoversInts Numeral.IsWritten :=
  ⟨Numeral.isWritten_ofInt⟩

instance : CoversInts Numeral.IsPlain :=
  ⟨fun n => (Numeral.isWritten_ofInt n).toIsPlain⟩

instance : CoversDoubles Numeral.IsPlain :=
  ⟨Numeral.isPlain_ofFloat?⟩

variable {form : Numeral → Prop}

/-! ## Single values -/

@[simp]
theorem isMadeOf_str (text : String) : (str text).IsMadeOf form :=
  .string text

@[simp]
theorem isMadeOf_bool (b : Bool) : (Json.bool b).IsMadeOf form :=
  .bool b

@[simp]
theorem isMadeOf_time (t : Calendar.Instant) : (time t).IsMadeOf form :=
  .string _

section Ints

variable [CoversInts form]

@[simp]
theorem isMadeOf_int (n : Int) : (int n).IsMadeOf form :=
  .number (CoversInts.int n)

@[simp]
theorem isMadeOf_int32 (n : Int32) : (int32 n).IsMadeOf form :=
  isMadeOf_int _

@[simp]
theorem isMadeOf_int64 (n : Int64) : (int64 n).IsMadeOf form :=
  isMadeOf_int _

@[simp]
theorem isMadeOf_uint8 (n : UInt8) : (uint8 n).IsMadeOf form :=
  isMadeOf_int _

@[simp]
theorem isMadeOf_uint32 (n : UInt32) : (uint32 n).IsMadeOf form :=
  isMadeOf_int _

@[simp]
theorem isMadeOf_uint64 (n : UInt64) : (uint64 n).IsMadeOf form :=
  isMadeOf_int _

end Ints

@[simp]
theorem isMadeOf_float [CoversDoubles form] (x : Float) : (float x).IsMadeOf form := by
  rw [float]
  split
  · next finite => exact .number (CoversDoubles.double finite)
  · exact .null

/-! ## Lists and objects -/

@[simp]
theorem isMadeOf_array {items : List Json} :
    (array items).IsMadeOf form ↔ ∀ item ∈ items, item.IsMadeOf form := by
  constructor
  · rintro ⟨⟩
    assumption
  · exact .array

/-- The values of members are made of texts and of numbers of a form. -/
def AreMadeOf (form : Numeral → Prop) (members : List (String × Json)) : Prop :=
  ∀ m ∈ members, m.2.IsMadeOf form

@[simp]
theorem areMadeOf_nil : AreMadeOf form [] :=
  nofun

@[simp]
theorem areMadeOf_cons {m : String × Json} {members : List (String × Json)} :
    AreMadeOf form (m :: members) ↔ m.2.IsMadeOf form ∧ AreMadeOf form members :=
  List.forall_mem_cons

@[simp]
theorem areMadeOf_append {members members' : List (String × Json)} :
    AreMadeOf form (members ++ members') ↔ AreMadeOf form members ∧ AreMadeOf form members' :=
  List.forall_mem_append

theorem mem_optional {key : String} {value : Option Json} {m : String × Json} :
    m ∈ optional key value ↔ ∃ j ∈ value, m = (key, j) := by
  cases value <;> simp [optional]

@[simp]
theorem areMadeOf_optional {key : String} {value : Option Json} :
    AreMadeOf form (optional key value) ↔ ∀ j ∈ value, j.IsMadeOf form := by
  cases value <;> simp [optional]

@[simp]
theorem isMadeOf_obj {members : List (String × Json)} :
    (obj members).IsMadeOf form ↔ AreMadeOf form members := by
  constructor
  · rintro ⟨⟩ m among
    rename_i values
    exact values (some m.1, m.2) (List.mem_map.mpr ⟨m, among, rfl⟩)
  · intro values
    refine .object ?_ ?_
    · intro m among
      obtain ⟨m, -, rfl⟩ := List.mem_map.mp among
      rfl
    · intro m among
      obtain ⟨m, member, rfl⟩ := List.mem_map.mp among
      exact values m member

/-! ## Free data -/

theorem forall_mem_insertMember {key : String} {value : Json} {P : Option String × Json → Prop}
    {members : List (Option String × Json)} (new : P (some key, value))
    (each : ∀ m ∈ members, P m) : ∀ m ∈ insertMember key value members, P m := by
  induction members with
  | nil => exact List.forall_mem_singleton.mpr new
  | cons m members ih =>
    obtain ⟨first, later⟩ := List.forall_mem_cons.mp each
    obtain ⟨other, held⟩ := m
    cases other with
    | none => exact List.forall_mem_cons.mpr ⟨first, ih later⟩
    | some name =>
      simp only [insertMember]
      split
      · exact List.forall_mem_cons.mpr ⟨new, each⟩
      split
      · exact List.forall_mem_cons.mpr ⟨new, later⟩
      · exact List.forall_mem_cons.mpr ⟨first, ih later⟩

theorem forall_mem_canonicalItems {P : Json → Prop} {items : List Json}
    (each : ∀ item ∈ items, P item.canonical) : ∀ item ∈ canonicalItems items, P item := by
  induction items with
  | nil => nofun
  | cons item items ih =>
    obtain ⟨first, later⟩ := List.forall_mem_cons.mp each
    exact List.forall_mem_cons.mpr ⟨first, ih later⟩

theorem forall_mem_canonicalMembers {P : Option String × Json → Prop}
    {members sorted : List (Option String × Json)} (before : ∀ m ∈ sorted, P m)
    (each : ∀ m ∈ members, ∀ name ∈ m.1, P (some name, m.2.canonical)) :
    ∀ m ∈ canonicalMembers sorted members, P m := by
  induction members generalizing sorted with
  | nil => exact before
  | cons m members ih =>
    obtain ⟨first, later⟩ := List.forall_mem_cons.mp each
    obtain ⟨key, value⟩ := m
    cases key with
    | none => exact ih before later
    | some name => exact ih (forall_mem_insertMember (first name rfl) before) later

/-- Sorting its members changes none of the values in a document but doubles. -/
theorem IsMadeOf.canonical [CoversDoubles form] {j : Json} (made : j.IsMadeOf form) :
    j.canonical.IsMadeOf form := by
  induction made with
  | null => exact .null
  | bool b => exact .bool b
  | number formed =>
    rw [Json.canonical]
    split
    · exact .number formed
    split
    · exact isMadeOf_float _
    · exact .number formed
  | string text => exact .string text
  | array _ ih => exact .array (forall_mem_canonicalItems ih)
  | object _ _ ih =>
    exact .object (forall_mem_canonicalMembers nofun fun _ _ _ _ => rfl)
      (forall_mem_canonicalMembers nofun fun m among _ _ => ih m among)

end Json

open Json

variable {form : Numeral → Prop}

@[simp]
theorem Bmc.isMadeOf_toJson (b : Bmc) : b.toJson.IsMadeOf form := by
  simp [toJson]

variable [CoversInts form]

@[simp]
theorem Monitoring.isMadeOf_toJson (m : Monitoring) : m.toJson.IsMadeOf form := by
  simp [toJson]

@[simp]
theorem FanControl.isMadeOf_toJson (c : FanControl) : c.toJson.IsMadeOf form := by
  simp [toJson]

@[simp]
theorem ZoneBand.isMadeOf_toJson (b : ZoneBand) : b.toJson.IsMadeOf form := by
  simp [toJson]

@[simp]
theorem Settings.isMadeOf_toJson (s : Settings) : s.toJson.IsMadeOf form := by
  simp [toJson]

theorem Settings.isMadeOf_shown [CoversDoubles form] (s : Settings) : s.shown.IsMadeOf form :=
  s.redacted.isMadeOf_toJson.canonical

/-! ## Requests -/

namespace Wire

theorem RequestEnvelope.isMadeOf_toJson (e : RequestEnvelope) : e.toJson.IsMadeOf form := by
  obtain ⟨id, request⟩ := e
  cases request <;> simp [toJson, Request.data?]

end Wire

/-! ## Responses -/

@[simp]
theorem CpuReading.isMadeOf_toJson (r : CpuReading) : r.toJson.IsMadeOf form := by
  simp [toJson]

@[simp]
theorem GpuDevice.isMadeOf_toJson (d : GpuDevice) : d.toJson.IsMadeOf form := by
  simp [toJson]

@[simp]
theorem GpuReading.isMadeOf_toJson (r : GpuReading) : r.toJson.IsMadeOf form := by
  simp [toJson]

@[simp]
theorem Hint.isMadeOf_toJson (h : Hint) : h.toJson.IsMadeOf form := by
  simp [toJson]

@[simp]
theorem Override.isMadeOf_toJson (o : Override) : o.toJson.IsMadeOf form := by
  simp [toJson]

@[simp]
theorem History.Point.isMadeOf_toJson (p : Point) : p.toJson.IsMadeOf form := by
  simp [toJson]

variable [CoversDoubles form]

@[simp]
theorem Status.isMadeOf_toJson (s : Status) : s.toJson.IsMadeOf form := by
  simp [toJson]

namespace Wire

/-- A response is made of what its free data is made of. -/
theorem ResponseEnvelope.isMadeOf_toJson {e : ResponseEnvelope}
    (config : ∀ p, e.response = .ok p → ∀ j ∈ p.config, j.IsMadeOf form) :
    e.toJson.IsMadeOf form := by
  obtain ⟨id, response⟩ := e
  cases response with
  | ok p =>
    have free := config p rfl
    simpa [toJson, Response.members, Payload.members] using free
  | error message => simp [toJson, Response.members]

end Wire

end ChassisCooling
