import ChassisCooling.Proofs.Records

/-! # Requests read back

A request is read from its own line, whatever its number, its texts and its numbers are.
-/

namespace ChassisCooling

namespace Text

/-- Only the blanks behind a text are trimmed if there are none at its own ends. -/
theorem trim_append {text blanks : List Char} (filled : text ≠ [])
    (first : isBlank (text.head filled) = false) (last : isBlank (text.getLast filled) = false)
    (blank : ∀ c ∈ blanks, isBlank c = true) : trim (text ++ blanks) = text := by
  have start : trimStart (text ++ blanks) = text ++ blanks := by
    obtain ⟨c, rest, rfl⟩ := List.exists_cons_of_ne_nil filled
    exact List.dropWhile_cons_of_neg (Bool.eq_false_iff.mp first)
  have stop : text.reverse.dropWhile isBlank = text.reverse := by
    obtain ⟨c, rest, same⟩ := List.exists_cons_of_ne_nil (List.reverse_ne_nil_iff.mpr filled)
    have stands : isBlank c = false := by
      rw [← last, List.getLast_eq_head_reverse]
      simp only [same, List.head_cons]
    rw [same]
    exact List.dropWhile_cons_of_neg (Bool.eq_false_iff.mp stands)
  rw [trim, start, trimEnd, List.reverse_append,
    List.dropWhile_append_of_pos fun c among => blank c (List.mem_reverse.mp among), stop,
    List.reverse_reverse]

end Text

namespace Json

theorem namedMembers?_map (members : List (String × Json)) :
    namedMembers? (members.map fun (key, value) => (some key, value)) = some members := by
  induction members with
  | nil => rfl
  | cons m members ih =>
    obtain ⟨key, value⟩ := m
    rw [List.map_cons, namedMembers?, ih]
    rfl

/-! ## Single values -/

@[simp]
theorem asString?_str (text : String) : (str text).asString? = some text :=
  rfl

theorem asInt?_int {n : Int} (low : -9223372036854775808 ≤ n) (high : n < 18446744073709551616) :
    (int n).asInt? = some n :=
  Numeral.toInt?_ofInt low high

theorem asRange?_int {n low high : Int} (fits : -9223372036854775808 ≤ n ∧ n < 18446744073709551616)
    (within : low ≤ n ∧ n ≤ high) : (int n).asRange? low high = some n := by
  rw [asRange?, asInt?_int fits.1 fits.2, Option.filter_some, if_pos (decide_eq_true within)]

@[simp]
theorem asUInt64?_uint64 (n : UInt64) : (uint64 n).asUInt64? = some n := by
  have bound := n.toNat_lt
  rw [asUInt64?, uint64, nat, asRange?_int (by omega) (by omega), Option.map_some,
    Int.toNat_natCast, UInt64.ofNat_toNat]

@[simp]
theorem asInt64?_int64 (n : Int64) : (int64 n).asInt64? = some n := by
  have low := n.le_toInt
  have high := n.toInt_lt
  rw [asInt64?, int64, asRange?_int (by omega) (by omega), Option.map_some, Int64.ofInt_toInt]

@[simp]
theorem isWhole_str (depth : Nat) (text : String) : (str text).isWhole depth = true := by
  simp [str, isWhole]

theorem isWhole_int {n : Int} (depth : Nat) (low : -9223372036854775808 ≤ n)
    (high : n < 18446744073709551616) : (int n).isWhole depth = true := by
  rw [int, isWhole, Numeral.isRepresentable_of_toInt? (Numeral.toInt?_ofInt low high)]

@[simp]
theorem isWhole_uint64 (depth : Nat) (n : UInt64) : (uint64 n).isWhole depth = true := by
  have bound := n.toNat_lt
  exact isWhole_int depth (by omega) (by omega)

@[simp]
theorem isWhole_int64 (depth : Nat) (n : Int64) : (int64 n).isWhole depth = true := by
  have low := n.le_toInt
  have high := n.toInt_lt
  exact isWhole_int depth (by omega) (by omega)

@[simp]
theorem isWhole_obj (depth : Nat) (members : List (String × Json)) :
    (obj members).isWhole (depth + 1) = members.all fun m => m.2.isWhole depth := by
  rw [obj, isWhole]
  induction members with
  | nil => rfl
  | cons m members ih =>
    rw [List.map_cons, membersWhole, ih]
    rfl

end Json

namespace Wire

/-- An envelope has a number, and beside it only what is whole. -/
theorem envelopeMembers?_obj_eq {id : UInt64} {others : List (String × Json)}
    (fresh : ∀ m ∈ others, m.1 ≠ "id") :
    envelopeMembers? (.obj (("id", .uint64 id) :: others)) =
      if others.all fun m => m.2.isWhole (maxDepth - 1) then some (id, others) else none := by
  have filtered : (("id", Json.uint64 id) :: others).filter (fun m => m.1 != "id") = others := by
    rw [List.filter_cons_of_neg (by simp), List.filter_eq_self]
    exact fun m among => bne_iff_ne.mpr (fresh m among)
  have valued : Json.field? (("id", Json.uint64 id) :: others) "id" = some (some (.uint64 id)) := by
    have none : others.filter (fun m => m.1 == "id") = [] :=
      List.filter_eq_nil_iff.mpr fun m among => by simp [fresh m among]
    rw [Json.field?, Json.valuesOf, List.filter_cons_of_pos (by simp), none]
    rfl
  rw [Json.obj, envelopeMembers?, Json.namedMembers?_map]
  simp only [Option.bind_eq_bind, Option.bind_some, valued, Json.required?, Json.asUInt64?_uint64,
    filtered, Option.pure_def]

/-- The number of an envelope and what stands beside it. -/
theorem envelopeMembers?_obj {id : UInt64} {others : List (String × Json)}
    (fresh : ∀ m ∈ others, m.1 ≠ "id")
    (whole : ∀ m ∈ others, m.2.isWhole (maxDepth - 1) = true) :
    envelopeMembers? (.obj (("id", .uint64 id) :: others)) = some (id, others) := by
  rw [envelopeMembers?_obj_eq fresh, if_pos (List.all_eq_true.mpr whole)]

namespace Request

theorem arguments?_obj (names : List String) (members : List (String × Json)) :
    arguments? names (some (.obj members)) = Json.namedFields? names members := by
  rw [Json.obj, arguments?, Json.namedMembers?_map, Option.bind_some]

/-- A command and its arguments are read as the request. -/
theorem ofCommand?_name (request : Request) :
    ofCommand? request.name request.data? = some request := by
  cases request with
  | ping | version | getStatus | clearOverride | getConfig => rfl
  | getHistory duration =>
    simp [ofCommand?, name, data?, getHistory?, arguments?_obj, Json.namedFields?, Json.field?,
      Json.valuesOf, Json.defaulted?]
  | addHint =>
    simp [ofCommand?, name, data?, addHint?, arguments?_obj, Json.namedFields?, Json.field?,
      Json.valuesOf, Json.defaulted?, Json.required?]
  | removeHint =>
    simp [ofCommand?, name, data?, removeHint?, arguments?_obj, Json.namedFields?, Json.field?,
      Json.valuesOf, Json.required?]
  | setOverride =>
    simp [ofCommand?, name, data?, setOverride?, arguments?_obj, Json.namedFields?, Json.field?,
      Json.valuesOf, Json.defaulted?, Json.required?]

/-- Arguments are one object of texts and numbers. -/
theorem isWhole_data? {request : Request} {data : Json} (given : data ∈ request.data?)
    (depth : Nat) : data.isWhole (depth + 1) = true := by
  cases request with
  | getHistory | addHint | removeHint | setOverride =>
    obtain rfl := Option.some.inj given
    simp
  | ping | version | getStatus | clearOverride | getConfig => cases given

end Request

namespace RequestEnvelope

theorem ofJson?_toJson (e : RequestEnvelope) : ofJson? e.toJson = some e := by
  obtain ⟨id, request⟩ := e
  have members : envelopeMembers? (toJson ⟨id, request⟩) = some (id,
      ("cmd", .str request.name) :: Json.optional "data" request.data?) := by
    refine envelopeMembers?_obj ?_ ?_
    · refine List.forall_mem_cons.mpr ⟨by simp, fun m among => ?_⟩
      obtain ⟨data, -, rfl⟩ := Json.mem_optional.mp among
      simp
    · refine List.forall_mem_cons.mpr ⟨Json.isWhole_str _ _, fun m among => ?_⟩
      obtain ⟨data, given, rfl⟩ := Json.mem_optional.mp among
      exact Request.isWhole_data? given _
  have command : Json.field? (("cmd", .str request.name) :: Json.optional "data" request.data?)
      "cmd" = some (some (.str request.name)) := by
    cases request.data? <;> rfl
  have data : Json.field? (("cmd", .str request.name) :: Json.optional "data" request.data?)
      "data" = some request.data? := by
    cases request.data? <;> rfl
  rw [ofJson?, members]
  simp only [Option.bind_eq_bind, Option.bind_some, command, data]
  rw [Json.required?, Option.bind_some, Json.str, Json.asWord?, Option.bind_some,
    Request.ofCommand?_name, Option.bind_some]
  rfl

theorem toList_line (e : RequestEnvelope) : e.line.toList = e.toJson.compact := by
  rw [line, Json.compactString, String.toList_ofList]

/-- A request is read from its line. -/
theorem read?_line (e : RequestEnvelope) : read? e.line.toList = some e := by
  rw [read?, toList_line, Json.read?_compact e.isMadeOf_toJson, Option.bind_some, ofJson?_toJson]

/-- The line of a request does not begin or end with a blank. -/
theorem trim_line (e : RequestEnvelope) (blanks : List Char)
    (blank : ∀ c ∈ blanks, Text.isBlank c = true) :
    Text.trim (e.line.toList ++ blanks) = e.line.toList := by
  obtain ⟨inner, same⟩ : ∃ inner, e.line.toList = '{' :: inner ++ ['}'] := ⟨_, e.toList_line⟩
  rw [same]
  exact Text.trim_append nofun rfl (by rw [List.getLast_concat]; rfl) blank

theorem read?_trim_line (e : RequestEnvelope) : read? (Text.trim e.line.toList) = some e := by
  have trimmed := e.trim_line [] nofun
  rw [List.append_nil] at trimmed
  rw [trimmed, read?_line]

end RequestEnvelope

end Wire

end ChassisCooling
