import ChassisCooling.Json.Basic

/-! # Records in JSON

A record is read from an object that has its fields in any order, or from an array that has them in
declaration order. Other members of the object are ignored, a field given twice is refused, and a
field that is not given is absent. Whether an absent field is an error is decided field by field.
-/

namespace ChassisCooling.Json

/-- The members of an object all of whose keys have a text. -/
def namedMembers? : List (Option String × Json) → Option (List (String × Json))
  | [] => some []
  | (key, value) :: rest => do
    let key ← key
    let rest ← namedMembers? rest
    pure ((key, value) :: rest)

/-- The values given for a key. -/
def valuesOf (members : List (String × Json)) (key : String) : List Json :=
  (members.filter fun member => member.1 == key).map Prod.snd

/-- The field of this name: absent, or given once; nothing when it is given twice. -/
def field? (members : List (String × Json)) (key : String) : Option (Option Json) :=
  match valuesOf members key with
  | [] => some none
  | [value] => some (some value)
  | _ => none

/-- The fields of a record as an object gives them, in the order of their names. -/
def namedFields? (names : List String) (members : List (String × Json)) :
    Option (List (Option Json)) :=
  names.mapM (field? members)

/-- The fields of a record as an array gives them; those after its end are absent. -/
def listedFields? : List String → List Json → Option (List (Option Json))
  | [], [] => some []
  | [], _ :: _ => none
  | _ :: names, [] => (listedFields? names []).map (none :: ·)
  | _ :: names, item :: rest => (listedFields? names rest).map (some item :: ·)

/-- The fields of a record with these names. -/
def fields? (names : List String) : Json → Option (List (Option Json))
  | .object members => (namedMembers? members).bind (namedFields? names)
  | .array items => listedFields? names items
  | _ => none

/-! ## Reading one value -/

/-- A string. -/
def asString? : Json → Option String
  | .string text => text
  | _ => none

/-- A truth value. -/
def asBool? : Json → Option Bool
  | .bool b => some b
  | _ => none

/-- A whole number. -/
def asInt? : Json → Option Int
  | .number n => n.toInt?
  | _ => none

/-- A double; a whole number counts as one. -/
def asFloat? : Json → Option Float
  | .number n => n.toFloat?
  | _ => none

/-- A whole number from `low` to `high`. -/
def asRange? (low high : Int) (j : Json) : Option Int :=
  j.asInt?.filter fun n => low ≤ n ∧ n ≤ high

/-- An unsigned number of 8 bits. -/
def asUInt8? (j : Json) : Option UInt8 :=
  (j.asRange? 0 255).map fun n => UInt8.ofNat n.toNat

/-- An unsigned number of 32 bits. -/
def asUInt32? (j : Json) : Option UInt32 :=
  (j.asRange? 0 4294967295).map fun n => UInt32.ofNat n.toNat

/-- An unsigned number of 64 bits. -/
def asUInt64? (j : Json) : Option UInt64 :=
  (j.asRange? 0 18446744073709551615).map fun n => UInt64.ofNat n.toNat

/-- A signed number of 32 bits. -/
def asInt32? (j : Json) : Option Int32 :=
  (j.asRange? (-2147483648) 2147483647).map Int32.ofInt

/-- A signed number of 64 bits. -/
def asInt64? (j : Json) : Option Int64 :=
  (j.asRange? (-9223372036854775808) 9223372036854775807).map Int64.ofInt

/-- A list of values. -/
def asList? {α : Type} (read : Json → Option α) : Json → Option (List α)
  | .array items => items.mapM read
  | _ => none

/-- A value that may be null. -/
def asNullable? {α : Type} (read : Json → Option α) : Json → Option (Option α)
  | .null => some none
  | j => (read j).map some

/-- A field that has to be given. -/
def required? {α : Type} (read : Json → Option α) (field : Option Json) : Option α :=
  field.bind read

/-- A field that has a value of its own when it is absent. -/
def defaulted? {α : Type} (read : Json → Option α) (value : α) : Option Json → Option α
  | none => some value
  | some j => read j

/-- A field that may be absent or null. -/
def optional? {α : Type} (read : Json → Option α) : Option Json → Option (Option α) :=
  defaulted? (asNullable? read) none

/-! ## Named values -/

/-- A value named by one word of a list: the word as a string, or an object whose only member has
the word as its key and stands for nothing else. In a held document an empty object counts as
standing for nothing, beside null. -/
def asWord? (held : Bool) : Json → Option String
  | .string text => text
  | .object [(key, .null)] => key
  | .object [(key, .object [])] => if held then key else none
  | _ => none

/-- A signed number of 32 bits. -/
def int32 (n : Int32) : Json :=
  .int n.toInt

/-- A signed number of 64 bits. -/
def int64 (n : Int64) : Json :=
  .int n.toInt

/-- An unsigned number of 8 bits. -/
def uint8 (n : UInt8) : Json :=
  .nat n.toNat

/-- An unsigned number of 32 bits. -/
def uint32 (n : UInt32) : Json :=
  .nat n.toNat

/-- An unsigned number of 64 bits. -/
def uint64 (n : UInt64) : Json :=
  .nat n.toNat

end ChassisCooling.Json
