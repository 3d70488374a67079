import ChassisCooling.Json.Numeral

/-! # JSON documents

A document as it is written: numbers keep their digits, objects the order and the repetitions of
their members. A string literal whose escapes leave half of a surrogate pair on its own, or in which
bytes are no text, has no text; it may stand in a part of a document that nobody reads.
-/

namespace ChassisCooling

/-- A JSON document. -/
inductive Json where
  | null
  | bool (value : Bool)
  | number (value : Json.Numeral)
  | string (text : Option String)
  | array (items : List Json)
  | object (members : List (Option String × Json))

namespace Json

/-- A string. -/
def str (text : String) : Json :=
  .string (some text)

/-- A whole number. -/
def int (n : Int) : Json :=
  .number (Numeral.ofInt n)

/-- A natural number. -/
def nat (n : Nat) : Json :=
  .int n

/-- A double; an infinity or a NaN has no number and is written as null. -/
def float (x : Float) : Json :=
  match Numeral.ofFloat? x with
  | some n => .number n
  | none => .null

/-- An object with the given members in order. -/
def obj (members : List (String × Json)) : Json :=
  .object (members.map fun (key, value) => (some key, value))

/-- A member that is written only when it is present. -/
def optional (key : String) (value : Option Json) : List (String × Json) :=
  match value with
  | none => []
  | some value => [(key, value)]

/-! ## Documents whose every part can be kept -/

mutual

/-- Every string has a text, every number a value, and arrays and objects nest at most `depth`
levels deep. -/
def isWhole (depth : Nat) : Json → Bool
  | .null => true
  | .bool _ => true
  | .number n => n.isRepresentable
  | .string text => text.isSome
  | .array items => match depth with
    | 0 => false
    | depth + 1 => areWhole depth items
  | .object members => match depth with
    | 0 => false
    | depth + 1 => membersWhole depth members

def areWhole (depth : Nat) : List Json → Bool
  | [] => true
  | item :: rest => isWhole depth item && areWhole depth rest

def membersWhole (depth : Nat) : List (Option String × Json) → Bool
  | [] => true
  | (key, value) :: rest => key.isSome && isWhole depth value && membersWhole depth rest

end

/-- Adds a member to members in ascending order of their keys, in place of one with its key. -/
def insertMember (key : String) (value : Json) :
    List (Option String × Json) → List (Option String × Json)
  | [] => [(some key, value)]
  | (other, held) :: rest =>
    match other with
    | none => (other, held) :: insertMember key value rest
    | some name =>
      if key < name then (some key, value) :: (other, held) :: rest
      else if key = name then (some key, value) :: rest
      else (other, held) :: insertMember key value rest

mutual

/-- The document as free data: keys ascend, the last of several members with one key counts, and a
number that is no 64-bit whole number is rewritten as a double. -/
def canonical : Json → Json
  | .null => .null
  | .bool b => .bool b
  | .number n =>
    if n.toInt?.isSome then .number n
    else match n.toFloat? with
      | some x => .float x
      | none => .number n
  | .string text => .string text
  | .array items => .array (canonicalItems items)
  | .object members => .object (canonicalMembers [] members)

def canonicalItems : List Json → List Json
  | [] => []
  | item :: rest => canonical item :: canonicalItems rest

def canonicalMembers (sorted : List (Option String × Json)) :
    List (Option String × Json) → List (Option String × Json)
  | [] => sorted
  | (key, value) :: rest =>
    match key with
    | none => canonicalMembers sorted rest
    | some name => canonicalMembers (insertMember name (canonical value) sorted) rest

end

end Json

end ChassisCooling
