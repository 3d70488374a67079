import ChassisCooling.Json.Basic

/-! # Writing JSON

Two layouts: on one line without blanks, and on lines of their own with two blanks for each level.
-/

namespace ChassisCooling.Json

/-- The two hexadecimal digits of a number below 256, in small letters. -/
def hexPair (n : Nat) : List Char :=
  [Nat.digitChar (n / 16 % 16), Nat.digitChar (n % 16)]

/-- A character inside a string literal. Quotes, backslashes and the characters below U+0020 are
escaped, all others stand as they are. -/
def escape (c : Char) : List Char :=
  match c with
  | '"' => ['\\', '"']
  | '\\' => ['\\', '\\']
  | '\x08' => ['\\', 'b']
  | '\x0c' => ['\\', 'f']
  | '\n' => ['\\', 'n']
  | '\r' => ['\\', 'r']
  | '\t' => ['\\', 't']
  | c => if c.toNat < 0x20 then '\\' :: 'u' :: '0' :: '0' :: hexPair c.toNat else [c]

/-- A string literal. -/
def quote (text : List Char) : List Char :=
  '"' :: text.flatMap escape ++ ['"']

/-- A string literal for a text, if there is one. -/
def quoteText (text : Option String) : List Char :=
  quote (text.getD "").toList

/-- The words for the two truth values. -/
def boolText (b : Bool) : List Char :=
  if b then ['t', 'r', 'u', 'e'] else ['f', 'a', 'l', 's', 'e']

/-- The word for null. -/
def nullText : List Char :=
  ['n', 'u', 'l', 'l']

mutual

/-- The document on one line. -/
def compact : Json → List Char
  | .null => nullText
  | .bool b => boolText b
  | .number n => n.text
  | .string text => quoteText text
  | .array items => '[' :: compactItems items ++ [']']
  | .object members => '{' :: compactMembers members ++ ['}']

/-- Items with commas between them. -/
def compactItems : List Json → List Char
  | [] => []
  | [item] => compact item
  | item :: rest => compact item ++ ',' :: compactItems rest

/-- Members with commas between them. -/
def compactMembers : List (Option String × Json) → List Char
  | [] => []
  | [(key, value)] => quoteText key ++ ':' :: compact value
  | (key, value) :: rest => quoteText key ++ ':' :: compact value ++ ',' :: compactMembers rest

end

/-- A new line with two blanks for each level. -/
def newline (level : Nat) : List Char :=
  '\n' :: List.replicate (2 * level) ' '

mutual

/-- The document with each item and each member on a line of its own, inside `level` containers. -/
def indented (level : Nat) : Json → List Char
  | .null => nullText
  | .bool b => boolText b
  | .number n => n.text
  | .string text => quoteText text
  | .array [] => ['[', ']']
  | .array (item :: rest) =>
    '[' :: indentedItems (level + 1) (item :: rest) ++ newline level ++ [']']
  | .object [] => ['{', '}']
  | .object (member :: rest) =>
    '{' :: indentedMembers (level + 1) (member :: rest) ++ newline level ++ ['}']

/-- Items on lines of their own, with commas between them. -/
def indentedItems (level : Nat) : List Json → List Char
  | [] => []
  | [item] => newline level ++ indented level item
  | item :: rest => newline level ++ indented level item ++ ',' :: indentedItems level rest

/-- Members on lines of their own, with commas between them. -/
def indentedMembers (level : Nat) : List (Option String × Json) → List Char
  | [] => []
  | [(key, value)] => newline level ++ quoteText key ++ ':' :: ' ' :: indented level value
  | (key, value) :: rest =>
    newline level ++ quoteText key ++ ':' :: ' ' :: indented level value ++
      ',' :: indentedMembers level rest

end

/-- The document on one line, as a string. -/
def compactString (j : Json) : String :=
  String.ofList (compact j)

/-- The document on lines of its own, as a string. -/
def indentedString (j : Json) : String :=
  String.ofList (indented 0 j)

end ChassisCooling.Json
