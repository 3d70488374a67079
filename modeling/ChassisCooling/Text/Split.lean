/-! # Splitting and joining at a character -/

namespace ChassisCooling.Text

/-- The parts of a text of which one part, held newest first, has begun. -/
def splitFrom (separator : Char) (begun : List Char) : List Char → List (List Char)
  | [] => [begun.reverse]
  | c :: rest =>
    if c = separator then begun.reverse :: splitFrom separator [] rest
    else splitFrom separator (c :: begun) rest

/-- The parts of a text between the occurrences of a character; there is at least one part. -/
def split (separator : Char) (text : List Char) : List (List Char) :=
  splitFrom separator [] text

/-- The parts with a character between them. -/
def join (separator : Char) : List (List Char) → List Char
  | [] => []
  | [part] => part
  | part :: rest => part ++ separator :: join separator rest

end ChassisCooling.Text
