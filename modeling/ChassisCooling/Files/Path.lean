import ChassisCooling.Text.Split

/-! # Paths

A path is a text; its segments stand between slashes. Empty segments, and segments of a single dot,
name nothing, except that a dot at the very front names the working directory.
-/

namespace ChassisCooling.Files

/-- The path of a file, as it was given. -/
abbrev Path := String

namespace Path

/-- The texts between the slashes of a path. -/
def segments (path : Path) : List String :=
  (Text.split '/' path.toList).map String.ofList

/-- The path with the given texts between its slashes. -/
def ofSegments (segments : List String) : Path :=
  String.ofList (Text.join '/' (segments.map String.toList))

/-- The path starts at the root. -/
def isAbsolute (path : Path) : Bool :=
  path.toList.head? == some '/'

/-- The path ends in a slash, so it can only name a directory. -/
def endsInSlash (path : Path) : Bool :=
  path.toList.getLast? == some '/'

/-- The segments of a path that are more than a slash beside a slash. -/
def names (path : Path) : List String :=
  path.segments.filter fun segment => !segment.isEmpty

/-- A segment that names nothing. -/
def isBlank (segment : String) : Bool :=
  segment == "" || segment == "."

/-- Segments without the blank ones at the end; a dot at the front stays. -/
def trimBlanks : List String → List String
  | [] => []
  | segment :: rest =>
    let blankBefore := if segment == "." then [segment] else []
    let rest := (rest.reverse.dropWhile isBlank).reverse
    if rest.isEmpty && isBlank segment then blankBefore else segment :: rest

/-- The path of the directory that a path lies in, unless it is a root or empty. -/
def parent? (path : Path) : Option Path :=
  match trimBlanks path.segments with
  | [] => none
  | [_] => if path.isAbsolute then none else some ""
  | segments =>
    match trimBlanks segments.dropLast with
    | [] => if path.isAbsolute then some "/" else some ""
    | front => if front == [""] then some "/" else some (ofSegments front)

/-- A name without what follows its last dot. A dot at the very front ends nothing. -/
def stem (name : String) : String :=
  let before := (name.toList.reverse.dropWhile fun c => c != '.').drop 1
  if before.isEmpty then name else String.ofList before.reverse

/-- The path with another ending in place of what follows the last dot of its name. The old ending is
cut off first, and when two dots are left at the end of the path there is no name to put it on. -/
def withExtension (path : Path) (ending : String) : Path :=
  let segments := trimBlanks path.segments
  match segments.getLast? with
  | none => path
  | some name =>
    let renamed (name : String) : Path := ofSegments (segments.dropLast ++ [name])
    if name == "" || name == "." || name == ".." then path
    else if stem name == "." && renamed name == path then renamed ".."
    else renamed (stem name ++ "." ++ ending)

end Path

end ChassisCooling.Files
