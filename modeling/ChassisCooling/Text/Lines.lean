/-! # Lines

A line ends at a line feed, and one carriage return directly before the line feed belongs to the
end of the line. A last line without a line feed counts, and keeps its carriage return.

The functions work on any alphabet, since a file is split before its bytes are read as text.
-/

namespace ChassisCooling.Text

variable {α : Type} [BEq α]

/-- Drops one carriage return that stands newest in a line held newest first. -/
def dropReturn (cr : α) : List α → List α
  | [] => []
  | a :: rest => if a == cr then rest else a :: rest

/-- The lines of an input of which one line, held newest first, has begun. -/
def linesFrom (lf cr : α) (begun : List α) : List α → List (List α)
  | [] => if begun.isEmpty then [] else [begun.reverse]
  | a :: rest =>
    if a == lf then (dropReturn cr begun).reverse :: linesFrom lf cr [] rest
    else linesFrom lf cr (a :: begun) rest

/-- The lines of a text. -/
def lines (text : List Char) : List (List Char) :=
  linesFrom '\n' '\r' [] text

/-- The lines of a file, as bytes. -/
def byteLines (bytes : List UInt8) : List (List UInt8) :=
  linesFrom 0x0A 0x0D [] bytes

end ChassisCooling.Text
