/-!
# Lines

* `pieces`: a text cut after every line feed.
* `chomp`: a piece without its line end, which is a line feed with or without a carriage return in
  front of it. A carriage return alone ends no line.
* `lines`: the lines of a text. The last one may lack its line end.
-/

namespace Fluxion

/-- The text cut after every `newline`. No piece is empty, and nothing is lost. -/
def pieces {α : Type} [DecidableEq α] (newline : α) (xs : List α) : List (List α) :=
  xs.splitBy fun x _ => x ≠ newline

/-- The list without its last element, if that is `x`. -/
def dropLastIf {α : Type} [DecidableEq α] (x : α) (xs : List α) : List α :=
  if xs.getLast? = some x then xs.dropLast else xs

/-- The piece without its line end. -/
def chomp (piece : List Char) : List Char :=
  if piece.getLast? = some '\n' then dropLastIf '\r' piece.dropLast else piece

/-- The lines of a text. -/
def lines (cs : List Char) : List (List Char) := (pieces '\n' cs).map chomp

end Fluxion
