import Fluxion.Text.Blank
import Fluxion.Text.Width

/-!
# Rows

A text is drawn row by row. More characters end a row than end a line of input
(`Fluxion.Text.Lines`). Within a row there is a column for every character.

* `Row.ofChars`: the rows of a text.
* `Row.at?`: the row in which a place of the text lies.
* `Row.drawn`: a row as it is drawn.
* `Row.widths`: the positions that its columns take.
-/

namespace Fluxion

/-- A row of a text, with the characters that end it. -/
structure Row where
  /-- The rows before it. -/
  index : Nat
  /-- The characters before it. -/
  start : Nat
  chars : List Char

namespace Row

/-! ## Cutting a text into rows -/

/-- The characters that end a row. -/
def terminators : List Char := ['\n', '\x0b', '\x0c', '\r', '\x85', '\u2028', '\u2029']

/-- Whether a row goes on between two neighbouring characters. -/
def goesOn (c d : Char) : Bool := !terminators.contains c || (c = '\r' && d = '\n')

/-- Rows laid out one after the other. -/
def place (index start : Nat) : List (List Char) → List Row
  | [] => []
  | cs :: rest => ⟨index, start, cs⟩ :: place (index + 1) (start + cs.length) rest

/-- The rows of a text. -/
def ofChars (cs : List Char) : List Row := place 0 0 (cs.splitBy goesOn)

/-- The place after the row. -/
def stop (row : Row) : Nat := row.start + row.chars.length

/-- Whether a place lies in the row. -/
def holds (row : Row) (place : Nat) : Bool := row.start ≤ place && place < row.stop

/-- The row in which a place of a text, or the place after it, lies. -/
def at? (cs : List Char) (place : Nat) : Option Row :=
  if place ≤ cs.length then ((ofChars cs).filter (·.start ≤ place)).getLast? else none

/-! ## Drawing a row -/

/-- The positions that a character takes in a column: a tab reaches to the next multiple of
four. -/
def width (column : Nat) (c : Char) : Nat :=
  if c = '\t' then (column / 4 + 1) * 4 - column
  else if isBlank c then 1
  else displayWidth c

/-- The characters that are drawn for a character in a column. -/
def shown (column : Nat) (c : Char) : List Char :=
  if isBlank c then List.replicate (width column c) ' ' else [c]

/-- The row without the blank characters at its end. -/
def visible (row : Row) : List Char := trimBlankEnd row.chars

/-- The row as it is drawn. -/
def drawn (row : Row) : String :=
  String.ofList (row.visible.zipIdx.flatMap fun (c, column) => shown column c)

/-- The positions that the first `count` columns take, one for each beyond the visible part. -/
def widths (row : Row) (count : Nat) : List Nat :=
  ((row.visible.zipIdx.map fun (c, column) => width column c) ++ List.replicate count 1).take count

end Row

end Fluxion
