/-!
# Marks

Under a row that concerns a fault, two lines mark columns: one underlines them, and one leads from
their middle to the label.

* `Mark.underline`, `Mark.lead`: what stands under a column.
* `Mark.fill`: a line of marks over columns of different widths.
-/

namespace Fluxion

/-- The columns from `first` up to, and without, `stop`. -/
structure Mark where
  first : Nat
  stop : Nat

namespace Mark

/-- The column from which the mark leads down to the label. -/
def middle (m : Mark) : Nat := (m.first + m.stop) / 2

/-- Whether a column is marked. -/
def covers (m : Mark) (column : Nat) : Bool := m.first ≤ column && column < m.stop

/-- The mark under a column. -/
def underline (m : Mark) (column : Nat) : Char :=
  if column = m.middle then if m.covers column then '┬' else '│'
  else if m.covers column then '─'
  else ' '

/-- The lead to the label under a column. -/
def lead (m : Mark) (column : Nat) : Char :=
  if column < m.middle then ' ' else if column = m.middle then '╰' else '─'

/-- What fills a wide column after its mark. -/
def filler (mark : Char) : Char :=
  if mark = '┬' ∨ mark = '╰' then '─' else if mark = '│' then ' ' else mark

/-- A mark in a column of the given width. -/
def cell (mark : Char) (width : Nat) : List Char :=
  (mark :: List.replicate (width - 1) (filler mark)).take width

/-- The marks under columns of the given widths. -/
def fill (mark : Nat → Char) (widths : List Nat) : String :=
  String.ofList (widths.zipIdx.flatMap fun (width, column) => cell (mark column) width)

end Mark

end Fluxion
