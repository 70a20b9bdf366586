import Fluxion.Fault.Wording
import Fluxion.Report.Mark
import Fluxion.Report.Row

/-!
# Reports

A report shows rows of a text and marks the place that a fault concerns. The drawing counts in
columns, one for every character, and takes the offsets of the fault's span for columns; where the
text has no such columns, less is drawn.

* `Report`: what is shown.
* `Fault.report?`: the report of a fault over a text. There is none without a place to point at, for
  a place that ends before it begins, or over an empty text.
* `Report.placement`: where the place is in the rows.
* `Report.lines`: the drawing.
-/

namespace Fluxion

/-- A text, the place to mark in it, and the words about it. -/
structure Report where
  message : String
  source : List Char
  first : Nat
  stop : Nat
  label : String
  help : String

/-- The report of a fault over a text, about the first of its places. -/
def Fault.report? (fault : Fault) (source : String) : Option Report :=
  match fault.spans with
  | [] => none
  | span :: _ =>
    if source = "" ∨ span.stop < span.start then none
    else
      some
        { message := withoutColors fault.cause.message, source := source.toList,
          first := span.start, stop := span.stop, label := fault.cause.label,
          help := withoutColors fault.cause.help.colored }

namespace Report

/-! ## Where the marked place is -/

/-- The rows of the text. -/
def rows (r : Report) : List Row := Row.ofChars r.source

/-- The last column of the marked place, or its only column if it is empty. -/
def last (r : Report) : Nat := max (r.stop - 1) r.first

/-- How a place lies in the rows. -/
inductive Placement where
  /-- In one row, so that its columns can be marked. -/
  | inside (row : Row)
  /-- Beyond the text. -/
  | outside
  /-- In several rows, from one on and to another one, or in one row and beyond the text. -/
  | across (start : Row) (finish : Option Row)

/-- How the marked place lies in the rows. -/
def placement (r : Report) : Placement :=
  match Row.at? r.source r.first, Row.at? r.source r.last with
  | some start, some finish =>
    if start.index ≠ finish.index then .across start (some finish)
    else if r.stop ≤ start.stop then .inside start
    else .outside
  | some start, none => .across start none
  | none, _ => .outside

/-- The number of rows up to the last one that the drawing considers. -/
def rowCount (r : Report) : Nat :=
  match r.placement with
  | .inside row | .across _ (some row) => row.index + 1
  | .outside | .across _ none => r.rows.length

/-- The place that the report points at: row and column, counted from one. -/
def position (r : Report) : String :=
  match Row.at? r.source r.first with
  | some row => decimal (row.index + 1) ++ ":" ++ decimal (r.first - row.start + 1)
  | none => "?:?"
where
  /-- A number in digits. -/
  decimal (n : Nat) : String := String.ofList (Nat.toDigits 10 n)

/-! ## The margin -/

/-- The positions for the numbers of rows. -/
def numberWidth (r : Report) : Nat := (Nat.toDigits 10 r.rowCount).length

/-- The margin beside what is not a row, up to the bar. -/
def indent (r : Report) : String := String.ofList (List.replicate (r.numberWidth + 2) ' ')

/-- The margin beside what is not a row. -/
def margin (r : Report) : String := r.indent ++ "│ "

/-- The margin beside a row, with its number. -/
def numbered (r : Report) (row : Row) : String :=
  let digits := Nat.toDigits 10 (row.index + 1)
  String.ofList (' ' :: List.replicate (r.numberWidth - digits.length) ' ' ++ digits) ++ " │ "

/-! ## The rows -/

/-- The marked place as columns of a row. -/
def markIn (r : Report) (row : Row) : Mark := ⟨r.first - row.start, r.stop - row.start⟩

/-- A row with marks under its columns and, two columns further, the label. -/
def markedRow (r : Report) (row : Row) : List String :=
  let mark := r.markIn row
  let widths := row.widths (mark.stop + 2)
  [r.numbered row ++ row.drawn, r.margin ++ Mark.fill mark.underline widths,
    r.margin ++ Mark.fill mark.lead widths ++ " " ++ r.label]

/-- The row where a place across several rows begins. -/
def openingRow (r : Report) (row : Row) : List String := [r.numbered row ++ "╭─▶ " ++ row.drawn]

/-- The row where a place across several rows ends, with the label. -/
def closingRow (r : Report) (row : Row) : List String :=
  let widths := row.widths (row.chars.length + 2)
  [r.numbered row ++ "├─▶ " ++ row.drawn, r.margin ++ "│   " ++ Mark.fill (fun _ => ' ') widths,
    r.margin ++ "╰───" ++ Mark.fill (fun _ => '─') widths ++ " " ++ r.label]

/-- What stands for rows of the marked place that are left out. -/
def gap (r : Report) : List String := [r.indent ++ "┆ ┆   "]

/-- The rows of a place across several rows: the first and the last one. -/
def acrossRows (r : Report) (start : Row) (finish : Option Row) : List String :=
  if start.holds r.first then
    match finish.filter (·.holds r.last) with
    | some row =>
      r.openingRow start ++ (if start.index + 1 < row.index then r.gap else []) ++ r.closingRow row
    | none => r.openingRow start ++ if start.index + 1 < r.rowCount then r.gap else []
  else [r.margin]

/-- The rows with their marks. -/
def excerpt (r : Report) : List String :=
  match r.placement with
  | .inside row => r.markedRow row
  | .outside => [r.margin]
  | .across start finish => r.acrossRows start finish

/-! ## The drawing -/

/-- What stands in front of the help, with room for the bar of several rows. -/
def helpMargin (r : Report) : String :=
  match r.placement with
  | .across _ _ =>
    r.margin ++ if r.rows.head?.map Row.stop = some r.first then "│   " else "    "
  | _ => r.margin

/-- The drawing, line by line. -/
def lines (r : Report) : List String :=
  ["Error: " ++ r.message, r.indent ++ "╭─[input:" ++ r.position ++ "]", r.indent ++ "│"] ++
    r.excerpt ++
    [r.helpMargin, r.helpMargin ++ "Help: " ++ r.help,
      String.ofList (List.replicate (r.numberWidth + 2) '─') ++ "╯"]

/-- The drawing as text. -/
def text (r : Report) : String := String.join (r.lines.map (· ++ "\n"))

end Report

end Fluxion
