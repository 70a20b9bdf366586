import Fluxion.Report
import Mathlib.Algebra.BigOperators.Group.List.Lemmas
import Mathlib.Algebra.Order.Ring.Nat

/-!
# Marks under a row

A line under a row has a cell for every column, as wide as the column is in the row. So what is
drawn at a position depends on the column to which the position belongs.

* `getElem?_cells`: cells of different widths, one after the other.
* `Row.Takes`: the positions of a column.
* `Row.getElem?_drawn`: what the row shows at them.
* `Mark.IsMark`, `Mark.isMark_underline_iff`: what is a mark, and where the marks are.
* `Mark.getElem?_fill`: what a line of marks shows at the positions of a column.
* `Mark.isMark_fill_iff`, `Mark.blank_iff`, `Mark.turn_iff_tail`: the line of marks and the lead.
* `Row.Underlined`: columns of a row that are marked by a line under it.
* **`Mark.underlined`**: the columns of a mark are.
-/

namespace Fluxion

/-! ## Cells -/

/-- A cell lies where the widths of the cells before it add up to. -/
theorem getElem?_cells {α β : Type*} {cell : ℕ → α → List β} {width : ℕ → ℕ} {xs : List α} {x : α}
    {column position : ℕ} (hx : xs[column]? = some x)
    (hwidth : ∀ i ≤ column, ∀ y ∈ xs[i]?, (cell i y).length = width i)
    (hle : ((List.range column).map width).sum ≤ position)
    (hlt : position < ((List.range (column + 1)).map width).sum) :
    (xs.zipIdx.flatMap fun (x, i) => cell i x)[position]? =
      (cell column x)[position - ((List.range column).map width).sum]? := by
  obtain ⟨hcolumn, hget⟩ := List.getElem?_eq_some_iff.mp hx
  let cells := xs.zipIdx.map fun (x, i) => cell i x
  -- only the cells up to this one are known to have their widths
  have hcells (count : ℕ) (hcount : count ≤ column + 1) :
      (cells.map List.length).take count = (List.range count).map width := by
    have hlength : ((cells.map List.length).take count).length = count := by
      rw [List.length_take, List.length_map, List.length_map, List.length_zipIdx]
      omega
    refine List.ext_getElem (by rw [hlength, List.length_map, List.length_range]) fun i hi _ => ?_
    rw [hlength] at hi
    simpa [cells] using hwidth i (by omega) xs[i] (List.getElem?_eq_getElem (by omega))
  have hlength : column < cells.length := by simpa [cells] using hcolumn
  have hcell : cells[column] = cell column x := by simp [cells, hget]
  rw [List.flatMap_def, ← hcell, ← List.drop_take_succ_flatten_eq_getElem cells column hlength,
    List.getElem?_drop, hcells _ (Nat.le_succ column), hcells _ (Nat.le_refl _),
    Nat.add_sub_of_le hle, List.getElem?_take_of_lt hlt]

/-! ## The columns of a row -/

theorem CodeRanges.covers_cons_of_lt {first last : ℕ} {ranges : CodeRanges} {c : Char}
    (h : c.toNat < first) : covers ((first, last) :: ranges) c = false := by
  rw [covers, decide_eq_false (Nat.not_le_of_lt h), Bool.false_and]

theorem displayWidth_of_lt {c : Char} (h : c.toNat < 128) : displayWidth c = 1 := by
  have hignorable : ignorableRanges.covers c = false :=
    CodeRanges.covers_cons_of_lt (Nat.lt_trans h (by decide))
  have hextend : extendRanges.covers c = false :=
    CodeRanges.covers_cons_of_lt (Nat.lt_trans h (by decide))
  have hwide : wideRanges.covers c = false :=
    CodeRanges.covers_cons_of_lt (Nat.lt_trans h (by decide))
  simp [displayWidth, isZeroWidth, hignorable, hextend, hwide]

namespace Row

variable {row : Row} {column position : ℕ}

theorem width_pos {c : Char} (h : displayWidth c ≠ 0) (column : ℕ) : 0 < width column c := by
  unfold width
  split_ifs
  · omega
  · exact Nat.one_pos
  · exact Nat.pos_of_ne_zero h

/-- The positions that a column takes. -/
def columnWidth (row : Row) (column : ℕ) : ℕ :=
  (row.visible[column]?.map (width column)).getD 1

theorem widths_eq (row : Row) (count : ℕ) :
    row.widths count = (List.range count).map row.columnWidth := by
  apply List.ext_getElem?
  intro column
  rw [widths, List.getElem?_take, List.getElem?_map, List.getElem?_append, List.length_map,
    List.length_zipIdx]
  by_cases hcount : column < count
  · rw [if_pos hcount, List.getElem?_range hcount, Option.map_some, columnWidth]
    by_cases hcolumn : column < row.visible.length
    · simp [hcolumn]
    · rw [if_neg hcolumn, List.getElem?_eq_none (Nat.le_of_not_lt hcolumn),
        List.getElem?_replicate_of_lt (by omega)]
      rfl
  · simp [hcount]

theorem visible_prefix (row : Row) : row.visible <+: row.chars := by
  rw [visible, trimBlankEnd, ← List.reverse_suffix, List.reverse_reverse]
  exact List.dropWhile_suffix _

theorem columnWidth_pos (h : ∀ c ∈ row.chars, displayWidth c ≠ 0) (column : ℕ) :
    0 < row.columnWidth column := by
  unfold columnWidth
  cases hc : row.visible[column]? with
  | none => exact Nat.one_pos
  | some c => exact width_pos (h c (row.visible_prefix.subset (List.mem_of_getElem? hc))) column

theorem sum_widths_succ (row : Row) (column : ℕ) :
    (row.widths (column + 1)).sum = (row.widths column).sum + row.columnWidth column := by
  rw [widths_eq, widths_eq, List.sum_range_succ]

theorem sum_widths_mono (row : Row) : Monotone fun count => (row.widths count).sum :=
  monotone_nat_of_le_succ fun column => sum_widths_succ row column ▸ Nat.le_add_right _ _

/-- The positions that belong to a column, after those of the columns before it. -/
def Takes (row : Row) (column position : ℕ) : Prop :=
  (row.widths column).sum ≤ position ∧ position < (row.widths (column + 1)).sum

theorem Takes.sub_lt (h : row.Takes column position) :
    position - (row.widths column).sum < row.columnWidth column := by
  have hlt := h.2
  rw [sum_widths_succ] at hlt
  exact Nat.sub_lt_left_of_lt_add h.1 hlt

theorem takes_sum_widths (h : ∀ c ∈ row.chars, displayWidth c ≠ 0) (column : ℕ) :
    row.Takes column (row.widths column).sum :=
  ⟨Nat.le_refl _, sum_widths_succ row column ▸ Nat.lt_add_of_pos_right (columnWidth_pos h column)⟩

theorem Takes.getElem?_cells {α β : Type*} {cell : ℕ → α → List β} {xs : List α} {x : α}
    (h : row.Takes column position) (hx : xs[column]? = some x)
    (hwidth : ∀ i ≤ column, ∀ y ∈ xs[i]?, (cell i y).length = row.columnWidth i) :
    (xs.zipIdx.flatMap fun (x, i) => cell i x)[position]? =
      (cell column x)[position - (row.widths column).sum]? := by
  unfold Takes at h
  rw [widths_eq, widths_eq] at h
  rw [widths_eq, Fluxion.getElem?_cells hx hwidth h.1 h.2]

/-! ## The characters of a row -/

/-- A character as it is drawn. -/
def face (c : Char) : Char := if isBlank c then ' ' else c

theorem shown_eq_replicate {c : Char} (h : displayWidth c = 1) (column : ℕ) :
    shown column c = List.replicate (width column c) (face c) := by
  unfold shown face
  split_ifs with hblank
  · rfl
  · have htab : c ≠ '\t' := fun htab => hblank (htab ▸ by decide)
    rw [width, if_neg htab, if_neg hblank, h, List.replicate_one]

/-- A row shows a character at the positions of its column. -/
theorem getElem?_drawn {c : Char} (htakes : row.Takes column position)
    (hc : row.visible[column]? = some c)
    (hsingle : ∀ d ∈ row.chars.take (column + 1), displayWidth d = 1) :
    row.drawn.toList[position]? = some (face c) := by
  have hmem {i : ℕ} {d : Char} (hi : i ≤ column) (hd : row.visible[i]? = some d) :
      displayWidth d = 1 := by
    obtain ⟨hlt, rfl⟩ := List.getElem?_eq_some_iff.mp hd
    have hchars := List.prefix_iff_getElem?.mp row.visible_prefix i hlt
    rw [← List.getElem?_take_of_lt (Nat.lt_succ_of_le hi)] at hchars
    exact hsingle _ (List.mem_of_getElem? hchars)
  have hwidth (i : ℕ) (hi : i ≤ column) (d : Char) (hd : d ∈ row.visible[i]?) :
      (shown i d).length = row.columnWidth i := by
    rw [shown_eq_replicate (hmem hi hd), List.length_replicate, columnWidth, hd]
    rfl
  rw [drawn, String.toList_ofList, htakes.getElem?_cells hc hwidth,
    shown_eq_replicate (hmem (Nat.le_refl _) hc), List.getElem?_replicate_of_lt]
  simpa [columnWidth, hc] using htakes.sub_lt

end Row

/-! ## The characters of a line of marks -/

namespace Mark

variable {m : Mark} {column : ℕ}

/-- The characters that stand under what is marked. -/
def IsMark (c : Char) : Prop := c = '─' ∨ c = '┬'

instance (c : Char) : Decidable (IsMark c) := inferInstanceAs (Decidable (_ ∨ _))

theorem covers_iff : m.covers column = true ↔ m.first ≤ column ∧ column < m.stop := by
  rw [covers, Bool.and_eq_true, decide_eq_true_iff, decide_eq_true_iff]

/-- Marks stand under the columns of a mark, and under no others. -/
theorem isMark_underline_iff :
    IsMark (m.underline column) ↔ m.first ≤ column ∧ column < m.stop := by
  rw [← covers_iff]
  unfold underline
  split_ifs with _ hcolumn hcolumn
  · exact iff_of_true (by decide) hcolumn
  · exact iff_of_false (by decide) hcolumn
  · exact iff_of_true (by decide) hcolumn
  · exact iff_of_false (by decide) hcolumn

theorem eq_of_columns {first stop : ℕ} (hlt : first < stop)
    (h : ∀ column, m.first ≤ column ∧ column < m.stop ↔ first ≤ column ∧ column < stop) :
    m.first = first ∧ m.stop = stop := by
  have hfirst := (h first).mpr ⟨Nat.le_refl first, hlt⟩
  have hstop := (h (stop - 1)).mpr (by omega)
  have hfirst' := (h m.first).mp ⟨Nat.le_refl m.first, by omega⟩
  have hstop' := (h (m.stop - 1)).mp (by omega)
  omega

theorem underline_eq_tail_iff (h : m.first < m.stop) :
    m.underline column = '┬' ↔ column = m.middle := by
  have hmiddle : m.covers m.middle = true := by
    rw [covers_iff, middle]
    omega
  unfold underline
  split_ifs with hcolumn hcovers hcovers
  · exact iff_of_true rfl hcolumn
  · exact absurd (hcolumn ▸ hmiddle) hcovers
  · exact iff_of_false (by decide) hcolumn
  · exact iff_of_false (by decide) hcolumn

theorem lead_eq_turn_iff : m.lead column = '╰' ↔ column = m.middle := by
  unfold lead
  split_ifs with hlt heq
  · exact iff_of_false (by decide) (Nat.ne_of_lt hlt)
  · exact iff_of_true rfl heq
  · exact iff_of_false (by decide) heq

theorem lead_eq_space_iff : m.lead column = ' ' ↔ column < m.middle := by
  unfold lead
  split_ifs with hlt
  · exact iff_of_true rfl hlt
  · exact iff_of_false (by decide) hlt
  · exact iff_of_false (by decide) hlt

theorem filler_lead_eq_space_iff : filler (m.lead column) = ' ' ↔ column < m.middle := by
  rw [← lead_eq_space_iff]
  unfold lead
  split_ifs <;> decide

theorem underline_ne_turn : m.underline column ≠ '╰' := by
  unfold underline
  split_ifs <;> decide

theorem filler_ne_tail (mark : Char) : filler mark ≠ '┬' := by
  unfold filler
  split_ifs with hends hbar
  · decide
  · decide
  · exact fun h => hends (.inl h)

theorem filler_ne_turn (mark : Char) : filler mark ≠ '╰' := by
  unfold filler
  split_ifs with hends hbar
  · decide
  · decide
  · exact fun h => hends (.inr h)

theorem isMark_filler_iff {mark : Char} (h : mark ≠ '╰') : IsMark (filler mark) ↔ IsMark mark := by
  unfold filler
  split_ifs with hends hbar
  · exact iff_of_true (by decide) (.inr (hends.resolve_right h))
  · subst hbar
    decide
  · rfl

theorem length_cell (mark : Char) (width : ℕ) : (cell mark width).length = width := by
  unfold cell
  rw [List.length_take, List.length_cons, List.length_replicate]
  omega

theorem getElem?_cell {mark : Char} {width i : ℕ} (h : i < width) :
    (cell mark width)[i]? = some (if i = 0 then mark else filler mark) := by
  rw [cell, List.getElem?_take_of_lt h]
  cases i with
  | zero => rfl
  | succ i =>
    rw [List.getElem?_cons_succ, List.getElem?_replicate_of_lt (by omega)]
    rfl

theorem length_fill (mark : ℕ → Char) (widths : List ℕ) :
    (fill mark widths).length = widths.sum := by
  rw [fill, String.length_ofList, List.length_flatMap]
  simp only [length_cell]
  exact congrArg List.sum (List.zipIdx_map_fst 0 widths)

variable {mark : ℕ → Char} {row : Row} {count position : ℕ}

/-- A column has its mark first, and then what fills it. -/
theorem getElem?_fill (hcolumn : column < count) (h : row.Takes column position) :
    (fill mark (row.widths count)).toList[position]? =
      some (if position = (row.widths column).sum then mark column else filler (mark column)) := by
  have hget (i : ℕ) (hi : i < count) : (row.widths count)[i]? = some (row.columnWidth i) := by
    rw [Row.widths_eq, List.getElem?_map, List.getElem?_range hi, Option.map_some]
  have hwidth (i : ℕ) (hi : i ≤ column) (width : ℕ) (hw : width ∈ (row.widths count)[i]?) :
      (cell (mark i) width).length = row.columnWidth i := by
    rw [hget i (by omega)] at hw
    rw [length_cell, Option.some_inj.mp hw]
  have hfirst : position - (row.widths column).sum = 0 ↔ position = (row.widths column).sum := by
    have hle := h.1
    omega
  rw [fill, String.toList_ofList, h.getElem?_cells (hget column hcolumn) hwidth,
    getElem?_cell h.sub_lt]
  simp only [hfirst]

theorem getElem?_fill_of_le (hcolumn : count ≤ column) (h : row.Takes column position) :
    (fill mark (row.widths count)).toList[position]? = none := by
  rw [List.getElem?_eq_none_iff, String.length_toList, length_fill]
  exact (row.sum_widths_mono hcolumn).trans h.1

/-- Marks are at the positions of the columns that a mark covers. -/
theorem isMark_fill_iff (h : row.Takes column position) :
    (∃ c ∈ (fill m.underline (row.widths (m.stop + 2))).toList[position]?, IsMark c) ↔
      m.first ≤ column ∧ column < m.stop := by
  rw [← isMark_underline_iff]
  by_cases hcolumn : column < m.stop + 2
  · rw [getElem?_fill hcolumn h]
    split_ifs
    · simp
    · simpa using isMark_filler_iff underline_ne_turn
  · rw [getElem?_fill_of_le (Nat.le_of_not_lt hcolumn) h, isMark_underline_iff]
    refine iff_of_false (fun ⟨c, hc, _⟩ => nomatch hc) ?_
    omega

/-- The lead turns under the tail of the marks. -/
theorem turn_iff_tail (hlt : m.first < m.stop) (h : row.Takes column position) :
    (fill m.lead (row.widths (m.stop + 2))).toList[position]? = some '╰' ↔
      (fill m.underline (row.widths (m.stop + 2))).toList[position]? = some '┬' := by
  by_cases hcolumn : column < m.stop + 2
  · rw [getElem?_fill hcolumn h, getElem?_fill hcolumn h, Option.some_inj, Option.some_inj]
    split_ifs
    · rw [lead_eq_turn_iff, underline_eq_tail_iff hlt]
    · exact iff_of_false (filler_ne_turn _) (filler_ne_tail _)
  · rw [getElem?_fill_of_le (Nat.le_of_not_lt hcolumn) h,
      getElem?_fill_of_le (Nat.le_of_not_lt hcolumn) h]
    exact iff_of_false nofun nofun

/-- The lead begins in the middle. -/
theorem blank_iff (hlt : m.first < m.stop) (h : row.Takes column position) :
    (fill m.lead (row.widths (m.stop + 2))).toList[position]? = some ' ' ↔ column < m.middle := by
  by_cases hcolumn : column < m.stop + 2
  · rw [getElem?_fill hcolumn h, Option.some_inj]
    split_ifs
    · exact lead_eq_space_iff
    · exact filler_lead_eq_space_iff
  · rw [getElem?_fill_of_le (Nat.le_of_not_lt hcolumn) h, middle]
    exact iff_of_false nofun (by omega)

end Mark

/-! ## Underlined columns -/

/-- The columns of a row from `first` up to, and without, `stop` are marked. -/
structure Row.Underlined (row : Row) (marks lead : String) (first stop : ℕ) : Prop where
  /-- At the positions of these columns there are marks, and at no others. -/
  marked : ∀ {column position}, row.Takes column position →
    ((∃ c ∈ marks.toList[position]?, Mark.IsMark c) ↔ first ≤ column ∧ column < stop)
  /-- At the same positions the row shows the characters of these columns. -/
  above : ∀ {column position c}, row.Takes column position → column < stop →
    row.visible[column]? = some c → row.drawn.toList[position]? = some (Row.face c)
  /-- Under the columns before the middle there is no lead. -/
  blank : ∀ {column position}, row.Takes column position →
    (lead.toList[position]? = some ' ' ↔ column < (first + stop) / 2)
  /-- The lead turns under the tail of the marks. -/
  turned : ∀ {column position}, row.Takes column position →
    (lead.toList[position]? = some '╰' ↔ marks.toList[position]? = some '┬')

namespace Mark

variable {m : Mark} {row : Row}

/-- **The columns of a mark are underlined.** -/
theorem underlined (hlt : m.first < m.stop)
    (hsingle : ∀ c ∈ row.chars.take m.stop, displayWidth c = 1) :
    row.Underlined (fill m.underline (row.widths (m.stop + 2)))
      (fill m.lead (row.widths (m.stop + 2))) m.first m.stop where
  marked := isMark_fill_iff
  above htakes hstop hc :=
    Row.getElem?_drawn htakes hc fun d hd =>
      hsingle d ((List.take_prefix_take_left hstop).subset hd)
  blank := blank_iff hlt
  turned := turn_iff_tail hlt

/-- They are the only ones, if every character takes a position. -/
theorem eq_of_underlined {lead : String} {first stop : ℕ} (hlt : first < stop)
    (hwidth : ∀ c ∈ row.chars, displayWidth c ≠ 0)
    (h : row.Underlined (fill m.underline (row.widths (m.stop + 2))) lead first stop) :
    m.first = first ∧ m.stop = stop := by
  -- every column has a position where its mark can be seen
  have hcolumns (column : ℕ) :
      m.first ≤ column ∧ column < m.stop ↔ first ≤ column ∧ column < stop :=
    (isMark_fill_iff (Row.takes_sum_widths hwidth column)).symm.trans
      (h.marked (Row.takes_sum_widths hwidth column))
  exact eq_of_columns hlt hcolumns

end Mark

end Fluxion
