import Fluxion.Shape.Suggestion
import Mathlib.Tactic.Common

/-!
# The edit distance of words

The edit distance of two words is the least number of insertions, deletions and substitutions of a
character that lead from one to the other. Words at the distance `0` are equal, and words at a
distance of at most `1` are found by comparing the rests after the first difference.

* `editDistance`: the distance, row by row.
* `editDistance_comm`, `editDistance_eq_zero_iff`, **`editDistance_triangle`**: it is a metric.
* **`withinOneEdit_iff`**: the words that are within one edit.
-/

namespace Fluxion

/-- The distances from a word with one more character in front, given those from the word. -/
def editRow (c : Char) (row : List Char → ℕ) : List Char → ℕ
  | [] => row [] + 1
  | d :: ds => min (row (d :: ds) + 1)
      (min (editRow c row ds + 1) (row ds + if c = d then 0 else 1))

/-- The least number of edits of a character that lead from one word to the other. -/
def editDistance (cs : List Char) : List Char → ℕ := cs.foldr editRow List.length

@[simp] theorem editDistance_nil_left (ds : List Char) : editDistance [] ds = ds.length := rfl

@[simp] theorem editDistance_nil_right (cs : List Char) : editDistance cs [] = cs.length := by
  induction cs with
  | nil => rfl
  | cons c cs ih => exact congrArg (· + 1) ih

theorem editDistance_cons_cons (c d : Char) (cs ds : List Char) :
    editDistance (c :: cs) (d :: ds) = min (editDistance cs (d :: ds) + 1)
      (min (editDistance (c :: cs) ds + 1) (editDistance cs ds + if c = d then 0 else 1)) := rfl

example : editDistance ['s', 'i', 'n'] ['t', 'i', 'n', 'e'] = 2 := by decide

/-! ## A metric -/

theorem editDistance_comm (cs ds : List Char) : editDistance cs ds = editDistance ds cs := by
  induction cs generalizing ds with
  | nil => rw [editDistance_nil_left, editDistance_nil_right]
  | cons c cs ihc =>
    induction ds with
    | nil => rw [editDistance_nil_left, editDistance_nil_right]
    | cons d ds ihd =>
      have hcost : (if c = d then 0 else 1) = if d = c then 0 else 1 := by simp only [eq_comm]
      rw [editDistance_cons_cons, editDistance_cons_cons, ihc, ihd, ihc, hcost]
      omega

theorem editDistance_self (cs : List Char) : editDistance cs cs = 0 := by
  induction cs with
  | nil => rfl
  | cons c cs ih =>
    rw [editDistance_cons_cons, ih]
    simp

theorem editDistance_eq_zero_iff {cs ds : List Char} : editDistance cs ds = 0 ↔ cs = ds := by
  constructor
  · intro h
    induction cs generalizing ds with
    | nil => exact (List.length_eq_zero_iff.mp h).symm
    | cons c cs ih =>
      cases ds with
      | nil => exact absurd h (by simp)
      | cons d ds =>
        rw [editDistance_cons_cons] at h
        -- nothing is deleted or inserted, and the first characters agree
        have hrest : editDistance cs ds = 0 := by omega
        have hfirst : c = d := by
          by_contra hne
          rw [if_neg hne] at h
          omega
        rw [hfirst, ih hrest]
  · rintro rfl
    exact editDistance_self cs

theorem length_le_editDistance (cs ds : List Char) :
    ds.length ≤ cs.length + editDistance cs ds := by
  induction cs generalizing ds with
  | nil => simp
  | cons c cs ihc =>
    induction ds with
    | nil => simp
    | cons d ds ihd =>
      have hdelete := ihc (d :: ds)
      have hsubstitute := ihc ds
      rw [editDistance_cons_cons]
      simp only [List.length_cons] at *
      omega

theorem editDistance_le (cs ds : List Char) : editDistance cs ds ≤ cs.length + ds.length := by
  induction cs generalizing ds with
  | nil => simp
  | cons c cs ih =>
    cases ds with
    | nil => simp
    | cons d ds =>
      have hdelete := ih (d :: ds)
      rw [editDistance_cons_cons]
      simp only [List.length_cons] at *
      omega

/-- **A detour is not shorter.** -/
theorem editDistance_triangle (cs ds es : List Char) :
    editDistance cs es ≤ editDistance cs ds + editDistance ds es := by
  match cs, ds, es with
  | [], ds, es => exact length_le_editDistance ds es
  | cs, ds, [] =>
    rw [editDistance_comm cs ds, editDistance_nil_right, editDistance_nil_right, Nat.add_comm]
    exact length_le_editDistance ds cs
  | cs, [], es =>
    rw [editDistance_nil_right]
    exact editDistance_le cs es
  | c :: cs, d :: ds, e :: es =>
    have hdelete := editDistance_triangle cs (d :: ds) (e :: es)
    have hinsert := editDistance_triangle (c :: cs) (d :: ds) es
    have hskip := editDistance_triangle (c :: cs) ds (e :: es)
    have hinsertLater := editDistance_triangle (c :: cs) ds es
    have hdeleteLater := editDistance_triangle cs ds (e :: es)
    have hsubstitute := editDistance_triangle cs ds es
    have hcost : (if c = e then 0 else 1) ≤ (if c = d then 0 else 1) + if d = e then 0 else 1 := by
      grind
    have hce := editDistance_cons_cons c e cs es
    have hcd := editDistance_cons_cons c d cs ds
    have hde := editDistance_cons_cons d e ds es
    omega
termination_by cs.length + ds.length + es.length

/-! ## One edit -/

theorem editDistance_cons_le (c : Char) (cs ds : List Char) :
    editDistance (c :: cs) ds ≤ editDistance cs ds + 1 := by
  cases ds with
  | nil => simp
  | cons d ds =>
    rw [editDistance_cons_cons]
    omega

theorem editDistance_cons_self_le_one_iff (c : Char) (cs ds : List Char) :
    editDistance (c :: cs) (c :: ds) ≤ 1 ↔ editDistance cs ds ≤ 1 := by
  have hcons (cs : List Char) : editDistance (c :: cs) cs ≤ 1 := by
    have hle := editDistance_cons_le c cs cs
    rwa [editDistance_self] at hle
  have hstep := editDistance_cons_cons c c cs ds
  rw [if_pos rfl] at hstep
  refine ⟨fun h => ?_, fun h => by omega⟩
  by_cases hdelete : editDistance cs (c :: ds) = 0
  · rw [editDistance_eq_zero_iff.mp hdelete]
    exact hcons ds
  by_cases hinsert : editDistance (c :: cs) ds = 0
  · rw [← editDistance_eq_zero_iff.mp hinsert, editDistance_comm]
    exact hcons cs
  omega

theorem editDistance_cons_le_one_iff {c d : Char} (hne : c ≠ d) (cs ds : List Char) :
    editDistance (c :: cs) (d :: ds) ≤ 1 ↔ cs = ds ∨ cs = d :: ds ∨ c :: cs = ds := by
  rw [← editDistance_eq_zero_iff, ← editDistance_eq_zero_iff, ← editDistance_eq_zero_iff,
    editDistance_cons_cons, if_neg hne]
  omega

/-- **Words are within one edit exactly if their distance is at most one.** -/
theorem withinOneEdit_iff (cs ds : List Char) : withinOneEdit cs ds ↔ editDistance cs ds ≤ 1 := by
  fun_induction withinOneEdit cs ds with
  | case1 ds => exact decide_eq_true_iff
  | case2 cs =>
    rw [editDistance_nil_right]
    exact decide_eq_true_iff
  | case3 cs d ds ih => rw [ih, editDistance_cons_self_le_one_iff]
  | case4 c cs d ds hne =>
    rw [editDistance_cons_le_one_iff hne, Bool.or_eq_true, Bool.or_eq_true, decide_eq_true_iff,
      decide_eq_true_iff, decide_eq_true_iff, or_assoc]

end Fluxion
