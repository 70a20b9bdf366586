import Fluxion.Number.Numeral
import Fluxion.Proofs.Number.Rounding
import Mathlib.Data.List.TakeWhile

/-!
# Reading numerals

* `Numeral.value`: the rational number that digits with a point denote.
* `Numeral.read?_whole`, `Numeral.read?_pointed`: reading digits without and with a point.
* **`Numeral.read?_eq_some_iff`**: a run of digits and points reads as a number exactly if it has a
  digit and at most one point, and the number is its value, correctly rounded.
-/

namespace Fluxion

/-- A decimal is read as its value, correctly rounded, and as nothing else. -/
theorem Binary64.rounds_decimal_iff {digits places : ℕ} {v : Binary64} :
    Rounds (digits / 10 ^ places) v ↔ v = ofDecimal digits places := by
  have hq : (digits / 10 ^ places : ℚ) =
      (digits * unitsPerOne : ℕ) / ((10 ^ places : ℕ) * unitsPerOne) := by
    rw [Nat.cast_mul digits, Nat.cast_pow, Nat.cast_ofNat,
      mul_div_mul_right _ _ cast_unitsPerOne_pos.ne']
  rw [hq, rounds_iff (Nat.pow_pos (by decide)), ofDecimal]

theorem Binary64.ofRatio_decimal_congr (u : ℕ) {n p m q : ℕ} (h : n * 10 ^ q = m * 10 ^ p) :
    ofRatio false (n * u) (10 ^ p) = ofRatio false (m * u) (10 ^ q) := by
  have hpos : ∀ k, 0 < 10 ^ k := fun k => Nat.pow_pos (by decide)
  refine ofRatio_congr (hpos p) (hpos q) ?_
  rw [Nat.mul_right_comm, h, Nat.mul_right_comm]

theorem Binary64.ofDecimal_congr {n p m q : ℕ} (h : n * 10 ^ q = m * 10 ^ p) :
    ofDecimal n p = ofDecimal m q := ofRatio_decimal_congr unitsPerOne h

namespace Numeral

/-! ## The two parts of a numeral -/

/-- The characters before the point. -/
def wholePart (cs : List Char) : List Char := cs.takeWhile (· ≠ '.')

/-- The characters after the point. -/
def fractionPart (cs : List Char) : List Char := (cs.dropWhile (· ≠ '.')).drop 1

/-- The value that digits with at most one point denote. -/
def value (cs : List Char) : ℚ :=
  Nat.ofDigitChars 10 (wholePart cs) 0 +
    Nat.ofDigitChars 10 (fractionPart cs) 0 / 10 ^ (fractionPart cs).length

theorem ne_point {w : List Char} (hw : '.' ∉ w) : ∀ c ∈ w, decide (c ≠ '.') = true := fun _ hc =>
  decide_eq_true fun h => hw (h ▸ hc)

theorem wholePart_pointed {w : List Char} (hw : '.' ∉ w) (f : List Char) :
    wholePart (w ++ '.' :: f) = w := by
  rw [wholePart, List.takeWhile_append_of_pos (ne_point hw), List.takeWhile_cons_of_neg (by decide),
    List.append_nil]

theorem fractionPart_pointed {w : List Char} (hw : '.' ∉ w) (f : List Char) :
    fractionPart (w ++ '.' :: f) = f := by
  rw [fractionPart, List.dropWhile_append_of_pos (ne_point hw),
    List.dropWhile_cons_of_neg (by decide), List.drop_succ_cons, List.drop_zero]

theorem wholePart_whole {w : List Char} (hw : '.' ∉ w) : wholePart w = w :=
  List.takeWhile_eq_self_iff.mpr (ne_point hw)

theorem fractionPart_whole {w : List Char} (hw : '.' ∉ w) : fractionPart w = [] := by
  rw [fractionPart, List.dropWhile_eq_nil_iff.mpr (ne_point hw), List.drop_nil]

theorem whole_or_pointed (cs : List Char) :
    '.' ∉ cs ∨ ∃ w f, '.' ∉ w ∧ cs = w ++ '.' :: f := by
  by_cases h : '.' ∈ cs
  · obtain ⟨w, f, rfl, hw⟩ := List.eq_append_cons_of_mem h
    exact .inr ⟨w, f, hw, rfl⟩
  · exact .inl h

/-! ## Reading -/

theorem read?_eq (cs : List Char) : read? cs =
    if wholePart cs ++ fractionPart cs = [] ∨ '.' ∈ fractionPart cs then none
    else some (Binary64.ofDecimal (Nat.ofDigitChars 10 (wholePart cs ++ fractionPart cs) 0)
      (fractionPart cs).length) := rfl

theorem read?_whole {w : List Char} (hne : w ≠ []) (hw : '.' ∉ w) :
    read? w = some (.ofDecimal (Nat.ofDigitChars 10 w 0) 0) := by
  rw [read?_eq, wholePart_whole hw, fractionPart_whole hw, List.append_nil,
    if_neg (by simpa using hne), List.length_nil]

theorem read?_pointed {w f : List Char} (hne : w ++ f ≠ []) (hw : '.' ∉ w) (hf : '.' ∉ f) :
    read? (w ++ '.' :: f) = some (.ofDecimal (Nat.ofDigitChars 10 (w ++ f) 0) f.length) := by
  rw [read?_eq, wholePart_pointed hw, fractionPart_pointed hw, if_neg (not_or.mpr ⟨hne, hf⟩)]

theorem ofDigitChars_append (w f : List Char) : Nat.ofDigitChars 10 (w ++ f) 0 =
    Nat.ofDigitChars 10 w 0 * 10 ^ f.length + Nat.ofDigitChars 10 f 0 := by
  rw [Nat.ofDigitChars_append, Nat.ofDigitChars_eq_ofDigitChars_zero, Nat.mul_comm]

theorem value_eq (cs : List Char) : value cs =
    (Nat.ofDigitChars 10 (wholePart cs ++ fractionPart cs) 0 : ℕ) /
      10 ^ (fractionPart cs).length := by
  rw [value, ofDigitChars_append, Nat.cast_add, Nat.cast_mul, Nat.cast_pow, Nat.cast_ofNat, add_div,
    mul_div_cancel_right₀ _ (pow_ne_zero _ (by norm_num))]

theorem exists_isDigit_iff {cs : List Char} (hcs : ∀ c ∈ cs, c.isDigit ∨ c = '.')
    (hf : '.' ∉ fractionPart cs) :
    (∃ c ∈ cs, c.isDigit) ↔ wholePart cs ++ fractionPart cs ≠ [] := by
  rcases whole_or_pointed cs with hw | ⟨w, f, hw, rfl⟩
  · rw [wholePart_whole hw, fractionPart_whole hw, List.append_nil]
    constructor
    · rintro ⟨c, hc, -⟩ rfl
      exact List.not_mem_nil hc
    · intro hne
      have hc := List.head_mem hne
      exact ⟨_, hc, (hcs _ hc).resolve_right fun h => hw (h ▸ hc)⟩
  · rw [fractionPart_pointed hw] at hf
    rw [wholePart_pointed hw, fractionPart_pointed hw]
    constructor
    · rintro ⟨c, hc, hdigit⟩ hnil
      obtain ⟨rfl, rfl⟩ := List.append_eq_nil_iff.mp hnil
      rw [List.nil_append, List.mem_singleton] at hc
      rw [hc] at hdigit
      exact absurd hdigit (by decide)
    · intro hne
      have hc := List.head_mem hne
      have hmem : (w ++ f).head hne ∈ w ++ '.' :: f := by
        rw [List.mem_append] at hc ⊢
        exact hc.imp_right (List.mem_cons_of_mem _)
      refine ⟨_, hmem, (hcs _ hmem).resolve_right fun h => ?_⟩
      rw [h, List.mem_append] at hc
      exact hc.elim hw hf

theorem count_point_le_iff (cs : List Char) : cs.count '.' ≤ 1 ↔ '.' ∉ fractionPart cs := by
  rcases whole_or_pointed cs with hw | ⟨w, f, hw, rfl⟩
  · rw [fractionPart_whole hw, List.count_eq_zero_of_not_mem hw]
    simp
  · rw [fractionPart_pointed hw, List.count_append, List.count_eq_zero_of_not_mem hw,
      List.count_cons_self, ← List.count_eq_zero]
    omega

/-- **What is read is the value, correctly rounded.** -/
theorem read?_eq_some_iff {cs : List Char} (hcs : ∀ c ∈ cs, c.isDigit ∨ c = '.') {v : Binary64} :
    read? cs = some v ↔ (∃ c ∈ cs, c.isDigit) ∧ cs.count '.' ≤ 1 ∧ v.Rounds (value cs) := by
  rw [count_point_le_iff, read?_eq, value_eq, Binary64.rounds_decimal_iff]
  by_cases hf : '.' ∈ fractionPart cs
  · simp [hf]
  · rw [exists_isDigit_iff hcs hf]
    by_cases hnil : wholePart cs ++ fractionPart cs = []
    · simp [hnil]
    · rw [if_neg (not_or.mpr ⟨hnil, hf⟩)]
      simp only [Option.some.injEq, ne_eq, hnil, hf, not_false_eq_true, true_and]
      exact eq_comm

end Numeral

end Fluxion
