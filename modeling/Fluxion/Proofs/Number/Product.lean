import Fluxion.Proofs.Number.Rounding

/-!
# Products with whole numbers

The power rule multiplies a coefficient by an exponent and rounds once. The coefficient is a whole
number of units, so the product is one as well, and it can neither vanish nor lose anything by being
too small. It may be too large, and an infinite coefficient times zero is no number.

* `Binary64.mul_ofInt_finite`, `Binary64.mul_ofInt_infinity`: the product with a whole number.
* **`Binary64.isZero_mul_ofInt_iff`**: when it is zero.
* **`Binary64.mul_ofInt_eq_nan_iff`**: when it is no number.
* **`Binary64.isFinite_mul_ofInt_iff`**: when it is finite.
-/

namespace Fluxion

namespace Magnitude

theorem significand_eq_zero_iff {a : Magnitude} : a.significand = 0 ↔ a.units = 0 :=
  ⟨units_eq_zero, significand_eq_zero⟩

theorem units_eq_zero_iff_of_ofRatio? {k : ℕ} {a : Magnitude} (h : ofRatio? k 1 = some a) :
    a.units = 0 ↔ k = 0 := by
  obtain ⟨hunits, -⟩ := ofRatio?_eq_some h
  have hpow : 0 < 2 ^ exponentFor (k / 1) := Nat.two_pow_pos _
  rw [hunits, Nat.mul_eq_zero, or_iff_left hpow.ne']
  rcases le_significandFor k 1 with hexponent | hlarge
  · -- with the least exponent there is nothing to be rounded
    have hexact : significandFor k 1 = k := by
      have hnearest := nearest_mul Nat.one_pos k
      rw [Nat.mul_one] at hnearest
      rw [significandFor, hexponent]
      exact hnearest
    rw [hexact]
  · refine iff_of_false (by omega) ?_
    rintro rfl
    have hnearest := nearest_mul (Nat.mul_pos Nat.one_pos hpow) 0
    rw [Nat.zero_mul] at hnearest
    rw [significandFor, hnearest] at hlarge
    omega

end Magnitude

namespace Binary64

theorem isFinite_of_isZero {c : Binary64} (h : c.isZero) : c.IsFinite := by
  cases c with
  | nan | infinity => exact nomatch h
  | finite => trivial

theorem IsFinite.ne_nan {c : Binary64} (h : c.IsFinite) : c ≠ nan := by
  rintro rfl
  exact h

/-! ## Rounding once -/

theorem isZero_ofRatio_one_iff (s : Bool) (k : ℕ) : (ofRatio s k 1).isZero ↔ k = 0 := by
  unfold ofRatio
  cases h : Magnitude.ofRatio? k 1 with
  | none =>
    refine iff_of_false nofun ?_
    rintro rfl
    have hzero := Magnitude.ofRatio?_units .zero Nat.one_pos
    exact nomatch hzero.symm.trans h
  | some a =>
    change decide (a.significand = 0) = true ↔ k = 0
    rw [decide_eq_true_iff, Magnitude.significand_eq_zero_iff,
      Magnitude.units_eq_zero_iff_of_ofRatio? h]

theorem isFinite_ofRatio_iff (s : Bool) {n d : ℕ} (hd : 0 < d) :
    (ofRatio s n d).IsFinite ↔ (n / (d * unitsPerOne) : ℚ) < overflow := by
  rw [← not_le, overflow_le_iff hd]
  unfold ofRatio
  cases Magnitude.ofRatio? n d with
  | none => exact iff_of_false id fun h => h rfl
  | some a => exact iff_of_true trivial nofun

theorem abs_value_lt_overflow {c : Binary64} (hc : c.IsFinite) : |c.value| < overflow := by
  cases c with
  | nan | infinity => exact hc.elim
  | finite s a =>
    have hfinite : (ofRatio s (a.units * 1) 1).IsFinite := by
      rw [ofRatio_of_units_eq Nat.one_pos rfl]
      trivial
    rw [isFinite_ofRatio_iff s Nat.one_pos, Nat.mul_one, Nat.cast_one, one_mul] at hfinite
    rw [abs_value_finite]
    exact hfinite

/-! ## The product -/

theorem natAbs_toInt_lt (n : Int32) : n.toInt.natAbs < 2 ^ 53 := by
  have hlt := n.toInt_lt
  have hle := n.le_toInt
  omega

variable {c : Binary64} {n : ℤ}

theorem mul_ofInt_finite (s : Bool) (a : Magnitude) (hn : n.natAbs < 2 ^ 53) :
    (finite s a).mul (ofInt n) = ofRatio (s != decide (n < 0)) (a.units * n.natAbs) 1 := by
  obtain ⟨b, hb, hunits⟩ := ofInt_eq hn
  rw [hb, mul_finite, hunits]
  exact ofRatio_congr unitsPerOne_pos Nat.one_pos (by rw [Nat.mul_one, Nat.mul_assoc])

theorem mul_ofInt_infinity (s : Bool) (hn : n.natAbs < 2 ^ 53) :
    (infinity s).mul (ofInt n) = if n = 0 then nan else infinity (s != decide (n < 0)) := by
  obtain ⟨b, hb, hunits⟩ := ofInt_eq hn
  have hzero : b.significand = 0 ↔ n = 0 := by
    rw [Magnitude.significand_eq_zero_iff, hunits, Nat.mul_eq_zero,
      or_iff_left unitsPerOne_pos.ne', Int.natAbs_eq_zero]
  rw [hb, mul_infinity_finite]
  simp only [hzero]

theorem mul_ofInt_nan (n : ℤ) : nan.mul (ofInt n) = nan := by
  cases ofInt n <;> rfl

/-- **The product vanishes exactly if the number is finite and one of the two is zero.** -/
theorem isZero_mul_ofInt_iff (hn : n.natAbs < 2 ^ 53) :
    (c.mul (ofInt n)).isZero ↔ c.IsFinite ∧ (c.isZero ∨ n = 0) := by
  cases c with
  | nan =>
    rw [mul_ofInt_nan]
    exact iff_of_false nofun fun h => h.1
  | infinity s =>
    rw [mul_ofInt_infinity s hn]
    refine iff_of_false ?_ fun h => h.1
    split <;> exact nofun
  | finite s a =>
    have hzero : (finite s a).isZero ↔ a.units = 0 := by
      rw [← Magnitude.significand_eq_zero_iff]
      exact decide_eq_true_iff
    rw [mul_ofInt_finite s a hn, isZero_ofRatio_one_iff, Nat.mul_eq_zero, Int.natAbs_eq_zero, hzero]
    exact (and_iff_right trivial).symm

/-- **The product is no number exactly if the factor is none, or infinite and multiplied by
zero.** -/
theorem mul_ofInt_eq_nan_iff (hn : n.natAbs < 2 ^ 53) :
    c.mul (ofInt n) = nan ↔ c = nan ∨ ¬ c.IsFinite ∧ n = 0 := by
  cases c with
  | nan => exact iff_of_true (mul_ofInt_nan n) (.inl rfl)
  | infinity s =>
    rw [mul_ofInt_infinity s hn, ite_eq_left_iff]
    simp [IsFinite]
  | finite s a =>
    rw [mul_ofInt_finite s a hn]
    unfold ofRatio
    refine iff_of_false ?_ ?_
    · split <;> exact nofun
    · rintro (h | ⟨h, -⟩)
      · exact nomatch h
      · exact h trivial

/-- **The product of a finite number is finite exactly if its exact value is not too large.** -/
theorem isFinite_mul_ofInt_iff (hc : c.IsFinite) (hn : n.natAbs < 2 ^ 53) :
    (c.mul (ofInt n)).IsFinite ↔ |c.value * n| < overflow := by
  cases c with
  | nan | infinity => exact hc.elim
  | finite s a =>
    have hvalue : |(finite s a).value * n| =
        ((a.units * n.natAbs : ℕ) : ℚ) / ((1 : ℕ) * unitsPerOne) := by
      have habs : (n.natAbs : ℚ) = |(n : ℚ)| := by
        rw [← Int.cast_abs, Int.abs_eq_natAbs, Int.cast_natCast]
      rw [abs_mul, abs_value_finite, Magnitude.value, Nat.cast_one, one_mul, Nat.cast_mul, habs,
        div_mul_eq_mul_div]
    rw [mul_ofInt_finite s a hn, isFinite_ofRatio_iff _ Nat.one_pos, hvalue]

end Binary64

end Fluxion
