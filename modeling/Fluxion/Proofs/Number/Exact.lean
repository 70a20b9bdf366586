import Fluxion.Number.Binary64
import Mathlib.Algebra.Order.Field.Basic
import Mathlib.Data.Rat.Cast.Order

/-!
# Exact values

A finite number of the format stands for a rational number. Whatever the format can write exactly
is not changed by rounding.

* `Magnitude.value`, `Binary64.value`: the rational numbers that are meant.
* `Magnitude.ofRatio?_mul_mul`: rounding depends on the ratio alone, not on how it is written.
* **`Magnitude.ofRatio?_units`**: the value of a magnitude is rounded to that magnitude.
* `Binary64.ofInt_eq`: whole numbers of up to 53 bits are exact.
* **`Binary64.value_mul`**: a product that the format can write is exact.
-/

namespace Fluxion

theorem unitsPerOne_pos : 0 < unitsPerOne := by
  unfold unitsPerOne
  exact Nat.two_pow_pos 1074

theorem cast_unitsPerOne : (unitsPerOne : ℚ) = 2 ^ 1074 := by
  simp only [unitsPerOne, Nat.cast_pow, Nat.cast_ofNat]

theorem cast_unitsPerOne_pos : (0 : ℚ) < (unitsPerOne : ℚ) := Nat.cast_pos.mpr unitsPerOne_pos

theorem nearest_mul_mul (n d : ℕ) {k : ℕ} (hk : 0 < k) : nearest (n * k) (d * k) = nearest n d := by
  unfold nearest
  simp only [Nat.mul_div_mul_right n d hk, Nat.mul_mod_mul_right, ← Nat.mul_assoc,
    Nat.mul_lt_mul_right hk, Nat.mul_right_cancel_iff hk]

namespace Magnitude

/-! ## Rounding depends on the ratio -/

theorem significandFor_mul_mul (n d : ℕ) {k : ℕ} (hk : 0 < k) :
    significandFor (n * k) (d * k) = significandFor n d := by
  unfold significandFor
  rw [Nat.mul_div_mul_right n d hk, Nat.mul_right_comm d k, nearest_mul_mul n _ hk]

theorem ofRatio?_mul_mul (n d : ℕ) {k : ℕ} (hk : 0 < k) :
    ofRatio? (n * k) (d * k) = ofRatio? n d := by
  unfold ofRatio?
  simp only [significandFor_mul_mul n d hk, Nat.mul_div_mul_right n d hk]

theorem ofRatio?_congr {n d n' d' : ℕ} (hd : 0 < d) (hd' : 0 < d') (h : n * d' = n' * d) :
    ofRatio? n d = ofRatio? n' d' := by
  rw [← ofRatio?_mul_mul n d hd', h, Nat.mul_comm d d', ofRatio?_mul_mul n' d' hd]

/-! ## Values that need no rounding -/

theorem units_eq_zero {a : Magnitude} (h : a.significand = 0) : a.units = 0 := by
  rw [units, h, Nat.zero_mul]

theorem significand_eq_zero {a : Magnitude} (h : a.units = 0) : a.significand = 0 :=
  (Nat.mul_eq_zero.mp h).resolve_right (Nat.two_pow_pos _).ne'

theorem exponentFor_units (a : Magnitude) : exponentFor a.units = a.exponent := by
  have hlt : a.units < 2 ^ (53 + a.exponent) := by
    rw [Nat.pow_add]
    exact Nat.mul_lt_mul_of_pos_right a.significand_lt (Nat.two_pow_pos _)
  unfold exponentFor
  rcases a.normal with he | hs
  · have hlog : a.units.log2 < 53 ∨ a.units = 0 := by
      rw [he, Nat.add_zero] at hlt
      by_cases h0 : a.units = 0
      · exact .inr h0
      · exact .inl ((Nat.log2_lt h0).mpr hlt)
    rcases hlog with hlog | hlog
    · omega
    · rw [hlog, he]; rfl
  · have hle : 2 ^ (52 + a.exponent) ≤ a.units := by
      rw [Nat.pow_add]
      exact Nat.mul_le_mul_right _ hs
    have hne : a.units ≠ 0 := (Nat.lt_of_lt_of_le (Nat.two_pow_pos _) hle).ne'
    have hlog : a.units.log2 = 52 + a.exponent :=
      (Nat.log2_eq_iff hne).mpr ⟨hle, by rw [Nat.add_right_comm]; exact hlt⟩
    omega

/-- **Rounding changes no magnitude.** -/
theorem ofRatio?_units (a : Magnitude) {d : ℕ} (hd : 0 < d) :
    ofRatio? (a.units * d) d = some a := by
  have hdiv : a.units * d / d = a.units := Nat.mul_div_cancel _ hd
  have hsig : significandFor (a.units * d) d = a.significand := by
    unfold significandFor
    rw [hdiv, exponentFor_units, units, Nat.mul_assoc, Nat.mul_comm (2 ^ a.exponent) d]
    exact nearest_mul (Nat.mul_pos hd (Nat.two_pow_pos _)) _
  unfold ofRatio?
  simp only [hsig, hdiv, exponentFor_units]
  rw [dif_pos a.significand_lt, dif_pos a.exponent_le]

theorem units_injective : Function.Injective units := fun a b h => by
  have ha := ofRatio?_units a Nat.one_pos
  rw [h, ofRatio?_units b Nat.one_pos] at ha
  exact (Option.some.inj ha).symm

theorem exists_units_eq {n : ℕ} (h : n < 2 ^ 53) : ∃ a : Magnitude, a.units = n * unitsPerOne := by
  by_cases h0 : n = 0
  · exact ⟨zero, by rw [h0, Nat.zero_mul]; rfl⟩
  have hlog : n.log2 < 53 := (Nat.log2_lt h0).mpr h
  have hsplit : 52 = n.log2 + (52 - n.log2) := by omega
  have hle : 2 ^ 52 ≤ n * 2 ^ (52 - n.log2) := by
    conv_lhs => rw [hsplit, Nat.pow_add]
    exact Nat.mul_le_mul_right _ (Nat.log2_self_le h0)
  have hlt : n * 2 ^ (52 - n.log2) < 2 ^ 53 := by
    have hsplit' : 53 = n.log2 + 1 + (52 - n.log2) := by omega
    conv_rhs => rw [hsplit', Nat.pow_add]
    exact Nat.mul_lt_mul_of_pos_right Nat.lt_log2_self (Nat.two_pow_pos _)
  refine ⟨⟨n * 2 ^ (52 - n.log2), 1022 + n.log2, hlt, .inr hle, by omega⟩, ?_⟩
  have hexp : 52 - n.log2 + (1022 + n.log2) = 1074 := by omega
  rw [units, Nat.mul_assoc, ← Nat.pow_add, hexp, unitsPerOne]

/-! ## The rational value -/

/-- The value as a rational number. -/
def value (a : Magnitude) : ℚ := a.units / unitsPerOne

theorem value_nonneg (a : Magnitude) : 0 ≤ a.value :=
  div_nonneg (Nat.cast_nonneg _) (Nat.cast_nonneg _)

theorem units_one : one.units = unitsPerOne := by
  unfold units one unitsPerOne
  dsimp only
  rw [← Nat.pow_add]

theorem value_one : one.value = 1 := by rw [value, units_one, div_self cast_unitsPerOne_pos.ne']

theorem value_eq_zero {a : Magnitude} : a.value = 0 ↔ a.significand = 0 := by
  unfold value
  rw [div_eq_zero_iff, or_iff_left cast_unitsPerOne_pos.ne', Nat.cast_eq_zero]
  exact ⟨significand_eq_zero, units_eq_zero⟩

end Magnitude

namespace Binary64

/-- Whether the number is finite. -/
def IsFinite : Binary64 → Prop
  | finite _ _ => True
  | _ => False

instance : DecidablePred IsFinite := fun v => by
  cases v <;> unfold IsFinite <;> infer_instance

/-- The value of a finite number. -/
def value : Binary64 → ℚ
  | finite negative a => if negative then -a.value else a.value
  | _ => 0

/-- Whether some number of the format has the value. -/
def Representable (q : ℚ) : Prop := ∃ v : Binary64, v.IsFinite ∧ v.value = q

@[simp] theorem value_finite_false (a : Magnitude) : (finite false a).value = a.value := rfl

@[simp] theorem value_finite_true (a : Magnitude) : (finite true a).value = -a.value := rfl

theorem value_one : one.value = 1 := Magnitude.value_one

theorem abs_value_finite (s : Bool) (a : Magnitude) : |(finite s a).value| = a.value := by
  cases s
  · exact abs_of_nonneg a.value_nonneg
  · rw [value_finite_true, abs_neg, abs_of_nonneg a.value_nonneg]

theorem value_eq_zero_of_isZero {v : Binary64} (h : v.isZero) : v.value = 0 := by
  cases v with
  | nan | infinity s => rfl
  | finite s a =>
    have hs : a.significand = 0 := of_decide_eq_true h
    rw [← abs_eq_zero, abs_value_finite, Magnitude.value_eq_zero, hs]

theorem ofRatio_congr {s : Bool} {n d n' d' : ℕ} (hd : 0 < d) (hd' : 0 < d')
    (h : n * d' = n' * d) : ofRatio s n d = ofRatio s n' d' := by
  unfold ofRatio
  rw [Magnitude.ofRatio?_congr hd hd' h]

theorem ofRatio_of_units_eq {a : Magnitude} {n d : ℕ} (hd : 0 < d) (h : a.units * d = n)
    (s : Bool) : ofRatio s n d = finite s a := by
  unfold ofRatio
  rw [← h, Magnitude.ofRatio?_units a hd]

/-- **Whole numbers of up to 53 bits are exact.** -/
theorem ofInt_eq {i : ℤ} (h : i.natAbs < 2 ^ 53) :
    ∃ a : Magnitude, ofInt i = finite (decide (i < 0)) a ∧ a.units = i.natAbs * unitsPerOne := by
  obtain ⟨a, ha⟩ := Magnitude.exists_units_eq h
  exact ⟨a, ofRatio_of_units_eq Nat.one_pos (by rw [Nat.mul_one, ha]) _, ha⟩

theorem value_ofInt {i : ℤ} (h : i.natAbs < 2 ^ 53) : (ofInt i).IsFinite ∧ (ofInt i).value = i := by
  obtain ⟨a, hi, ha⟩ := ofInt_eq h
  rw [hi]
  have hvalue : a.value = i.natAbs := by
    rw [Magnitude.value, ha, Nat.cast_mul, mul_div_cancel_right₀ _ cast_unitsPerOne_pos.ne']
  refine ⟨trivial, ?_⟩
  rcases lt_or_ge i 0 with hneg | hpos
  · have habs : ((i.natAbs : ℤ) : ℚ) = -i := by
      rw [Int.ofNat_natAbs_of_nonpos hneg.le, Int.cast_neg]
    rw [decide_eq_true hneg, value_finite_true, hvalue, ← Int.cast_natCast, habs, neg_neg]
  · have habs : ((i.natAbs : ℤ) : ℚ) = i := by rw [Int.natAbs_of_nonneg hpos]
    rw [decide_eq_false hpos.not_gt, value_finite_false, hvalue, ← Int.cast_natCast, habs]

theorem mul_finite (s t : Bool) (a b : Magnitude) :
    (finite s a).mul (finite t b) = ofRatio (s != t) (a.units * b.units) unitsPerOne := rfl

theorem mul_infinity_finite (s t : Bool) (b : Magnitude) : (infinity s).mul (finite t b) =
    if b.significand = 0 then nan else infinity (s != t) := rfl

theorem value_mul_magnitudes (s t : Bool) (a b : Magnitude) :
    (finite s a).value * (finite t b).value =
      if s != t then -(a.value * b.value) else a.value * b.value := by
  cases s <;> cases t <;> simp

/-- **A product that the format can write is not rounded.** -/
theorem value_mul {v w : Binary64} (hv : v.IsFinite) (hw : w.IsFinite)
    (h : Representable (v.value * w.value)) :
    (v.mul w).IsFinite ∧ (v.mul w).value = v.value * w.value := by
  cases v with
  | nan | infinity => exact hv.elim
  | finite s a =>
  cases w with
  | nan | infinity => exact hw.elim
  | finite t b =>
  obtain ⟨u, hu, huv⟩ := h
  cases u with
  | nan | infinity => exact hu.elim
  | finite r m =>
  -- the signs apart, the product is the value of the magnitude `m`
  have habs : m.value = a.value * b.value := by
    rw [← abs_value_finite r m, huv, abs_mul, abs_value_finite, abs_value_finite]
  have hunits : m.units * unitsPerOne = a.units * b.units := by
    have hne : (unitsPerOne : ℚ) ≠ 0 := cast_unitsPerOne_pos.ne'
    apply Nat.cast_injective (R := ℚ)
    rw [Nat.cast_mul, Nat.cast_mul]
    unfold Magnitude.value at habs
    rw [div_mul_div_comm, div_eq_div_iff hne (mul_ne_zero hne hne), ← mul_assoc] at habs
    exact mul_right_cancel₀ hne habs
  rw [mul_finite, ofRatio_of_units_eq unitsPerOne_pos hunits]
  refine ⟨trivial, ?_⟩
  rw [value_mul_magnitudes, ← habs]
  cases s != t <;> rfl

end Binary64

end Fluxion
