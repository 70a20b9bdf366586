import Fluxion.Proofs.Derivative.Vanishing

/-!
# Coefficients and exponents that occur

A shape and a derivative may have any coefficient and any exponent, but only some of them occur.
Coefficients are written without a sign and powers with digits alone, and a derivative is left out
when its coefficient is zero.

* `Binary64.IsAboveZero`, `Binary64.IsBelowZero`: the sign of a number, which may be infinite.
* `Shape.Yields`: the derivatives that a shape may have, with what is true of their coefficients
  and exponents.
* `Shape.yields_power`: the sign of the product in the power rule.
* **`Term.yields_of_classify`**: what is true of every term that has a shape, and of its derivative.
-/

namespace Fluxion

namespace Binary64

/-- The number is greater than zero. It may be infinite. -/
def IsAboveZero : Binary64 → Prop
  | nan => False
  | infinity negative => negative = false
  | finite negative a => 0 < (finite negative a).value

/-- The number is less than zero. It may be infinite. -/
def IsBelowZero : Binary64 → Prop
  | nan => False
  | infinity negative => negative = true
  | finite negative a => (finite negative a).value < 0

variable {v : Binary64}

theorem value_pos_of_isZero {a : Magnitude} {s : Bool} (h : (finite s a).isZero = false) :
    0 < a.value := by
  refine lt_of_le_of_ne a.value_nonneg fun hvalue => ?_
  exact of_decide_eq_false h (Magnitude.value_eq_zero.mp hvalue.symm)

theorem isAboveZero_iff (h : v.isZero = false) :
    v.IsAboveZero ↔ v ≠ nan ∧ v.isNegative = false := by
  cases v with
  | nan => exact iff_of_false id fun hv => hv.1 rfl
  | infinity s => exact (and_iff_right nofun).symm
  | finite s a =>
    have hpos := value_pos_of_isZero h
    refine Iff.trans ?_ (and_iff_right nofun).symm
    cases s with
    | false => exact iff_of_true hpos rfl
    | true => exact iff_of_false (neg_neg_of_pos hpos).not_gt nofun

theorem isBelowZero_iff (h : v.isZero = false) : v.IsBelowZero ↔ v.isNegative = true := by
  cases v with
  | nan => exact iff_of_false id nofun
  | infinity s => exact Iff.rfl
  | finite s a =>
    have hpos := value_pos_of_isZero h
    cases s with
    | false => exact iff_of_false hpos.not_gt nofun
    | true => exact iff_of_true (neg_neg_of_pos hpos) rfl

theorem IsUnsigned.ne_nan (h : v.IsUnsigned) : v ≠ nan := by
  rintro rfl
  exact h

theorem IsUnsigned.isAboveZero (h : v.IsUnsigned) (hzero : v.isZero = false) : v.IsAboveZero :=
  (isAboveZero_iff hzero).mpr ⟨h.ne_nan, h.isNegative_eq⟩

end Binary64

namespace Shape

open Binary64

/-- The derivative may be that of the shape: a constant vanishes, and otherwise the coefficient is
not zero and its sign is known. -/
inductive Yields : Shape → Derivative → Prop where
  | zero {s : Shape} (hs : s.IsConstant) : Yields s .zero
  | constant {c : Binary64} (hc : c.IsAboveZero) : Yields (.monomial c 1) (.constant c)
  | exponential : Yields .exponential .exponential
  | trigonometric {f : TrigFunction} {c : Binary64} (hc : c.IsAboveZero) :
      Yields (.trigonometric f c) (.trigonometric f.derivative c)
  | power {c p : Binary64} {n m : Int32} (hm : m.toInt = n.toInt - 1) (hne : m ≠ 0)
      (hp : p.isZero = false) (habove : p ≠ .nan → (p.IsAboveZero ↔ 1 ≤ m.toInt))
      (hbelow : p ≠ .nan → (p.IsBelowZero ↔ m.toInt ≤ -2)) :
      Yields (.monomial c n) (.monomial p m)

theorem yields_power {c : Binary64} {n : Int32} (hc : c.IsUnsigned) (hn : -2 ^ 31 < n.toInt)
    (h1 : n ≠ 1) (hzero : (c.mul (.ofInt n.toInt)).isZero = false) :
    Yields (.monomial c n) (.monomial (c.mul (.ofInt n.toInt)) (n - 1)) := by
  have hlt := natAbs_toInt_lt n
  have hm := toInt_sub_one hn
  have hone : n.toInt ≠ 1 := fun h => h1 (Int32.toInt_inj.mp (h.trans Int32.toInt_one.symm))
  have hsign := isNegative_mul_ofInt hc hlt
  -- a product with the exponent zero is either zero or no number
  have hexponent : c.mul (.ofInt n.toInt) ≠ .nan → n.toInt ≠ 0 := fun hnan h0 => by
    by_cases hfinite : c.IsFinite
    · rw [(isZero_mul_ofInt_iff hlt).mpr ⟨hfinite, .inr h0⟩] at hzero
      exact nomatch hzero
    · exact hnan ((mul_ofInt_eq_nan_iff hlt).mpr (.inr ⟨hfinite, h0⟩))
  refine .power hm (fun h => hone ?_) hzero (fun hnan => ?_) fun hnan => ?_
  · rw [h, Int32.toInt_zero] at hm
    omega
  · have h0 := hexponent hnan
    rw [isAboveZero_iff hzero, and_iff_right hnan, hsign, decide_eq_false_iff_not]
    omega
  · have h0 := hexponent hnan
    rw [isBelowZero_iff hzero, hsign, decide_eq_true_iff]
    omega

theorem yields_derivative {s : Shape} (h : s.Regular) : s.Yields s.derivative := by
  cases s with
  | exponential => exact .exponential
  | constant c => exact .zero trivial
  | trigonometric f c =>
    rw [derivative_trigonometric]
    split
    · next hzero => exact .zero hzero
    · next hzero => exact .trigonometric (h.isAboveZero (Bool.eq_false_of_not_eq_true hzero))
  | monomial c n =>
    obtain ⟨hc, hn⟩ := h
    by_cases h1 : n = 1
    · rw [h1, derivative_monomial_one]
      split
      · next hzero => exact .zero (.inr hzero)
      · next hzero => exact .constant (hc.isAboveZero (Bool.eq_false_of_not_eq_true hzero))
    · rw [derivative_monomial h1]
      split
      · next hzero =>
        have hfactor := ((isZero_mul_ofInt_iff (natAbs_toInt_lt n)).mp hzero).2
        exact .zero (hfactor.symm.imp_left fun h0 => Int32.toInt_inj.mp h0)
      · next hzero => exact yields_power hc hn h1 (Bool.eq_false_of_not_eq_true hzero)

end Shape

/-- **The shape of a term has a coefficient without a sign, and its exponent can be made smaller by
one.** -/
theorem Term.yields_of_classify {t : Term} {s : Shape} (h : t.classify = .ok s) :
    s.Regular ∧
      (∀ c n, s = .monomial c n → -(2 ^ 31 - 1) ≤ n.toInt ∧ n.toInt ≤ 2 ^ 31 - 1 ∧
        (n - 1).toInt = n.toInt - 1) ∧
      s.Yields s.derivative := by
  have hregular := regular_of_classify h
  refine ⟨hregular, ?_, Shape.yields_derivative hregular⟩
  rintro c n rfl
  have hn := hregular.2
  have hlt := n.toInt_lt
  exact ⟨by omega, by omega, toInt_sub_one hn⟩

/-- The least exponent of a term leads to the least one of the format. -/
theorem Term.yields_of_classify_least :
    Term.classify ⟨.negative, "0.5x^-2147483647", ⟨7, 23⟩⟩ =
        .ok (.monomial (.ofDecimal 5 1) (-2147483647)) ∧
      (Shape.monomial (.ofDecimal 5 1) (-2147483647)).Regular ∧
      (-2147483647 - 1 : Int32).toInt = -2147483648 ∧
      (Shape.monomial (.ofDecimal 5 1) (-2147483647)).Yields
        (.monomial ((Binary64.ofDecimal 5 1).mul (.ofInt (-2147483647))) (-2147483648)) := by
  have h : Term.classify ⟨.negative, "0.5x^-2147483647", ⟨7, 23⟩⟩ =
      .ok (.monomial (.ofDecimal 5 1) (-2147483647)) := by decide +kernel
  obtain ⟨hregular, hexponent, hyields⟩ := yields_of_classify h
  have hderivative : (Shape.monomial (.ofDecimal 5 1) (-2147483647)).derivative =
      .monomial ((Binary64.ofDecimal 5 1).mul (.ofInt (-2147483647))) (-2147483648) := by
    decide +kernel
  exact ⟨h, hregular, (hexponent _ _ rfl).2.2, hderivative ▸ hyields⟩

end Fluxion
