import Fluxion.Proofs.Differentiate
import Fluxion.Proofs.Number.Product

/-!
# Which terms vanish

The derivative of a term is `0` exactly if the term does not depend on `x`, however large or small
its coefficient is. Only an infinite multiple of `x^0` is lost, because infinity times zero is no
number.

* `Shape.IsConstant`: the shapes that do not depend on `x`.
* `Shape.IsLost`: the infinite multiples of `x^0`.
* `Shape.derivative_eq_zero_iff`: the shapes that vanish.
* `Shape.derivative_of_isLost`: what becomes of the others.
* **`Term.text_differentiate_eq_zero_iff`**: the terms whose derivative is written `0`.
-/

namespace Fluxion

namespace Shape

/-- Whether the shape is a number or a multiple of zero or of `x^0`. -/
def IsConstant : Shape → Prop
  | trigonometric _ c => c.isZero
  | exponential => False
  | monomial c n => n = 0 ∨ c.isZero
  | constant _ => True

/-- Whether the shape is a multiple of `x^0` that is not finite. -/
def IsLost : Shape → Prop
  | monomial c n => n = 0 ∧ ¬ c.IsFinite
  | _ => False

theorem derivative_monomial_eq_zero_iff {c : Binary64} {n : Int32} :
    (monomial c n).derivative = .zero ↔ (n = 0 ∨ c.isZero) ∧ ¬ (n = 0 ∧ ¬ c.IsFinite) := by
  by_cases h1 : n = 1
  · rw [h1, derivative_monomial_one]
    simp
  · have hzero : n.toInt = 0 ↔ n = 0 := by rw [← Int32.toInt_zero, Int32.toInt_inj]
    rw [derivative_monomial h1, ite_eq_left_iff,
      Binary64.isZero_mul_ofInt_iff (Binary64.natAbs_toInt_lt n), hzero]
    have hfinite := @Binary64.isFinite_of_isZero c
    simp only [reduceCtorEq, imp_false, not_not]
    tauto

/-- **A shape vanishes exactly if it is constant and not lost.** -/
theorem derivative_eq_zero_iff {s : Shape} : s.derivative = .zero ↔ s.IsConstant ∧ ¬ s.IsLost := by
  cases s with
  | trigonometric f c =>
    rw [derivative_trigonometric]
    simp [IsConstant, IsLost]
  | exponential => simp [IsConstant, derivative]
  | monomial c n => exact derivative_monomial_eq_zero_iff
  | constant c => exact iff_of_true rfl ⟨trivial, id⟩

theorem derivative_of_isLost {s : Shape} (h : s.IsLost) : s.derivative = .monomial .nan (-1) := by
  cases s with
  | trigonometric | exponential | constant => exact h.elim
  | monomial c n =>
    obtain ⟨rfl, hc⟩ := h
    have hnan : c.mul (.ofInt (0 : Int32).toInt) = .nan :=
      (Binary64.mul_ofInt_eq_nan_iff (by decide)).mpr (.inr ⟨hc, by decide⟩)
    rw [derivative_monomial (by decide), hnan]
    rfl

end Shape

/-- **The derivative of a term is `0` exactly if the term does not depend on `x`**, unless it is an
infinite multiple of `x^0`. -/
theorem Term.text_differentiate_eq_zero_iff {t : Term} {s : Shape} (h : t.classify = .ok s) :
    ∃ u, t.differentiate = .ok u ∧ (u.text = "0" ↔ s.IsConstant ∧ ¬ s.IsLost) ∧
      (s.IsLost → u.text = "NaNx^-1") := by
  refine ⟨_, Term.differentiate_eq_ok_iff.mpr ⟨s, h, rfl⟩, ?_, fun hlost => ?_⟩
  · change s.derivative.text = "0" ↔ _
    rw [Derivative.text_eq_zero_iff (Shape.normal_derivative (Term.regular_of_classify h)),
      Shape.derivative_eq_zero_iff]
  · change s.derivative.text = "NaNx^-1"
    rw [Shape.derivative_of_isLost hlost]
    decide

theorem Term.text_differentiate_pow_zero : ∃ u,
    Term.classify ⟨.positive, "x^0", ⟨7, 10⟩⟩ = .ok (.monomial .one 0) ∧
      Term.differentiate ⟨.positive, "x^0", ⟨7, 10⟩⟩ = .ok u ∧ u.text = "0" := by
  have h : Term.classify ⟨.positive, "x^0", ⟨7, 10⟩⟩ = .ok (.monomial .one 0) := by
    decide +kernel
  obtain ⟨u, hu, htext, -⟩ := text_differentiate_eq_zero_iff h
  exact ⟨u, h, hu, htext.mpr ⟨.inl rfl, fun hlost => hlost.2 trivial⟩⟩

/-- The term `10…0x^0` with 309 zeros. Its coefficient is read as infinity. -/
def Term.hugeConstant : Term :=
  ⟨.positive, String.ofList ('1' :: List.replicate 309 '0' ++ ['x', '^', '0']), ⟨0, 313⟩⟩

theorem Term.text_differentiate_hugeConstant :
    hugeConstant.classify = .ok (.monomial (.infinity false) 0) ∧
      hugeConstant.differentiate = .ok ⟨.positive, "NaNx^-1", ⟨0, 313⟩⟩ := by
  have hlexemes : hugeConstant.lexemes = [⟨.number, '1' :: List.replicate 309 '0'⟩, ⟨.name, ['x']⟩,
      ⟨.caret, ['^']⟩, ⟨.number, ['0']⟩] := by
    rw [lexemes, hugeConstant, String.toList_ofList]
    decide +kernel
  have hclassify : hugeConstant.classify = .ok (.monomial (.infinity false) 0) := by
    rw [classify_of_no_call (by rw [hlexemes]; decide +kernel), hlexemes]
    have hshape : Shape.uncalled? [⟨.number, '1' :: List.replicate 309 '0'⟩, ⟨.name, ['x']⟩,
        ⟨.caret, ['^']⟩, ⟨.number, ['0']⟩] = some (.monomial (.infinity false) 0) := by
      decide +kernel
    rw [hshape]
    rfl
  refine ⟨hclassify, ?_⟩
  rw [differentiate, hclassify]
  decide +kernel

end Fluxion
