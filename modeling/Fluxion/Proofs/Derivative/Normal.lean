import Fluxion.Derivative
import Fluxion.Proofs.Number.Text
import Fluxion.Proofs.Shape.Classify

/-!
# Derivatives that occur

Coefficients are read without a sign, so a derivative has a negative coefficient only if it comes
from a negative power.

* `Shape.Regular`: what the coefficient and the exponent of every classified term are.
* `Grammar.Written.regular`: shapes that lexemes write are regular.
* `Derivative.Normal`: the coefficient is not zero, and its sign is that of the power before.
* **`Shape.normal_derivative`**: the derivative of a regular shape vanishes or is normal.
-/

namespace Fluxion

namespace Binary64

/-- Whether the number is one without a sign. -/
def IsUnsigned : Binary64 → Prop
  | nan => False
  | infinity negative | finite negative _ => negative = false

theorem isUnsigned_one : one.IsUnsigned := rfl

theorem Rounds.isUnsigned {q : ℚ} {v : Binary64} (h : v.Rounds q) : v.IsUnsigned := by
  rcases h with ⟨-, a, rfl, -⟩ | ⟨-, rfl⟩ <;> rfl

theorem IsUnsigned.isNegative_eq {v : Binary64} (h : v.IsUnsigned) : v.isNegative = false := by
  cases v with
  | nan => rfl
  | infinity s | finite s a => exact h

theorem isNegative_ofRatio (s : Bool) (n d : ℕ) : (ofRatio s n d).isNegative = s := by
  unfold ofRatio
  split <;> rfl

theorem isNegative_mul_ofInt {c : Binary64} (hc : c.IsUnsigned) {n : ℤ} (hn : n.natAbs < 2 ^ 53) :
    (c.mul (ofInt n)).isNegative = decide (n < 0) := by
  obtain ⟨b, hb, hunits⟩ := ofInt_eq hn
  rw [hb]
  cases c with
  | nan => exact hc.elim
  | finite s a =>
    obtain rfl : s = false := hc
    rw [mul_finite, isNegative_ofRatio, Bool.false_bne]
  | infinity s =>
    obtain rfl : s = false := hc
    rw [mul_infinity_finite]
    split
    · next hzero =>
      -- the whole number is zero
      rw [Magnitude.units_eq_zero hzero] at hunits
      have hn0 := (Nat.mul_eq_zero.mp hunits.symm).resolve_right unitsPerOne_pos.ne'
      rw [Int.natAbs_eq_zero.mp hn0]
      rfl
    · exact Bool.false_bne _

end Binary64

theorem toInt_sub_one {n : Int32} (h : -2 ^ 31 < n.toInt) : (n - 1).toInt = n.toInt - 1 := by
  have hlt := n.toInt_lt
  rw [Int32.toInt_sub, Int32.toInt_one, Int.bmod_eq_of_le] <;> omega

/-! ## Regular shapes -/

/-- The coefficient is read without a sign, and the exponent is not the least one. -/
def Shape.Regular : Shape → Prop
  | trigonometric _ c => c.IsUnsigned
  | exponential => True
  | monomial c n => c.IsUnsigned ∧ -2 ^ 31 < n.toInt
  | constant c => c.IsUnsigned

namespace Grammar

theorem Coefficient.isUnsigned {ls : List Lexeme} {c : Binary64} (h : Coefficient ls c) :
    c.IsUnsigned := by
  cases h with
  | absent => exact Binary64.isUnsigned_one
  | numeral _ hc => exact hc.isUnsigned

theorem Power.lt {ls : List Lexeme} {z : ℤ} (h : Power ls z) : -2 ^ 31 < z := by
  cases h with
  | absent => decide
  | positive => omega
  | negative _ _ hl =>
    have hle := hl.2.2
    omega

theorem Written.regular {ls : List Lexeme} {s : Shape} (h : Written ls s) : s.Regular := by
  cases h with
  | trigonometric hc => exact hc.isUnsigned
  | exponential => trivial
  | monomial hc _ hn => exact ⟨hc.isUnsigned, hn.lt⟩
  | constant _ hc => exact hc.isUnsigned

end Grammar

theorem Term.regular_of_classify {t : Term} {s : Shape} (h : t.classify = .ok s) : s.Regular :=
  (Term.classify_eq_ok_iff.mp h).regular

/-! ## Normal derivatives -/

namespace Derivative

/-- The number in front of the derivative. -/
def coefficient : Derivative → Binary64
  | zero => .zero
  | constant value => value
  | exponential => .one
  | monomial coefficient _ | trigonometric _ coefficient => coefficient

/-- Whether the derivative is a multiple of a power that only negative powers lead to. -/
def hasLowPower : Derivative → Bool
  | monomial _ exponent => exponent.toInt ≤ -2
  | _ => false

/-- The coefficient is not zero, and it is negative exactly in front of a low power. -/
structure Normal (d : Derivative) : Prop where
  isZero_eq : d.coefficient.isZero = false
  isNegative_eq : d.coefficient.isNegative = d.hasLowPower

end Derivative

namespace Shape

theorem derivative_trigonometric (f : TrigFunction) (c : Binary64) :
    (trigonometric f c).derivative =
      if c.isZero then .zero else .trigonometric f.derivative c := rfl

theorem derivative_monomial_one (c : Binary64) :
    (monomial c 1).derivative = if c.isZero then .zero else .constant c := rfl

theorem derivative_monomial {c : Binary64} {n : Int32} (hn : n ≠ 1) :
    (monomial c n).derivative = if (c.mul (.ofInt n.toInt)).isZero then .zero
      else .monomial (c.mul (.ofInt n.toInt)) (n - 1) := if_neg hn

/-- **The derivative of a regular shape vanishes or is normal.** -/
theorem normal_derivative {s : Shape} (h : s.Regular) :
    s.derivative = .zero ∨ s.derivative.Normal := by
  cases s with
  | exponential => exact .inr ⟨by decide, rfl⟩
  | constant c => exact .inl rfl
  | trigonometric f c =>
    rw [derivative_trigonometric]
    split
    · exact .inl rfl
    · next hc => exact .inr ⟨Bool.eq_false_of_not_eq_true hc, h.isNegative_eq⟩
  | monomial c n =>
    obtain ⟨hc, hn⟩ := h
    by_cases h1 : n = 1
    · rw [h1, derivative_monomial_one]
      split
      · exact .inl rfl
      · next hzero => exact .inr ⟨Bool.eq_false_of_not_eq_true hzero, hc.isNegative_eq⟩
    · rw [derivative_monomial h1]
      split
      · exact .inl rfl
      · next hzero =>
        refine .inr ⟨Bool.eq_false_of_not_eq_true hzero, ?_⟩
        have hlt := n.toInt_lt
        have hlow : n.toInt < 0 ↔ (n - 1).toInt ≤ -2 := by
          rw [toInt_sub_one hn]
          omega
        change _ = decide ((n - 1).toInt ≤ -2)
        rw [← decide_eq_decide.mpr hlow]
        exact Binary64.isNegative_mul_ofInt hc (by omega)

end Shape

end Fluxion
