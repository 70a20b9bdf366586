import Fluxion.Proofs.Differentiate
import Mathlib

/-!
# Differentiation is calculus

Shapes and derivatives are functions of four values: those of `x`, `e^x`, `sin(x)` and `cos(x)`.
With coefficients that are meant exactly, the rule for each shape is the one of calculus, both for
real functions and in a field with a derivation.

* `Point`, `Shape.value`, `Derivative.value`: what shapes and derivatives mean.
* `Shape.slope`: what the derivative of a shape has to mean.
* `Shape.value_derivative`: the derivative means that, unless a product was rounded.
* `Shape.hasDerivAt`, `Shape.derivation_value`: it is the derivative, in either sense.
* `Summand.sum_remaining`: what is not written has the value zero.
* **`differentiate_sum`**: the sum that is written is the derivative of the sum that was read.
-/

namespace Fluxion

/-- The values on which terms depend: of `x`, `e^x`, `sin(x)` and `cos(x)`. -/
structure Point (K : Type*) where
  x : K
  exp : K
  sin : K
  cos : K

/-- The values at a real number. -/
noncomputable def Point.real (x : ℝ) : Point ℝ := ⟨x, Real.exp x, Real.sin x, Real.cos x⟩

section Values

variable {K : Type*} [Field K]

/-! ## Meaning -/

/-- The value of a trigonometric function; the tangent is sine by cosine. -/
def TrigFunction.value (p : Point K) : TrigFunction → K
  | sin => p.sin
  | cos => p.cos
  | tan => p.sin / p.cos

/-- The value of its derivative; the secant is one by cosine. -/
def TrigDerivative.value (p : Point K) : TrigDerivative → K
  | cos => p.cos
  | negSin => -p.sin
  | secSquared => (1 / p.cos) ^ 2

/-- The value of a shape, its coefficient being meant exactly. -/
def Shape.value (p : Point K) : Shape → K
  | trigonometric f c => (c.value : K) * f.value p
  | exponential => p.exp
  | monomial c n => (c.value : K) * p.x ^ n.toInt
  | constant c => (c.value : K)

/-- The value of a derivative, its coefficient being meant exactly. -/
def Derivative.value (p : Point K) : Derivative → K
  | zero => 0
  | constant c => (c.value : K)
  | monomial c n => (c.value : K) * p.x ^ n.toInt
  | exponential => p.exp
  | trigonometric f c => (c.value : K) * f.value p

/-- The factor that a sign stands for. -/
def Sign.factor : Sign → K
  | positive => 1
  | negative => -1

/-- The value of the derivative of a shape, by the rules of calculus. -/
def Shape.slope (p : Point K) : Shape → K
  | trigonometric f c => (c.value : K) * f.derivative.value p
  | exponential => p.exp
  | monomial c n => (c.value : K) * (n.toInt * p.x ^ (n.toInt - 1))
  | constant _ => 0

/-- Whether a shape has a value at a point. -/
def Shape.DefinedAt (p : Point K) : Shape → Prop
  | trigonometric .tan _ => p.cos ≠ 0
  | monomial _ n => n.toInt < 0 → p.x ≠ 0
  | _ => True

end Values

/-- Whether the coefficient of a shape is finite. -/
def Shape.IsFinite : Shape → Prop
  | exponential => True
  | trigonometric _ c | monomial c _ | constant c => c.IsFinite

/-- Whether the power rule can write the product of coefficient and exponent exactly. -/
def Shape.IsExact : Shape → Prop
  | monomial c n => Binary64.Representable (c.value * n.toInt)
  | _ => True

/-! ## The rule for each shape -/

namespace Shape

theorem cast_eq_zero_of_isZero {K : Type*} [Field K] {c : Binary64} (h : c.isZero) :
    (c.value : K) = 0 := by
  rw [Binary64.value_eq_zero_of_isZero h, Rat.cast_zero]

/-- **The derivative of a shape means what calculus says**, unless a product is rounded. -/
theorem value_derivative {K : Type*} [Field K] [CharZero K] {s : Shape} (hregular : s.Regular)
    (hfinite : s.IsFinite) (hexact : s.IsExact) (p : Point K) : s.derivative.value p = s.slope p := by
  cases s with
  | exponential | constant => rfl
  | trigonometric f c =>
    rw [derivative_trigonometric]
    split
    · next hzero =>
      change 0 = (c.value : K) * _
      rw [cast_eq_zero_of_isZero hzero, zero_mul]
    · rfl
  | monomial c n =>
    by_cases hn : n = 1
    · have hslope : (monomial c 1).slope p = c.value := by
        change (c.value : K) * ((1 : ℤ) * p.x ^ ((1 : ℤ) - 1)) = c.value
        rw [sub_self, zpow_zero, Int.cast_one, mul_one, mul_one]
      rw [hn, derivative_monomial_one, hslope]
      split
      · next hzero => exact (cast_eq_zero_of_isZero hzero).symm
      · rfl
    · have hlt := n.toInt_lt
      have hle := n.le_toInt
      have hofInt := Binary64.value_ofInt (i := n.toInt) (by omega)
      have hvalue : (c.mul (.ofInt n.toInt)).value = c.value * n.toInt := by
        rw [← hofInt.2]
        exact (Binary64.value_mul hfinite hofInt.1 (hofInt.2.symm ▸ hexact)).2
      have hcast : ((c.mul (.ofInt n.toInt)).value : K) = c.value * n.toInt := by
        rw [hvalue, Rat.cast_mul, Rat.cast_intCast]
      rw [derivative_monomial hn]
      change _ = (c.value : K) * (n.toInt * p.x ^ (n.toInt - 1))
      rw [← mul_assoc, ← hcast]
      split
      · next hzero =>
        rw [cast_eq_zero_of_isZero hzero, zero_mul]
        rfl
      · rw [← toInt_sub_one hregular.2]
        rfl

/-! ## Real functions -/

theorem hasDerivAt_tan {x : ℝ} (h : Real.cos x ≠ 0) :
    HasDerivAt (fun y => Real.sin y / Real.cos y) ((1 / Real.cos x) ^ 2) x := by
  refine ((Real.hasDerivAt_sin x).div (Real.hasDerivAt_cos x) h).congr_deriv ?_
  have hone : Real.cos x * Real.cos x - Real.sin x * -Real.sin x = 1 := by
    have := Real.sin_sq_add_cos_sq x
    linarith
  rw [hone, one_div_pow]

/-- **As a real function, a shape has its slope as derivative.** -/
theorem hasDerivAt {s : Shape} {x : ℝ} (h : s.DefinedAt (.real x)) :
    HasDerivAt (fun y => s.value (.real y)) (s.slope (.real x)) x := by
  cases s with
  | exponential => exact Real.hasDerivAt_exp x
  | constant c => exact hasDerivAt_const x _
  | monomial c n =>
    have hpow : x ≠ 0 ∨ 0 ≤ n.toInt := (lt_or_ge n.toInt 0).imp_left h
    exact (hasDerivAt_zpow n.toInt x hpow).const_mul _
  | trigonometric f c =>
    cases f with
    | sin => exact (Real.hasDerivAt_sin x).const_mul _
    | cos => exact (Real.hasDerivAt_cos x).const_mul _
    | tan => exact (hasDerivAt_tan h).const_mul _

end Shape

/-! ## Fields with a derivation -/

section Derivation

variable {K : Type*} [Field K] {D : Derivation ℤ K K} {p : Point K}

/-- The values at the point satisfy the equations of the functions. -/
structure Point.Solves (D : Derivation ℤ K K) (p : Point K) : Prop where
  x : D p.x = 1
  exp : D p.exp = p.exp
  sin : D p.sin = p.cos
  cos : D p.cos = -p.sin
  sq_add_sq : p.sin ^ 2 + p.cos ^ 2 = 1
  x_ne_zero : p.x ≠ 0
  cos_ne_zero : p.cos ≠ 0

theorem Point.Solves.tan (h : p.Solves D) : D (p.sin / p.cos) = (1 / p.cos) ^ 2 := by
  have hone : p.cos * p.cos - p.sin * -p.sin = 1 := by
    rw [← h.sq_add_sq]
    ring
  rw [D.leibniz_div, h.sin, h.cos, smul_eq_mul, smul_eq_mul, smul_eq_mul, hone, mul_one, one_div]

variable [CharZero K]

theorem derivation_ratCast (D : Derivation ℤ K K) (q : ℚ) : D (q : K) = 0 := by
  have hden : (q.den : K) ≠ 0 := Nat.cast_ne_zero.mpr q.den_nz
  have h : D ((q : K) * q.den) = 0 := by
    rw [← Rat.cast_natCast, ← Rat.cast_mul, Rat.mul_den_eq_num, Rat.cast_intCast]
    exact D.map_intCast q.num
  rw [D.leibniz, D.map_natCast, smul_zero, zero_add, smul_eq_mul] at h
  exact (mul_eq_zero.mp h).resolve_left hden

theorem derivation_ratCast_mul (D : Derivation ℤ K K) (q : ℚ) (a : K) :
    D ((q : K) * a) = q * D a := by
  rw [D.leibniz, derivation_ratCast, smul_zero, add_zero, smul_eq_mul]

/-- **In a field with a derivation, a shape has its slope as derivative.** -/
theorem Shape.derivation_value (h : p.Solves D) (s : Shape) : D (s.value p) = s.slope p := by
  cases s with
  | exponential => exact h.exp
  | constant c => exact derivation_ratCast D c.value
  | monomial c n =>
    change D ((c.value : K) * p.x ^ n.toInt) = _
    rw [derivation_ratCast_mul, D.leibniz_zpow, h.x, smul_eq_mul, mul_one, zsmul_eq_mul]
    rfl
  | trigonometric f c =>
    change D ((c.value : K) * f.value p) = _
    rw [derivation_ratCast_mul]
    cases f with
    | sin => exact congrArg _ h.sin
    | cos => exact congrArg _ h.cos
    | tan => exact congrArg _ h.tan

end Derivation

/-! ## Sums -/

section Sums

variable {K : Type*} [Field K]

/-- The sum of values with the signs of terms. -/
def signedSum {α : Type*} (value : α → K) (terms : List Term) (as : List α) : K :=
  (List.zipWith (fun t a => t.sign.factor * value a) terms as).sum

theorem signedSum_cons {α : Type*} (value : α → K) (t : Term) (terms : List Term) (a : α)
    (as : List α) : signedSum value (t :: terms) (a :: as) =
      t.sign.factor * value a + signedSum value terms as := List.sum_cons

/-- The sum of summands with their signs. -/
def Summand.sum (p : Point K) (ds : List Summand) : K :=
  (ds.map fun d => d.term.sign.factor * d.derivative.value p).sum

theorem Summand.sum_cons (p : Point K) (d : Summand) (ds : List Summand) : Summand.sum p (d :: ds) =
    d.term.sign.factor * d.derivative.value p + Summand.sum p ds := List.sum_cons

/-- **The summands that are not written have the value zero.** -/
theorem Summand.sum_remaining [CharZero K] (p : Point K) (terms : List Term) {shapes : List Shape}
    (h : ∀ s ∈ shapes, s.Regular ∧ s.IsFinite ∧ s.IsExact) :
    Summand.sum p (Summand.remaining terms shapes) = signedSum (Shape.slope p) terms shapes := by
  induction terms generalizing shapes with
  | nil => rfl
  | cons t terms ih =>
    cases shapes with
    | nil => rfl
    | cons s shapes =>
      obtain ⟨⟨hregular, hfinite, hexact⟩, hshapes⟩ := List.forall_mem_cons.mp h
      have hslope := Shape.value_derivative hregular hfinite hexact p
      have hcons : Summand.remaining (t :: terms) (s :: shapes) =
          if WrittenSum.remains (Summand.written ⟨t, s.derivative⟩) then
            ⟨t, s.derivative⟩ :: Summand.remaining terms shapes
          else Summand.remaining terms shapes := List.filter_cons
      rw [hcons, signedSum_cons, ← ih hshapes, ← hslope]
      split
      · exact Summand.sum_cons p _ _
      · next hremains =>
        rw [Summand.remains_iff (Shape.normal_derivative hregular), not_not] at hremains
        have hzero : s.derivative = .zero := hremains
        rw [hzero]
        change _ = _ * (0 : K) + _
        rw [mul_zero, zero_add]

theorem derivation_signedSum [CharZero K] {D : Derivation ℤ K K} {p : Point K} (h : p.Solves D)
    (terms : List Term) (shapes : List Shape) :
    D (signedSum (Shape.value p) terms shapes) = signedSum (Shape.slope p) terms shapes := by
  induction terms generalizing shapes with
  | nil => exact D.map_zero
  | cons t terms ih =>
    cases shapes with
    | nil => exact D.map_zero
    | cons s shapes =>
      rw [signedSum_cons, signedSum_cons, D.map_add, ih]
      congr 1
      cases t.sign
      · change D (1 * s.value p) = 1 * s.slope p
        rw [one_mul, one_mul, s.derivation_value h]
      · change D (-1 * s.value p) = -1 * s.slope p
        rw [neg_one_mul, neg_one_mul, D.map_neg, s.derivation_value h]

end Sums

theorem hasDerivAt_signedSum {x : ℝ} (terms : List Term) {shapes : List Shape}
    (h : ∀ s ∈ shapes, s.DefinedAt (.real x)) :
    HasDerivAt (fun y => signedSum (Shape.value (.real y)) terms shapes)
      (signedSum (Shape.slope (.real x)) terms shapes) x := by
  induction terms generalizing shapes with
  | nil => exact hasDerivAt_const x 0
  | cons t terms ih =>
    cases shapes with
    | nil => exact hasDerivAt_const x 0
    | cons s shapes =>
      obtain ⟨hs, hshapes⟩ := List.forall_mem_cons.mp h
      simp only [signedSum_cons]
      exact ((Shape.hasDerivAt hs).const_mul _).add (ih hshapes)

/-- **Differentiation is calculus**, as long as all coefficients are finite and no product is
rounded: of real functions, and in every field with a derivation. -/
theorem differentiate_sum {source : String} {terms : List Term} {shapes : List Shape}
    (hterms : Term.parse source = .ok terms)
    (hshapes : List.Forall₂ (fun t s => t.classify = .ok s) terms shapes)
    (hfinite : ∀ s ∈ shapes, s.IsFinite) (hexact : ∀ s ∈ shapes, s.IsExact) :
    differentiate source = .ok (WrittenSum.header ++
      WrittenSum.body ((Summand.remaining terms shapes).map Summand.written)) ∧
    (∀ x : ℝ, (∀ s ∈ shapes, s.DefinedAt (.real x)) →
      HasDerivAt (fun y => signedSum (Shape.value (.real y)) terms shapes)
        (Summand.sum (.real x) (Summand.remaining terms shapes)) x) ∧
    ∀ (K : Type*) [Field K] [CharZero K] (D : Derivation ℤ K K) (p : Point K), p.Solves D →
      D (signedSum (Shape.value p) terms shapes) =
        Summand.sum p (Summand.remaining terms shapes) := by
  have hall : ∀ s ∈ shapes, s.Regular ∧ s.IsFinite ∧ s.IsExact := by
    intro s hs
    exact ⟨regular_of_forall₂ hshapes s hs, hfinite s hs, hexact s hs⟩
  refine ⟨differentiate_eq_ok_iff.mpr ⟨terms, shapes, hterms, hshapes, rfl⟩, fun x hx => ?_, ?_⟩
  · rw [Summand.sum_remaining _ terms hall]
    exact hasDerivAt_signedSum terms hx
  · intro K _ _ D p hp
    rw [Summand.sum_remaining _ terms hall]
    exact derivation_signedSum hp terms shapes

theorem differentiate_sum_square_sub_tan :
    HasDerivAt
      (fun y => signedSum (Shape.value (.real y))
        [⟨.positive, "x^2", ⟨7, 10⟩⟩, ⟨.negative, "tan(x)", ⟨13, 19⟩⟩]
        [.monomial .one 2, .trigonometric .tan .one])
      (Summand.sum (.real 0) (Summand.remaining
        [⟨.positive, "x^2", ⟨7, 10⟩⟩, ⟨.negative, "tan(x)", ⟨13, 19⟩⟩]
        [.monomial .one 2, .trigonometric .tan .one])) 0 := by
  have hterms : Term.parse "f(x) = x^2 - tan(x)" =
      .ok [⟨.positive, "x^2", ⟨7, 10⟩⟩, ⟨.negative, "tan(x)", ⟨13, 19⟩⟩] := by decide +kernel
  have hsquare : Term.classify ⟨.positive, "x^2", ⟨7, 10⟩⟩ = .ok (.monomial .one 2) := by
    decide +kernel
  have htan : Term.classify ⟨.negative, "tan(x)", ⟨13, 19⟩⟩ = .ok (.trigonometric .tan .one) := by
    decide +kernel
  have htwo : (2 : Int32).toInt = 2 := by decide
  have hexact : Shape.IsExact (.monomial .one 2) := by
    change Binary64.Representable (Binary64.one.value * ((2 : Int32).toInt : ℚ))
    rw [Binary64.value_one, one_mul, htwo]
    exact ⟨.ofInt 2, Binary64.value_ofInt (by decide)⟩
  refine (differentiate_sum.{0} hterms (.cons hsquare (.cons htan .nil)) ?_ ?_).2.1 0 ?_
  · simp [Shape.IsFinite, Binary64.IsFinite, Binary64.one]
  · simp only [List.forall_mem_cons]
    exact ⟨hexact, trivial, nofun⟩
  · simp [Shape.DefinedAt, Point.real, htwo]

end Fluxion
