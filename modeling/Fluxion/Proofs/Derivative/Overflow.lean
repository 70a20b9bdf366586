import Fluxion.Proofs.Calculus
import Fluxion.Proofs.Number.Product
import Fluxion.Proofs.Parse
import Fluxion.Proofs.WrittenSum

/-!
# Coefficients that are too large

The only operation on coefficients is the product of the power rule, and it is not checked. Finite
coefficients lead to infinite ones exactly where that product is too large, and never to anything
that is no number.

* `Shape.Overflows`: the product of the power rule is too large.
* **`Shape.coefficient_derivative`**: the coefficients that result from finite ones.
* `IsMark`, `Derivative.mark_mem_text_iff`: how they show in the text of a derivative.
* **`mark_mem_differentiate_iff`**: how they show in a written sum.
* **`differentiate_overflow`**: the written derivative of a function with finite coefficients.
-/

namespace Fluxion

/-! ## Coefficients -/

namespace Shape

/-- Whether the exact product of coefficient and exponent is too large for the format. -/
def Overflows : Shape → Prop
  | monomial c n => Binary64.overflow ≤ |c.value * n.toInt|
  | _ => False

theorem coefficient_ite (v : Binary64) {d : Derivative} (hd : d.coefficient = v) :
    ((if v.isZero then .zero else d).coefficient = .nan ↔ v = .nan) ∧
      ((if v.isZero then .zero else d).coefficient.IsFinite ↔ v.IsFinite) := by
  split
  · next hzero =>
    have hv := Binary64.isFinite_of_isZero hzero
    exact ⟨iff_of_false nofun hv.ne_nan, iff_of_true trivial hv⟩
  · rw [hd]
    exact ⟨Iff.rfl, Iff.rfl⟩

/-- **Finite coefficients lead to infinite ones exactly where the product is too large.** -/
theorem coefficient_derivative {s : Shape} (h : s.IsFinite) :
    s.derivative.coefficient ≠ .nan ∧ (s.derivative.coefficient.IsFinite ↔ ¬ s.Overflows) := by
  cases s with
  | exponential => exact ⟨nofun, iff_of_true trivial id⟩
  | constant c => exact ⟨nofun, iff_of_true trivial id⟩
  | trigonometric f c =>
    obtain ⟨hnan, hfinite⟩ := coefficient_ite c (d := .trigonometric f.derivative c) rfl
    rw [derivative_trigonometric, ne_eq, hnan, hfinite]
    exact ⟨Binary64.IsFinite.ne_nan h, iff_of_true h id⟩
  | monomial c n =>
    have hc : c.IsFinite := h
    by_cases hn : n = 1
    · obtain ⟨hnan, hfinite⟩ := coefficient_ite c (d := .constant c) rfl
      have hlt : ¬ Binary64.overflow ≤ |c.value * ((1 : Int32).toInt : ℚ)| := by
        rw [not_le, Int32.toInt_one, Int.cast_one, mul_one]
        exact Binary64.abs_value_lt_overflow hc
      rw [hn, derivative_monomial_one, ne_eq, hnan, hfinite]
      exact ⟨hc.ne_nan, iff_of_true hc hlt⟩
    · have hlt := Binary64.natAbs_toInt_lt n
      obtain ⟨hnan, hfinite⟩ := coefficient_ite (c.mul (.ofInt n.toInt))
        (d := .monomial (c.mul (.ofInt n.toInt)) (n - 1)) rfl
      rw [derivative_monomial hn, ne_eq, hnan, hfinite, Binary64.mul_ofInt_eq_nan_iff hlt,
        Binary64.isFinite_mul_ofInt_iff hc hlt, ← not_le]
      refine ⟨?_, Iff.rfl⟩
      rintro (hnan | ⟨hinfinite, -⟩)
      · exact hc.ne_nan hnan
      · exact hinfinite hc

end Shape

/-! ## How they are written -/

/-- The characters that only numbers without a value are written with. -/
def IsMark (c : Char) : Prop := c = 'N' ∨ c = '∞'

namespace IsMark

variable {c : Char}

theorem notMem (hc : IsMark c) {cs : List Char} (h : 'N' ∉ cs ∧ '∞' ∉ cs) : c ∉ cs := by
  rcases hc with rfl | rfl
  · exact h.1
  · exact h.2

theorem not_isDigit (hc : IsMark c) : ¬ c.isDigit := by
  rcases hc with rfl | rfl <;> decide

theorem ne_space (hc : IsMark c) : c ≠ ' ' :=
  mt List.mem_singleton.mpr (hc.notMem (by decide))

theorem ne_symbol (hc : IsMark c) (s : Sign) : c ≠ s.symbol :=
  mt List.mem_singleton.mpr (hc.notMem (by cases s <;> decide))

end IsMark

namespace Binary64

theorem infinity_mem_unsignedText_iff {v : Binary64} :
    '∞' ∈ v.unsignedText ↔ v ≠ .nan ∧ ¬ v.IsFinite := by
  cases v with
  | nan => simp [unsignedText]
  | infinity s => simp [unsignedText, IsFinite]
  | finite s a =>
    refine iff_of_false (fun h => ?_) fun h => h.2 trivial
    exact absurd (a.isPlain_digits.isDigit_or _ h) (by decide)

theorem nan_mem_unsignedText_iff {v : Binary64} : 'N' ∈ v.unsignedText ↔ v = .nan := by
  cases v with
  | nan => simp [unsignedText]
  | infinity s => simp [unsignedText]
  | finite s a =>
    refine iff_of_false (fun h => ?_) (IsFinite.ne_nan (c := finite s a) trivial)
    exact absurd (a.isPlain_digits.isDigit_or _ h) (by decide)

theorem mem_leadingBody_iff {c : Char} (hc : IsMark c) (v : Binary64) :
    c ∈ v.leadingBody ↔ c ∈ v.unsignedText := by
  unfold leadingBody
  split
  · next hone =>
    have hdigits : v.unsignedText = ['1'] := by rcases hone with rfl | rfl <;> decide +kernel
    rw [hdigits]
    exact iff_of_false List.not_mem_nil (hc.notMem (by decide))
  · rfl

end Binary64

namespace Derivative

theorem mark_notMem_suffix {c : Char} (hc : IsMark c) (d : Derivative) : c ∉ d.suffix := fun h =>
  (mem_suffix h).elim hc.not_isDigit (hc.notMem (by decide))

theorem mark_mem_body_iff {c : Char} (hc : IsMark c) {d : Derivative} (h : d.Normal) :
    c ∈ d.body ↔ c ∈ d.coefficient.unsignedText := by
  cases d with
  | zero => exact absurd rfl h.ne_zero
  | exponential =>
    have hdigits : Binary64.one.unsignedText = ['1'] := by decide +kernel
    change c ∈ [] ↔ c ∈ Binary64.one.unsignedText
    rw [hdigits]
    exact iff_of_false List.not_mem_nil (hc.notMem (by decide))
  | constant v => rfl
  | monomial v n | trigonometric f v => exact Binary64.mem_leadingBody_iff hc v

theorem mark_mem_text_iff {c : Char} (hc : IsMark c) {d : Derivative}
    (h : d = zero ∨ d.Normal) : c ∈ d.text.toList ↔ c ∈ d.coefficient.unsignedText := by
  rcases h with rfl | h
  · have hdigits : Binary64.zero.unsignedText = ['0'] := by decide +kernel
    change c ∈ ['0'] ↔ c ∈ Binary64.zero.unsignedText
    rw [hdigits]
  · have hsign : c ∉ signText d.minus := hc.notMem (by cases d.minus <;> decide)
    rw [toList_text h, List.mem_append, List.mem_append, or_iff_left (d.mark_notMem_suffix hc),
      or_iff_right hsign, mark_mem_body_iff hc h]

end Derivative

/-! ## Sums -/

namespace Summand

theorem mark_mem_firstChars_iff {c : Char} (hc : IsMark c) (d : Summand) :
    c ∈ d.firstChars ↔ c ∈ d.derivative.text.toList := by
  have hsign : c ∉ signText (decide (d.term.sign = .negative)) :=
    hc.notMem (by cases decide (d.term.sign = .negative) <;> decide)
  rw [firstChars, List.mem_append, or_iff_right hsign]

theorem mark_mem_furtherChars_iff {c : Char} (hc : IsMark c) (ds : List Summand) :
    c ∈ furtherChars ds ↔ ∃ d ∈ ds, c ∈ d.derivative.text.toList := by
  induction ds with
  | nil => exact iff_of_false List.not_mem_nil nofun
  | cons d ds ih => simp [furtherChars, hc.ne_space, hc.ne_symbol, ih]

theorem mark_mem_body_iff {c : Char} (hc : IsMark c) (ds : List Summand) :
    c ∈ (WrittenSum.body (ds.map written)).toList ↔ ∃ d ∈ ds, c ∈ d.derivative.text.toList := by
  cases ds with
  | nil => exact iff_of_false (hc.notMem (by decide)) nofun
  | cons d ds =>
    rw [toList_body_cons]
    simp [hc.ne_space, mark_mem_firstChars_iff hc, mark_mem_furtherChars_iff hc]

theorem mark_mem_remaining_iff {c : Char} (hc : IsMark c) {terms : List Term} {shapes : List Shape}
    (h : terms.length = shapes.length) :
    (∃ d ∈ remaining terms shapes, c ∈ d.derivative.text.toList) ↔
      ∃ s ∈ shapes, c ∈ s.derivative.text.toList := by
  have hall : (∃ d ∈ all terms shapes, c ∈ d.derivative.text.toList) ↔
      ∃ s ∈ shapes, c ∈ s.derivative.text.toList := by
    have hmap := map_derivative_all h
    calc (∃ d ∈ all terms shapes, c ∈ d.derivative.text.toList)
        ↔ ∃ e ∈ (all terms shapes).map (·.derivative), c ∈ e.text.toList := by simp
      _ ↔ ∃ e ∈ shapes.map Shape.derivative, c ∈ e.text.toList := by rw [hmap]
      _ ↔ ∃ s ∈ shapes, c ∈ s.derivative.text.toList := by simp
  rw [← hall]
  constructor
  · rintro ⟨d, hd, hmem⟩
    exact ⟨d, (List.mem_filter.mp hd).1, hmem⟩
  · rintro ⟨d, hd, hmem⟩
    refine ⟨d, List.mem_filter.mpr ⟨hd, decide_eq_true fun hzero => ?_⟩, hmem⟩
    change d.derivative.text = "0" at hzero
    rw [hzero] at hmem
    exact hc.notMem (by decide) hmem

end Summand

/-- **A written derivative has the marks of its coefficients.** -/
theorem mark_mem_differentiate_iff {c : Char} (hc : IsMark c) {terms : List Term}
    {shapes : List Shape}
    (hshapes : List.Forall₂ (fun t s => t.classify = .ok s) terms shapes) :
    c ∈ (WrittenSum.header ++
        WrittenSum.body ((Summand.remaining terms shapes).map Summand.written)).toList ↔
      ∃ s ∈ shapes, c ∈ s.derivative.coefficient.unsignedText := by
  have hheader : c ∉ WrittenSum.header.toList := hc.notMem (by decide)
  rw [String.toList_append, List.mem_append, or_iff_right hheader, Summand.mark_mem_body_iff hc,
    Summand.mark_mem_remaining_iff hc hshapes.length_eq]
  refine exists_congr fun s => and_congr_right fun hs => ?_
  have hregular := regular_of_forall₂ hshapes s hs
  exact Derivative.mark_mem_text_iff hc (Shape.normal_derivative hregular)

/-- **Finite coefficients lead to an infinite one exactly where the product of the power rule is too
large**, and never to anything that is no number. -/
theorem differentiate_overflow {source : String} {terms : List Term} {shapes : List Shape}
    (hterms : Term.parse source = .ok terms)
    (hshapes : List.Forall₂ (fun t s => t.classify = .ok s) terms shapes)
    (hfinite : ∀ s ∈ shapes, s.IsFinite) :
    ∃ out, differentiate source = .ok out ∧
      (∀ s ∈ shapes, s.derivative.coefficient ≠ .nan ∧
        (s.derivative.coefficient.IsFinite ↔ ¬ s.Overflows)) ∧
      'N' ∉ out.toList ∧ ('∞' ∈ out.toList ↔ ∃ s ∈ shapes, s.Overflows) := by
  have hcoefficients : ∀ s ∈ shapes, s.derivative.coefficient ≠ .nan ∧
      (s.derivative.coefficient.IsFinite ↔ ¬ s.Overflows) := fun s hs =>
    Shape.coefficient_derivative (hfinite s hs)
  refine ⟨_, differentiate_eq_ok_iff.mpr ⟨terms, shapes, hterms, hshapes, rfl⟩, hcoefficients,
    ?_, ?_⟩
  · rw [mark_mem_differentiate_iff (.inl rfl) hshapes]
    rintro ⟨s, hs, hnan⟩
    exact (hcoefficients s hs).1 (Binary64.nan_mem_unsignedText_iff.mp hnan)
  · rw [mark_mem_differentiate_iff (.inr rfl) hshapes]
    refine exists_congr fun s => and_congr_right fun hs => ?_
    obtain ⟨hnan, hoverflow⟩ := hcoefficients s hs
    rw [Binary64.infinity_mem_unsignedText_iff, hoverflow, not_not]
    exact and_iff_right hnan

theorem differentiate_overflow_square : ∃ out, differentiate "f(x) = x^2" = .ok out ∧
    'N' ∉ out.toList ∧ ('∞' ∈ out.toList ↔ ∃ s ∈ [Shape.monomial .one 2], s.Overflows) := by
  have hterms : Term.parse "f(x) = x^2" = .ok [⟨.positive, "x^2", ⟨7, 10⟩⟩] := by decide +kernel
  have hsquare : Term.classify ⟨.positive, "x^2", ⟨7, 10⟩⟩ = .ok (.monomial .one 2) := by
    decide +kernel
  obtain ⟨out, hout, -, hmarks⟩ := differentiate_overflow hterms (.cons hsquare .nil)
    (List.forall_mem_singleton.mpr trivial)
  exact ⟨out, hout, hmarks⟩

/-! ## A product that is too large -/

/-- The digits of `10 ^ 308`. -/
def hugeDigits : List Char := '1' :: List.replicate 308 '0'

/-- The function `f(x) = 10…0x^2` with 308 zeros. -/
def hugeSquare : String := header ++ String.ofList (' ' :: hugeDigits ++ ['x', '^', '2'])

/-- The coefficient of `hugeSquare` is finite, and the one of its derivative is not. -/
theorem differentiate_hugeSquare :
    (∃ terms shapes, Term.parse hugeSquare = .ok terms ∧
      List.Forall₂ (fun t s => t.classify = .ok s) terms shapes ∧ ∀ s ∈ shapes, s.IsFinite) ∧
    differentiate hugeSquare = .ok "f'(x) = ∞x" := by
  let term : Term := ⟨.positive, String.ofList (hugeDigits ++ ['x', '^', '2']), ⟨7, 319⟩⟩
  let coefficient : Binary64 := .ofDecimal (10 ^ 308) 0
  let shape : Shape := .monomial coefficient 2
  have hterms : Term.parse hugeSquare = .ok [term] := by
    rw [hugeSquare, Term.parse_header, afterHeader_eq, String.toList_ofList]
    decide +kernel
  have hlexemes : term.lexemes =
      [⟨.number, hugeDigits⟩, ⟨.name, ['x']⟩, ⟨.caret, ['^']⟩, ⟨.number, ['2']⟩] := by
    rw [Term.lexemes, String.toList_ofList]
    decide +kernel
  have hshape : Shape.uncalled? [⟨.number, hugeDigits⟩, ⟨.name, ['x']⟩, ⟨.caret, ['^']⟩,
      ⟨.number, ['2']⟩] = some shape := by decide +kernel
  have hclassify : term.classify = .ok shape := by
    rw [Term.classify_of_no_call (by rw [hlexemes]; decide +kernel), hlexemes, hshape]
    rfl
  have hshapes : List.Forall₂ (fun t s => t.classify = .ok s) [term] [shape] :=
    .cons hclassify .nil
  refine ⟨⟨[term], [shape], hterms, hshapes, List.forall_mem_singleton.mpr ?_⟩, ?_⟩
  · change coefficient.IsFinite
    decide +kernel
  · refine differentiate_eq_ok_iff.mpr ⟨[term], [shape], hterms, hshapes, ?_⟩
    decide +kernel

end Fluxion
