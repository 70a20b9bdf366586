import Fluxion.Proofs.Derivative.Text
import Fluxion.Proofs.Lexeme.Scan

/-!
# Derivatives that are terms again

A derivative with a positive coefficient is written the way a term is, unless it has the minus of
the derivative of the cosine or the secant. Such a text is read as the shape that it was written
for, with the same coefficient and the same exponent.

* `Binary64.IsPositive`: finite coefficients above zero.
* `Derivative.WrittenAs`: the derivatives that are terms, and the shapes they have as such.
* `Binary64.leadingLexemes`, `Derivative.powerLexemes`: how the parts of a text are cut.
* `Derivative.WrittenAs.exists_written`: the lexemes of the text write the shape.
* **`Term.classify_text`**: the text of a derivative reads back.
-/

namespace Fluxion

open Lexeme Grammar

/-! ## Lexemes of numbers -/

theorem Numeral.IsPlain.whole {cs : List Char} (h : IsPlain cs) : Whole ⟨.number, cs⟩ where
  ne_nil := h.ne_nil
  ofChar_eq := fun c hc => LexemeKind.ofChar_of_isDigit_or (h.isDigit_or c hc)
  length_eq := nofun

namespace Binary64

/-- The number is finite and greater than zero. -/
def IsPositive (v : Binary64) : Prop := v.IsFinite ∧ 0 < v.value

theorem IsPositive.exists_magnitude {v : Binary64} (h : v.IsPositive) :
    ∃ a : Magnitude, v = finite false a ∧ a.significand ≠ 0 := by
  obtain ⟨hfinite, hpos⟩ := h
  cases v with
  | nan | infinity s => exact hfinite.elim
  | finite s a =>
    cases s with
    | true =>
      rw [value_finite_true, neg_pos] at hpos
      exact absurd hpos a.value_nonneg.not_gt
    | false => exact ⟨a, rfl, fun hzero => hpos.ne' (Magnitude.value_eq_zero.mpr hzero)⟩

theorem isPositive_ofInt {i : ℤ} (hpos : 0 < i) (hlt : i.natAbs < 2 ^ 53) :
    (ofInt i).IsPositive := by
  obtain ⟨hfinite, hvalue⟩ := value_ofInt hlt
  refine ⟨hfinite, ?_⟩
  rw [hvalue]
  exact Int.cast_pos.mpr hpos

theorem IsPositive.isZero_eq {v : Binary64} (h : v.IsPositive) : v.isZero = false := by
  obtain ⟨a, rfl, ha⟩ := h.exists_magnitude
  exact decide_eq_false ha

theorem IsPositive.isNegative_eq {v : Binary64} (h : v.IsPositive) : v.isNegative = false := by
  obtain ⟨a, rfl, -⟩ := h.exists_magnitude
  rfl

theorem IsPositive.toList_text {v : Binary64} (h : v.IsPositive) :
    v.text.toList = v.unsignedText := by
  rw [Binary64.toList_text h.isZero_eq, h.isNegative_eq]
  rfl

theorem IsPositive.isNumeral {v : Binary64} (h : v.IsPositive) :
    Whole ⟨.number, v.unsignedText⟩ ∧ IsNumeral ⟨.number, v.unsignedText⟩ ∧
      v.Rounds (Numeral.value v.unsignedText) := by
  obtain ⟨a, rfl, -⟩ := h.exists_magnitude
  have hplain := a.isPlain_digits
  obtain ⟨hdigit, hpoint, hrounds⟩ :=
    (Numeral.read?_eq_some_iff hplain.isDigit_or).mp a.read?_digits
  exact ⟨hplain.whole, ⟨rfl, hdigit, hpoint⟩, hrounds⟩

/-! ## The coefficient -/

/-- The lexemes of a positive coefficient in front of what it multiplies. -/
def leadingLexemes (c : Binary64) : List Lexeme :=
  if c = one then [] else [⟨.number, c.unsignedText⟩]

theorem flatMap_leadingLexemes {c : Binary64} (h : c.IsPositive) :
    c.leadingLexemes.flatMap (·.chars) = c.leadingText.toList := by
  have hne : c ≠ negOne := by
    rintro rfl
    exact absurd h.isNegative_eq (by decide)
  rw [toList_leadingText h.isZero_eq, h.isNegative_eq]
  unfold leadingLexemes leadingBody
  by_cases h1 : c = one
  · rw [if_pos h1, if_pos (.inl h1)]
    rfl
  · rw [if_neg h1, if_neg (not_or.mpr ⟨h1, hne⟩)]
    exact List.append_nil _

theorem coefficient_leadingLexemes {c : Binary64} (h : c.IsPositive) :
    Coefficient c.leadingLexemes c := by
  unfold leadingLexemes
  split
  · next h1 =>
    rw [h1]
    exact .absent
  · obtain ⟨-, hnumeral, hrounds⟩ := h.isNumeral
    exact .numeral hnumeral hrounds

theorem isScan_leadingLexemes_append {c : Binary64} (h : c.IsPositive) {l : Lexeme}
    {ls : List Lexeme} (hl : l.kind = .name) (hls : IsScan (l :: ls)) :
    IsScan (c.leadingLexemes ++ l :: ls) := by
  unfold leadingLexemes
  split
  · exact hls
  · refine .cons h.isNumeral.1 (fun m hm heq => ?_) hls
    obtain rfl : l = m := Option.some.inj hm
    rw [hl] at heq
    exact nomatch heq

end Binary64

/-! ## The power -/

namespace Derivative

/-- The lexemes of a power after `x`. -/
def powerLexemes (n : Int32) : List Lexeme :=
  if n = 1 then []
  else if n.toInt < 0 then
    [⟨.caret, ['^']⟩, ⟨.minus, ['-']⟩, ⟨.number, Numeral.ofNat n.toInt.natAbs⟩]
  else [⟨.caret, ['^']⟩, ⟨.number, Numeral.ofNat n.toInt.natAbs⟩]

theorem flatMap_powerLexemes (n : Int32) :
    (powerText n).toList = 'x' :: (powerLexemes n).flatMap (·.chars) := by
  rw [toList_powerText, Numeral.ofInt]
  unfold powerLexemes
  split
  · rfl
  · split <;> simp

theorem isScan_powerLexemes (n : Int32) : IsScan (⟨.name, ['x']⟩ :: powerLexemes n) := by
  have hx : Whole ⟨.name, ['x']⟩ := whole_single 'x'
  have hcaret : Whole ⟨.caret, ['^']⟩ := whole_single '^'
  have hminus : Whole ⟨.minus, ['-']⟩ := whole_single '-'
  have hnumber := (Numeral.isPlain_ofNat n.toInt.natAbs).whole
  have hone : IsScan [⟨.number, Numeral.ofNat n.toInt.natAbs⟩] := .cons hnumber nofun .nil
  unfold powerLexemes
  split
  · exact .cons hx nofun .nil
  · split
    · refine .cons hx ?_ (.cons hcaret ?_ (.cons hminus ?_ hone)) <;> simp [Apart]
    · refine .cons hx ?_ (.cons hcaret ?_ hone) <;> simp [Apart]

theorem isNatural_exponent {n : Int32} (hn : n ≠ Int32.minValue) :
    IsNatural ⟨.number, Numeral.ofNat n.toInt.natAbs⟩ ∧
      natural ⟨.number, Numeral.ofNat n.toInt.natAbs⟩ = n.toInt.natAbs := by
  have hnatural : natural ⟨.number, Numeral.ofNat n.toInt.natAbs⟩ = n.toInt.natAbs :=
    Numeral.ofDigitChars_ofNat _
  have hne : n.toInt ≠ -2 ^ 31 := fun h => hn (Int32.toInt_inj.mp h)
  have hlt := n.toInt_lt
  have hle := n.le_toInt
  refine ⟨⟨rfl, Numeral.ofNat_isDigit _, ?_⟩, hnatural⟩
  rw [hnatural]
  omega

theorem power_powerLexemes {n : Int32} (hn : n ≠ Int32.minValue) :
    Power (powerLexemes n) n.toInt := by
  obtain ⟨hnatural, hvalue⟩ := isNatural_exponent hn
  unfold powerLexemes
  split
  · next h1 =>
    rw [h1]
    exact .absent
  · split
    · next hneg => exact power_negative_iff.mpr ⟨rfl, rfl, hnatural, by rw [hvalue]; omega⟩
    · next hpos => exact power_positive_iff.mpr ⟨rfl, hnatural, by rw [hvalue]; omega⟩

/-! ## The text -/

/-- The derivative is written as a term of the shape. -/
inductive WrittenAs : Derivative → Shape → Prop where
  | constant {v : Binary64} (hv : v.IsPositive) : WrittenAs (.constant v) (.constant v)
  | monomial {c : Binary64} {n : Int32} (hc : c.IsPositive) (hn : n ≠ Int32.minValue) :
      WrittenAs (.monomial c n) (.monomial c n)
  | exponential : WrittenAs .exponential .exponential
  | cos {c : Binary64} (hc : c.IsPositive) :
      WrittenAs (.trigonometric .cos c) (.trigonometric .cos c)

/-- The text of a derivative is cut into lexemes that write the shape. -/
theorem WrittenAs.exists_written {d : Derivative} {s : Shape} (h : d.WrittenAs s) :
    ∃ ls, IsScan ls ∧ ls.flatMap (·.chars) = d.text.toList ∧ Written ls s := by
  cases h with
  | @constant v hv =>
    obtain ⟨hwhole, hnumeral, hrounds⟩ := hv.isNumeral
    refine ⟨[⟨.number, v.unsignedText⟩], .cons hwhole nofun .nil, ?_, .constant hnumeral hrounds⟩
    change v.unsignedText ++ [] = v.text.toList
    rw [List.append_nil, hv.toList_text]
  | @monomial c n hc hn =>
    refine ⟨c.leadingLexemes ++ ⟨.name, ['x']⟩ :: powerLexemes n,
      Binary64.isScan_leadingLexemes_append hc rfl (isScan_powerLexemes n), ?_,
      .monomial (Binary64.coefficient_leadingLexemes hc) rfl (power_powerLexemes hn)⟩
    change _ = (c.leadingText ++ powerText n).toList
    rw [List.flatMap_append, Binary64.flatMap_leadingLexemes hc, String.toList_append,
      flatMap_powerLexemes]
    rfl
  | exponential => exact ⟨_, isScan_scan ['e', '^', 'x'], rfl, .exponential rfl rfl rfl⟩
  | @cos c hc =>
    have hcall : IsScan (scan ['c', 'o', 's', '(', 'x', ')']) := isScan_scan _
    refine ⟨c.leadingLexemes ++ _, Binary64.isScan_leadingLexemes_append hc rfl hcall, ?_,
      .trigonometric (Binary64.coefficient_leadingLexemes hc) rfl (.intro rfl rfl rfl)⟩
    change _ = (c.leadingText ++ "cos(x)").toList
    rw [List.flatMap_append, Binary64.flatMap_leadingLexemes hc, String.toList_append]
    rfl

end Derivative

/-! ## Reading it back -/

theorem Grammar.Written.kind_ne {ls : List Lexeme} {s : Shape} (h : Written ls s) :
    ∀ l ∈ ls, l.kind ≠ .whitespace := by
  intro l hl hblank
  have hkind := h.kind_mem l hl
  rw [hblank] at hkind
  exact absurd hkind (by decide)

/-- **The text of a derivative reads back**: as a term it has the shape that was written, with the
same coefficient and the same exponent. -/
theorem Term.classify_text {d : Derivative} {s : Shape} (h : d.WrittenAs s) {t : Term}
    (ht : t.text = d.text) : t.classify = .ok s := by
  obtain ⟨ls, hscan, hchars, hwritten⟩ := h.exists_written
  have hlexemes : t.lexemes = ls := by
    rw [lexemes, ht, significant, ← hchars, scan_flatMap hscan]
    refine List.filter_eq_self.mpr fun l hl => ?_
    simp [isWhitespace, hwritten.kind_ne l hl]
  rw [classify_eq_ok_iff, hlexemes]
  exact hwritten

theorem Term.classify_text_monomial :
    (Derivative.monomial (.ofInt 12) (-3)).WrittenAs (.monomial (.ofInt 12) (-3)) ∧
      (Derivative.monomial (.ofInt 12) (-3)).text = "12x^-3" ∧
      Term.classify ⟨.negative, "12x^-3", ⟨8, 14⟩⟩ = .ok (.monomial (.ofInt 12) (-3)) := by
  have hc : (Binary64.ofInt 12).IsPositive :=
    Binary64.isPositive_ofInt (by decide) (by decide)
  have htext : (Derivative.monomial (.ofInt 12) (-3)).text = "12x^-3" := by decide +kernel
  have hwritten : (Derivative.monomial (.ofInt 12) (-3)).WrittenAs (.monomial (.ofInt 12) (-3)) :=
    .monomial hc (by decide)
  exact ⟨hwritten, htext, Term.classify_text hwritten htext.symm⟩

end Fluxion
