import Fluxion.Proofs.Derivative.Normal

/-!
# The text of a derivative

The text of a normal derivative is a sign, a number without one and what the number multiplies.
The last part begins with a letter that no number contains, and it decides about the sign.

* `Derivative.suffix`, `Derivative.body`, `Derivative.minus`: the three parts.
* `Derivative.toList_text`: the text consists of them.
* **`Derivative.eq_of_text`**: normal derivatives with the same text are the same.
* **`Derivative.cons_text_ne`**: no text is another one with a `-` in front of it.
* `Derivative.text_eq_zero_iff`: only the vanishing derivative has the text `0`.
-/

namespace Fluxion

namespace Numeral

theorem ofNat_injective : Function.Injective ofNat := fun m n h => by
  rw [← ofDigitChars_ofNat m, h, ofDigitChars_ofNat]

theorem ofInt_eq (i : ℤ) : ofInt i = signText (decide (i < 0)) ++ ofNat i.natAbs := by
  unfold ofInt signText
  by_cases h : i < 0
  · rw [if_pos h, if_pos (decide_eq_true h)]
    rfl
  · rw [if_neg h, if_neg (by simpa using h)]
    rfl

theorem minus_notMem_ofNat (n : ℕ) : '-' ∉ ofNat n := fun h =>
  absurd (isDigit_of_mem_ofNat h) (by decide)

theorem isDigit_or_of_mem_ofInt {i : ℤ} {c : Char} (h : c ∈ ofInt i) : c.isDigit ∨ c = '-' := by
  rw [ofInt_eq, List.mem_append] at h
  refine h.symm.imp isDigit_of_mem_ofNat fun hsign => ?_
  cases hneg : decide (i < 0) <;> rw [hneg] at hsign
  · exact absurd hsign List.not_mem_nil
  · exact List.mem_singleton.mp hsign

theorem ofInt_injective : Function.Injective ofInt := fun i j h => by
  rw [ofInt_eq, ofInt_eq] at h
  obtain ⟨hsign, hdigits⟩ := signText_append_inj (minus_notMem_ofNat _) (minus_notMem_ofNat _) h
  have habs := ofNat_injective hdigits
  have hneg := decide_eq_decide.mp hsign
  omega

end Numeral

namespace Derivative

/-! ## The parts of a text -/

/-- Whether the text begins with a `-`. -/
def minus : Derivative → Bool
  | trigonometric .negSin _ => true
  | d => d.hasLowPower

/-- The number in front, without its sign. -/
def body : Derivative → List Char
  | zero | exponential => []
  | constant value => value.unsignedText
  | monomial coefficient _ | trigonometric _ coefficient => coefficient.leadingBody

/-- What the number multiplies. -/
def suffix : Derivative → List Char
  | zero | constant _ => []
  | monomial _ exponent => (powerText exponent).toList
  | exponential => ['e', '^', 'x']
  | trigonometric .cos _ => ['c', 'o', 's', '(', 'x', ')']
  | trigonometric .negSin _ => ['s', 'i', 'n', '(', 'x', ')']
  | trigonometric .secSquared _ => ['s', 'e', 'c', '(', 'x', ')', '^', '2']

/-- **The text of a normal derivative consists of the three parts.** -/
theorem toList_text {d : Derivative} (h : d.Normal) :
    d.text.toList = signText d.minus ++ d.body ++ d.suffix := by
  obtain ⟨hzero, hsign⟩ := h
  cases d with
  | zero => exact absurd hzero (by decide)
  | exponential => rfl
  | constant v =>
    have hv : v.isNegative = false := hsign
    change v.text.toList = signText false ++ v.unsignedText ++ []
    rw [Binary64.toList_text (v := v) hzero, hv, List.append_nil]
  | monomial c n =>
    have hc : c.isNegative = (monomial c n).minus := hsign
    change (c.leadingText ++ powerText n).toList = _ ++ c.leadingBody ++ (powerText n).toList
    rw [String.toList_append, Binary64.toList_leadingText (c := c) hzero, hc]
  | trigonometric f c =>
    have hc : c.isNegative = false := hsign
    have hleading : c.leadingText.toList = c.leadingBody := by
      rw [Binary64.toList_leadingText (c := c) hzero, hc]
      rfl
    cases f with
    | cos =>
      change (c.leadingText ++ "cos(x)").toList = c.leadingBody ++ _
      rw [String.toList_append, hleading]
      rfl
    | negSin =>
      change ("-" ++ c.leadingText ++ "sin(x)").toList = '-' :: (c.leadingBody ++ _)
      rw [String.toList_append, String.toList_append, hleading]
      rfl
    | secSquared =>
      change (c.leadingText ++ "sec(x)^2").toList = c.leadingBody ++ _
      rw [String.toList_append, hleading]
      rfl

/-! ## Telling the parts apart -/

/-- The letters that stand after a number. -/
def IsSuffixChar (c : Char) : Prop := c ∈ ['x', 'e', 'c', 's']

instance : DecidablePred IsSuffixChar := fun c => by unfold IsSuffixChar; infer_instance

theorem toList_powerText (n : Int32) : (powerText n).toList =
    'x' :: if n = 1 then [] else '^' :: Numeral.ofInt n.toInt := by
  unfold powerText
  split
  · rfl
  · simp only [String.toList_append, String.toList_ofList]
    rfl

theorem powerText_injective : Function.Injective powerText := fun m n h => by
  have hlist := congrArg String.toList h
  rw [toList_powerText, toList_powerText] at hlist
  have htail := (List.cons.inj hlist).2
  by_cases hm : m = 1 <;> by_cases hn : n = 1
  · rw [hm, hn]
  · rw [if_pos hm, if_neg hn] at htail
    exact absurd htail nofun
  · rw [if_neg hm, if_pos hn] at htail
    exact absurd htail nofun
  · rw [if_neg hm, if_neg hn] at htail
    exact Int32.toInt_inj.mp (Numeral.ofInt_injective (List.cons.inj htail).2)

/-- The characters of what a number multiplies. Exponents may have other digits. -/
def suffixChars : List Char := ['x', '^', '-', '2', 'e', 'c', 'o', 's', 'i', 'n', '(', ')']

theorem mem_suffix {d : Derivative} {c : Char} (h : c ∈ d.suffix) :
    c.isDigit ∨ c ∈ suffixChars := by
  have hletters {cs : List Char} (hcs : cs ⊆ suffixChars) (hc : c ∈ cs) :
      c.isDigit ∨ c ∈ suffixChars := .inr (hcs hc)
  cases d with
  | zero | constant v => exact absurd h List.not_mem_nil
  | exponential => exact hletters (by decide) h
  | trigonometric f v => exact hletters (by cases f <;> simp [suffix, suffixChars]) h
  | monomial v n =>
    change c ∈ (powerText n).toList at h
    rw [toList_powerText, List.mem_cons] at h
    rcases h with rfl | h
    · exact .inr (by decide)
    · split at h
      · exact absurd h List.not_mem_nil
      · rcases List.mem_cons.mp h with rfl | h
        · exact .inr (by decide)
        · refine (Numeral.isDigit_or_of_mem_ofInt h).imp_right ?_
          rintro rfl
          decide

theorem isSuffixChar_suffix (d : Derivative) : ∀ c ∈ d.suffix.head?, IsSuffixChar c := by
  cases d with
  | zero | constant v => exact nofun
  | exponential => exact fun _ hx => Option.some.inj hx ▸ by decide
  | monomial c n =>
    change ∀ x ∈ (powerText n).toList.head?, IsSuffixChar x
    rw [toList_powerText]
    exact fun _ hx => Option.some.inj hx ▸ by decide
  | trigonometric f c => cases f <;> exact fun _ hx => Option.some.inj hx ▸ by decide

theorem isNumberChar_body (d : Derivative) : ∀ c ∈ d.body, Binary64.IsNumberChar c := by
  cases d with
  | zero | exponential => exact fun _ hc => absurd hc List.not_mem_nil
  | constant v => exact v.isNumberChar_unsignedText
  | monomial c n | trigonometric f c => exact c.isNumberChar_leadingBody

theorem minus_notMem_body (d : Derivative) : '-' ∉ d.body := fun h =>
  absurd (d.isNumberChar_body '-' h) (by decide)

theorem not_isSuffixChar_front (d : Derivative) (m : Bool) :
    ∀ c ∈ signText m ++ d.body, ¬ IsSuffixChar c := by
  intro c hc hsuffix
  rcases List.mem_append.mp hc with hc | hc
  · have hminus : c = '-' := by
      cases m
      · exact absurd hc List.not_mem_nil
      · exact List.mem_singleton.mp hc
    rw [hminus] at hsuffix
    exact absurd hsuffix (by decide)
  · have hnumber := d.isNumberChar_body c hc
    unfold IsSuffixChar at hsuffix
    simp only [List.mem_cons, List.not_mem_nil, or_false] at hsuffix
    rcases hsuffix with rfl | rfl | rfl | rfl <;> exact absurd hnumber (by decide)

theorem parts_eq {d e : Derivative} {m n : Bool} {u : List Char}
    (hu : ∀ c ∈ u, ¬ IsSuffixChar c)
    (h : u ++ (signText m ++ d.body ++ d.suffix) = signText n ++ e.body ++ e.suffix) :
    u ++ (signText m ++ d.body) = signText n ++ e.body ∧ d.suffix = e.suffix := by
  rw [← List.append_assoc] at h
  refine append_inj_of_separated (fun c hc => ?_) (e.not_isSuffixChar_front n)
    d.isSuffixChar_suffix e.isSuffixChar_suffix h
  exact (List.mem_append.mp hc).elim (hu c) (d.not_isSuffixChar_front m c)

/-- The derivative with another number in front. -/
def withCoefficient (c : Binary64) : Derivative → Derivative
  | zero => zero
  | constant _ => constant c
  | monomial _ exponent => monomial c exponent
  | exponential => exponential
  | trigonometric function _ => trigonometric function c

theorem hasLowPower_withCoefficient (d : Derivative) (c : Binary64) :
    (d.withCoefficient c).hasLowPower = d.hasLowPower := by cases d <;> rfl

theorem minus_withCoefficient (d : Derivative) (c : Binary64) :
    (d.withCoefficient c).minus = d.minus := by
  cases d with
  | trigonometric f _ => cases f <;> rfl
  | _ => rfl

theorem exists_withCoefficient {d e : Derivative} (hd : d ≠ zero) (he : e ≠ zero)
    (h : d.suffix = e.suffix) : ∃ c, e = d.withCoefficient c := by
  cases d with
  | zero => exact absurd rfl hd
  | constant v =>
    cases e with
    | zero => exact absurd rfl he
    | constant w => exact ⟨w, rfl⟩
    | monomial | exponential => simp [suffix, toList_powerText] at h
    | trigonometric g => cases g <;> simp [suffix] at h
  | monomial c m =>
    cases e with
    | zero => exact absurd rfl he
    | monomial b n =>
      have hmn : m = n := powerText_injective (String.toList_injective h)
      exact ⟨b, by rw [withCoefficient, hmn]⟩
    | constant | exponential => simp [suffix, toList_powerText] at h
    | trigonometric g => cases g <;> simp [suffix, toList_powerText] at h
  | exponential =>
    cases e with
    | zero => exact absurd rfl he
    | exponential => exact ⟨.one, rfl⟩
    | constant | monomial => simp [suffix, toList_powerText] at h
    | trigonometric g => cases g <;> simp [suffix] at h
  | trigonometric f c =>
    cases e with
    | zero => exact absurd rfl he
    | trigonometric g b => cases f <;> cases g <;> first | exact ⟨b, rfl⟩ | simp [suffix] at h
    | constant | monomial | exponential => cases f <;> simp [suffix, toList_powerText] at h

theorem eq_withCoefficient {d : Derivative} {c : Binary64}
    (hsign : d.coefficient.isNegative = (d.withCoefficient c).coefficient.isNegative)
    (h : d.body = (d.withCoefficient c).body) : d = d.withCoefficient c := by
  cases d with
  | zero | exponential => rfl
  | constant v => exact congrArg constant (Binary64.eq_of_unsignedText hsign h)
  | monomial b n => exact congrArg (monomial · n) (Binary64.eq_of_leadingBody hsign h)
  | trigonometric f b => exact congrArg (trigonometric f) (Binary64.eq_of_leadingBody hsign h)

theorem Normal.ne_zero {d : Derivative} (h : d.Normal) : d ≠ zero := by
  rintro rfl
  exact absurd h.isZero_eq (by decide)

/-! ## What the text determines -/

/-- **Normal derivatives with the same text are the same.** -/
theorem eq_of_text {d e : Derivative} (hd : d.Normal) (he : e.Normal) (h : d.text = e.text) :
    d = e := by
  have hlist := congrArg String.toList h
  rw [toList_text hd, toList_text he] at hlist
  obtain ⟨hfront, hsuffix⟩ := parts_eq (u := []) (fun _ hc => absurd hc List.not_mem_nil) hlist
  obtain ⟨c, rfl⟩ := exists_withCoefficient hd.ne_zero he.ne_zero hsuffix
  obtain ⟨-, hbody⟩ := signText_append_inj (minus_notMem_body d) (minus_notMem_body _) hfront
  refine eq_withCoefficient ?_ hbody
  rw [hd.isNegative_eq, he.isNegative_eq, hasLowPower_withCoefficient]

/-- **No text of a normal derivative is another one with a `-` in front of it.** -/
theorem cons_text_ne {d e : Derivative} (hd : d.Normal) (he : e.Normal) :
    '-' :: d.text.toList ≠ e.text.toList := by
  intro hlist
  rw [toList_text hd, toList_text he] at hlist
  obtain ⟨hfront, hsuffix⟩ := parts_eq (List.forall_mem_singleton.mpr (by decide)) hlist
  obtain ⟨c, rfl⟩ := exists_withCoefficient hd.ne_zero he.ne_zero hsuffix
  obtain ⟨hm, hn⟩ := cons_signText_append_inj (minus_notMem_body _) hfront
  rw [minus_withCoefficient, hm] at hn
  exact Bool.false_ne_true hn

theorem text_ne_zero {d : Derivative} (h : d.Normal) : d.text ≠ "0" := by
  intro hzero
  have hlist := congrArg String.toList hzero
  rw [toList_text h] at hlist
  have hdigit : ∀ c ∈ ['0'], ¬ IsSuffixChar c := List.forall_mem_singleton.mpr (by decide)
  obtain ⟨hfront, hsuffix⟩ := append_inj_of_separated (s := []) (d.not_isSuffixChar_front _) hdigit
    d.isSuffixChar_suffix nofun hlist
  obtain ⟨hsign, hbody⟩ := signText_append_inj (n := false) (minus_notMem_body d) (by decide) hfront
  cases d with
  | zero => exact h.ne_zero rfl
  | constant v =>
    have hv : v.isZero = false := h.isZero_eq
    rw [Binary64.isZero_of_unsignedText hbody] at hv
    exact Bool.false_ne_true hv.symm
  | monomial | exponential => simp [suffix, toList_powerText] at hsuffix
  | trigonometric f => cases f <;> simp [suffix] at hsuffix

theorem text_eq_zero_iff {d : Derivative} (h : d = zero ∨ d.Normal) : d.text = "0" ↔ d = zero := by
  rcases h with rfl | h
  · exact iff_of_true rfl rfl
  · exact iff_of_false (text_ne_zero h) h.ne_zero

end Derivative

end Fluxion
