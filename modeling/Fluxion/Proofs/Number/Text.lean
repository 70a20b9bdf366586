import Fluxion.Derivative.Text
import Fluxion.Proofs.Number.RoundTrip

/-!
# The text of a number

A number other than zero is written as a sign and a text without one, and the two together say
which number it is.

* `Binary64.IsNumberChar`: the characters of a number without its sign.
* `Binary64.unsignedText`, `Binary64.leadingBody`: numbers and coefficients without their sign.
* `Binary64.toList_text`, `Binary64.toList_leadingText`: the sign stands in front of them.
* **`Binary64.eq_of_unsignedText`**, **`Binary64.eq_of_leadingBody`**: with the sign they determine
  the number.
-/

namespace Fluxion

/-! ## Separated texts -/

/-- A text without separators can be told from what follows. -/
theorem append_inj_of_separated {p : Char → Prop} {u v r s : List Char} (hu : ∀ c ∈ u, ¬ p c)
    (hv : ∀ c ∈ v, ¬ p c) (hr : ∀ c ∈ r.head?, p c) (hs : ∀ c ∈ s.head?, p c)
    (h : u ++ r = v ++ s) : u = v ∧ r = s := by
  induction u generalizing v with
  | nil =>
    cases v with
    | nil => exact ⟨rfl, h⟩
    | cons c v =>
      rw [List.nil_append] at h
      subst h
      exact absurd (hr c rfl) (hv c List.mem_cons_self)
  | cons c u ih =>
    cases v with
    | nil =>
      rw [List.nil_append] at h
      subst h
      exact absurd (hs c rfl) (hu c List.mem_cons_self)
    | cons d v =>
      obtain ⟨rfl, htail⟩ := List.cons.inj h
      obtain ⟨rfl, rfl⟩ := ih (fun d hd => hu d (List.mem_cons_of_mem _ hd))
        (fun d hd => hv d (List.mem_cons_of_mem _ hd)) htail
      exact ⟨rfl, rfl⟩

/-- The sign of a number as it is written. -/
def signText (negative : Bool) : List Char := if negative then ['-'] else []

theorem signText_append_inj {m n : Bool} {u v : List Char} (hu : '-' ∉ u) (hv : '-' ∉ v)
    (h : signText m ++ u = signText n ++ v) : m = n ∧ u = v := by
  cases m <;> cases n
  · exact ⟨rfl, h⟩
  · exact absurd (by rw [show u = '-' :: v from h]; exact List.mem_cons_self) hu
  · exact absurd (by rw [show v = '-' :: u from h.symm]; exact List.mem_cons_self) hv
  · exact ⟨rfl, (List.cons.inj h).2⟩

theorem cons_signText_append_inj {m n : Bool} {u v : List Char} (hv : '-' ∉ v)
    (h : '-' :: (signText m ++ u) = signText n ++ v) : m = false ∧ n = true := by
  cases n with
  | false => exact absurd (by rw [show v = _ from h.symm]; exact List.mem_cons_self) hv
  | true =>
    cases m with
    | false => exact ⟨rfl, rfl⟩
    | true =>
      have hv' : v = '-' :: u := (List.cons.inj h).2.symm
      exact absurd (hv' ▸ List.mem_cons_self) hv

/-! ## The characters of digits -/

namespace Numeral

/-- Digits and points, and at least one of them. -/
structure IsPlain (cs : List Char) : Prop where
  ne_nil : cs ≠ []
  isDigit_or : ∀ c ∈ cs, c.isDigit ∨ c = '.'

theorem isPlain_ofNat_append (n : ℕ) {rest : List Char} (h : ∀ c ∈ rest, c.isDigit ∨ c = '.') :
    IsPlain (ofNat n ++ rest) where
  ne_nil := List.append_ne_nil_of_left_ne_nil (ofNat_ne_nil n) rest
  isDigit_or := fun c hc => by
    rcases List.mem_append.mp hc with hc | hc
    · exact .inl (isDigit_of_mem_ofNat hc)
    · exact h c hc

theorem isPlain_ofNat (n : ℕ) : IsPlain (ofNat n) := by
  rw [← List.append_nil (ofNat n)]
  exact isPlain_ofNat_append n fun c hc => absurd hc List.not_mem_nil

theorem isPlain_positional {places : ℕ} (hp : 0 < places) (x : ℕ) :
    IsPlain (positional places x) := by
  obtain ⟨hdigits, -⟩ := fractionDigits_spec hp x
  unfold positional
  generalize fractionDigits places x = f at *
  cases f with
  | nil => exact isPlain_ofNat _
  | cons d ds =>
    refine isPlain_ofNat_append _ fun c hc => ?_
    exact (List.mem_cons.mp hc).symm.imp_left (hdigits c)

end Numeral

namespace Magnitude

theorem isPlain_digits (a : Magnitude) : Numeral.IsPlain a.digits := by
  rcases a.digits_eq_or with ⟨n, hn, -⟩ | hshortest
  · rw [hn]
    exact Numeral.isPlain_ofNat n
  · rw [hshortest]
    exact Numeral.isPlain_positional (by decide) _

theorem digits_zero : zero.digits = ['0'] := by
  have hunits : zero.units = 0 := units_eq_zero rfl
  unfold digits
  rw [hunits, Nat.zero_mod, Nat.zero_div, if_pos ⟨rfl, by decide⟩]
  rfl

theorem significand_eq_zero_of_digits {a : Magnitude} (h : a.digits = ['0']) :
    a.significand = 0 := by
  rw [digits_injective (h.trans digits_zero.symm)]
  rfl

end Magnitude

namespace Binary64

/-! ## A number and its sign -/

/-- Whether a number is written with a `-`, unless it is zero. -/
def isNegative : Binary64 → Bool
  | nan => false
  | infinity negative | finite negative _ => negative

/-- The text of a number without its sign. -/
def unsignedText : Binary64 → List Char
  | nan => ['N', 'a', 'N']
  | infinity _ => ['∞']
  | finite _ a => a.digits

/-- The characters of numbers, apart from the sign. -/
def IsNumberChar (c : Char) : Prop := c.isDigit ∨ c ∈ ['.', 'N', 'a', '∞']

instance : DecidablePred IsNumberChar := fun c => by unfold IsNumberChar; infer_instance

theorem toList_text {v : Binary64} (h : v.isZero = false) :
    v.text.toList = signText v.isNegative ++ v.unsignedText := by
  cases v with
  | nan => decide
  | infinity s => cases s <;> decide
  | finite s a =>
    have ha : a.significand ≠ 0 := of_decide_eq_false h
    cases s
    · simp [text, isNegative, unsignedText, signText]
    · simp [text, isNegative, unsignedText, signText, ha]

theorem isNumberChar_unsignedText (v : Binary64) : ∀ c ∈ v.unsignedText, IsNumberChar c := by
  cases v with
  | nan => simp [unsignedText, IsNumberChar]
  | infinity s => exact List.forall_mem_singleton.mpr (by decide)
  | finite s a =>
    intro c hc
    exact (a.isPlain_digits.isDigit_or c hc).imp_right fun h => by simp [h]

theorem unsignedText_ne_nil (v : Binary64) : v.unsignedText ≠ [] := by
  cases v with
  | nan => exact nofun
  | infinity s => exact nofun
  | finite s a => exact a.isPlain_digits.ne_nil

/-- **The sign and the text without it determine the number.** -/
theorem eq_of_unsignedText {v w : Binary64} (hsign : v.isNegative = w.isNegative)
    (h : v.unsignedText = w.unsignedText) : v = w := by
  have hdigits (s : Bool) (a : Magnitude) : (finite s a).unsignedText ≠ ['N', 'a', 'N'] ∧
      (finite s a).unsignedText ≠ ['∞'] := by
    have hplain := a.isPlain_digits.isDigit_or
    constructor
    · intro hd
      rw [show a.digits = _ from hd] at hplain
      exact absurd (hplain 'N' (by decide)) (by decide)
    · intro hd
      rw [show a.digits = _ from hd] at hplain
      exact absurd (hplain '∞' (by decide)) (by decide)
  cases v with
  | nan =>
    cases w with
    | nan => rfl
    | infinity t => simp [unsignedText] at h
    | finite t b => exact absurd h.symm (hdigits t b).1
  | infinity s =>
    cases w with
    | nan => simp [unsignedText] at h
    | infinity t => exact congrArg infinity hsign
    | finite t b => exact absurd h.symm (hdigits t b).2
  | finite s a =>
    cases w with
    | nan => exact absurd h (hdigits s a).1
    | infinity t => exact absurd h (hdigits s a).2
    | finite t b => rw [show s = t from hsign, Magnitude.digits_injective h]

theorem isZero_of_unsignedText {v : Binary64} (h : v.unsignedText = ['0']) : v.isZero := by
  cases v with
  | nan => simp [unsignedText] at h
  | infinity s => simp [unsignedText] at h
  | finite s a => exact decide_eq_true (Magnitude.significand_eq_zero_of_digits h)

/-! ## Coefficients -/

/-- A coefficient without its sign; a `1` is left out. -/
def leadingBody (c : Binary64) : List Char := if c = one ∨ c = negOne then [] else c.unsignedText

theorem toList_leadingText {c : Binary64} (h : c.isZero = false) :
    c.leadingText.toList = signText c.isNegative ++ c.leadingBody := by
  unfold leadingText leadingBody
  by_cases h1 : c = one
  · rw [if_pos h1, if_pos (.inl h1), h1]
    rfl
  · by_cases h2 : c = negOne
    · rw [if_neg h1, if_pos h2, if_pos (.inr h2), h2]
      rfl
    · rw [if_neg h1, if_neg h2, if_neg (not_or.mpr ⟨h1, h2⟩), toList_text h]

theorem isNumberChar_leadingBody (c : Binary64) : ∀ d ∈ c.leadingBody, IsNumberChar d := by
  unfold leadingBody
  split
  · exact fun _ hd => absurd hd List.not_mem_nil
  · exact c.isNumberChar_unsignedText

/-- **The sign and the rest of a coefficient determine it.** -/
theorem eq_of_leadingBody {v w : Binary64} (hsign : v.isNegative = w.isNegative)
    (h : v.leadingBody = w.leadingBody) : v = w := by
  unfold leadingBody at h
  by_cases hv : v = one ∨ v = negOne <;> by_cases hw : w = one ∨ w = negOne
  · -- both are left out, and the sign tells them apart
    rcases hv with rfl | rfl <;> rcases hw with rfl | rfl <;> first | rfl | exact absurd hsign nofun
  · rw [if_pos hv, if_neg hw] at h
    exact absurd h.symm w.unsignedText_ne_nil
  · rw [if_neg hv, if_pos hw] at h
    exact absurd h v.unsignedText_ne_nil
  · rw [if_neg hv, if_neg hw] at h
    exact eq_of_unsignedText hsign h

end Binary64

end Fluxion
