import Fluxion.Proofs.Number.Text
import Mathlib.Data.Int.Order.Basic

/-!
# The notation of numbers

A finite number is written in the one way that has no superfluous zero, and its fraction appears
exactly if it has one. This is so on both sides of `2 ^ 63`: a whole number from there on is also a
point of the grid of ones, so that its shortest decimal is one too, and no shortest decimal of
another number is, as whole numbers are only rounded to whole numbers.

* `Numeral.IsCanonical`: digits without superfluous zeros.
* `Magnitude.dvd_shortest_iff`: which magnitudes have a whole number as their shortest decimal.
* `Magnitude.exists_isCanonical_digits`: the digits of a magnitude.
* `Numeral.readSigned?`: numerals with a `-` in front.
* **`Binary64.text_faithful`**: what the text of a finite number says.
-/

namespace Fluxion

namespace Numeral

/-! ## Superfluous zeros -/

/-- The digits of a whole part and of a fraction, none of them superfluous. -/
structure IsCanonical (whole fraction cs : List Char) : Prop where
  eq : cs = whole ++ if fraction = [] then [] else '.' :: fraction
  isDigit : ∀ c ∈ whole ++ fraction, c.isDigit
  whole_ne_nil : whole ≠ []
  leading : whole.head? = some '0' → whole = ['0']
  trailing : fraction.getLast? ≠ some '0'

theorem ofNat_of_lt {n : ℕ} (h : n < 10) : ofNat n = [n.digitChar] := Nat.toDigits_of_lt_base h

theorem eq_zero_of_head?_ofNat {n : ℕ} (h : (ofNat n).head? = some '0') : n = 0 := by
  have hdigits : ∀ m < 10, m.digitChar = '0' → m = 0 := by decide
  induction n using Nat.strongRecOn with
  | ind n ih =>
  by_cases hlt : n < 10
  · rw [ofNat_of_lt hlt] at h
    exact hdigits n hlt (Option.some.inj h)
  · have hpos : 0 < n / 10 := by omega
    have hsplit : ofNat (n / 10) ++ ofNat (n % 10) = ofNat n := by
      have happend := Nat.toDigits_append_toDigits (b := 10) (by decide) hpos
        (Nat.mod_lt n (by decide))
      rw [Nat.div_add_mod] at happend
      exact happend
    obtain ⟨d, ds, hcons⟩ := List.exists_cons_of_ne_nil (ofNat_ne_nil (n / 10))
    have hhead : (ofNat (n / 10)).head? = some '0' := by
      rw [← hsplit, hcons] at h
      rw [hcons]
      exact h
    have hzero := ih (n / 10) (by omega) hhead
    omega

theorem getLast?_dropZerosEnd (ds : List Char) : (dropZerosEnd ds).getLast? ≠ some '0' := by
  rw [dropZerosEnd, List.getLast?_reverse]
  intro h
  have hnot := List.head?_dropWhile_not (· = '0') ds.reverse
  rw [h] at hnot
  exact absurd hnot (by decide)

theorem fractionDigits_eq_nil_iff {places : ℕ} (hp : 0 < places) (x : ℕ) :
    fractionDigits places x = [] ↔ 10 ^ places ∣ x := by
  rw [Nat.dvd_iff_mod_eq_zero]
  constructor
  · intro hnil
    obtain ⟨-, k, -, hvalue⟩ := fractionDigits_spec hp x
    rw [hnil] at hvalue
    rw [← hvalue]
    exact Nat.zero_mul _
  · intro hzero
    have hzeros : ∀ c ∈ (padStart places (ofNat 0)).reverse, decide (c = '0') = true := by
      intro c hc
      rcases List.mem_append.mp (List.mem_reverse.mp hc) with hc | hc
      · exact decide_eq_true (List.mem_replicate.mp hc).2
      · exact decide_eq_true (List.mem_singleton.mp hc)
    rw [fractionDigits, hzero, dropZerosEnd, List.dropWhile_eq_nil_iff.mpr hzeros]
    rfl

theorem positional_eq (places x : ℕ) : positional places x = ofNat (x / 10 ^ places) ++
    if fractionDigits places x = [] then [] else '.' :: fractionDigits places x := by
  unfold positional
  cases fractionDigits places x with
  | nil => exact (List.append_nil _).symm
  | cons d ds => rfl

theorem isCanonical_positional {places : ℕ} (hp : 0 < places) (x : ℕ) :
    IsCanonical (ofNat (x / 10 ^ places)) (fractionDigits places x) (positional places x) where
  eq := positional_eq places x
  isDigit := List.forall_mem_append.mpr ⟨ofNat_isDigit _, (fractionDigits_spec hp x).1⟩
  whole_ne_nil := ofNat_ne_nil _
  leading := fun h => by rw [eq_zero_of_head?_ofNat h]; rfl
  trailing := getLast?_dropZerosEnd _

theorem isCanonical_ofNat (n : ℕ) : IsCanonical (ofNat n) [] (ofNat n) where
  eq := (List.append_nil _).symm
  isDigit := by rw [List.append_nil]; exact ofNat_isDigit n
  whole_ne_nil := ofNat_ne_nil n
  leading := fun h => by rw [eq_zero_of_head?_ofNat h]; rfl
  trailing := nofun

end Numeral

/-! ## Neighbours on a grid -/

theorem dvd_of_neighbour? {accept : ℕ → Bool} {x step y : ℕ}
    (h : neighbour? accept x step = some y) : step ∣ y := by
  have hlow : step ∣ x / step * step := Nat.dvd_mul_left step _
  have hhigh : step ∣ x / step * step + step := Nat.dvd_add hlow (Nat.dvd_refl step)
  unfold neighbour? at h
  dsimp only at h
  split at h
  · rw [← Option.some.inj h]
    split
    · exact hlow
    · exact hhigh
  · rwa [← Option.some.inj h]
  · rwa [← Option.some.inj h]
  · exact nomatch h

theorem isSome_neighbour? {accept : ℕ → Bool} {x step : ℕ} (hdvd : step ∣ x) (h : accept x) :
    (neighbour? accept x step).isSome := by
  unfold neighbour?
  rw [Nat.div_mul_cancel hdvd]
  dsimp only
  rw [h]
  cases accept (x + step) <;> rfl

theorem exists_le_of_findSome?_range {α : Type} {f : ℕ → Option α} {n i : ℕ} (hi : i < n)
    (h : (f i).isSome) : ∃ j ≤ i, ∃ y, f j = some y ∧ (List.range n).findSome? f = some y := by
  have hsplit : List.range (i + 1) ++ (List.range n).drop (i + 1) = List.range n := by
    have htake : List.range (i + 1) = (List.range n).take (i + 1) := by
      rw [List.take_range, Nat.min_eq_left hi]
    rw [htake, List.take_append_drop]
  cases hfirst : (List.range (i + 1)).findSome? f with
  | none =>
    rw [List.findSome?_eq_none_iff.mp hfirst i List.self_mem_range_succ] at h
    exact nomatch h
  | some y =>
    obtain ⟨j, hj, hy⟩ := List.exists_of_findSome?_eq_some hfirst
    refine ⟨j, Nat.lt_succ_iff.mp (List.mem_range.mp hj), y, hy, ?_⟩
    rw [← hsplit, List.findSome?_append, hfirst]
    rfl

namespace Magnitude

/-! ## Whole numbers -/

/-- Multiples of a power of two are rounded to multiples of it. -/
theorem dvd_units_of_ofRatio? {n k : ℕ} {a : Magnitude} (h : ofRatio? n 1 = some a)
    (hdvd : 2 ^ k ∣ n) : 2 ^ k ∣ a.units := by
  obtain ⟨hunits, -⟩ := ofRatio?_eq_some h
  rw [Nat.div_one] at hunits
  rcases Nat.le_total k (exponentFor n) with hle | hle
  · rw [hunits]
    exact Nat.dvd_mul_left_of_dvd (Nat.pow_dvd_pow 2 hle) _
  · -- the number itself is a multiple of the power that it is rounded to
    obtain ⟨m, hm⟩ := Nat.dvd_trans (Nat.pow_dvd_pow 2 hle) hdvd
    have hexact : significandFor n 1 = m := by
      rw [significandFor, Nat.div_one, Nat.one_mul]
      generalize exponentFor n = e at hm
      rw [hm, Nat.mul_comm]
      exact nearest_mul (Nat.two_pow_pos e) m
    rw [hunits, hexact, Nat.mul_comm, ← hm]
    exact hdvd

theorem dvd_units_of_decimal {x k : ℕ} {a : Magnitude} (h : ofRatio? x (5 ^ k) = some a)
    (hdvd : 10 ^ k ∣ x) : 2 ^ k ∣ a.units := by
  obtain ⟨m, rfl⟩ := hdvd
  have hratio : 10 ^ k * m = 2 ^ k * m * 5 ^ k := by
    rw [Nat.mul_right_comm, ← Nat.mul_pow]
  have hwhole := ofRatio?_mul_mul (2 ^ k * m) 1 (Nat.pow_pos (n := k) (by decide : 0 < 5))
  rw [Nat.one_mul, ← hratio, h] at hwhole
  exact dvd_units_of_ofRatio? hwhole.symm (Nat.dvd_mul_right _ _)

theorem pow_dvd_shortest {a : Magnitude} {k : ℕ} (hk : 0 < k) (ha : a.scaled ≠ 0)
    (hdvd : 10 ^ k ∣ a.scaled) : 10 ^ k ∣ a.shortest := by
  set count := (Numeral.ofNat a.scaled).length with hcount
  have hlt : k < count := by
    rw [← Nat.not_le, hcount, Numeral.ofNat, Nat.length_toDigits_le_iff (by decide) hk, Nat.not_lt]
    exact Nat.le_of_dvd (Nat.pos_of_ne_zero ha) hdvd
  let grid (i : ℕ) : Option ℕ := a.onGrid? (count - 1 - i)
  have hgrid : (grid (count - 1 - k)).isSome := by
    have hk : count - 1 - (count - 1 - k) = k := by omega
    unfold grid
    rw [hk]
    exact isSome_neighbour? hdvd a.readsBack_scaled
  have hindex : count - 1 - k < count := by omega
  obtain ⟨j, hj, y, hy, hfind⟩ := exists_le_of_findSome?_range hindex hgrid
  have hshortest : a.shortest = y := by
    rw [shortest, ← hcount, hfind]
    rfl
  rw [hshortest]
  exact Nat.dvd_trans (Nat.pow_dvd_pow 10 (by omega)) (dvd_of_neighbour? hy)

/-- The shortest decimal is a whole number exactly if the magnitude is one. -/
theorem dvd_shortest_iff {a : Magnitude} (ha : a.units ≠ 0) :
    10 ^ exactPlaces ∣ a.shortest ↔ unitsPerOne ∣ a.units := by
  have hfive : 0 < 5 ^ exactPlaces := Nat.pow_pos (by decide)
  have hten : ∀ k, 10 ^ k = 2 ^ k * 5 ^ k := Nat.mul_pow 2 5
  rw [unitsPerOne_eq]
  constructor
  · exact dvd_units_of_decimal (readsBack_iff.mp a.readsBack_shortest)
  · intro hdvd
    refine pow_dvd_shortest (by decide) (Nat.mul_ne_zero ha hfive.ne') ?_
    rw [hten]
    exact Nat.mul_dvd_mul_right hdvd _

/-- **The digits of a magnitude have no superfluous zero.** -/
theorem exists_isCanonical_digits (a : Magnitude) : ∃ whole fraction,
    Numeral.IsCanonical whole fraction a.digits ∧ (fraction = [] ↔ unitsPerOne ∣ a.units) := by
  unfold digits
  split
  · next h =>
    exact ⟨_, [], Numeral.isCanonical_ofNat _, iff_of_true rfl (Nat.dvd_of_mod_eq_zero h.1)⟩
  · next h =>
    have hne : a.units ≠ 0 := by
      intro hzero
      rw [hzero, Nat.zero_mod, Nat.zero_div] at h
      exact h ⟨rfl, by decide⟩
    refine ⟨_, _, Numeral.isCanonical_positional (by decide) _, ?_⟩
    rw [Numeral.fractionDigits_eq_nil_iff (by decide), dvd_shortest_iff hne]

theorem digits_of_units_eq {a : Magnitude} {n : ℕ} (h : a.units = n * unitsPerOne)
    (hlt : n < 2 ^ 63) : a.digits = Numeral.ofNat n := by
  unfold digits
  rw [h, Nat.mul_mod_left, Nat.mul_div_cancel _ unitsPerOne_pos, if_pos ⟨rfl, hlt⟩]

end Magnitude

/-! ## Numbers with a sign -/

theorem Magnitude.eq_zero {a : Magnitude} (h : a.significand = 0) : a = zero := by
  apply units_injective
  rw [units_eq_zero h, units_eq_zero rfl]

/-- The number of the other sign. -/
def Binary64.neg : Binary64 → Binary64
  | nan => nan
  | infinity negative => infinity !negative
  | finite negative a => finite (!negative) a

/-- The number that a numeral denotes which may have a `-` in front. -/
def Numeral.readSigned? : List Char → Option Binary64
  | '-' :: cs => (read? cs).map Binary64.neg
  | cs => read? cs

theorem Numeral.readSigned?_of_notMem {cs : List Char} (h : '-' ∉ cs) :
    readSigned? cs = read? cs := by
  unfold readSigned?
  split
  · exact absurd List.mem_cons_self h
  · rfl

namespace Binary64

theorem value_finite_lt_zero_iff {s : Bool} {a : Magnitude} :
    (finite s a).value < 0 ↔ s = true ∧ a.significand ≠ 0 := by
  have hpos := a.value_nonneg
  cases s with
  | false => simpa using hpos
  | true =>
    rw [value_finite_true, neg_lt_zero, hpos.lt_iff_ne', Ne, Magnitude.value_eq_zero]
    simp

theorem units_of_value_eq {s : Bool} {a : Magnitude} {i : ℤ} (h : (finite s a).value = i) :
    a.units = i.natAbs * unitsPerOne := by
  have hvalue : a.value = i.natAbs := by
    rw [← abs_value_finite s a, h, ← Int.cast_abs, Int.abs_eq_natAbs, Int.cast_natCast]
  rw [Magnitude.value, div_eq_iff cast_unitsPerOne_pos.ne'] at hvalue
  exact_mod_cast hvalue

theorem exists_value_eq_iff {s : Bool} {a : Magnitude} :
    (∃ i : ℤ, (finite s a).value = i) ↔ unitsPerOne ∣ a.units := by
  constructor
  · rintro ⟨i, hi⟩
    exact ⟨i.natAbs, by rw [units_of_value_eq hi, Nat.mul_comm]⟩
  · rintro ⟨n, hn⟩
    have hvalue : a.value = n := by
      rw [Magnitude.value, hn, Nat.cast_mul, mul_div_cancel_left₀ _ cast_unitsPerOne_pos.ne']
    cases s with
    | false => exact ⟨n, by rw [value_finite_false, hvalue, Int.cast_natCast]⟩
    | true => exact ⟨-n, by rw [value_finite_true, hvalue, Int.cast_neg, Int.cast_natCast]⟩

theorem toList_text_finite (s : Bool) (a : Magnitude) : (finite s a).text.toList =
    signText (decide ((finite s a).value < 0)) ++ a.digits := by
  simp only [text, value_finite_lt_zero_iff, String.toList_ofList, signText]
  split <;> simp_all

theorem minus_notMem_digits (a : Magnitude) : '-' ∉ a.digits := fun h => by
  rcases a.isPlain_digits.isDigit_or _ h with hdigit | hpoint
  · exact absurd hdigit (by decide)
  · exact absurd hpoint (by decide)

/-- The number, without the sign of a zero. -/
def withoutZeroSign (v : Binary64) : Binary64 := if v.isZero then zero else v

theorem readSigned?_text {v : Binary64} (h : v.IsFinite) :
    Numeral.readSigned? v.text.toList = some v.withoutZeroSign := by
  cases v with
  | nan | infinity => exact h.elim
  | finite s a =>
    rw [toList_text_finite, withoutZeroSign]
    by_cases hneg : (finite s a).value < 0
    · obtain ⟨rfl, hne⟩ := value_finite_lt_zero_iff.mp hneg
      have hzero : (finite true a).isZero = false := decide_eq_false hne
      rw [decide_eq_true hneg, hzero]
      exact congrArg (Option.map neg) a.read?_digits
    · rw [decide_eq_false hneg]
      refine (Numeral.readSigned?_of_notMem (minus_notMem_digits a)).trans (a.read?_digits.trans ?_)
      by_cases hzero : a.significand = 0
      · have hisZero : (finite s a).isZero = true := decide_eq_true hzero
        rw [if_pos hisZero, zero, Magnitude.eq_zero hzero]
      · have hs : s = false := by
          cases s
          · rfl
          · exact absurd (value_finite_lt_zero_iff.mpr ⟨rfl, hzero⟩) hneg
        rw [hs, if_neg]
        exact fun hz => hzero (of_decide_eq_true hz)

theorem text_eq_zero_iff {v : Binary64} (h : v.IsFinite) : v.text = "0" ↔ v.isZero := by
  cases v with
  | nan | infinity => exact h.elim
  | finite s a =>
    rw [← String.toList_inj, toList_text_finite]
    change signText _ ++ a.digits = ['0'] ↔ decide (a.significand = 0) = true
    rw [decide_eq_true_iff]
    by_cases hneg : (finite s a).value < 0
    · rw [decide_eq_true hneg]
      refine iff_of_false ?_ (value_finite_lt_zero_iff.mp hneg).2
      exact fun heq => absurd (List.cons.inj heq).1 (by decide)
    · rw [decide_eq_false hneg]
      refine ⟨Magnitude.significand_eq_zero_of_digits, fun hzero => ?_⟩
      exact (congrArg Magnitude.digits (Magnitude.eq_zero hzero)).trans Magnitude.digits_zero

theorem toList_text_whole {v : Binary64} (h : v.IsFinite) {i : ℤ} (hi : v.value = i)
    (hlt : |i| < 2 ^ 63) : v.text.toList = Numeral.ofInt i := by
  cases v with
  | nan | infinity => exact h.elim
  | finite s a =>
    have hnat : i.natAbs < 2 ^ 63 := by
      rw [abs_lt] at hlt
      omega
    rw [toList_text_finite, Magnitude.digits_of_units_eq (units_of_value_eq hi) hnat, hi,
      Numeral.ofInt]
    have hsign : ((i : ℚ) < 0) ↔ i < 0 := Int.cast_lt_zero
    by_cases hneg : i < 0
    · rw [decide_eq_true (hsign.mpr hneg), if_pos hneg]
      rfl
    · rw [decide_eq_false (mt hsign.mp hneg), if_neg hneg]
      rfl

/-- **The text of a finite number says which number it is.** It is a canonical decimal that reads as
the number, but for the sign of a zero. -/
theorem text_faithful {v : Binary64} (h : v.IsFinite) :
    (∃ whole fraction digits, Numeral.IsCanonical whole fraction digits ∧
      v.text.toList = signText (decide (v.value < 0)) ++ digits ∧
      (fraction ≠ [] ↔ ¬ ∃ i : ℤ, v.value = i)) ∧
    Numeral.readSigned? v.text.toList = some v.withoutZeroSign ∧
    (v.text = "0" ↔ v.isZero) ∧
    (∀ i : ℤ, v.value = i → |i| < 2 ^ 63 → v.text.toList = Numeral.ofInt i ∧
      Int64.minValue.toInt ≤ i ∧ i ≤ Int64.maxValue.toInt) ∧
    ∀ w : Binary64, w.IsFinite → w.text = v.text → w = v ∨ w.isZero ∧ v.isZero := by
  refine ⟨?_, readSigned?_text h, text_eq_zero_iff h, fun i hi hlt => ?_, fun w hw htext => ?_⟩
  · cases v with
    | nan | infinity => exact h.elim
    | finite s a =>
      obtain ⟨whole, fraction, hcanonical, hfraction⟩ := a.exists_isCanonical_digits
      refine ⟨whole, fraction, a.digits, hcanonical, toList_text_finite s a, ?_⟩
      rw [exists_value_eq_iff, ← hfraction]
  · have hmin : Int64.minValue.toInt = -2 ^ 63 := rfl
    have hmax : Int64.maxValue.toInt = 2 ^ 63 - 1 := rfl
    rw [abs_lt] at hlt
    refine ⟨toList_text_whole h hi (abs_lt.mpr hlt), ?_⟩
    omega
  · have hread := readSigned?_text hw
    rw [htext, readSigned?_text h] at hread
    have hsame := Option.some.inj hread
    have hzero : w.isZero ↔ v.isZero := by
      rw [← text_eq_zero_iff hw, ← text_eq_zero_iff h, htext]
    unfold withoutZeroSign at hsame
    by_cases hw0 : w.isZero
    · exact .inr ⟨hw0, hzero.mp hw0⟩
    · rw [if_neg hw0, if_neg (mt hzero.mpr hw0)] at hsame
      exact .inl hsame.symm

theorem text_faithful_negOne : negOne.IsFinite ∧ negOne.value = (-1 : ℤ) ∧
    negOne.text.toList = ['-', '1'] ∧ Numeral.readSigned? ['-', '1'] = some negOne := by
  have hfinite : negOne.IsFinite := trivial
  have hvalue : negOne.value = (-1 : ℤ) := by
    rw [negOne, value_finite_true, Magnitude.value_one, Int.cast_neg, Int.cast_one]
  obtain ⟨-, hread, -, hwhole, -⟩ := text_faithful hfinite
  have htext : negOne.text.toList = ['-', '1'] := (hwhole (-1) hvalue (by decide)).1
  rw [htext] at hread
  exact ⟨hfinite, hvalue, htext, hread⟩

end Binary64

end Fluxion
