import Fluxion.Proofs.Number.Exact
import Mathlib.Algebra.Order.Ring.Int
import Mathlib.Tactic.Linarith
import Mathlib.Tactic.Ring
import Mathlib.Tactic.Zify

/-!
# Correct rounding

A ratio is rounded to the nearest number of the format, a tie to the even significand, and to
infinity from halfway beyond the largest magnitude on.

* `Magnitude.Nearest`: what nearest means, without any rounding function.
* `Binary64.Rounds`: the same with infinity.
* `Magnitude.ofRatio?_nearest`, `Magnitude.ofRatio?_eq_none_iff`: the two outcomes of rounding.
* `Magnitude.Nearest.eq`: no value has two nearest magnitudes.
* **`Binary64.rounds_iff`**: `ofRatio` rounds correctly, and nothing else is a correct rounding.
-/

namespace Fluxion

/-! ## The nearest natural number -/

theorem two_mul_abs_nearest {n d : ℕ} (hd : 0 < d) :
    2 * |(nearest n d * d : ℤ) - n| < d ∨
      2 * |(nearest n d * d : ℤ) - n| = d ∧ nearest n d % 2 = 0 := by
  have hn : (n : ℤ) = (n / d : ℕ) * d + (n % d : ℕ) := by
    exact_mod_cast (Nat.div_add_mod' n d).symm
  have hlt : n % d < d := Nat.mod_lt n hd
  unfold nearest
  split
  · next h =>
    have hdist : |((n / d : ℕ) * d : ℤ) - n| = (n % d : ℕ) := by
      rw [abs_sub_comm, hn, add_sub_cancel_left, Nat.abs_cast]
    rw [hdist]
    omega
  · next h =>
    have hdist : |((n / d + 1 : ℕ) * d : ℤ) - n| = d - (n % d : ℕ) := by
      have hsub : ((n / d + 1 : ℕ) * d : ℤ) - n = d - (n % d : ℕ) := by
        rw [Nat.cast_succ, add_mul, one_mul]
        omega
      rw [hsub, abs_of_nonneg (by omega)]
    rw [hdist]
    omega

theorem le_abs_add_abs {d : ℕ} (n : ℕ) {k m : ℤ} (h : k ≠ m) :
    (d : ℤ) ≤ |k * d - n| + |m * d - n| := by
  have hone : 1 ≤ |k - m| := Int.one_le_abs (sub_ne_zero.mpr h)
  have hsplit : (k - m) * d = (k * d - n) - (m * d - n) := by ring
  calc (d : ℤ) ≤ |k - m| * d := le_mul_of_one_le_left (Int.natCast_nonneg _) hone
    _ = |(k * d - n) - (m * d - n)| := by rw [← hsplit, abs_mul, Nat.abs_cast]
    _ ≤ |k * d - n| + |m * d - n| := abs_sub _ _

theorem abs_nearest_le {n d : ℕ} (hd : 0 < d) (k : ℤ) :
    |(nearest n d * d : ℤ) - n| ≤ |k * d - n| := by
  by_cases hk : k = nearest n d
  · rw [hk]
  · have hhalf := two_mul_abs_nearest (n := n) hd
    have hsum := le_abs_add_abs (d := d) n hk
    omega

namespace Magnitude

/-! ## The grid of a power of two -/

theorem two_pow_carry (e : ℕ) : 2 ^ 52 * 2 ^ (e + 1) = 2 ^ 53 * 2 ^ e := by
  rw [Nat.pow_succ']
  omega

/-- A magnitude is a multiple of a power of two, unless it is small. -/
theorem units_grid (b : Magnitude) (e : ℕ) :
    (∃ k, b.units = k * 2 ^ e) ∨ (0 < e ∧ b.units < 2 ^ 52 * 2 ^ e) := by
  rcases Nat.lt_or_ge b.exponent e with h | h
  · refine .inr ⟨Nat.zero_lt_of_lt h, ?_⟩
    calc b.units < 2 ^ 53 * 2 ^ b.exponent :=
          Nat.mul_lt_mul_of_pos_right b.significand_lt (Nat.two_pow_pos _)
      _ = 2 ^ 52 * 2 ^ (b.exponent + 1) := (two_pow_carry _).symm
      _ ≤ 2 ^ 52 * 2 ^ e := Nat.mul_le_mul_left _ (Nat.pow_le_pow_right (by decide) h)
  · refine .inl ⟨b.significand * 2 ^ (b.exponent - e), ?_⟩
    rw [units, Nat.mul_assoc, ← Nat.pow_add, Nat.sub_add_cancel h]

theorem exists_between {a b : Magnitude} (ha : a.significand % 2 = 0) (hb : b.significand % 2 = 0)
    (h : a.units < b.units) : ∃ c : Magnitude, a.units < c.units ∧ c.units < b.units := by
  have hlt := a.significand_lt
  let c : Magnitude := ⟨a.significand + 1, a.exponent, by omega,
    a.normal.imp_right fun h => Nat.le_succ_of_le h, a.exponent_le⟩
  have hpos : 0 < 2 ^ a.exponent := Nat.two_pow_pos _
  refine ⟨c, Nat.mul_lt_mul_of_pos_right (Nat.lt_succ_self _) hpos, ?_⟩
  by_contra hcb
  have hbc : b.units ≤ (a.significand + 1) * 2 ^ a.exponent := Nat.le_of_not_lt hcb
  rcases b.units_grid a.exponent with ⟨k, hk⟩ | ⟨he, hsmall⟩
  · rw [hk] at hbc
    rw [hk, units] at h
    have h1 : a.significand < k := Nat.lt_of_mul_lt_mul_right h
    have h2 : k ≤ a.significand + 1 := Nat.le_of_mul_le_mul_right hbc hpos
    have hbeq : b = c := units_injective (by rw [hk, show k = a.significand + 1 by omega]; rfl)
    have hodd : b.significand = a.significand + 1 := congrArg significand hbeq
    omega
  · have hs := a.normal.resolve_left he.ne'
    have : 2 ^ 52 * 2 ^ a.exponent ≤ a.units := Nat.mul_le_mul_right _ hs
    omega

/-! ## Rounding to a magnitude -/

/-- The rounded value is the multiple nearest to the ratio, of two the even one. -/
theorem ofRatio?_eq_some {n d : ℕ} {a : Magnitude} (h : ofRatio? n d = some a) :
    a.units = significandFor n d * 2 ^ exponentFor (n / d) ∧
      (significandFor n d % 2 = 0 → a.significand % 2 = 0) := by
  unfold ofRatio? at h
  split at h
  · split at h
    · obtain rfl := Option.some.inj h
      exact ⟨rfl, id⟩
    · simp at h
  · next hs =>
    split at h
    · obtain rfl := Option.some.inj h
      have hcarry : significandFor n d = 2 ^ 53 := by
        have := significandFor_le n d
        omega
      refine ⟨?_, fun _ => ?_⟩
      · rw [hcarry]
        exact two_pow_carry _
      · change 2 ^ 52 % 2 = 0
        decide
    · simp at h

theorem mul_le_of_exponentFor_pos {n d : ℕ} (h : 0 < exponentFor (n / d)) :
    2 ^ 52 * (d * 2 ^ exponentFor (n / d)) ≤ n := by
  have hdiv := (div_exponentFor (n / d)).2.resolve_left h.ne'
  rw [Nat.div_div_eq_div_mul] at hdiv
  exact Nat.mul_le_of_le_div _ _ _ hdiv

theorem lt_mul_exponentFor {n d : ℕ} (hd : 0 < d) :
    n < 2 ^ 53 * (d * 2 ^ exponentFor (n / d)) := by
  have hdiv := (div_exponentFor (n / d)).1
  rw [Nat.div_div_eq_div_mul] at hdiv
  exact (Nat.div_lt_iff_lt_mul (Nat.mul_pos hd (Nat.two_pow_pos _))).mp hdiv

theorem abs_units_sub_le {n d : ℕ} (hd : 0 < d) {a : Magnitude} (h : ofRatio? n d = some a)
    (b : Magnitude) :
    |(a.units * d : ℤ) - n| ≤ |(b.units * d : ℤ) - n| ∧
      (b ≠ a → |(b.units * d : ℤ) - n| = |(a.units * d : ℤ) - n| → a.significand % 2 = 0) := by
  obtain ⟨hunits, heven⟩ := ofRatio?_eq_some h
  set e := exponentFor (n / d)
  have hD : 0 < d * 2 ^ e := Nat.mul_pos hd (Nat.two_pow_pos _)
  have hhalf := two_mul_abs_nearest (n := n) hD
  have ha : (a.units * d : ℤ) = nearest n (d * 2 ^ e) * (d * 2 ^ e : ℕ) := by
    rw [hunits, significandFor]; push_cast; ring
  rw [ha]
  rcases b.units_grid e with ⟨k, hk⟩ | ⟨he, hsmall⟩
  · have hb : (b.units * d : ℤ) = k * (d * 2 ^ e : ℕ) := by rw [hk]; push_cast; ring
    rw [hb]
    refine ⟨abs_nearest_le hD _, fun hba htie => heven ?_⟩
    have hne : (k : ℤ) ≠ nearest n (d * 2 ^ e) := fun hkm =>
      hba (units_injective (by rw [hk, hunits, Nat.cast_injective hkm]; rfl))
    have hsum := le_abs_add_abs (d := d * 2 ^ e) n hne
    exact (hhalf.resolve_left (by omega)).2
  · -- `2 ^ 52` multiples of the power of two lie between the small magnitude and the ratio
    have hle : ((2 ^ 52 : ℕ) * (d * 2 ^ e : ℕ) : ℤ) ≤ n := by
      exact_mod_cast mul_le_of_exponentFor_pos he
    have hlt : (b.units * d : ℤ) < (2 ^ 52 : ℕ) * (d * 2 ^ e : ℕ) := by
      have := Nat.mul_lt_mul_of_pos_right hsmall hd
      rw [Nat.mul_assoc, Nat.mul_comm (2 ^ e)] at this
      exact_mod_cast this
    have hfar := abs_nearest_le (n := n) hD (2 ^ 52 : ℕ)
    rw [abs_sub_comm _ (n : ℤ), abs_sub_comm _ (n : ℤ), abs_of_nonneg (sub_nonneg.mpr hle)] at hfar
    rw [abs_sub_comm _ (n : ℤ), abs_sub_comm _ (n : ℤ),
      abs_of_nonneg (sub_nonneg.mpr (hlt.le.trans hle))]
    have hnear := hfar.trans_lt (sub_lt_sub_left hlt _)
    exact ⟨hnear.le, fun _ htie => absurd htie hnear.ne'⟩

/-! ## The nearest magnitude -/

/-- No magnitude is nearer to the value, and none is as near unless the significand is even. -/
structure Nearest (q : ℚ) (a : Magnitude) : Prop where
  le : ∀ b : Magnitude, |a.value - q| ≤ |b.value - q|
  even : ∀ b : Magnitude, b ≠ a → |b.value - q| = |a.value - q| → a.significand % 2 = 0

theorem abs_value_sub (a : Magnitude) (n : ℕ) {d : ℕ} (hd : 0 < d) :
    |a.value - n / (d * unitsPerOne)| * (d * unitsPerOne) =
      ((|(a.units * d : ℤ) - n| : ℤ) : ℚ) := by
  have hd' : (0 : ℚ) < d := Nat.cast_pos.mpr hd
  have hpos : (0 : ℚ) < d * unitsPerOne := mul_pos hd' cast_unitsPerOne_pos
  have ha : a.value * (d * unitsPerOne) = a.units * d := by
    rw [value, mul_comm (d : ℚ), ← mul_assoc, div_mul_cancel₀ _ cast_unitsPerOne_pos.ne']
  conv_lhs => rw [← abs_of_pos hpos, ← abs_mul, abs_of_pos hpos]
  rw [sub_mul, ha, div_mul_cancel₀ _ hpos.ne']
  push_cast
  rfl

/-- **The rounded magnitude is the nearest one.** -/
theorem ofRatio?_nearest {n d : ℕ} (hd : 0 < d) {a : Magnitude} (h : ofRatio? n d = some a) :
    Nearest (n / (d * unitsPerOne)) a := by
  have hpos : (0 : ℚ) < d * unitsPerOne := mul_pos (Nat.cast_pos.mpr hd) cast_unitsPerOne_pos
  constructor
  · intro b
    refine le_of_mul_le_mul_right ?_ hpos
    rw [abs_value_sub a n hd, abs_value_sub b n hd]
    exact_mod_cast (abs_units_sub_le hd h b).1
  · intro b hba htie
    refine (abs_units_sub_le hd h b).2 hba ?_
    have := congrArg (· * ((d : ℚ) * unitsPerOne)) htie
    simp only [abs_value_sub a n hd, abs_value_sub b n hd] at this
    exact_mod_cast this

theorem value_lt_value {a b : Magnitude} : a.value < b.value ↔ a.units < b.units := by
  unfold value
  rw [div_lt_div_iff_of_pos_right cast_unitsPerOne_pos, Nat.cast_lt]

theorem Nearest.not_units_lt {q : ℚ} {a b : Magnitude} (ha : Nearest q a) (hb : Nearest q b) :
    ¬ a.units < b.units := fun hlt => by
  have hne : b ≠ a := fun h => hlt.ne (congrArg units h.symm)
  have htie : |a.value - q| = |b.value - q| := le_antisymm (ha.le b) (hb.le a)
  obtain ⟨c, hac, hcb⟩ :=
    exists_between (ha.even b hne htie.symm) (hb.even a hne.symm htie) hlt
  have hc := ha.le c
  rw [← value_lt_value] at hlt hac hcb
  -- the value lies halfway between the two, and the third one is nearer
  rcases abs_eq_abs.mp htie with h | h
  · linarith
  · rw [abs_of_neg (by linarith : a.value - q < 0)] at hc
    have : |c.value - q| < -(a.value - q) := abs_lt.mpr ⟨by linarith, by linarith⟩
    linarith

/-- **No value has two nearest magnitudes.** -/
theorem Nearest.eq {q : ℚ} {a b : Magnitude} (ha : Nearest q a) (hb : Nearest q b) : a = b :=
  units_injective (le_antisymm (Nat.le_of_not_lt (hb.not_units_lt ha))
    (Nat.le_of_not_lt (ha.not_units_lt hb)))

/-! ## Overflow -/

theorem ofRatio?_eq_none {n d : ℕ} : ofRatio? n d = none ↔
    2045 < exponentFor (n / d) ∨ (exponentFor (n / d) = 2045 ∧ significandFor n d = 2 ^ 53) := by
  have hle := significandFor_le n d
  unfold ofRatio?
  split
  · split
    · simp only [reduceCtorEq, false_iff]
      omega
    · simp only [true_iff]
      omega
  · split
    · simp only [reduceCtorEq, false_iff]
      omega
    · simp only [true_iff]
      omega

theorem nearest_eq_carry {n p : ℕ} (hp : 0 < p) (hlt : nearest n (2 * p) ≤ 2 ^ 53) :
    nearest n (2 * p) = 2 ^ 53 ↔ (2 ^ 54 - 1) * p ≤ n := by
  have hhalf := two_mul_abs_nearest (n := n) (Nat.mul_pos Nat.two_pos hp)
  generalize nearest n (2 * p) = m at *
  push_cast at hhalf
  constructor
  · rintro rfl
    have := le_abs_self (((2 ^ 53 : ℕ) * (2 * p) : ℤ) - n)
    push_cast at this hhalf
    omega
  · intro hle
    by_contra hne
    have habs := neg_abs_le ((m * (2 * p) : ℤ) - n)
    have hm : m = 2 ^ 53 - 1 ∨ m ≤ 2 ^ 53 - 2 := by omega
    rcases hm with rfl | hm
    · rcases hhalf with hhalf | ⟨-, heven⟩
      · push_cast at habs hhalf
        omega
      · omega
    · have hmp : (m : ℤ) * (2 * p) ≤ ((2 ^ 53 - 2 : ℕ) : ℤ) * (2 * p) :=
        mul_le_mul_of_nonneg_right (by exact_mod_cast hm) (by omega)
      push_cast at hmp
      omega

theorem mul_two_pow_add (d : ℕ) {e k i : ℕ} (h : e = k + i) : d * 2 ^ e = 2 ^ i * (d * 2 ^ k) := by
  rw [h, Nat.pow_add]
  ring

/-- Values from halfway beyond the largest magnitude on are too large. -/
theorem ofRatio?_eq_none_iff {n d : ℕ} (hd : 0 < d) :
    ofRatio? n d = none ↔ (2 ^ 54 - 1) * (d * 2 ^ 2044) ≤ n := by
  rw [ofRatio?_eq_none]
  have hp : 0 < d * 2 ^ 2044 := Nat.mul_pos hd (Nat.two_pow_pos 2044)
  rcases Nat.lt_trichotomy (exponentFor (n / d)) 2045 with he | he | he
  · -- below the largest exponent the ratio is too small
    have hlt := lt_mul_exponentFor (n := n) hd
    have hmono : d * 2 ^ exponentFor (n / d) ≤ d * 2 ^ 2044 :=
      Nat.mul_le_mul_left _ (Nat.pow_le_pow_right Nat.two_pos (Nat.le_of_lt_succ he))
    generalize d * 2 ^ 2044 = p at *
    omega
  · have hD : d * 2 ^ exponentFor (n / d) = 2 ^ 1 * (d * 2 ^ 2044) := mul_two_pow_add d he
    have hle := significandFor_le n d
    unfold significandFor at hle ⊢
    rw [hD, pow_one] at hle ⊢
    rw [nearest_eq_carry hp hle]
    omega
  · have hle := mul_le_of_exponentFor_pos (n := n) (d := d) (by omega)
    have hmono : d * 2 ^ 2046 ≤ d * 2 ^ exponentFor (n / d) :=
      Nat.mul_le_mul_left _ (Nat.pow_le_pow_right Nat.two_pos he)
    have hD : d * 2 ^ 2046 = 2 ^ 2 * (d * 2 ^ 2044) := mul_two_pow_add d rfl
    generalize d * 2 ^ 2044 = p at *
    omega

end Magnitude

namespace Binary64

/-- Halfway between the largest magnitude and `2 ^ 1024`. -/
def overflow : ℚ := (2 ^ 54 - 1) * 2 ^ 970

/-- The number is the nearest magnitude, or infinity if the value is too large. -/
def Rounds (q : ℚ) (v : Binary64) : Prop :=
  (q < overflow ∧ ∃ a, v = finite false a ∧ a.Nearest q) ∨ (overflow ≤ q ∧ v = infinity false)

theorem overflow_le_iff {n d : ℕ} (hd : 0 < d) :
    overflow ≤ n / (d * unitsPerOne) ↔ Magnitude.ofRatio? n d = none := by
  have hpos : (0 : ℚ) < d * unitsPerOne := mul_pos (Nat.cast_pos.mpr hd) cast_unitsPerOne_pos
  have hunits : overflow * (d * unitsPerOne) = (2 ^ 54 - 1) * (d * 2 ^ 2044) := by
    have hpow : (2 : ℚ) ^ 970 * unitsPerOne = 2 ^ 2044 := by
      rw [cast_unitsPerOne]
      exact (pow_add 2 970 1074).symm
    rw [overflow, ← hpow, mul_assoc, mul_left_comm (2 ^ 970 : ℚ)]
  have hcast : (((2 ^ 54 - 1) * (d * 2 ^ 2044) : ℕ) : ℚ) = (2 ^ 54 - 1) * (d * 2 ^ 2044) := by
    rw [Nat.cast_mul, Nat.cast_mul, Nat.cast_pow, Nat.cast_ofNat]
    norm_num only
  rw [le_div_iff₀ hpos, hunits, ← hcast, Nat.cast_le, Magnitude.ofRatio?_eq_none_iff hd]

/-- **`ofRatio` rounds correctly, and only its result is a correct rounding.** -/
theorem rounds_iff {n d : ℕ} (hd : 0 < d) {v : Binary64} :
    Rounds (n / (d * unitsPerOne)) v ↔ v = ofRatio false n d := by
  unfold Rounds ofRatio
  rw [← not_le, overflow_le_iff hd]
  cases h : Magnitude.ofRatio? n d with
  | none =>
    simp only [not_true_eq_false, false_and, false_or, true_and]
  | some a =>
    have ha := Magnitude.ofRatio?_nearest hd h
    simp only [reduceCtorEq, not_false_eq_true, true_and, false_and, or_false]
    constructor
    · rintro ⟨b, rfl, hb⟩
      rw [hb.eq ha]
    · rintro rfl
      exact ⟨a, rfl, ha⟩

end Binary64

end Fluxion
