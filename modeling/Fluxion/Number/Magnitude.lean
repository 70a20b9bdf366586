/-!
# Magnitudes

The absolute values of the finite numbers of the 64-bit binary format. Each one is a whole number
of *units*, a unit being `2 ^ -1074`, so that rounding is a question about natural numbers.

* `Magnitude`: a significand of at most 53 bits and an exponent, in the one way in which the
  format writes a value.
* `Magnitude.units`: the value.
* `nearest`: division rounded to the nearest natural number, a tie going to the even one.
* `Magnitude.ofRatio?`: the magnitude nearest to a ratio, or nothing when that is too large.
-/

namespace Fluxion

-- Mathlib has a power of its own for `Nat`. The one of the core library stays in use everywhere, as
-- powers like `2 ^ 1074` are too large to be compared by evaluating them.
attribute [instance (high)] instPowNat
attribute [default_instance 20000] instPowNat

/-- The number of units in `1`. -/
def unitsPerOne : Nat := 2 ^ 1074

/-- The value `significand · 2 ^ exponent` units, with 53 bits except with the least exponent. -/
structure Magnitude where
  significand : Nat
  exponent : Nat
  significand_lt : significand < 2 ^ 53
  normal : exponent = 0 ∨ 2 ^ 52 ≤ significand
  exponent_le : exponent ≤ 2045
deriving DecidableEq

/-- The natural number nearest to `n / d`, of two the even one. -/
def nearest (n d : Nat) : Nat :=
  if 2 * (n % d) < d ∨ (2 * (n % d) = d ∧ n / d % 2 = 0) then n / d else n / d + 1

theorem le_nearest (n d : Nat) : n / d ≤ nearest n d := by
  unfold nearest; split <;> omega

theorem nearest_le (n d : Nat) : nearest n d ≤ n / d + 1 := by
  unfold nearest; split <;> omega

theorem nearest_mul {d : Nat} (hd : 0 < d) (k : Nat) : nearest (k * d) d = k := by
  simp [nearest, Nat.mul_div_cancel k hd, hd]

namespace Magnitude

/-- The value as a number of units. -/
def units (a : Magnitude) : Nat := a.significand * 2 ^ a.exponent

/-- A magnitude with the least exponent. -/
def subnormal (significand : Nat) (h : significand < 2 ^ 53) : Magnitude :=
  ⟨significand, 0, h, .inl rfl, Nat.zero_le _⟩

/-- The magnitude `0`. -/
def zero : Magnitude := subnormal 0 (by decide)

/-- The magnitude `1`. -/
def one : Magnitude := ⟨2 ^ 52, 1022, by decide, .inr (Nat.le_refl _), by decide⟩

/-- The least exponent for which 53 bits suffice for `q` units and a fraction. -/
def exponentFor (q : Nat) : Nat := q.log2 - 52

/-- The quotient has 53 bits, or fewer with the least exponent. -/
theorem div_exponentFor (q : Nat) :
    q / 2 ^ exponentFor q < 2 ^ 53 ∧ (exponentFor q = 0 ∨ 2 ^ 52 ≤ q / 2 ^ exponentFor q) := by
  have hpos : 0 < 2 ^ exponentFor q := Nat.two_pow_pos _
  constructor
  · rw [Nat.div_lt_iff_lt_mul hpos, ← Nat.pow_add]
    exact Nat.lt_of_lt_of_le Nat.lt_log2_self
      (Nat.pow_le_pow_right (by decide) (by unfold exponentFor; omega))
  · by_cases h : exponentFor q = 0
    · exact .inl h
    · right
      rw [Nat.le_div_iff_mul_le hpos, ← Nat.pow_add]
      have hlog : 52 + exponentFor q = q.log2 := by unfold exponentFor at h ⊢; omega
      rw [hlog]
      refine Nat.log2_self_le fun hq => h ?_
      simp [exponentFor, hq]

/-- The significand of the value nearest to `n / d` units, before a carry. -/
def significandFor (n d : Nat) : Nat := nearest n (d * 2 ^ exponentFor (n / d))

theorem significandFor_le (n d : Nat) : significandFor n d ≤ 2 ^ 53 := by
  have h := (div_exponentFor (n / d)).1
  rw [Nat.div_div_eq_div_mul] at h
  exact Nat.le_trans (nearest_le _ _) h

theorem le_significandFor (n d : Nat) :
    exponentFor (n / d) = 0 ∨ 2 ^ 52 ≤ significandFor n d := by
  have h := (div_exponentFor (n / d)).2
  rw [Nat.div_div_eq_div_mul] at h
  exact h.imp_right fun h => Nat.le_trans h (le_nearest _ _)

/-- The magnitude nearest to `n / d` units, of two the even one. -/
def ofRatio? (n d : Nat) : Option Magnitude :=
  if hs : significandFor n d < 2 ^ 53 then
    if he : exponentFor (n / d) ≤ 2045 then
      some ⟨significandFor n d, exponentFor (n / d), hs, le_significandFor n d, he⟩
    else none
  else
    -- rounding up has reached the next power of two
    if he : exponentFor (n / d) + 1 ≤ 2045 then
      some ⟨2 ^ 52, exponentFor (n / d) + 1, by decide, .inr (Nat.le_refl _), he⟩
    else none

end Magnitude

end Fluxion
