import Fluxion.Number.Binary64

/-!
# Numerals

Reading numbers that are written with decimal digits.

* `Numeral.read?`: digits with at most one point among them, as the nearest number.
* `Numeral.readNat?`: digits alone, as a natural number.
* `Numeral.ofNat`, `Numeral.ofInt`: whole numbers in digits.
-/

namespace Fluxion.Numeral

/-- The number that digits and points denote, rounded once. -/
def read? (cs : List Char) : Option Binary64 :=
  let whole := cs.takeWhile (· ≠ '.')
  let fraction := (cs.dropWhile (· ≠ '.')).drop 1
  let digits := whole ++ fraction
  if digits = [] ∨ '.' ∈ fraction then none
  else some (.ofDecimal (Nat.ofDigitChars 10 digits 0) fraction.length)

/-- The natural number that characters denote, if they are digits, and at least one. -/
def readNat? (cs : List Char) : Option Nat :=
  if cs ≠ [] ∧ cs.all Char.isDigit then some (Nat.ofDigitChars 10 cs 0) else none

/-- The digits of a natural number, without leading zeros. -/
def ofNat (n : Nat) : List Char := Nat.toDigits 10 n

/-- The digits of a whole number, after a `-` if it is negative. -/
def ofInt (i : Int) : List Char := if i < 0 then '-' :: ofNat i.natAbs else ofNat i.natAbs

@[simp] theorem ofDigitChars_ofNat (n : Nat) : Nat.ofDigitChars 10 (ofNat n) 0 = n :=
  Nat.ofDigitChars_toDigits (by decide) (by decide)

theorem isDigit_of_mem_ofNat {n : Nat} {c : Char} (h : c ∈ ofNat n) : c.isDigit :=
  Nat.isDigit_of_mem_toDigits (by decide) (by decide) h

theorem ofNat_ne_nil (n : Nat) : ofNat n ≠ [] := Nat.toDigits_ne_nil

end Fluxion.Numeral
