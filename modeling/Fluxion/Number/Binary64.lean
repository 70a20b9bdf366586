import Fluxion.Number.Magnitude

/-!
# Binary64

The numbers of the 64-bit binary floating-point format, with a single value for "not a number".
Coefficients are such numbers.

* `Binary64.ofRatio`: the number nearest to a ratio, infinite when that is too large.
* `Binary64.mul`, `Binary64.ofInt`: the product and the whole numbers, rounded once.
* `Binary64.ofBits`, `Binary64.toBits`: the encoding in a 64-bit word.
-/

namespace Fluxion

/-- A number of the 64-bit binary format. Zero has two signs. -/
inductive Binary64 where
  | nan
  | infinity (negative : Bool)
  | finite (negative : Bool) (magnitude : Magnitude)
deriving DecidableEq

namespace Binary64

/-- The number `0`. -/
def zero : Binary64 := .finite false .zero

/-- The number `1`. -/
def one : Binary64 := .finite false .one

/-- The number `-1`. -/
def negOne : Binary64 := .finite true .one

/-- Whether the number is one of the two zeros. -/
def isZero : Binary64 → Bool
  | finite _ a => a.significand = 0
  | _ => false

/-- The number of the given sign that is nearest to `n / d` units. -/
def ofRatio (negative : Bool) (n d : Nat) : Binary64 :=
  match Magnitude.ofRatio? n d with
  | some a => .finite negative a
  | none => .infinity negative

/-- The number nearest to `digits / 10 ^ places`. -/
def ofDecimal (digits places : Nat) : Binary64 :=
  ofRatio false (digits * unitsPerOne) (10 ^ places)

/-- The number nearest to a whole number. -/
def ofInt (i : Int) : Binary64 := ofRatio (decide (i < 0)) (i.natAbs * unitsPerOne) 1

/-- The product, rounded once. A zero times an infinity is no number. -/
def mul : Binary64 → Binary64 → Binary64
  | nan, _ | _, nan => nan
  | infinity s, infinity t => infinity (s != t)
  | infinity s, finite t b => if b.significand = 0 then nan else infinity (s != t)
  | finite s a, infinity t => if a.significand = 0 then nan else infinity (s != t)
  | finite s a, finite t b => ofRatio (s != t) (a.units * b.units) unitsPerOne

/-! ## The encoding in a word -/

/-- The word of an infinite magnitude; the words of finite ones lie below. -/
def infinityWord : Nat := 2047 * 2 ^ 52

/-- The word of a magnitude. Words of magnitudes are in the order of the values. -/
def magnitudeWord (a : Magnitude) : Nat := a.exponent * 2 ^ 52 + a.significand

/-- The word with a sign bit in front of 63 bits. -/
def signedWord (negative : Bool) (word : Nat) : UInt64 :=
  UInt64.ofNat (if negative then 2 ^ 63 + word else word)

/-- The 64 bits of a number. -/
def toBits : Binary64 → UInt64
  | nan => signedWord false (infinityWord + 2 ^ 51)
  | infinity s => signedWord s infinityWord
  | finite s a => signedWord s (magnitudeWord a)

/-- The magnitude of a word below `infinityWord`. -/
def wordMagnitude (word : Nat) (h : word < infinityWord) : Magnitude :=
  if hs : word < 2 ^ 52 then .subnormal word (Nat.lt_trans hs (by decide))
  else
    ⟨2 ^ 52 + word % 2 ^ 52, word / 2 ^ 52 - 1,
      by have := Nat.mod_lt word (Nat.two_pow_pos 52); omega, .inr (Nat.le_add_right _ _),
      by unfold infinityWord at h; omega⟩

/-- The number of 64 bits. -/
def ofBits (bits : UInt64) : Binary64 :=
  let negative := decide (2 ^ 63 ≤ bits.toNat)
  let word := bits.toNat % 2 ^ 63
  if h : word < infinityWord then .finite negative (wordMagnitude word h)
  else if word = infinityWord then .infinity negative
  else .nan

end Binary64

end Fluxion
