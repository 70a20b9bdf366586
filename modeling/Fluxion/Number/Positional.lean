import Fluxion.Number.Shortest

/-!
# Positional notation

Numbers are written without an exponent, with a point only where a fraction follows.

* `Numeral.positional`: a multiple of `10 ^ -places`.
* `Binary64.text`: a number. A whole number below `2 ^ 63` is written exactly, and any other one
  with the fewest digits that read back.
-/

namespace Fluxion

namespace Numeral

/-- The digits without the zeros at the end. -/
def dropZerosEnd (ds : List Char) : List Char := (ds.reverse.dropWhile (· = '0')).reverse

/-- The digits with zeros in front, `width` of them altogether. -/
def padStart (width : Nat) (ds : List Char) : List Char :=
  List.replicate (width - ds.length) '0' ++ ds

/-- The digits of `x / 10 ^ places` after the point, without zeros at the end. -/
def fractionDigits (places x : Nat) : List Char :=
  dropZerosEnd (padStart places (ofNat (x % 10 ^ places)))

/-- The value `x / 10 ^ places` in digits. -/
def positional (places x : Nat) : List Char :=
  let whole := ofNat (x / 10 ^ places)
  match fractionDigits places x with
  | [] => whole
  | d :: ds => whole ++ '.' :: d :: ds

end Numeral

namespace Magnitude

/-- The digits of a magnitude. -/
def digits (a : Magnitude) : List Char :=
  if a.units % unitsPerOne = 0 ∧ a.units / unitsPerOne < 2 ^ 63 then
    Numeral.ofNat (a.units / unitsPerOne)
  else Numeral.positional exactPlaces a.shortest

end Magnitude

namespace Binary64

/-- The text of a number. Both zeros are written `0`. -/
def text : Binary64 → String
  | nan => "NaN"
  | infinity negative => if negative then "-∞" else "∞"
  | finite negative a =>
    String.ofList (if negative ∧ a.significand ≠ 0 then '-' :: a.digits else a.digits)

end Binary64

end Fluxion
