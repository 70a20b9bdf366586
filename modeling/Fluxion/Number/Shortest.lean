import Fluxion.Number.Numeral

/-!
# Shortest decimals

Every magnitude is a whole multiple of `10 ^ -1074`. Writing it with few digits means to replace
that multiple by one with zeros at the end that still reads back as the magnitude.

* `Magnitude.scaled`: the magnitude as a multiple of `10 ^ -1074`.
* `neighbour?`: the nearer of the two neighbours among the multiples of a number that is accepted.
* `Magnitude.onGrid?`: the neighbour among the multiples of `10 ^ k` that reads back.
* `Magnitude.shortest`: the multiple with the fewest digits before the zeros.
-/

namespace Fluxion

/-- The number of decimal places with which every magnitude can be written exactly. -/
def exactPlaces : Nat := 1074

/-- The multiple of `step` beside `x` that is accepted: the nearer one of two, or the larger one. -/
def neighbour? (accept : Nat → Bool) (x step : Nat) : Option Nat :=
  let low := x / step * step
  let high := low + step
  match accept low, accept high with
  | true, true => some (if x - low < high - x then low else high)
  | true, false => some low
  | false, true => some high
  | false, false => none

theorem accept_of_neighbour? {accept : Nat → Bool} {x step y : Nat}
    (h : neighbour? accept x step = some y) : accept y := by
  unfold neighbour? at h
  dsimp only at h
  split at h
  · next hlow hhigh =>
    obtain rfl := Option.some.inj h
    split
    · exact hlow
    · exact hhigh
  · next hlow hhigh =>
    obtain rfl := Option.some.inj h
    exact hlow
  · next hlow hhigh =>
    obtain rfl := Option.some.inj h
    exact hhigh
  · simp at h

namespace Magnitude

/-- The magnitude as a multiple of `10 ^ -exactPlaces`. -/
def scaled (a : Magnitude) : Nat := a.units * 5 ^ exactPlaces

/-- Whether `x / 10 ^ exactPlaces` rounds to the magnitude. -/
def readsBack (a : Magnitude) (x : Nat) : Bool := ofRatio? x (5 ^ exactPlaces) = some a

theorem readsBack_iff {a : Magnitude} {x : Nat} :
    a.readsBack x ↔ ofRatio? x (5 ^ exactPlaces) = some a := decide_eq_true_iff

/-- The multiple of `10 ^ k` beside `scaled` that reads back. -/
def onGrid? (a : Magnitude) (k : Nat) : Option Nat := neighbour? a.readsBack a.scaled (10 ^ k)

/-- The multiple of `10 ^ -exactPlaces` that reads back with the fewest digits. -/
def shortest (a : Magnitude) : Nat :=
  let count := (Numeral.ofNat a.scaled).length
  ((List.range count).findSome? fun i => a.onGrid? (count - 1 - i)).getD a.scaled

end Magnitude

end Fluxion
