import Fluxion.Number.Positional
import Fluxion.Proofs.Number.Reading

/-!
# Written numbers read back

* `Numeral.read?_positional`: positional notation is read as the decimal it was written from.
* `Magnitude.readsBack_shortest`: the shortest decimal of a magnitude rounds to it.
* **`Magnitude.read?_digits`**: the digits of a magnitude are read as that magnitude.
* `Magnitude.digits_injective`: different magnitudes have different digits.
-/

namespace Fluxion

namespace Numeral

/-! ## Positional notation -/

theorem point_notMem_of_isDigit {cs : List Char} (h : ∀ c ∈ cs, c.isDigit) : '.' ∉ cs := fun hp =>
  absurd (h _ hp) (by decide)

theorem ofNat_isDigit (n : ℕ) : ∀ c ∈ ofNat n, c.isDigit := fun _ => isDigit_of_mem_ofNat

theorem exists_replicate_zeros (ds : List Char) :
    ∃ k, ds = dropZerosEnd ds ++ List.replicate k '0' := by
  refine ⟨(ds.reverse.takeWhile (· = '0')).length, ?_⟩
  have hzeros : ds.reverse.takeWhile (· = '0') =
      List.replicate (ds.reverse.takeWhile (· = '0')).length '0' :=
    List.eq_replicate_of_mem fun c hc =>
      of_decide_eq_true (List.mem_takeWhile_imp (p := (· = '0')) hc)
  have hsplit := congrArg List.reverse (ds.reverse.takeWhile_append_dropWhile (p := (· = '0')))
  rw [List.reverse_append, List.reverse_reverse, hzeros, List.reverse_replicate] at hsplit
  exact hsplit.symm

theorem padStart_isDigit {ds : List Char} (h : ∀ c ∈ ds, c.isDigit) (width : ℕ) :
    ∀ c ∈ padStart width ds, c.isDigit := by
  intro c hc
  rcases List.mem_append.mp hc with hc | hc
  · rw [(List.mem_replicate.mp hc).2]
    decide
  · exact h c hc

theorem ofDigitChars_padStart (width : ℕ) (ds : List Char) :
    Nat.ofDigitChars 10 (padStart width ds) 0 = Nat.ofDigitChars 10 ds 0 := by
  rw [padStart, Nat.ofDigitChars_append, Nat.ofDigitChars_replicate_zero, Nat.mul_zero]

theorem length_padStart {width : ℕ} {ds : List Char} (h : ds.length ≤ width) :
    (padStart width ds).length = width := by
  rw [padStart, List.length_append, List.length_replicate, Nat.sub_add_cancel h]

theorem fractionDigits_spec {places : ℕ} (hp : 0 < places) (x : ℕ) :
    (∀ c ∈ fractionDigits places x, c.isDigit) ∧
      ∃ k, (fractionDigits places x).length + k = places ∧
        Nat.ofDigitChars 10 (fractionDigits places x) 0 * 10 ^ k = x % 10 ^ places := by
  set padded := padStart places (ofNat (x % 10 ^ places)) with hpadded
  have hdigits : ∀ c ∈ padded, c.isDigit := padStart_isDigit (ofNat_isDigit _) _
  have hlength : padded.length = places :=
    length_padStart ((Nat.length_toDigits_le_iff (by decide) hp).mpr
      (Nat.mod_lt _ (Nat.pow_pos (by decide))))
  obtain ⟨k, hk⟩ := exists_replicate_zeros padded
  have hfraction : dropZerosEnd padded = fractionDigits places x := rfl
  rw [hfraction] at hk
  refine ⟨fun c hc => hdigits c (hk ▸ List.mem_append_left _ hc), k, ?_, ?_⟩
  · rw [hk, List.length_append, List.length_replicate] at hlength
    exact hlength
  · have hvalue : Nat.ofDigitChars 10 padded 0 = x % 10 ^ places := by
      rw [hpadded, ofDigitChars_padStart, ofDigitChars_ofNat]
    rw [← hvalue, hk, Nat.ofDigitChars_append, Nat.ofDigitChars_replicate_zero, Nat.mul_comm]

/-- **Positional notation is read as the decimal it was written from.** -/
theorem read?_positional {places : ℕ} (hp : 0 < places) (x : ℕ) :
    read? (positional places x) = some (.ofDecimal x places) := by
  have hw := point_notMem_of_isDigit (ofNat_isDigit (x / 10 ^ places))
  obtain ⟨hdigits, k, hlength, hvalue⟩ := fractionDigits_spec hp x
  have hf := point_notMem_of_isDigit hdigits
  unfold positional
  generalize fractionDigits places x = f at *
  -- the digits before and after the point come from one division
  have hx : Nat.ofDigitChars 10 (ofNat (x / 10 ^ places) ++ f) 0 * 10 ^ places =
      x * 10 ^ f.length := by
    have hplaces : 10 ^ places = 10 ^ k * 10 ^ f.length := by rw [← pow_add, ← hlength, add_comm]
    have hlow : Nat.ofDigitChars 10 f 0 * 10 ^ places = x % 10 ^ places * 10 ^ f.length := by
      rw [← hvalue, hplaces, mul_assoc]
    rw [ofDigitChars_append, ofDigitChars_ofNat, add_mul, hlow, mul_right_comm, ← add_mul,
      Nat.div_add_mod']
  cases f with
  | nil =>
    rw [List.append_nil] at hx
    exact (read?_whole (ofNat_ne_nil _) hw).trans (congrArg some (Binary64.ofDecimal_congr hx))
  | cons d ds =>
    have hne : ofNat (x / 10 ^ places) ++ d :: ds ≠ [] :=
      List.append_ne_nil_of_right_ne_nil _ (List.cons_ne_nil d ds)
    exact (read?_pointed hne hw hf).trans (congrArg some (Binary64.ofDecimal_congr hx))

end Numeral

namespace Magnitude

/-! ## The digits of a magnitude -/

theorem readsBack_scaled (a : Magnitude) : a.readsBack a.scaled :=
  readsBack_iff.mpr (ofRatio?_units a (Nat.pow_pos (by decide)))

/-- **The shortest decimal of a magnitude rounds to it.** -/
theorem readsBack_shortest (a : Magnitude) : a.readsBack a.shortest := by
  unfold shortest
  dsimp only
  cases h : (List.range (Numeral.ofNat a.scaled).length).findSome? fun i =>
      a.onGrid? ((Numeral.ofNat a.scaled).length - 1 - i) with
  | none => exact readsBack_scaled a
  | some x =>
    obtain ⟨i, -, hi⟩ := List.exists_of_findSome?_eq_some h
    exact accept_of_neighbour? hi

-- The powers are too large to be evaluated, so that they are variables up to the last step.

theorem ofRatio?_decimal {u k : ℕ} (hu : u = 2 ^ k) (x : ℕ) :
    ofRatio? (x * u) (10 ^ k) = ofRatio? x (5 ^ k) := by
  have hten : 10 ^ k = 5 ^ k * u := by rw [hu, ← Nat.mul_pow]
  have hpos : 0 < u := hu ▸ Nat.two_pow_pos k
  rw [hten, ofRatio?_mul_mul _ _ hpos]

theorem ofRatio_decimal {a : Magnitude} {u k x : ℕ} (hu : u = 2 ^ k)
    (h : ofRatio? x (5 ^ k) = some a) :
    Binary64.ofRatio false (x * u) (10 ^ k) = .finite false a := by
  unfold Binary64.ofRatio
  rw [ofRatio?_decimal hu, h]

theorem unitsPerOne_eq : unitsPerOne = 2 ^ exactPlaces := by rw [unitsPerOne, exactPlaces]

theorem ofDecimal_of_readsBack {a : Magnitude} {x : ℕ} (h : a.readsBack x) :
    Binary64.ofDecimal x exactPlaces = .finite false a :=
  ofRatio_decimal unitsPerOne_eq (readsBack_iff.mp h)

theorem digits_eq_or (a : Magnitude) :
    (∃ n, a.digits = Numeral.ofNat n ∧ n * unitsPerOne = a.units) ∨
      a.digits = Numeral.positional exactPlaces a.shortest := by
  unfold digits
  split
  · next h =>
    exact .inl ⟨_, rfl, Nat.div_mul_cancel (Nat.dvd_of_mod_eq_zero h.1)⟩
  · exact .inr rfl

/-- **The digits of a magnitude are read as that magnitude.** -/
theorem read?_digits (a : Magnitude) : Numeral.read? a.digits = some (.finite false a) := by
  rcases a.digits_eq_or with ⟨n, hn, hunits⟩ | hshortest
  · rw [hn, Numeral.read?_whole (Numeral.ofNat_ne_nil _)
      (Numeral.point_notMem_of_isDigit (Numeral.ofNat_isDigit _)), Numeral.ofDigitChars_ofNat,
      Binary64.ofDecimal, hunits, Binary64.ofRatio_of_units_eq Nat.one_pos (Nat.mul_one _)]
  · rw [hshortest, Numeral.read?_positional (by decide),
      ofDecimal_of_readsBack a.readsBack_shortest]

theorem digits_injective : Function.Injective digits := fun a b h => by
  have ha := a.read?_digits
  rw [h, b.read?_digits] at ha
  injection Option.some.inj ha with _ hab
  exact hab.symm

end Magnitude

end Fluxion
