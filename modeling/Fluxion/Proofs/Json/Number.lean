import Fluxion.Json.Reader
import Fluxion.Proofs.Number.Notation

/-!
# Numbers

* `Json.IsNumber`: the ways to write a number.
* `Json.isNumber_of_readNumber`, `Json.readNumber_append`: these are the ways that are read. What
  follows a number has to end it.
-/

namespace Fluxion.Json

/-! ## Where a class of characters ends -/

/-- No character of a class comes first. -/
def StartsWithout (p : Char → Bool) (cs : List Char) : Prop := ∀ c ∈ cs.head?, p c = false

section

variable {p q : Char → Bool} {cs rest : List Char}

theorem startsWithout_cons {c : Char} (hc : p c = false) : StartsWithout p (c :: cs) := by
  rintro d ⟨⟩
  exact hc

theorem StartsWithout.mono (h : StartsWithout q cs) (hpq : ∀ c, p c → q c) :
    StartsWithout p cs := by
  intro c hc
  have hq := h c hc
  exact Bool.eq_false_iff.2 fun hp => Bool.eq_false_iff.1 hq (hpq c hp)

theorem StartsWithout.dropWhile_eq (h : StartsWithout p rest) : rest.dropWhile p = rest := by
  cases rest with
  | nil => rfl
  | cons c rest => exact List.dropWhile_cons_of_neg (Bool.eq_false_iff.1 (h c rfl))

theorem StartsWithout.dropWhile_append (h : StartsWithout p rest) (hcs : ∀ c ∈ cs, p c) :
    (cs ++ rest).dropWhile p = rest :=
  (List.dropWhile_append_of_pos hcs).trans h.dropWhile_eq

theorem StartsWithout.takeWhile_append (h : StartsWithout p rest) (hcs : ∀ c ∈ cs, p c) :
    (cs ++ rest).takeWhile p = cs := by
  have happend := List.takeWhile_append_dropWhile (p := p) (l := cs ++ rest)
  rw [h.dropWhile_append hcs] at happend
  exact List.append_cancel_right happend

theorem startsWithout_dropWhile : StartsWithout p (cs.dropWhile p) := by
  intro c hc
  have hnot := List.head?_dropWhile_not p cs
  rw [Option.mem_def.1 hc] at hnot
  exact hnot

end

/-! ## Numbers and their parts -/

/-- Digits, of which there is one. -/
structure IsDigits (ds : List Char) : Prop where
  ne_nil : ds ≠ []
  isDigit : ∀ c ∈ ds, c.isDigit

/-- The whole part of a number, which has no leading zeros. -/
structure IsWhole (cs : List Char) : Prop extends IsDigits cs where
  leading : cs.head? = some '0' → cs = ['0']

/-- The fraction of a number, which may be missing. -/
def IsFraction (cs : List Char) : Prop := cs = [] ∨ ∃ ds, IsDigits ds ∧ cs = '.' :: ds

/-- The exponent of a number, which may be missing. -/
def IsExponent (cs : List Char) : Prop :=
  cs = [] ∨ ∃ e sign ds, e ∈ ['e', 'E'] ∧ sign ∈ [[], ['+'], ['-']] ∧ IsDigits ds ∧
    cs = e :: (sign ++ ds)

/-- The ways to write a number without its sign. -/
def IsUnsigned (cs : List Char) : Prop :=
  ∃ whole fraction exponent, IsWhole whole ∧ IsFraction fraction ∧ IsExponent exponent ∧
    cs = whole ++ fraction ++ exponent

/-- The ways to write a number. -/
def IsNumber (literal : List Char) : Prop :=
  ∃ sign cs, sign ∈ [[], ['-']] ∧ IsUnsigned cs ∧ literal = sign ++ cs

/-- Whether a character continues a number. -/
def continuesNumber (c : Char) : Bool := c.isDigit || c = '.' || c = 'e' || c = 'E'

/-! ## What is read is a number -/

theorem exists_of_map_eq_some {α β : Type} {read : Option (α × List Char)} {f : α → β} {b : β}
    {rest : List Char} (h : read.map (fun (a, rest) => (f a, rest)) = some (b, rest)) :
    ∃ a, read = some (a, rest) ∧ f a = b := by
  obtain ⟨⟨a, rest⟩, hread, heq⟩ := Option.map_eq_some_iff.1 h
  obtain ⟨rfl, rfl⟩ := heq
  exact ⟨a, hread, rfl⟩

section Sound

variable {input cs rest : List Char}

theorem readDigits_eq_some (h : readDigits input = some (cs, rest)) :
    IsDigits cs ∧ input = cs ++ rest := by
  unfold readDigits at h
  split at h
  · cases h
  · next d ds hds =>
    obtain ⟨rfl, rfl⟩ : d :: ds = cs ∧ input.dropWhile Char.isDigit = rest := by simpa using h
    refine ⟨⟨List.cons_ne_nil d ds, ?_⟩, ?_⟩
    · intro c hc
      rw [← hds] at hc
      exact List.mem_takeWhile_imp hc
    · rw [← hds, List.takeWhile_append_dropWhile]

theorem readWhole_eq_some (h : readWhole input = some (cs, rest)) :
    IsWhole cs ∧ input = cs ++ rest := by
  unfold readWhole at h
  split at h
  · obtain ⟨rfl, rfl⟩ := Option.some.inj h
    exact ⟨⟨⟨by decide, List.forall_mem_singleton.2 (by decide)⟩, fun _ => rfl⟩, rfl⟩
  · next hzero =>
    obtain ⟨hdigits, rfl⟩ := readDigits_eq_some h
    refine ⟨⟨hdigits, fun hhead => ?_⟩, rfl⟩
    obtain ⟨d, ds, rfl⟩ := List.exists_cons_of_ne_nil hdigits.ne_nil
    obtain rfl : d = '0' := Option.some.inj hhead
    exact absurd rfl (hzero _)

theorem readFraction_eq_some (h : readFraction input = some (cs, rest)) :
    IsFraction cs ∧ input = cs ++ rest := by
  unfold readFraction at h
  split at h
  · obtain ⟨ds, hds, rfl⟩ := exists_of_map_eq_some h
    obtain ⟨hdigits, rfl⟩ := readDigits_eq_some hds
    exact ⟨.inr ⟨ds, hdigits, rfl⟩, rfl⟩
  · obtain ⟨rfl, rfl⟩ := Option.some.inj h
    exact ⟨.inl rfl, rfl⟩

theorem isExponent_of_readDigits {e : Char} {tail : List Char} (he : e = 'e' ∨ e = 'E')
    (sign : List Char) (hsign : sign ∈ [[], ['+'], ['-']])
    (h : (readDigits tail).map (fun (ds, rest) => (e :: (sign ++ ds), rest)) = some (cs, rest)) :
    IsExponent cs ∧ e :: (sign ++ tail) = cs ++ rest := by
  obtain ⟨ds, hds, rfl⟩ := exists_of_map_eq_some (f := fun ds => e :: (sign ++ ds)) h
  obtain ⟨hdigits, rfl⟩ := readDigits_eq_some hds
  refine ⟨.inr ⟨e, sign, ds, by simpa using he, hsign, hdigits, rfl⟩, ?_⟩
  rw [List.cons_append, List.append_assoc]

theorem readExponent_eq_some (h : readExponent input = some (cs, rest)) :
    IsExponent cs ∧ input = cs ++ rest := by
  unfold readExponent at h
  split at h
  · obtain ⟨rfl, rfl⟩ := Option.some.inj h
    exact ⟨.inl rfl, rfl⟩
  · next e tail =>
    split at h
    · next he =>
      split at h
      · exact isExponent_of_readDigits he ['+'] (by decide) h
      · exact isExponent_of_readDigits he ['-'] (by decide) h
      · exact isExponent_of_readDigits he [] (by decide) h
    · obtain ⟨rfl, rfl⟩ := Option.some.inj h
      exact ⟨.inl rfl, rfl⟩

theorem readUnsigned_eq_some (h : readUnsigned input = some (cs, rest)) :
    IsUnsigned cs ∧ input = cs ++ rest := by
  simp only [readUnsigned, Option.pure_def, Option.bind_eq_bind, Option.bind_eq_some_iff,
    Option.some.injEq, Prod.mk.injEq, Prod.exists] at h
  obtain ⟨whole, tail, hw, fraction, tail', hf, exponent, tail'', he, rfl, rfl⟩ := h
  obtain ⟨hwhole, rfl⟩ := readWhole_eq_some hw
  obtain ⟨hfraction, rfl⟩ := readFraction_eq_some hf
  obtain ⟨hexponent, rfl⟩ := readExponent_eq_some he
  refine ⟨⟨whole, fraction, exponent, hwhole, hfraction, hexponent, rfl⟩, ?_⟩
  rw [List.append_assoc, List.append_assoc]

theorem isNumber_of_readNumber (h : readNumber input = some (cs, rest)) :
    IsNumber cs ∧ input = cs ++ rest := by
  unfold readNumber at h
  split at h
  · obtain ⟨ds, hds, rfl⟩ := exists_of_map_eq_some h
    obtain ⟨hunsigned, rfl⟩ := readUnsigned_eq_some hds
    exact ⟨⟨['-'], ds, by decide, hunsigned, rfl⟩, rfl⟩
  · obtain ⟨hunsigned, rfl⟩ := readUnsigned_eq_some h
    exact ⟨⟨[], cs, by decide, hunsigned, rfl⟩, rfl⟩

end Sound

/-! ## Numbers are read -/

section Complete

variable {cs rest : List Char}

theorem IsDigits.readDigits_append (h : IsDigits cs) (hrest : StartsWithout Char.isDigit rest) :
    readDigits (cs ++ rest) = some (cs, rest) := by
  unfold readDigits
  rw [hrest.takeWhile_append h.isDigit, hrest.dropWhile_append h.isDigit]
  obtain ⟨d, ds, rfl⟩ := List.exists_cons_of_ne_nil h.ne_nil
  rfl

theorem IsWhole.readWhole_append (h : IsWhole cs) (hrest : StartsWithout Char.isDigit rest) :
    readWhole (cs ++ rest) = some (cs, rest) := by
  by_cases hzero : cs.head? = some '0'
  · rw [h.leading hzero]
    rfl
  · obtain ⟨d, ds, rfl⟩ := List.exists_cons_of_ne_nil h.ne_nil
    rw [List.cons_append, readWhole.eq_2, ← List.cons_append]
    · exact h.readDigits_append hrest
    · rintro ds ⟨⟩
      exact hzero rfl

theorem IsFraction.readFraction_append (h : IsFraction cs)
    (hrest : StartsWithout (fun c => c.isDigit || c = '.') rest) :
    readFraction (cs ++ rest) = some (cs, rest) := by
  obtain rfl | ⟨ds, hds, rfl⟩ := h
  · refine readFraction.eq_2 rest fun tail htail => ?_
    have := hrest '.' (by rw [htail]; rfl)
    exact absurd this (by decide)
  · rw [List.cons_append, readFraction, hds.readDigits_append (hrest.mono (by simp_all))]
    rfl

theorem IsExponent.readExponent_append (h : IsExponent cs)
    (hrest : StartsWithout (fun c => c.isDigit || c = 'e' || c = 'E') rest) :
    readExponent (cs ++ rest) = some (cs, rest) := by
  obtain rfl | ⟨e, sign, ds, he, hsign, hds, rfl⟩ := h
  · cases rest with
    | nil => rfl
    | cons c rest =>
      have hc := hrest c rfl
      refine if_neg fun he => ?_
      rcases he with rfl | rfl <;> exact absurd hc (by decide)
  · have hread : readDigits (ds ++ rest) = some (ds, rest) :=
      hds.readDigits_append (hrest.mono (by simp_all))
    have he : e = 'e' ∨ e = 'E' := by simpa using he
    simp only [List.mem_cons, List.not_mem_nil, or_false] at hsign
    rcases hsign with rfl | rfl | rfl
    · obtain ⟨d, ds, rfl⟩ := List.exists_cons_of_ne_nil hds.ne_nil
      have hd := hds.isDigit d List.mem_cons_self
      rw [List.nil_append, List.cons_append, readExponent.eq_4, if_pos he, hread]
      · rfl
      all_goals
        rintro tail ⟨⟩
        exact absurd hd (by decide)
    · simp only [List.cons_append, List.nil_append, readExponent, if_pos he, hread]
      rfl
    · simp only [List.cons_append, List.nil_append, readExponent, if_pos he, hread]
      rfl

theorem IsFraction.startsWithout_append (h : IsFraction cs)
    (hrest : StartsWithout Char.isDigit rest) : StartsWithout Char.isDigit (cs ++ rest) := by
  obtain rfl | ⟨ds, -, rfl⟩ := h
  · exact hrest
  · exact startsWithout_cons (by decide)

theorem IsExponent.startsWithout_append (h : IsExponent cs)
    (hrest : StartsWithout continuesNumber rest) :
    StartsWithout (fun c => c.isDigit || c = '.') (cs ++ rest) := by
  obtain rfl | ⟨e, sign, ds, he, -, -, rfl⟩ := h
  · exact hrest.mono (by grind [continuesNumber])
  · simp only [List.mem_cons, List.not_mem_nil, or_false] at he
    rcases he with rfl | rfl <;> exact startsWithout_cons (by decide)

theorem IsUnsigned.readUnsigned_append (h : IsUnsigned cs)
    (hrest : StartsWithout continuesNumber rest) :
    readUnsigned (cs ++ rest) = some (cs, rest) := by
  obtain ⟨whole, fraction, exponent, hwhole, hfraction, hexponent, rfl⟩ := h
  have hafter := hexponent.startsWithout_append hrest
  have hread := hwhole.readWhole_append
    (hfraction.startsWithout_append (hafter.mono (by simp_all)))
  have hread' := hexponent.readExponent_append (hrest.mono (by grind [continuesNumber]))
  simp only [readUnsigned, List.append_assoc, hread, hfraction.readFraction_append hafter, hread',
    Option.bind_eq_bind, Option.bind_some, Option.pure_def]

theorem IsUnsigned.exists_digit (h : IsUnsigned cs) : ∃ d ds, d.isDigit ∧ cs = d :: ds := by
  obtain ⟨whole, fraction, exponent, hwhole, -, -, rfl⟩ := h
  obtain ⟨d, ds, rfl⟩ := List.exists_cons_of_ne_nil hwhole.ne_nil
  exact ⟨d, _, hwhole.isDigit d List.mem_cons_self, rfl⟩

theorem IsNumber.readNumber_append (h : IsNumber cs) (hrest : StartsWithout continuesNumber rest) :
    readNumber (cs ++ rest) = some (cs, rest) := by
  obtain ⟨sign, cs, hsign, hunsigned, rfl⟩ := h
  have hread := hunsigned.readUnsigned_append hrest
  simp only [List.mem_cons, List.not_mem_nil, or_false] at hsign
  rcases hsign with rfl | rfl
  · obtain ⟨d, ds, hd, rfl⟩ := hunsigned.exists_digit
    rw [List.nil_append, readNumber.eq_2, hread]
    rintro tail ⟨⟩
    exact absurd hd (by decide)
  · simp only [List.cons_append, List.nil_append, readNumber, hread]
    rfl

theorem IsNumber.exists_cons (h : IsNumber cs) :
    ∃ c ds, (c.isDigit ∨ c = '-') ∧ cs = c :: ds := by
  obtain ⟨sign, cs, hsign, hunsigned, rfl⟩ := h
  simp only [List.mem_cons, List.not_mem_nil, or_false] at hsign
  rcases hsign with rfl | rfl
  · obtain ⟨d, ds, hd, rfl⟩ := hunsigned.exists_digit
    exact ⟨d, ds, .inl hd, rfl⟩
  · exact ⟨'-', cs, .inr rfl, rfl⟩

end Complete

/-! ## Natural numbers -/

theorem readNat?_eq_some_iff {cs : List Char} {n : ℕ} :
    Numeral.readNat? cs = some n ↔ IsDigits cs ∧ Nat.ofDigitChars 10 cs 0 = n := by
  unfold Numeral.readNat?
  rw [Option.ite_none_right_eq_some, Option.some.injEq, List.all_eq_true]
  exact and_congr_left fun _ => ⟨fun h => ⟨h.1, h.2⟩, fun h => ⟨h.ne_nil, h.isDigit⟩⟩

theorem isDigits_ofNat (n : ℕ) : IsDigits (Numeral.ofNat n) :=
  ⟨Numeral.ofNat_ne_nil n, fun _ => Numeral.isDigit_of_mem_ofNat⟩

theorem isNumber_ofNat (n : ℕ) : IsNumber (Numeral.ofNat n) := by
  have hwhole : IsWhole (Numeral.ofNat n) :=
    ⟨isDigits_ofNat n, fun h => by rw [Numeral.eq_zero_of_head?_ofNat h]; rfl⟩
  refine ⟨[], _, by decide, ⟨_, [], [], hwhole, .inl rfl, .inl rfl, rfl⟩, ?_⟩
  rw [List.nil_append, List.append_nil, List.append_nil]

end Fluxion.Json
