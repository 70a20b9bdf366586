import Fluxion.Proofs.Blank
import Fluxion.Proofs.Derivative.ReadBack
import Fluxion.Proofs.Survivors

/-!
# The layout of a written sum

The summands that are left out are told by their text, which is `0`. Only the derivatives that
vanish have it, so what is written are the other ones. Their texts are words: they are not empty,
have no blank character and do not end with a sign. So the only blank characters of a written sum
are the single spaces around its signs.

* `IsWord`, `Derivative.isWord_text`: the texts of derivatives.
* `WrittenSum.spelled`, `WrittenSum.ofSigned_eq_spelled`: how signs and derivatives are written.
* `Tidy`, `WrittenSum.tidy_spelled`, `differentiate_tidy`: where the spaces and the signs of a
  written sum are.
* **`differentiate_layout`**: what is left out of a derivative, and how the rest is written.
-/

namespace Fluxion

/-! ## Words -/

/-- The text is not empty, has no blank character and does not end with a sign. -/
structure IsWord (text : String) : Prop where
  nonempty : text ≠ ""
  not_blank : ∀ c ∈ text.toList, ¬ isBlank c
  last_ne : ∀ c ∈ text.toList.getLast?, c ≠ '+' ∧ c ≠ '-'

instance (text : String) : Decidable (IsWord text) :=
  decidable_of_iff (text ≠ "" ∧ text.toList.all (!isBlank ·) ∧
      text.toList.getLast?.all fun c => c ≠ '+' ∧ c ≠ '-')
    ⟨fun h => ⟨h.1, by simpa using h.2.1, by simpa [Option.all_eq_true] using h.2.2⟩,
      fun h => ⟨h.nonempty, by simpa using h.not_blank,
        by simpa [Option.all_eq_true] using h.last_ne⟩⟩

namespace Derivative

/-- The characters of derivatives, apart from digits. -/
def textChars : List Char := suffixChars ++ ['.', 'N', 'a', '∞']

theorem mem_text {d : Derivative} (h : d.Normal) {c : Char} (hc : c ∈ d.text.toList) :
    c.isDigit ∨ c ∈ textChars := by
  rw [toList_text h, List.mem_append, List.mem_append] at hc
  rcases hc with (hsign | hbody) | hsuffix
  · refine .inr ?_
    cases hminus : d.minus <;> rw [hminus] at hsign
    · exact absurd hsign List.not_mem_nil
    · rw [List.mem_singleton.mp hsign]
      decide
  · exact (d.isNumberChar_body c hbody).imp_right (List.mem_append_right _ ·)
  · exact (mem_suffix hsuffix).imp_right (List.mem_append_left _ ·)

theorem not_isBlank_of_mem_text {d : Derivative} (h : d.Normal) :
    ∀ c ∈ d.text.toList, ¬ isBlank c := by
  intro c hc hblank
  rcases mem_text h hc with hdigit | hmem
  · have hkind := LexemeKind.ofChar_of_isDigit_or (.inl hdigit)
    rcases LexemeKind.ofChar_of_isBlank hblank with hblank | hblank
    · exact nomatch hkind.symm.trans hblank
    · exact nomatch hkind.symm.trans hblank
  · have hall : textChars.all (!isBlank ·) := by decide
    have hvisible := List.all_eq_true.mp hall c hmem
    rw [hblank] at hvisible
    exact nomatch hvisible

theorem getLast?_suffix_ne (d : Derivative) : ∀ c ∈ d.suffix.getLast?, c ≠ '-' := by
  cases d with
  | zero | constant v => exact nofun
  | exponential => exact fun _ hc => Option.some.inj hc ▸ by decide
  | trigonometric f v => cases f <;> exact fun _ hc => Option.some.inj hc ▸ by decide
  | monomial v n =>
    change ∀ c ∈ (powerText n).toList.getLast?, c ≠ '-'
    rw [toList_powerText]
    split
    · exact fun _ hc => Option.some.inj hc ▸ by decide
    · intro c hc
      have hdigits := Numeral.ofNat_ne_nil n.toInt.natAbs
      have hlast : c ∈ (Numeral.ofNat n.toInt.natAbs).getLast? := by
        rw [List.getLast?_cons_cons, Numeral.ofInt_eq, List.getLast?_cons] at hc
        simpa [List.getLast?_append, List.getLast?_eq_some_getLast hdigits] using hc
      rintro rfl
      exact absurd (Numeral.isDigit_of_mem_ofNat (List.mem_of_getLast? hlast)) (by decide)

theorem Normal.body_append_suffix_ne_nil {d : Derivative} (h : d.Normal) :
    d.body ++ d.suffix ≠ [] := by
  cases d with
  | zero => exact absurd rfl h.ne_zero
  | constant v => exact List.append_ne_nil_of_left_ne_nil v.unsignedText_ne_nil _
  | exponential => exact List.cons_ne_nil _ _
  | monomial v n =>
    refine List.append_ne_nil_of_right_ne_nil _ ?_
    change (powerText n).toList ≠ []
    rw [toList_powerText]
    exact List.cons_ne_nil _ _
  | trigonometric f v =>
    cases f <;> exact List.append_ne_nil_of_right_ne_nil _ (List.cons_ne_nil _ _)

theorem Normal.getLast?_text_ne {d : Derivative} (h : d.Normal) :
    ∀ c ∈ d.text.toList.getLast?, c ≠ '-' := by
  intro c hc
  have hlast : c ∈ (d.body ++ d.suffix).getLast? := by
    rw [toList_text h, List.append_assoc] at hc
    rwa [List.getLast?_append_of_ne_nil _ h.body_append_suffix_ne_nil] at hc
  rw [List.getLast?_append] at hlast
  cases hsuffix : d.suffix.getLast? with
  | none =>
    rw [hsuffix, Option.none_or] at hlast
    rintro rfl
    exact d.minus_notMem_body (List.mem_of_getLast? hlast)
  | some e =>
    rw [hsuffix, Option.some_or] at hlast
    rw [← Option.some.inj hlast]
    exact d.getLast?_suffix_ne e hsuffix

/-- **The text of a derivative is a word.** -/
theorem isWord_text {d : Derivative} (h : d = zero ∨ d.Normal) : IsWord d.text := by
  rcases h with rfl | h
  · decide
  · refine ⟨?_, not_isBlank_of_mem_text h, fun c hc => ⟨?_, h.getLast?_text_ne c hc⟩⟩
    · intro hempty
      have hlist := congrArg String.toList hempty
      rw [toList_text h, List.append_assoc, String.toList_empty, List.append_eq_nil_iff] at hlist
      exact h.body_append_suffix_ne_nil hlist.2
    · rintro rfl
      exact (mem_text h (List.mem_of_getLast? hc)).elim (by decide) (by decide)

end Derivative

/-! ## Spaces -/

/-- The only blank characters are spaces, and no two of them stand side by side. -/
structure Spaced (cs : List Char) : Prop where
  eq_space : ∀ c ∈ cs, isBlank c → c = ' '
  single : cs.IsChain fun c d => ¬ (c = ' ' ∧ d = ' ')

instance (cs : List Char) : Decidable (Spaced cs) :=
  decidable_of_iff ((cs.all fun c => !isBlank c || c = ' ') ∧
      cs.IsChain fun c d => ¬ (c = ' ' ∧ d = ' '))
    ⟨fun h => ⟨by simpa [or_iff_not_imp_left] using h.1, h.2⟩,
      fun h => ⟨by simpa [or_iff_not_imp_left] using h.eq_space, h.single⟩⟩

/-- Besides, the text ends neither with a space nor with a sign. -/
structure Tidy (cs : List Char) : Prop extends Spaced cs where
  last_ne : ∀ c ∈ cs.getLast?, c ≠ ' ' ∧ c ≠ '+' ∧ c ≠ '-'

instance (cs : List Char) : Decidable (Tidy cs) :=
  decidable_of_iff (Spaced cs ∧ cs.getLast?.all fun c => c ≠ ' ' ∧ c ≠ '+' ∧ c ≠ '-')
    ⟨fun h => ⟨h.1, by simpa [Option.all_eq_true] using h.2⟩,
      fun h => ⟨h.toSpaced, by simpa [Option.all_eq_true] using h.last_ne⟩⟩

theorem Spaced.tidy_append {cs : List Char} (h : Spaced cs) {text : String} (hw : IsWord text) :
    Tidy (cs ++ text.toList) := by
  have hne : text.toList ≠ [] := fun hnil => hw.nonempty (String.toList_eq_nil_iff.mp hnil)
  have hspace : ∀ c ∈ text.toList, c ≠ ' ' := by
    rintro c hc rfl
    exact hw.not_blank ' ' hc rfl
  refine ⟨⟨List.forall_mem_append.mpr ⟨h.eq_space, fun c hc hblank => ?_⟩, ?_⟩, fun c hc => ?_⟩
  · exact absurd hblank (hw.not_blank c hc)
  · refine List.isChain_append.mpr ⟨h.single, ?_, fun c _ d hd hboth => ?_⟩
    · have hpairwise : text.toList.Pairwise fun c d => ¬ (c = ' ' ∧ d = ' ') :=
        List.pairwise_of_forall_mem_list fun c hc _ _ hboth => hspace c hc hboth.1
      exact hpairwise.isChain
    · exact hspace d (List.mem_of_mem_head? hd) hboth.2
  · rw [List.getLast?_append_of_ne_nil _ hne] at hc
    exact ⟨hspace c (List.mem_of_getLast? hc), hw.last_ne c hc⟩

theorem Tidy.append_sign {cs : List Char} (h : Tidy cs) (sign : Sign) :
    Spaced (cs ++ [' ', sign.symbol, ' ']) := by
  have hsign : Spaced [' ', sign.symbol, ' '] := by
    cases sign <;> decide
  refine ⟨List.forall_mem_append.mpr ⟨h.eq_space, hsign.eq_space⟩, ?_⟩
  refine List.isChain_append.mpr ⟨h.single, hsign.single, fun c hc d _ hboth => ?_⟩
  exact (h.last_ne c hc).1 hboth.1

/-! ## Sums -/

namespace WrittenSum

/-- A sign between spaces, and a derivative. -/
def spelledFurther (d : Sign × Derivative) : String :=
  (if d.1 = .negative then " - " else " + ") ++ d.2.text

/-- The sum of derivatives with their signs. -/
def spelled : List (Sign × Derivative) → String
  | [] => "f'(x) = 0"
  | d :: ds => "f'(x) = " ++ (if d.1 = .negative then "-" else "") ++ d.2.text ++
      String.join (ds.map spelledFurther)

theorem toList_spelledFurther (d : Sign × Derivative) :
    (spelledFurther d).toList = [' ', d.1.symbol, ' '] ++ d.2.text.toList := by
  unfold spelledFurther
  rw [String.toList_append]
  cases hsign : d.1 <;> rfl

theorem ofSigned_eq_spelled (ds : List (Sign × Derivative)) : ofSigned ds = spelled ds := by
  cases ds with
  | nil => decide
  | cons d ds =>
    have hfurther : (ds.map fun d => (⟨d.1, d.2.text, .point 0⟩ : Term)).map further =
        ds.map spelledFurther := by
      rw [List.map_map]
      refine List.map_congr_left fun e _ => String.toList_inj.mp ?_
      rw [toList_spelledFurther, Function.comp_apply, further, Sign.text]
      simp
    unfold ofSigned spelled
    rw [List.map_cons, body, hfurther, first, ← String.append_assoc]
    congr 1
    cases d.1 <;> simp [header, ← String.append_assoc]

theorem tidy_append_join {cs : List Char} (h : Tidy cs) {ds : List (Sign × Derivative)}
    (hds : ∀ d ∈ ds, IsWord d.2.text) :
    Tidy (cs ++ (String.join (ds.map spelledFurther)).toList) := by
  induction ds generalizing cs with
  | nil => simpa using h
  | cons d ds ih =>
    obtain ⟨hd, hds⟩ := List.forall_mem_cons.mp hds
    have hnext := ih ((h.append_sign d.1).tidy_append hd) hds
    rw [List.map_cons, String.join_cons, String.toList_append, toList_spelledFurther]
    simpa only [List.append_assoc] using hnext

/-- **The blank characters of a written sum are the single spaces around its signs.** -/
theorem tidy_spelled {ds : List (Sign × Derivative)} (hds : ∀ d ∈ ds, IsWord d.2.text) :
    Tidy (spelled ds).toList := by
  cases ds with
  | nil => exact (by decide : Tidy "f'(x) = 0".toList)
  | cons d ds =>
    obtain ⟨hd, hds⟩ := List.forall_mem_cons.mp hds
    have hfront : Spaced ("f'(x) = " ++ if d.1 = .negative then "-" else "").toList := by
      split <;> decide
    have htidy := tidy_append_join (hfront.tidy_append hd) hds
    rwa [spelled, String.toList_append, String.toList_append]

end WrittenSum

/-! ## Functions -/

theorem Summand.forall_mem_all_iff {terms : List Term} {shapes : List Shape}
    (h : terms.length = shapes.length) {p : Derivative → Prop} :
    (∀ d ∈ all terms shapes, p d.derivative) ↔ ∀ s ∈ shapes, p s.derivative := by
  have hmap := map_derivative_all h
  calc (∀ d ∈ all terms shapes, p d.derivative)
      ↔ ∀ e ∈ (all terms shapes).map (·.derivative), p e := by simp
    _ ↔ ∀ e ∈ shapes.map Shape.derivative, p e := by rw [hmap]
    _ ↔ ∀ s ∈ shapes, p s.derivative := by simp

/-- Every derivative is tidy. -/
theorem differentiate_tidy {source out : String} (h : differentiate source = .ok out) :
    Tidy out.toList := by
  obtain ⟨terms, shapes, -, hshapes, rfl⟩ := differentiate_eq_ok_iff.mp h
  rw [← WrittenSum.ofSigned_signed, WrittenSum.ofSigned_eq_spelled]
  refine WrittenSum.tidy_spelled fun e he => ?_
  obtain ⟨d, hd, rfl⟩ := List.mem_map.mp he
  have hregular := regular_of_forall₂ hshapes
  exact Derivative.isWord_text (.inr (Summand.normal_of_mem_remaining terms hregular d hd))

/-- **What is left out of a derivative are just the terms that vanish.** The others are written in
their order with their own signs, and there is a `0` if none is left. -/
theorem differentiate_layout {source out : String} (h : differentiate source = .ok out) :
    ∃ terms shapes, Term.parse source = .ok terms ∧
      List.Forall₂ (fun t s => t.classify = .ok s) terms shapes ∧
      out = WrittenSum.ofTerms ((Summand.all terms shapes).map Summand.written) ∧
      (∀ d ∈ Summand.all terms shapes,
        (WrittenSum.remains d.written = true ↔ d.derivative ≠ .zero) ∧ IsWord d.derivative.text) ∧
      (out = "f'(x) = 0" ↔ ∀ s ∈ shapes, s.derivative = .zero) ∧
      out = WrittenSum.spelled
        (((Summand.all terms shapes).map Summand.signed).filter (·.2 ≠ .zero)) ∧
      Tidy out.toList := by
  have htidy := differentiate_tidy h
  obtain ⟨terms, shapes, hterms, hshapes, rfl⟩ := differentiate_eq_ok_iff.mp h
  have hregular := regular_of_forall₂ hshapes
  have hnormal (d : Summand) (hd : d ∈ Summand.all terms shapes) :
      d.derivative = .zero ∨ d.derivative.Normal := Summand.normal_of_mem_all hregular d hd
  have hspelled := (WrittenSum.ofSigned_signed (Summand.remaining terms shapes)).symm.trans
    (WrittenSum.ofSigned_eq_spelled _)
  refine ⟨terms, shapes, hterms, hshapes, (ofTerms_written terms shapes).symm, fun d hd => ?_, ?_,
    ?_, htidy⟩
  · exact ⟨Summand.remains_iff (hnormal d hd), Derivative.isWord_text (hnormal d hd)⟩
  · have hzero : "f'(x) = 0" = WrittenSum.header ++ " 0" := by decide
    rw [hzero, String.append_right_inj,
      Summand.body_eq_zero_iff (Summand.normal_of_mem_remaining terms hregular),
      ← Summand.forall_mem_all_iff (p := (· = .zero)) hshapes.length_eq, Summand.remaining,
      List.filter_eq_nil_iff]
    refine forall₂_congr fun d hd => ?_
    rw [Summand.remains_iff (hnormal d hd), not_not]
  · rw [hspelled, Summand.map_signed_remaining terms hregular]

theorem differentiate_layout_powers :
    differentiate "f(x) = 5 - cos(x) + 0x - x^-2" = .ok "f'(x) = --sin(x) - -2x^-3" ∧
      Tidy "f'(x) = --sin(x) - -2x^-3".toList := by
  have h : differentiate "f(x) = 5 - cos(x) + 0x - x^-2" = .ok "f'(x) = --sin(x) - -2x^-3" := by
    decide +kernel
  obtain ⟨_, _, _, _, _, _, _, _, htidy⟩ := differentiate_layout h
  exact ⟨h, htidy⟩

end Fluxion
