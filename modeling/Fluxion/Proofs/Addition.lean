import Fluxion.Proofs.Lexeme.Scan
import Fluxion.Proofs.Piece
import Fluxion.Proofs.Survivors

/-!
# Sums of functions

A sign after text in which nothing is open begins a new term, whatever stands before it. So the
terms of a sum are those of its two parts, and its derivative is the sum of theirs.

* `Term.shift`, `Fault.shift`: terms and faults of a text that stands further right.
* `Piece.Builds.shift`: the term of a piece further right.
* **`Term.parse_add`**: the terms of a sum are those of its parts.
* **`differentiate_add`**: the derivative of a sum is the sum of the derivatives of its parts, and
  the fault of a sum is that of the first part at fault.
-/

namespace Fluxion

/-! ## Further right -/

/-- The term `distance` bytes further right. -/
def Term.shift (distance : ℕ) (t : Term) : Term := { t with span := t.span.shift distance }

/-- The fault of a text `distance` bytes further right. -/
def Fault.shift (distance : ℕ) (f : Fault) : Fault :=
  { f with spans := f.spans.map (Span.shift distance) }

namespace Token

theorem toLexeme_shift (distance : ℕ) (t : Token) : (t.shift distance).toLexeme = t.toLexeme := rfl

theorem place_add (offset distance : ℕ) (ls : List Lexeme) :
    place (offset + distance) ls = (place offset ls).map (shift distance) := by
  induction ls generalizing offset with
  | nil => rfl
  | cons l ls ih =>
    rw [place_cons, place_cons, List.map_cons, Nat.add_right_comm, ih]
    rfl

end Token

theorem Nesting.after_place (offset : ℕ) (ls : List Lexeme) :
    after (Token.place offset ls) = after (Token.place 0 ls) := by
  rw [← Nat.zero_add offset, Token.place_add, after_map (Token.toLexeme_shift offset)]

namespace Term

theorem ofTokens_shift (distance : ℕ) (sign : Sign) (place : Span) (ts : List Token) :
    (ofTokens sign place ts).shift distance =
      ofTokens sign (place.shift distance) (ts.map (Token.shift distance)) := by
  have hlexeme := Token.toLexeme_shift distance
  unfold ofTokens
  simp only [trimTokens_map hlexeme, tokenChars_map hlexeme, List.head?_map, List.getLast?_map]
  cases (trimTokens ts).head? <;> cases (trimTokens ts).getLast? <;> rfl

end Term

namespace Piece

theorem Builds.shift {p : Piece} {t : Term} (h : p.Builds t) (distance : ℕ) :
    (p.map (Token.shift distance)).Builds (t.shift distance) := by
  cases h with
  | @leading ts h place =>
    rw [Term.ofTokens_shift]
    refine .leading (fun hblank => h fun t ht => ?_) _
    exact hblank (t.shift distance) (List.mem_map_of_mem ht)
  | separated h =>
    rw [Term.ofTokens_shift]
    exact .separated h

end Piece

/-! ## The terms of a sum -/

theorem toList_sign (sign : Sign) (b : String) :
    (sign.text ++ b).toList = sign.symbol :: b.toList := by
  rw [String.toList_append, Sign.text, String.toList_ofList]
  rfl

theorem Sign.ofChar_symbol_kind (sign : Sign) :
    (LexemeKind.ofChar sign.symbol).sign? = some sign := by cases sign <;> decide

theorem Sign.not_joins (sign : Sign) : (LexemeKind.ofChar sign.symbol).joins = false := by
  cases sign <;> decide

theorem afterHeader_add (a b : String) (sign : Sign) :
    afterHeader (header ++ (a ++ (sign.text ++ b))) = afterHeader (header ++ a) ++
      (afterHeader (header ++ (sign.text ++ b))).map (Token.shift (utf8Length a.toList)) := by
  rw [afterHeader_eq, afterHeader_eq, afterHeader_eq, String.toList_append, toList_sign,
    Lexeme.scan_append_single sign.not_joins, Token.place_append, Lexeme.flatMap_scan,
    Token.place_add, Lexeme.scan_cons_single sign.not_joins]

theorem exists_afterHeader_sign (b : String) (sign : Sign) : ∃ s ts,
    afterHeader (header ++ (sign.text ++ b)) = s :: ts ∧ s.kind.sign? = some sign ∧
      ts.map (·.toLexeme) = Lexeme.scan b.toList := by
  rw [afterHeader_eq, toList_sign, Lexeme.scan_cons_single sign.not_joins]
  exact ⟨_, _, rfl, sign.ofChar_symbol_kind, Token.map_toLexeme_place _ _⟩

/-- **The terms of a sum are those of its parts**, if nothing is open after the first one. -/
theorem Term.parse_add {a b : String} {sign : Sign} (ha : Nesting.after (tokenize a) = .outer)
    {ts us : List Term} (hts : parse (header ++ a) = .ok ts)
    (hus : parse (header ++ (sign.text ++ b)) = .ok us) :
    parse (header ++ (a ++ (sign.text ++ b))) =
      .ok (ts ++ us.map (Term.shift (utf8Length a.toList))) := by
  obtain ⟨t, vs, hcons, ht, -⟩ := exists_afterHeader_sign b sign
  have hseparates : Separates (afterHeader (header ++ a)) (t.shift (utf8Length a.toList)) := by
    refine separates_of_sign ht ?_
    rw [afterHeader_eq, Nesting.after_place]
    exact ha
  have hpieces : piecesAfter [] (afterHeader (header ++ (a ++ (sign.text ++ b)))) =
      piecesAfter [] (afterHeader (header ++ a)) ++
        (piecesAfter [] (afterHeader (header ++ (sign.text ++ b)))).map
          (Piece.map (Token.shift (utf8Length a.toList))) := by
    rw [afterHeader_add, ← piecesAfter_map (Token.toLexeme_shift _), hcons, List.map_cons,
      piecesAfter_append hseparates]
  rw [parse_eq_ok_iff, hpieces]
  refine List.rel_append (parse_eq_ok_iff.mp hts) ?_
  rw [List.forall₂_map_left_iff, List.forall₂_map_right_iff]
  exact (parse_eq_ok_iff.mp hus).imp fun _ _ h => h.shift _

/-! ## The derivative of a sum -/

namespace Term

theorem classify_shift (distance : ℕ) (t : Term) :
    (t.shift distance).classify = t.classify.mapError (Fault.shift distance) := by
  have hlexemes : (t.shift distance).lexemes = t.lexemes := rfl
  cases hfind : TrigCall.find? t.lexemes with
  | some call =>
    rw [classify_of_call hfind, classify_of_call (hlexemes ▸ hfind)]
    cases Shape.ofCall? call <;> rfl
  | none =>
    rw [classify_of_no_call hfind, classify_of_no_call (hlexemes ▸ hfind), hlexemes]
    cases Shape.uncalled? t.lexemes <;> rfl

theorem surviving_shift (distance : ℕ) (ts : List Term) :
    surviving (ts.map (shift distance)) = (surviving ts).mapError (Fault.shift distance) := by
  induction ts with
  | nil => rfl
  | cons t ts ih =>
    have ht := t.classify_shift distance
    rw [List.map_cons]
    cases hclassify : t.classify with
    | error fault =>
      rw [hclassify] at ht
      rw [surviving_cons_of_error hclassify, surviving_cons_of_error ht]
      rfl
    | ok s =>
      rw [hclassify] at ht
      rw [surviving_cons_of_ok hclassify, surviving_cons_of_ok ht, ih]
      cases surviving ts <;> rfl

end Term

theorem survivors_add {a : String} (ha : Nesting.after (tokenize a) = .outer) (b : String)
    (sign : Sign) : survivors (header ++ (a ++ (sign.text ++ b))) =
      survivors (header ++ a) >>= fun ds =>
        ((survivors (header ++ (sign.text ++ b))).mapError
          (Fault.shift (utf8Length a.toList))).map (ds ++ ·) := by
  have hts := Term.parse_header a
  have hus := Term.parse_header (sign.text ++ b)
  have hsum := Term.parse_add ha hts hus
  rw [Term.survivors_eq_bind, Term.survivors_eq_bind, Term.survivors_eq_bind, hts, hus, hsum]
  change Term.surviving _ = Term.surviving _ >>= fun ds =>
    ((Term.surviving _).mapError _).map (ds ++ ·)
  rw [Term.surviving_append, Term.surviving_shift]

/-- **The derivative of a sum is the sum of the derivatives**, if nothing is open after the first
part. A fault of the second part stands further right. -/
theorem differentiate_add (a b : String) (sign : Sign) (hdepth : openDepth (tokenize a) = 0)
    (hcaret : (lastSignificant? (tokenize a)).map (·.kind) ≠ some .caret) :
    (∃ ts us, Term.parse (header ++ a) = .ok ts ∧ Term.parse (header ++ (sign.text ++ b)) = .ok us ∧
      Term.parse (header ++ (a ++ (sign.text ++ b))) =
        .ok (ts ++ us.map (Term.shift (utf8Length a.toList)))) ∧
    ((∃ out, differentiate (header ++ (a ++ (sign.text ++ b))) = .ok out) ↔
      (∃ out, differentiate (header ++ a) = .ok out) ∧
        ∃ out, differentiate (header ++ (sign.text ++ b)) = .ok out) ∧
    (∀ out₁ out₂, differentiate (header ++ a) = .ok out₁ →
      differentiate (header ++ (sign.text ++ b)) = .ok out₂ →
      ∃ ds es, survivors (header ++ a) = .ok ds ∧ survivors (header ++ (sign.text ++ b)) = .ok es ∧
        survivors (header ++ (a ++ (sign.text ++ b))) = .ok (ds ++ es) ∧
        differentiate (header ++ (a ++ (sign.text ++ b))) =
          .ok (WrittenSum.ofSigned (ds ++ es))) ∧
    (∀ fault, differentiate (header ++ a) = .error fault →
      differentiate (header ++ (a ++ (sign.text ++ b))) = .error fault) ∧
    (∀ out fault, differentiate (header ++ a) = .ok out →
      differentiate (header ++ (sign.text ++ b)) = .error fault →
      differentiate (header ++ (a ++ (sign.text ++ b))) =
        .error (fault.shift (utf8Length a.toList))) := by
  have ha := Nesting.after_eq_outer_iff.mpr ⟨hdepth, hcaret⟩
  have hts := Term.parse_header a
  have hus := Term.parse_header (sign.text ++ b)
  refine ⟨⟨_, _, hts, hus, Term.parse_add ha hts hus⟩, ?_⟩
  rw [differentiate_eq_map, differentiate_eq_map, differentiate_eq_map, survivors_add ha]
  cases survivors (header ++ a) with
  | error fault =>
    refine ⟨iff_of_false ?_ ?_, ?_, fun _ h => h, ?_⟩
    · rintro ⟨out, h⟩
      exact nomatch h
    · rintro ⟨⟨out, h⟩, -⟩
      exact nomatch h
    · intro out₁ out₂ h
      exact nomatch h
    · intro out fault' h
      exact nomatch h
  | ok ds =>
    cases survivors (header ++ (sign.text ++ b)) with
    | error fault =>
      refine ⟨iff_of_false ?_ ?_, ?_, ?_, ?_⟩
      · rintro ⟨out, h⟩
        exact nomatch h
      · rintro ⟨-, out, h⟩
        exact nomatch h
      · intro out₁ out₂ _ h
        exact nomatch h
      · intro fault' h
        exact nomatch h
      · intro out fault' _ h
        rw [← Except.error.inj h]
        rfl
    | ok es =>
      refine ⟨iff_of_true ⟨_, rfl⟩ ⟨⟨_, rfl⟩, _, rfl⟩, ?_, ?_, ?_⟩
      · exact fun _ _ _ _ => ⟨ds, es, rfl, rfl, rfl, rfl⟩
      · intro fault h
        exact nomatch h
      · intro out fault _ h
        exact nomatch h

theorem differentiate_add_sine :
    openDepth (tokenize " x^-2 ") = 0 ∧
      (lastSignificant? (tokenize " x^-2 ")).map (·.kind) ≠ some .caret ∧
      differentiate (header ++ (" x^-2 " ++ (Sign.negative.text ++ " sine(x)"))) =
        .error ⟨.unsupportedTerm "sine(x)" ["sin"], [⟨14, 21⟩]⟩ := by
  have hdepth : openDepth (tokenize " x^-2 ") = 0 := by decide +kernel
  have hcaret : (lastSignificant? (tokenize " x^-2 ")).map (·.kind) ≠ some .caret := by
    decide +kernel
  have hleft : differentiate (header ++ " x^-2 ") = .ok "f'(x) = -2x^-3" := by decide +kernel
  have hright : differentiate (header ++ (Sign.negative.text ++ " sine(x)")) =
      .error ⟨.unsupportedTerm "sine(x)" ["sin"], [⟨8, 15⟩]⟩ := by decide +kernel
  obtain ⟨-, -, -, -, hsum⟩ := differentiate_add " x^-2 " " sine(x)" .negative hdepth hcaret
  exact ⟨hdepth, hcaret, hsum _ _ hleft hright⟩

end Fluxion
