import Fluxion.Proofs.Piece.Lexemes

/-!
# Whitespace

Whitespace between lexemes never matters: functions that are the same apart from it have the same
derivative, or the same term of both is at fault for the same reason.

* `significant_header`: the header and the tokens after it.
* `Term.alike_of_significant_eq`: the terms of texts that agree apart from whitespace.
* `FailsAt`: which term of a function is at fault.
* **`differentiate_whitespace`**: the derivatives of such texts, or what is at fault.
-/

namespace Fluxion

theorem significant_header (rest : String) : Lexeme.significant (header ++ rest).toList =
    Lexeme.significant header.toList ++ significantLexemes (afterHeader (header ++ rest)) := by
  unfold Lexeme.significant
  rw [String.toList_append, Lexeme.scan_header, List.filter_append, afterHeader_eq,
    ← filter_map_toLexeme, Token.map_toLexeme_place]

theorem Term.alike_of_significant_eq {rest₁ rest₂ : String}
    (h : Lexeme.significant (header ++ rest₁).toList = Lexeme.significant (header ++ rest₂).toList)
    {ts us : List Term} (hts : parse (header ++ rest₁) = .ok ts)
    (hus : parse (header ++ rest₂) = .ok us) : List.Forall₂ Alike ts us := by
  rw [significant_header, significant_header] at h
  apply forall₂_alike
  rw [map_content_of_parse hts, map_content_of_parse hus]
  exact map_content_piecesAfter (List.append_cancel_left h)

/-- The derivative of the function fails with the fault of its term of index `i`. -/
def FailsAt (source : String) (i : ℕ) (fault : Fault) : Prop :=
  differentiate source = .error fault ∧
    ∃ terms, Term.parse source = .ok terms ∧ Term.FailsAt terms i fault

theorem failsAt_of_parse {source : String} {terms : List Term}
    (hterms : Term.parse source = .ok terms) {i : ℕ} {fault : Fault}
    (h : Term.FailsAt terms i fault) : FailsAt source i fault := by
  refine ⟨?_, terms, hterms, h⟩
  rw [Term.differentiate_of_parse hterms, h.surviving_eq]
  rfl

/-- **Whitespace between lexemes never matters**, neither for a derivative nor for the term at
fault. -/
theorem differentiate_whitespace {source₁ source₂ : String} (h₁ : hasHeader source₁ = true)
    (h₂ : hasHeader source₂ = true)
    (h : Lexeme.significant source₁.toList = Lexeme.significant source₂.toList) :
    (∃ out, differentiate source₁ = .ok out ∧ differentiate source₂ = .ok out) ∨
      ∃ i f g, FailsAt source₁ i f ∧ FailsAt source₂ i g ∧ f.cause.Alike g.cause := by
  obtain ⟨rest₁, rfl⟩ := hasHeader_iff.mp h₁
  obtain ⟨rest₂, rfl⟩ := hasHeader_iff.mp h₂
  have hts := Term.parse_header rest₁
  have hus := Term.parse_header rest₂
  have halike := Term.alike_of_significant_eq h hts hus
  rcases Term.surviving_of_alike halike with ⟨ds, hds, hes⟩ | ⟨i, f, g, hf, hg, hcause⟩
  · refine .inl ⟨WrittenSum.ofSigned ds, ?_, ?_⟩
    · rw [Term.differentiate_of_parse hts, hds]
      rfl
    · rw [Term.differentiate_of_parse hus, hes]
      rfl
  · exact .inr ⟨i, f, g, failsAt_of_parse hts hf, failsAt_of_parse hus hg, hcause⟩

theorem differentiate_whitespace_sine :
    hasHeader "f(x) = 2x^ -3 - sine ( x)" = true ∧ hasHeader "f(x) =2x^-3-sine(x)" = true ∧
      Lexeme.significant "f(x) = 2x^ -3 - sine ( x)".toList =
        Lexeme.significant "f(x) =2x^-3-sine(x)".toList ∧
      ∃ i f g, FailsAt "f(x) = 2x^ -3 - sine ( x)" i f ∧ FailsAt "f(x) =2x^-3-sine(x)" i g ∧
        f.cause.Alike g.cause := by
  have h₁ : hasHeader "f(x) = 2x^ -3 - sine ( x)" = true := by decide +kernel
  have h₂ : hasHeader "f(x) =2x^-3-sine(x)" = true := by decide +kernel
  have h : Lexeme.significant "f(x) = 2x^ -3 - sine ( x)".toList =
      Lexeme.significant "f(x) =2x^-3-sine(x)".toList := by decide +kernel
  have hfault : differentiate "f(x) =2x^-3-sine(x)" =
      .error ⟨.unsupportedTerm "sine(x)" ["sin"], [⟨12, 19⟩]⟩ := by decide +kernel
  refine ⟨h₁, h₂, h, (differentiate_whitespace h₁ h₂ h).resolve_left ?_⟩
  rintro ⟨out, -, hout⟩
  rw [hfault] at hout
  exact nomatch hout

end Fluxion
