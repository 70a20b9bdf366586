import Fluxion.Proofs.Differentiate
import Fluxion.Proofs.Piece.Lexemes

/-!
# What a fault points at

A function is refused for its header or for the first of its terms that has no shape. In the second
case the fault points at that term alone: at its text or, if the term is empty, at its sign.

* `Token.readSign`, `Token.readSign_of_mem`: no sign of a text can be unknown.
* `Term.Placed`, `Term.placed_of_parse`: where the terms of a text stand in it.
* `Fault.Concerns`, `Term.concerns_of_classify`: what is said about a term.
* **`Fault.concerns_of_differentiate`**, **`differentiate_fault`**: every fault of a function is the
  one of its header, or it concerns the first of its terms that has no shape.
-/

namespace Fluxion

/-! ## Signs -/

theorem LexemeKind.eq_symbol_of_ofChar {c : Char} {sign : Sign}
    (h : (ofChar c).sign? = some sign) : c = sign.symbol := by
  unfold ofChar at h
  grind [sign?, Sign.symbol]

theorem Lexeme.Whole.chars_eq {l : Lexeme} (h : l.Whole) {sign : Sign}
    (hsign : l.kind.sign? = some sign) : l.chars = [sign.symbol] := by
  have hsingle : l.kind.joins = false := by
    cases hk : l.kind <;> rw [hk] at hsign <;> first | rfl | exact nomatch hsign
  obtain ⟨c, hc⟩ := List.length_eq_one_iff.mp (h.length_eq hsingle)
  have hkind : (LexemeKind.ofChar c).sign? = some sign := by
    rw [h.ofChar_eq c (hc ▸ List.mem_singleton_self c)]
    exact hsign
  rw [hc, LexemeKind.eq_symbol_of_ofChar hkind]

namespace Token

/-- The sign that a token is, read from its characters. -/
def readSign (t : Token) : Except Fault (Option Sign) :=
  if t.kind.sign?.isSome then
    match Sign.ofString (String.ofList t.chars) with
    | .ok sign => .ok (some sign)
    | .error cause => .error ⟨cause, [t.span]⟩
  else .ok none

theorem whole_of_mem {source : String} {t : Token} (ht : t ∈ tokenize source) :
    t.toLexeme.Whole := by
  have hlexeme : t.toLexeme ∈ (tokenize source).map (·.toLexeme) := List.mem_map_of_mem ht
  rw [tokenize, map_toLexeme_place] at hlexeme
  exact (Lexeme.isScan_scan source.toList).whole _ hlexeme

/-- No sign of a text is unknown. -/
theorem readSign_of_mem {source : String} {t : Token} (ht : t ∈ tokenize source) :
    t.readSign = .ok t.kind.sign? := by
  unfold readSign
  cases hsign : t.kind.sign? with
  | none => rfl
  | some sign =>
    have hread : Sign.ofString (String.ofList t.chars) = .ok sign := by
      rw [(whole_of_mem ht).chars_eq hsign, Sign.ofString, String.toList_ofList]
      exact sign.ofChar_symbol
    rw [hread]
    rfl

end Token

/-! ## Where terms stand -/

theorem IsSlice.stop_le {source text : String} {span : Span} (h : IsSlice source span text) :
    span.stop ≤ utf8Length source.toList := by
  obtain ⟨before, after, hsource, -, hstop⟩ := h
  rw [hsource, utf8Length_append, hstop]
  exact Nat.le_add_right _ _

/-- A term stands in the text: its own text does if it is not empty, and otherwise its sign. -/
structure Term.Placed (source : String) (t : Term) : Prop where
  start_lt : t.span.start < t.span.stop
  stop_le : t.span.stop ≤ utf8Length source.toList
  text : t.text ≠ "" → IsSlice source t.span t.text
  sign : t.text = "" → IsSlice source t.span t.sign.text

theorem Piece.Forms.placed {rest : String} {p : Piece} {t : Term}
    (h : p.Forms (header ++ rest) t) (hp : ∀ s ∈ p.all, s ∈ afterHeader (header ++ rest))
    (hlt : t.span.start < t.span.stop) : t.Placed (header ++ rest) := by
  cases h with
  | text _ _ _ _ htext =>
    have hne : t.text ≠ "" := fun hempty => by
      obtain ⟨before, after, -, hstart, hstop⟩ := htext
      rw [hempty, String.toList_empty, List.append_nil, hstart] at hstop
      exact hlt.ne hstop
    exact ⟨hlt, htext.stop_le, fun _ => htext, fun hempty => absurd hempty hne⟩
  | @empty s hsign _ hseparator hspan htext =>
    have hs : s ∈ afterHeader (header ++ rest) := by
      refine hp s (List.mem_append_left _ ?_)
      rw [hseparator]
      exact List.mem_singleton_self s
    have hkind : s.kind.sign? = some t.sign := by
      rw [sign?, hseparator] at hsign
      exact hsign
    have hmem : s ∈ tokenize (header ++ rest) := (List.mem_filter.mp hs).1
    have hslice := Token.isSlice_of_mem hmem
    rw [(Token.whole_of_mem hmem).chars_eq hkind, ← hspan] at hslice
    exact ⟨hlt, hslice.stop_le, fun hne => absurd htext hne, fun _ => hslice⟩

theorem exists_of_forall₂ {α β : Type} {R : α → β → Prop} {as : List α} {bs : List β}
    (h : List.Forall₂ R as bs) {b : β} (hb : b ∈ bs) : ∃ a ∈ as, R a b := by
  induction h with
  | nil => exact absurd hb List.not_mem_nil
  | @cons a _ as _ hab _ ih =>
    rcases List.mem_cons.mp hb with rfl | hb
    · exact ⟨a, List.mem_cons_self, hab⟩
    · obtain ⟨a', ha', hab'⟩ := ih hb
      exact ⟨a', List.mem_cons_of_mem _ ha', hab'⟩

/-- Every term of a text stands in it. -/
theorem Term.placed_of_parse {source : String} {terms : List Term} (h : parse source = .ok terms) :
    ∀ t ∈ terms, t.Placed source := by
  obtain ⟨rest, rfl⟩ := exists_rest_of_parse h
  have hbuilds := parse_eq_ok_iff.mp h
  obtain ⟨skipped, hskipped⟩ := Piece.exists_append_piecesAfter [] (afterHeader (header ++ rest))
  obtain ⟨stop, hrun⟩ := run_afterHeader rest
  obtain ⟨start, -, hpieces⟩ := (hskipped ▸ hrun).append
  obtain ⟨hspans, -⟩ := Piece.ordered_of_builds hbuilds hpieces
  intro t ht
  obtain ⟨p, hp, hforms⟩ := exists_of_forall₂ (Piece.forms_of_builds hbuilds hskipped) ht
  refine hforms.placed (fun s hs => ?_) (hspans t ht).2
  rw [hskipped]
  exact List.mem_append_right _ (List.mem_flatMap.mpr ⟨p, hp, hs⟩)

/-! ## What is said about a term -/

namespace Term

theorem parse_eq_error {source : String} {fault : Fault} (h : parse source = .error fault) :
    hasHeader source = false ∧ fault = .missingHeader source := by
  cases hheader : hasHeader source with
  | true =>
    obtain ⟨rest, rfl⟩ := hasHeader_iff.mp hheader
    rw [parse_header] at h
    exact nomatch h
  | false =>
    unfold parse TermReader.readAll TermReader.ofSource requireHeader at h
    rw [if_neg (Bool.eq_false_iff.mp hheader)] at h
    exact ⟨rfl, (Except.error.inj h).symm⟩

theorem classify_empty {t : Term} (h : t.text = "") :
    t.classify = .error ⟨.unsupportedTerm "" [], [t.span]⟩ := by
  have hlexemes : t.lexemes = [] := by
    unfold lexemes
    rw [h]
    rfl
  rw [classify_of_no_call (by rw [hlexemes]; rfl), hlexemes, h]
  rfl

end Term

/-- The fault is about the term and points at it alone. -/
structure Fault.Concerns (fault : Fault) (t : Term) : Prop where
  spans : fault.spans = [t.span]
  cause : fault.cause = .invalidTrigTerm t.text ∨
    ∃ names, fault.cause = .unsupportedTerm t.text names
  empty : t.text = "" → fault.cause = .unsupportedTerm "" []

theorem Term.concerns_of_classify {t : Term} {fault : Fault} (h : t.classify = .error fault) :
    fault.Concerns t := by
  have hcause : fault.spans = [t.span] ∧ (fault.cause = .invalidTrigTerm t.text ∨
      ∃ names, fault.cause = .unsupportedTerm t.text names) := by
    have hwritten := not_written_of_error h
    by_cases hcall : Grammar.HasCall t.lexemes
    · rw [classify_of_hasCall hcall hwritten] at h
      rw [← Except.error.inj h]
      exact ⟨rfl, .inl rfl⟩
    · rw [classify_of_not_hasCall hcall hwritten] at h
      rw [← Except.error.inj h]
      exact ⟨rfl, .inr ⟨_, rfl⟩⟩
  refine ⟨hcause.1, hcause.2, fun hempty => ?_⟩
  rw [classify_empty hempty] at h
  rw [← Except.error.inj h]

/-! ## Functions -/

theorem Fault.concerns_of_differentiate {rest : String} {fault : Fault}
    (h : differentiate (header ++ rest) = .error fault) :
    ∃ before t after, Term.parse (header ++ rest) = .ok (before ++ t :: after) ∧
      (∀ u ∈ before, ∃ s, u.classify = .ok s) ∧ t.classify = .error fault ∧
        fault.Concerns t ∧ t.Placed (header ++ rest) := by
  rcases exists_of_differentiate_eq_error h with hparse | ⟨before, t, after, hparse, hbefore, ht⟩
  · rw [Term.parse_header] at hparse
    exact nomatch hparse
  · refine ⟨before, t, after, hparse, hbefore, ht, t.concerns_of_classify ht, ?_⟩
    exact Term.placed_of_parse hparse t (by simp)

/-- **Every fault of a function is the one of its header, or it concerns the first of its terms that
has no shape.** -/
theorem differentiate_fault {source : String} {fault : Fault}
    (h : differentiate source = .error fault) :
    (hasHeader source = false ∧ fault = .missingHeader source ∨
      ∃ before t after, Term.parse source = .ok (before ++ t :: after) ∧
        (∀ u ∈ before, ∃ s, u.classify = .ok s) ∧ t.classify = .error fault ∧
          fault.Concerns t ∧ t.Placed source) ∧
      ∀ t ∈ tokenize source, t.readSign = .ok t.kind.sign? := by
  refine ⟨?_, fun t ht => Token.readSign_of_mem ht⟩
  cases hheader : hasHeader source with
  | true =>
    obtain ⟨rest, rfl⟩ := hasHeader_iff.mp hheader
    exact .inr (Fault.concerns_of_differentiate h)
  | false =>
    rcases exists_of_differentiate_eq_error h with hparse | ⟨before, t, after, hparse, -, -⟩
    · exact .inl ⟨rfl, (Term.parse_eq_error hparse).2⟩
    · rw [hasHeader_iff.mpr (Term.exists_rest_of_parse hparse)] at hheader
      exact nomatch hheader

theorem differentiate_fault_sign :
    differentiate "f(x) = 2x + - sin(x)" = .error ⟨.unsupportedTerm "" [], [⟨10, 11⟩]⟩ ∧
      ∃ before t after, Term.parse "f(x) = 2x + - sin(x)" = .ok (before ++ t :: after) ∧
        (∀ u ∈ before, ∃ s, u.classify = .ok s) ∧
        t.classify = .error ⟨.unsupportedTerm "" [], [⟨10, 11⟩]⟩ ∧
        t.Placed "f(x) = 2x + - sin(x)" := by
  have h : differentiate "f(x) = 2x + - sin(x)" =
      .error ⟨.unsupportedTerm "" [], [⟨10, 11⟩]⟩ := by decide +kernel
  obtain ⟨before, t, after, hparse, hbefore, ht, -, hplaced⟩ :=
    (differentiate_fault h).1.resolve_left fun hheader => absurd hheader.2 (by decide +kernel)
  exact ⟨h, before, t, after, hparse, hbefore, ht, hplaced⟩

end Fluxion
