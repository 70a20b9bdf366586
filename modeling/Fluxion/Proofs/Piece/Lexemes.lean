import Fluxion.Proofs.Lexeme.Scan
import Fluxion.Proofs.Piece
import Fluxion.Proofs.Survivors

/-!
# The lexemes of terms

A term is read for a piece of the text and classified by the lexemes of its own text. These are the
lexemes of the piece, so what a function means depends on the lexemes of its text alone, and not on
the whitespace among them.

* `Piece.Builds.scan_text`: the text of a term is cut as it was where it stood.
* `Piece.content`, `Term.content`: signs, and lexemes that mean something.
* `map_content_piecesAfter`: the pieces have the same content if the tokens do.
* **`Term.map_content_of_parse`**: the terms of a text have the content of its pieces.
-/

namespace Fluxion

/-! ## Tokens without places -/

/-- The lexemes of tokens, without whitespace. -/
def significantLexemes (ts : List Token) : List Lexeme :=
  (ts.filter (!·.isWhitespace)).map (·.toLexeme)

theorem filter_map_toLexeme (ts : List Token) :
    (ts.map (·.toLexeme)).filter (!·.isWhitespace) = significantLexemes ts := by
  rw [List.filter_map]
  rfl

theorem significantLexemes_trimTokens (ts : List Token) :
    significantLexemes (Term.trimTokens ts) = significantLexemes ts := by
  unfold significantLexemes
  rw [Term.filter_trimTokens]

namespace Token

/-- A token that stands nowhere in particular. -/
def bare (l : Lexeme) : Token := ⟨l, .point 0⟩

theorem toLexeme_bare (t : Token) : ((bare ∘ (·.toLexeme)) t).toLexeme = t.toLexeme := rfl

end Token

/-- What depends on neither places nor whitespace depends on the lexemes alone. -/
theorem eq_of_significantLexemes {α : Type} {F : List Token → α}
    (hmap : ∀ f : Token → Token, (∀ t, (f t).toLexeme = t.toLexeme) → ∀ ts, F (ts.map f) = F ts)
    (hfilter : ∀ ts, F (ts.filter (!·.isWhitespace)) = F ts) {ts us : List Token}
    (h : significantLexemes ts = significantLexemes us) : F ts = F us := by
  have hbare (ts : List Token) : F ((significantLexemes ts).map Token.bare) = F ts := by
    rw [significantLexemes, List.map_map, hmap _ Token.toLexeme_bare, hfilter]
  rw [← hbare, h, hbare]

/-! ## The contents of pieces -/

namespace Piece

/-- The sign, and the lexemes that mean something. -/
def content (p : Piece) : Option Sign × List Lexeme := (p.sign?, significantLexemes p.tokens)

theorem content_map {f : Token → Token} (hf : ∀ t, (f t).toLexeme = t.toLexeme) (p : Piece) :
    (p.map f).content = p.content := by
  have hlexemes : significantLexemes (p.tokens.map f) = significantLexemes p.tokens := by
    rw [← filter_map_toLexeme, ← filter_map_toLexeme, List.map_map]
    congr 2
    funext t
    exact hf t
  have hsign : (p.map f).sign? = p.sign? := by
    cases p with
    | mk separator tokens =>
      cases separator with
      | none => rfl
      | some s => exact congrArg (fun l => l.kind.sign?) (hf s)
  exact Prod.ext hsign hlexemes

theorem content_significant (p : Piece) : p.significant.content = p.content := by
  refine Prod.ext rfl ?_
  change significantLexemes (p.tokens.filter (!·.isWhitespace)) = significantLexemes p.tokens
  unfold significantLexemes
  simp only [List.filter_filter, Bool.and_self]

end Piece

theorem map_content_piecesAfter {ts us : List Token}
    (h : significantLexemes ts = significantLexemes us) :
    (piecesAfter [] ts).map Piece.content = (piecesAfter [] us).map Piece.content := by
  refine eq_of_significantLexemes (F := fun ts => (piecesAfter [] ts).map Piece.content) ?_ ?_ h
  · intro f hf ts
    rw [piecesAfter_map hf, List.map_map]
    congr 1
    funext p
    exact Piece.content_map hf p
  · intro ts
    rw [piecesAfter_filter, List.map_map]
    congr 1
    funext p
    exact Piece.content_significant p

/-! ## The contents of terms -/

namespace Term

/-- The sign, and the lexemes that mean something. -/
def content (t : Term) : Option Sign × List Lexeme := (some t.sign, t.lexemes)

theorem tokenChars_eq_flatMap (ts : List Token) :
    tokenChars ts = (ts.map (·.toLexeme)).flatMap (·.chars) := by
  rw [List.flatMap_map]
  rfl

end Term

namespace Piece

theorem Builds.text_eq {p : Piece} {t : Term} (h : p.Builds t) :
    t.text = String.ofList (Term.tokenChars (Term.trimTokens p.tokens)) := by
  cases h with
  | leading => exact Term.text_ofTokens _ _ _
  | separated => exact Term.text_ofTokens _ _ _

/-- **The text of a term is cut as it was where it stood.** -/
theorem Builds.scan_text {p : Piece} {t : Term} (h : p.Builds t)
    (hp : Lexeme.IsScan (p.tokens.map (·.toLexeme))) :
    Lexeme.scan t.text.toList = (Term.trimTokens p.tokens).map (·.toLexeme) := by
  have hmiddle : Term.trimTokens p.tokens <:+: p.tokens := by
    obtain ⟨before, after, hts, -, -⟩ := Term.exists_append_trimTokens p.tokens
    exact ⟨before, after, hts.symm⟩
  rw [h.text_eq, String.toList_ofList, Term.tokenChars_eq_flatMap]
  exact Lexeme.scan_flatMap (hp.part (hmiddle.map _))

theorem Builds.content_eq {p : Piece} {t : Term} (h : p.Builds t)
    (hp : Lexeme.IsScan (p.tokens.map (·.toLexeme))) : t.content = p.content := by
  refine Prod.ext h.sign_eq.symm ?_
  change (Lexeme.scan t.text.toList).filter _ = _
  rw [h.scan_text hp, filter_map_toLexeme]
  exact significantLexemes_trimTokens p.tokens

theorem infix_of_mem {rest : String} {p : Piece}
    (hp : p ∈ piecesAfter [] (afterHeader (header ++ rest))) :
    p.tokens <:+: tokenize (header ++ rest) := by
  have htokens : tokenize (header ++ rest) =
      Token.place 0 (Lexeme.scan header.toList) ++ afterHeader (header ++ rest) := by
    rw [tokenize_header, afterHeader_eq]
  obtain ⟨skipped, hskipped⟩ := exists_append_piecesAfter [] (afterHeader (header ++ rest))
  obtain ⟨ps, qs, hpieces⟩ := List.append_of_mem hp
  rw [hpieces, List.flatMap_append, List.flatMap_cons, all] at hskipped
  rw [htokens, hskipped]
  exact ⟨Token.place 0 (Lexeme.scan header.toList) ++ skipped ++ ps.flatMap all ++
    p.separator.toList, qs.flatMap all, by simp only [List.append_assoc]⟩

theorem isScan_of_mem {rest : String} {p : Piece}
    (hp : p ∈ piecesAfter [] (afterHeader (header ++ rest))) :
    Lexeme.IsScan (p.tokens.map (·.toLexeme)) := by
  have hscan := Lexeme.isScan_scan (header ++ rest).toList
  rw [← map_toLexeme_tokenize] at hscan
  exact hscan.part ((infix_of_mem hp).map _)

theorem map_content_of_builds {ps : List Piece} {ts : List Term} (h : List.Forall₂ Builds ps ts)
    (hps : ∀ p ∈ ps, Lexeme.IsScan (p.tokens.map (·.toLexeme))) :
    ts.map Term.content = ps.map content := by
  induction h with
  | nil => rfl
  | cons hbuilds _ ih =>
    obtain ⟨hp, hps⟩ := List.forall_mem_cons.mp hps
    rw [List.map_cons, List.map_cons, hbuilds.content_eq hp, ih hps]

end Piece

namespace Term

/-- **The terms of a text have the content of its pieces.** -/
theorem map_content_of_parse {rest : String} {terms : List Term}
    (h : parse (header ++ rest) = .ok terms) :
    terms.map content = (piecesAfter [] (afterHeader (header ++ rest))).map Piece.content :=
  Piece.map_content_of_builds (parse_eq_ok_iff.mp h) fun _ hp => Piece.isScan_of_mem hp

theorem forall₂_alike {ts us : List Term} (h : ts.map content = us.map content) :
    List.Forall₂ Alike ts us := by
  rw [← List.forall₂_eq_eq_eq, List.forall₂_map_left_iff, List.forall₂_map_right_iff] at h
  refine h.imp fun t u htu => ?_
  obtain ⟨hsign, hlexemes⟩ := Prod.mk.inj htu
  exact ⟨Option.some.inj hsign, hlexemes⟩

end Term

end Fluxion
