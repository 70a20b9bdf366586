import Fluxion.Proofs.Addition
import Fluxion.Proofs.Piece.Lexemes

/-!
# Terms written one after the other

Terms that were read from a text can be written one directly after the other, each with its sign.
What is written has the same terms and the same derivative.

* `Term.renderAll`: the terms as one text.
* `Term.IsBody`, `Term.IsReading`: what is true of the texts of terms that were read.
* `Term.isReading_of_parse`: that it is.
* `Term.parse_signed`, `Term.IsBody.parse_render`: one term is read back.
* `Term.IsReading.exists_parse`: so are all of them.
* **`Term.parse_renderAll`**: the terms of a text are read back, and have the same derivative.
-/

namespace Fluxion

namespace Term

/-- The terms with their signs, one directly after the other. -/
def renderAll (ts : List Term) : String := String.join (ts.map render)

theorem renderAll_cons (t : Term) (ts : List Term) :
    renderAll (t :: ts) = t.render ++ renderAll ts := String.join_cons

/-- The terms have the same sign and the same text, wherever they stand. -/
def Agrees (t u : Term) : Prop := t.sign = u.sign ∧ t.text = u.text

theorem Agrees.alike {t u : Term} (h : t.Agrees u) : t.Alike u := by
  refine ⟨h.1, ?_⟩
  unfold lexemes
  rw [h.2]

/-! ## The texts of terms -/

/-- No sign in the text parts two terms, and there is no whitespace at its ends. -/
structure IsBody (text : String) : Prop where
  unparted : Unparted (tokenize text)
  trimmed : String.ofList (tokenChars (trimTokens (tokenize text))) = text

/-- Every term has such a text, and nothing is open after a term that another one follows. -/
structure IsReading (ts : List Term) : Prop where
  body : ∀ t ∈ ts, IsBody t.text
  closed : ts.IsChain fun t _ => Nesting.after (tokenize t.text) = .outer

theorem tokenChars_trimTokens_congr {ts us : List Token}
    (h : ts.map (·.toLexeme) = us.map (·.toLexeme)) :
    tokenChars (trimTokens ts) = tokenChars (trimTokens us) := by
  have hbare (ts : List Token) : tokenChars (trimTokens ((ts.map (·.toLexeme)).map Token.bare)) =
      tokenChars (trimTokens ts) := by
    rw [List.map_map, trimTokens_map Token.toLexeme_bare, tokenChars_map Token.toLexeme_bare]
  rw [← hbare, h, hbare]

end Term

theorem significantLexemes_congr {ts us : List Token}
    (h : ts.map (·.toLexeme) = us.map (·.toLexeme)) :
    significantLexemes ts = significantLexemes us := by
  rw [← filter_map_toLexeme, h, filter_map_toLexeme]

theorem blank_congr {ts us : List Token} (h : ts.map (·.toLexeme) = us.map (·.toLexeme))
    (hts : ∀ t ∈ ts, t.isWhitespace) : ∀ u ∈ us, u.isWhitespace := by
  intro u hu
  have hmem : u.toLexeme ∈ ts.map (·.toLexeme) := h ▸ List.mem_map_of_mem hu
  obtain ⟨t, ht, heq⟩ := List.mem_map.mp hmem
  rw [← heq]
  exact hts t ht

theorem unparted_congr {ts us : List Token} (h : significantLexemes ts = significantLexemes us) :
    Unparted ts = Unparted us :=
  eq_of_significantLexemes (fun _ hf ts => unparted_map hf ts) unparted_filter h

theorem Nesting.after_congr {ts us : List Token} (h : significantLexemes ts = significantLexemes us) :
    after ts = after us :=
  eq_of_significantLexemes (fun _ hf ts => after_map hf ts) after_filter h

namespace Piece

theorem Builds.significantLexemes_text {p : Piece} {t : Term} (h : p.Builds t)
    (hp : Lexeme.IsScan (p.tokens.map (·.toLexeme))) :
    significantLexemes (tokenize t.text) = significantLexemes p.tokens := by
  rw [← filter_map_toLexeme, map_toLexeme_tokenize]
  exact congrArg Prod.snd (h.content_eq hp)

theorem Builds.isBody {p : Piece} {t : Term} (h : p.Builds t)
    (hp : Lexeme.IsScan (p.tokens.map (·.toLexeme))) (hunparted : Unparted p.tokens) :
    Term.IsBody t.text where
  unparted := by
    rw [unparted_congr (h.significantLexemes_text hp)]
    exact hunparted
  trimmed := by
    have htokens : (tokenize t.text).map (·.toLexeme) =
        (Term.trimTokens p.tokens).map (·.toLexeme) :=
      (map_toLexeme_tokenize _).trans (h.scan_text hp)
    rw [Term.tokenChars_trimTokens_congr htokens, Term.trimTokens_trimTokens, h.text_eq]

theorem isReading_of_builds {ps : List Piece} {ts : List Term} (h : List.Forall₂ Builds ps ts)
    (hscan : ∀ p ∈ ps, Lexeme.IsScan (p.tokens.map (·.toLexeme)))
    (hunparted : ∀ p ∈ ps, Unparted p.tokens)
    (hclosed : ps.IsChain fun p _ => Nesting.after p.tokens = .outer) : Term.IsReading ts := by
  induction h with
  | nil => exact ⟨fun _ h => absurd h List.not_mem_nil, .nil⟩
  | @cons p t ps ts hbuilds hrest ih =>
    obtain ⟨hp, hscan⟩ := List.forall_mem_cons.mp hscan
    obtain ⟨hpiece, hunparted⟩ := List.forall_mem_cons.mp hunparted
    obtain ⟨houter, hclosed⟩ := List.isChain_cons.mp hclosed
    obtain ⟨hbody, hchain⟩ := ih hscan hunparted hclosed
    refine ⟨List.forall_mem_cons.mpr ⟨hbuilds.isBody hp hpiece, hbody⟩,
      List.isChain_cons.mpr ⟨fun u hu => ?_, hchain⟩⟩
    rw [Nesting.after_congr (hbuilds.significantLexemes_text hp)]
    cases hrest with
    | nil => exact nomatch hu
    | cons _ _ => exact houter _ rfl

end Piece

/-! ## Reading back -/

namespace Term

theorem isReading_of_parse {source : String} {terms : List Term} (h : parse source = .ok terms) :
    IsReading terms := by
  obtain ⟨rest, rfl⟩ := exists_rest_of_parse h
  exact Piece.isReading_of_builds (parse_eq_ok_iff.mp h) (fun _ hp => Piece.isScan_of_mem hp)
    (fun _ hp => unparted_of_mem_piecesAfter hp) (isChain_piecesAfter _)

/-- A sign and text that is not parted are a single term. -/
theorem parse_signed {b : String} (h : Unparted (tokenize b)) (sign : Sign) :
    ∃ u, parse (header ++ (sign.text ++ b)) = .ok [u] ∧ u.sign = sign ∧
      u.text = String.ofList (tokenChars (trimTokens (tokenize b))) := by
  obtain ⟨s, ts, hcons, hs, hscan⟩ := exists_afterHeader_sign b sign
  have htokens : (tokenize b).map (·.toLexeme) = ts.map (·.toLexeme) :=
    (map_toLexeme_tokenize b).trans hscan.symm
  have hunparted : Unparted ts := by
    rw [← unparted_congr (significantLexemes_congr htokens)]
    exact h
  have hbuilds : Piece.Builds ⟨some s, ts⟩ (ofTokens sign s.span ts) := .separated hs
  refine ⟨_, parse_eq_ok_iff.mpr ?_, (Option.some.inj (hs.symm.trans hbuilds.sign_eq)).symm, ?_⟩
  · rw [hcons, piecesAfter_of_unparted hs hunparted]
    exact .cons hbuilds .nil
  · rw [text_ofTokens, ← tokenChars_trimTokens_congr htokens]

theorem parse_unsigned {b : String} (h : Unparted (tokenize b))
    (hb : ¬ ∀ t ∈ tokenize b, t.isWhitespace) :
    ∃ u, parse (header ++ b) = .ok [u] ∧ u.sign = .positive ∧
      u.text = String.ofList (tokenChars (trimTokens (tokenize b))) := by
  have htokens : (tokenize b).map (·.toLexeme) =
      (afterHeader (header ++ b)).map (·.toLexeme) := by
    rw [afterHeader_eq, Token.map_toLexeme_place, map_toLexeme_tokenize]
  have hunparted : Unparted (afterHeader (header ++ b)) := by
    rw [← unparted_congr (significantLexemes_congr htokens)]
    exact h
  have hsignificant : ¬ ∀ t ∈ afterHeader (header ++ b), t.isWhitespace :=
    mt (blank_congr htokens.symm) hb
  have hbuilds : Piece.Builds ⟨none, afterHeader (header ++ b)⟩
      (ofTokens .positive (.point 0) (afterHeader (header ++ b))) := .leading hsignificant _
  refine ⟨_, parse_eq_ok_iff.mpr ?_, (Option.some.inj hbuilds.sign_eq).symm, ?_⟩
  · rw [piecesAfter_of_unparted_unsigned hunparted hsignificant]
    exact .cons hbuilds .nil
  · rw [text_ofTokens, ← tokenChars_trimTokens_congr htokens]

/-- A single term is read back. -/
theorem IsBody.parse_render {t : Term} (h : IsBody t.text) :
    ∃ u, parse (header ++ t.render) = .ok [u] ∧ t.Agrees u := by
  obtain ⟨u, hu, hsign, htext⟩ := parse_signed h.unparted t.sign
  exact ⟨u, hu, hsign.symm, (htext.trans h.trimmed).symm⟩

theorem after_sign_append (sign : Sign) (b : String) :
    Nesting.after (tokenize (sign.text ++ b)) = Nesting.after (tokenize b) := by
  have hsome := Option.isSome_of_eq_some sign.ofChar_symbol_kind
  have hsign (span : Span) :
      Nesting.after [⟨⟨.ofChar sign.symbol, [sign.symbol]⟩, span⟩] = .outer :=
    Nesting.after_sign (LexemeKind.sign?_isSome.mp hsome)
  unfold tokenize
  rw [toList_sign, Lexeme.scan_cons_single sign.not_joins, Token.place_cons,
    ← Nesting.after_place (0 + _)]
  exact Nesting.after_append_of_outer (hsign _) _

/-- **Terms with such texts are read back**, with the same signs and texts. -/
theorem IsReading.exists_parse {ts : List Term} (h : IsReading ts) :
    ∃ us, parse (header ++ renderAll ts) = .ok us ∧ List.Forall₂ Agrees ts us := by
  induction ts with
  | nil => exact ⟨[], parse_eq_ok_iff.mpr .nil, .nil⟩
  | cons t ts ih =>
    obtain ⟨hbody, hchain⟩ := h
    obtain ⟨ht, hts⟩ := List.forall_mem_cons.mp hbody
    obtain ⟨hclosed, hchain⟩ := List.isChain_cons.mp hchain
    obtain ⟨u, hu, hagrees⟩ := ht.parse_render
    obtain ⟨us, hus, hforall⟩ := ih ⟨hts, hchain⟩
    cases ts with
    | nil =>
      have hrender : renderAll [t] = t.render := by
        rw [renderAll_cons]
        exact String.append_empty
      rw [hrender]
      exact ⟨[u], hu, .cons hagrees .nil⟩
    | cons v vs =>
      -- the next sign begins a new term, because nothing is open
      have houter : Nesting.after (tokenize t.render) = .outer :=
        (after_sign_append t.sign t.text).trans (hclosed v rfl)
      have hrest : renderAll (v :: vs) = v.sign.text ++ (v.text ++ renderAll vs) := by
        rw [renderAll_cons, render, String.append_assoc]
      rw [hrest] at hus
      rw [renderAll_cons, hrest]
      refine ⟨_, parse_add houter hu hus, .cons hagrees ?_⟩
      exact List.forall₂_map_right_iff.mpr hforall

end Term

/-- **Terms that are written one after the other are read back**, with the same signs and texts, and
with the same derivative if there is one. -/
theorem Term.parse_renderAll {source : String} {terms : List Term}
    (h : parse source = .ok terms) :
    ∃ us, parse (header ++ renderAll terms) = .ok us ∧
      List.Forall₂ (fun t u => t.sign = u.sign ∧ t.text = u.text) terms us ∧
      ∀ out, Fluxion.differentiate (header ++ renderAll terms) = .ok out ↔
        Fluxion.differentiate source = .ok out := by
  obtain ⟨us, hus, hagree⟩ := (isReading_of_parse h).exists_parse
  refine ⟨us, hus, hagree, fun out => ?_⟩
  rw [differentiate_of_parse h, differentiate_of_parse hus]
  have halike : List.Forall₂ Alike terms us := hagree.imp fun _ _ h => h.alike
  rcases surviving_of_alike halike with ⟨ds, hds, hes⟩ | ⟨i, f, g, hf, hg, -⟩
  · rw [hds, hes]
  · rw [hf.surviving_eq, hg.surviving_eq]
    exact iff_of_false nofun nofun

theorem Term.parse_renderAll_open : ∃ terms us,
    parse "f(x) = x ^ -2 - - (x - 1" = .ok terms ∧
      terms.map render = ["+x ^ -2", "-", "-(x - 1"] ∧
      parse "f(x) =+x ^ -2--(x - 1" = .ok us ∧
      List.Forall₂ (fun t u => t.sign = u.sign ∧ t.text = u.text) terms us := by
  have hterms : parse "f(x) = x ^ -2 - - (x - 1" =
      .ok [⟨.positive, "x ^ -2", ⟨7, 13⟩⟩, ⟨.negative, "", ⟨14, 15⟩⟩,
        ⟨.negative, "(x - 1", ⟨18, 24⟩⟩] := by decide +kernel
  obtain ⟨us, hus, hagree, -⟩ := parse_renderAll hterms
  exact ⟨_, us, hterms, rfl, hus, hagree⟩

end Fluxion
