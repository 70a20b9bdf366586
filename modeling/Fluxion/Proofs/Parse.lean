import Fluxion.Proofs.Splitting
import Mathlib.Data.List.Pairwise

/-!
# The terms of a text

* `Piece.Forms`: the term that stands for a piece, in terms of the text.
* `Piece.Builds.forms`: the term that is read for a piece is that one.
* `Piece.Builds.within`, `ordered_of_builds`: where the terms stand.
* `mem_piecesAfter`: which tokens the pieces hold.
* **`Term.parse_splits`**: every text with the header is split into the terms of its pieces, in
  their order and side by side, and no token is lost.
-/

namespace Fluxion

/-- The span of a term contains the other span. -/
def Term.Covers (term : Term) (span : Span) : Prop :=
  term.span.start ≤ span.start ∧ span.stop ≤ term.span.stop

namespace Piece

/-- The sign of a piece: that of its separator, or else positive. -/
def sign? (p : Piece) : Option Sign :=
  match p.separator with
  | none => some .positive
  | some s => s.kind.sign?

/-- The term has the sign of the piece, and the text from the first to the last token of it that is
not whitespace. -/
inductive Forms (source : String) (p : Piece) (term : Term) : Prop where
  | text {first last : Token} (hsign : p.sign? = some term.sign)
      (hfirst : p.tokens.find? (!·.isWhitespace) = some first)
      (hlast : p.tokens.reverse.find? (!·.isWhitespace) = some last)
      (hspan : term.span = ⟨first.span.start, last.span.stop⟩)
      (htext : IsSlice source term.span term.text)
  | empty {s : Token} (hsign : p.sign? = some term.sign)
      (hblank : ∀ t ∈ p.tokens, t.isWhitespace) (hseparator : p.separator = some s)
      (hspan : term.span = s.span) (htext : term.text = "")

/-- The separator and the tokens after it. -/
def all (p : Piece) : List Token := p.separator.toList ++ p.tokens

/-! ## One piece -/

theorem Builds.sign_eq {p : Piece} {term : Term} (h : p.Builds term) :
    p.sign? = some term.sign := by
  cases h with
  | leading h place =>
    obtain ⟨before, middle, after, first, last, htrimmed⟩ := exists_trimmed h
    rw [htrimmed.ofTokens_eq]
    rfl
  | @separated s ts sign h =>
    by_cases hblank : ∀ t ∈ ts, t.isWhitespace
    · rw [Term.ofTokens_blank hblank]
      exact h
    · obtain ⟨before, middle, after, first, last, htrimmed⟩ := exists_trimmed hblank
      rw [htrimmed.ofTokens_eq]
      exact h

theorem Builds.cases {p : Piece} {term : Term} (h : p.Builds term) :
    (∃ s, p.separator = some s ∧ (∀ t ∈ p.tokens, t.isWhitespace) ∧ term.text = "" ∧
        term.span = s.span) ∨
      ∃ before middle after first last, Trimmed p.tokens before middle after first last ∧
        term.text = String.ofList (Term.tokenChars middle) ∧
        term.span = ⟨first.span.start, last.span.stop⟩ := by
  cases h with
  | leading h place =>
    obtain ⟨before, middle, after, first, last, htrimmed⟩ := exists_trimmed h
    refine .inr ⟨before, middle, after, first, last, htrimmed, ?_⟩
    rw [htrimmed.ofTokens_eq]
    exact ⟨rfl, rfl⟩
  | @separated s ts sign h =>
    by_cases hblank : ∀ t ∈ ts, t.isWhitespace
    · refine .inl ⟨s, rfl, hblank, ?_⟩
      rw [Term.ofTokens_blank hblank]
      exact ⟨rfl, rfl⟩
    · obtain ⟨before, middle, after, first, last, htrimmed⟩ := exists_trimmed hblank
      refine .inr ⟨before, middle, after, first, last, htrimmed, ?_⟩
      rw [htrimmed.ofTokens_eq]
      exact ⟨rfl, rfl⟩

end Piece

theorem Trimmed.run {ts before middle after : List Token} {first last : Token} {start stop : ℕ}
    (h : Trimmed ts before middle after first last) (hrun : Token.Run start ts stop) :
    Token.Run start before first.span.start ∧
      Token.Run first.span.start middle last.span.stop ∧
      Token.Run last.span.stop after stop := by
  rw [h.eq] at hrun
  obtain ⟨b, hleft, hafter⟩ := hrun.append
  obtain ⟨a, hbefore, hmiddle⟩ := hleft.append
  obtain ⟨us, hfirst⟩ := h.first_eq
  obtain ⟨vs, hlast⟩ := h.last_eq
  have ha : first.span.start = a := by
    rw [hfirst] at hmiddle
    exact hmiddle.head_start
  have hb : last.span.stop = b := by
    rw [hlast] at hmiddle
    exact hmiddle.last_stop
  rw [ha, hb]
  exact ⟨hbefore, hmiddle, hafter⟩

namespace Piece

/-- The term that is read for a piece is written where its span says. -/
theorem Builds.forms {p : Piece} {term : Term} (h : p.Builds term) {rest : String}
    {before after : List Token}
    (hbody : afterHeader (header ++ rest) = before ++ p.tokens ++ after) :
    p.Forms (header ++ rest) term := by
  rcases h.cases with ⟨s, hs, hblank, htext, hspan⟩ | ⟨ws, middle, vs, first, last, htrimmed, htext,
    hspan⟩
  · exact .empty h.sign_eq hblank hs hspan htext
  · refine .text h.sign_eq htrimmed.find?_eq htrimmed.find?_reverse_eq hspan ?_
    obtain ⟨stop, hrun⟩ := run_afterHeader rest
    rw [hbody] at hrun
    obtain ⟨b, hleft, -⟩ := hrun.append
    obtain ⟨a, hbefore, htokens⟩ := hleft.append
    obtain ⟨hws, hmiddle, -⟩ := htrimmed.run htokens
    have hsplit : afterHeader (header ++ rest) = (before ++ ws) ++ middle ++ (vs ++ after) := by
      rw [hbody, htrimmed.eq]
      simp only [List.append_assoc]
    rw [htext, hspan]
    exact isSlice_of_run hsplit (hbefore.concat hws) hmiddle

theorem Builds.within {p : Piece} {term : Term} (h : p.Builds term) {start stop : ℕ}
    (hrun : Token.Run start p.all stop) :
    (start ≤ term.span.start ∧ term.span.start < term.span.stop ∧ term.span.stop ≤ stop) ∧
      ∀ t ∈ p.tokens, t.isWhitespace = false → term.Covers t.span := by
  rcases h.cases with ⟨s, hs, hblank, -, hspan⟩ | ⟨ws, middle, vs, first, last, htrimmed, -, hspan⟩
  · have hmem : s ∈ p.all := List.mem_append_left _ (by rw [hs]; exact List.mem_cons_self)
    rw [hspan]
    refine ⟨hrun.mem hmem, fun t ht hsignificant => ?_⟩
    rw [hblank t ht] at hsignificant
    exact absurd hsignificant nofun
  · obtain ⟨a, hseparator, htokens⟩ := hrun.append
    obtain ⟨hws, hmiddle, hvs⟩ := htrimmed.run htokens
    have hfirst : first ∈ middle := by
      obtain ⟨us, hus⟩ := htrimmed.first_eq
      rw [hus]
      exact List.mem_cons_self
    have hlt := hmiddle.mem hfirst
    rw [hspan]
    refine ⟨⟨hseparator.le.trans hws.le, hlt.2.1.trans_le hlt.2.2, hvs.le⟩,
      fun t ht hsignificant => ?_⟩
    obtain ⟨hle, -, hstop⟩ := hmiddle.mem (htrimmed.mem_middle ht hsignificant)
    unfold Term.Covers
    rw [hspan]
    exact ⟨hle, hstop⟩

/-! ## All pieces -/

theorem forms_of_builds {rest : String} {ps : List Piece} {terms : List Term}
    (h : List.Forall₂ Builds ps terms) {before : List Token}
    (hbody : afterHeader (header ++ rest) = before ++ ps.flatMap all) :
    List.Forall₂ (Forms (header ++ rest)) ps terms := by
  induction h generalizing before with
  | nil => exact .nil
  | @cons p term ps terms hbuilds _ ih =>
    rw [List.flatMap_cons] at hbody
    have hp : afterHeader (header ++ rest) =
        (before ++ p.separator.toList) ++ p.tokens ++ ps.flatMap all := by
      rw [hbody, all]
      simp only [List.append_assoc]
    have hps : afterHeader (header ++ rest) = (before ++ p.all) ++ ps.flatMap all := by
      rw [hbody, List.append_assoc]
    exact .cons (hbuilds.forms hp) (ih hps)

theorem ordered_of_builds {ps : List Piece} {terms : List Term}
    (h : List.Forall₂ Builds ps terms) {start stop : ℕ}
    (hrun : Token.Run start (ps.flatMap all) stop) :
    (∀ term ∈ terms, start ≤ term.span.start ∧ term.span.start < term.span.stop) ∧
      terms.Pairwise fun a b => a.span.stop ≤ b.span.start := by
  induction h generalizing start with
  | nil => exact ⟨fun _ h => absurd h List.not_mem_nil, .nil⟩
  | @cons p term ps terms hbuilds _ ih =>
    rw [List.flatMap_cons] at hrun
    obtain ⟨middle, hp, hps⟩ := hrun.append
    obtain ⟨⟨hstart, hlt, hstop⟩, -⟩ := hbuilds.within hp
    obtain ⟨hterms, hordered⟩ := ih hps
    have htail : ∀ u ∈ terms, start ≤ u.span.start ∧ u.span.start < u.span.stop :=
      fun u hu => ⟨hp.le.trans (hterms u hu).1, (hterms u hu).2⟩
    have hafter : ∀ u ∈ terms, term.span.stop ≤ u.span.start :=
      fun u hu => hstop.trans (hterms u hu).1
    exact ⟨List.forall_mem_cons.mpr ⟨⟨hstart, hlt⟩, htail⟩, .cons hafter hordered⟩

theorem covers_of_builds {ps : List Piece} {terms : List Term}
    (h : List.Forall₂ Builds ps terms) {start stop : ℕ}
    (hrun : Token.Run start (ps.flatMap all) stop) {p : Piece} (hp : p ∈ ps) {t : Token}
    (ht : t ∈ p.tokens) (hsignificant : t.isWhitespace = false) :
    ∃ term ∈ terms, term.Covers t.span := by
  induction h generalizing start with
  | nil => exact absurd hp List.not_mem_nil
  | @cons q term ps terms hbuilds _ ih =>
    rw [List.flatMap_cons] at hrun
    obtain ⟨middle, hq, hps⟩ := hrun.append
    rcases List.mem_cons.mp hp with rfl | hp
    · exact ⟨term, List.mem_cons_self, (hbuilds.within hq).2 t ht hsignificant⟩
    · obtain ⟨u, hu, hcovers⟩ := ih hps hp
      exact ⟨u, List.mem_cons_of_mem _ hu, hcovers⟩

theorem exists_append_piecesAfter (before ts : List Token) :
    ∃ skipped, ts = skipped ++ (piecesAfter before ts).flatMap all := by
  have hcut := cut_append before ts
  have hothers : ((cut before ts).2.map fun s => (⟨some s.1, s.2⟩ : Piece)).flatMap all =
      (cut before ts).2.flatMap fun s => s.1 :: s.2 := by
    rw [List.flatMap_map]
    rfl
  unfold piecesAfter
  split
  · refine ⟨[], ?_⟩
    rw [List.nil_append, List.flatMap_append, hothers, List.flatMap_singleton]
    exact hcut.symm
  · exact ⟨(cut before ts).1, by rw [List.nil_append, hothers, hcut]⟩

end Piece

/-! ## The tokens of the pieces -/

theorem mem_cut {before ts : List Token} {t : Token} (ht : ¬ Separates (before ++ ts) t)
    (us : List Token) :
    t ∈ (cut before (ts ++ t :: us)).1 ∨ ∃ s ∈ (cut before (ts ++ t :: us)).2, t ∈ s.2 := by
  induction ts generalizing before with
  | nil =>
    rw [List.append_nil] at ht
    rw [List.nil_append, cut_cons_of_not ht]
    exact .inl List.mem_cons_self
  | cons u ts ih =>
    have hsplit : (before ++ [u]) ++ ts = before ++ u :: ts := List.append_assoc _ _ _
    have htail := ih (hsplit ▸ ht)
    rw [List.cons_append]
    by_cases hu : Separates before u
    · rw [cut_cons_of_separates hu]
      rcases htail with hmem | ⟨s, hs, hmem⟩
      · exact .inr ⟨_, List.mem_cons_self, hmem⟩
      · exact .inr ⟨s, List.mem_cons_of_mem _ hs, hmem⟩
    · rw [cut_cons_of_not hu]
      exact htail.imp_left (List.mem_cons_of_mem _)

theorem mem_piecesAfter {before ts : List Token} {t : Token}
    (hbefore : Nesting.after before = .outer) (hsignificant : t.isWhitespace = false)
    (ht : ¬ Separates (before ++ ts) t) (us : List Token) :
    ∃ p ∈ piecesAfter before (ts ++ t :: us), t ∈ p.tokens := by
  rcases mem_cut ht us with hmem | ⟨s, hs, hmem⟩
  · have hnot : ¬ ∀ u ∈ ts ++ t :: us, u.isWhitespace := fun h => by
      rw [h t (by simp)] at hsignificant
      exact nomatch hsignificant
    obtain ⟨ws, u, vs, hsplit, hws, hu⟩ := (blank_or_first _).resolve_left hnot
    rw [hsplit] at hmem ⊢
    cases hsign : u.kind.sign? with
    | none =>
      rw [cut_whitespace before hws, cut_cons_of_not (not_separates_of_sign hsign)] at hmem
      rw [piecesAfter_unsigned hws hu hsign]
      exact ⟨_, List.mem_cons_self, hmem⟩
    | some sign =>
      -- the first piece would be whitespace alone
      have hws' := (Nesting.after_append_whitespace before hws).trans hbefore
      rw [cut_whitespace before hws, cut_cons_of_separates (separates_of_sign hsign hws'),
        List.append_nil] at hmem
      rw [hws t hmem] at hsignificant
      exact nomatch hsignificant
  · exact ⟨⟨some s.1, s.2⟩, List.mem_append_right _ (List.mem_map.mpr ⟨s, hs, rfl⟩), hmem⟩

/-! ## Texts -/

theorem hasHeader_iff {source : String} :
    hasHeader source = true ↔ ∃ rest, source = header ++ rest := by
  unfold hasHeader
  rw [List.isPrefixOf_iff_prefix]
  constructor
  · rintro ⟨cs, hcs⟩
    refine ⟨String.ofList cs, String.toList_inj.mp ?_⟩
    rw [String.toList_append, String.toList_ofList, hcs]
  · rintro ⟨rest, rfl⟩
    rw [String.toList_append]
    exact List.prefix_append _ _

namespace Term

theorem eq_of_covers {terms : List Term}
    (hordered : terms.Pairwise fun a b => a.span.stop ≤ b.span.start) {a b : Term} (ha : a ∈ terms)
    (hb : b ∈ terms) {span : Span} (hspan : span.start < span.stop) (hca : a.Covers span)
    (hcb : b.Covers span) : a = b := by
  by_contra hne
  have hapart : terms.Pairwise fun a b => a.span.stop ≤ b.span.start ∨ b.span.stop ≤ a.span.start :=
    hordered.imp Or.inl
  have : Std.Symm fun a b : Term => a.span.stop ≤ b.span.start ∨ b.span.stop ≤ a.span.start :=
    ⟨fun _ _ h => h.symm⟩
  have hab := hapart.forall ha hb hne
  unfold Covers at hca hcb
  omega

theorem parse_header (rest : String) :
    parse (header ++ rest) = .ok (all (afterHeader (header ++ rest))).1 := by
  have hheader := hasHeader_iff.mpr ⟨rest, rfl⟩
  unfold parse TermReader.readAll TermReader.ofSource requireHeader
  simp only [hheader, if_true, dropWhile_header]

/-- Only a text with the header has terms. -/
theorem exists_rest_of_parse {source : String} {terms : List Term}
    (h : parse source = .ok terms) : ∃ rest, source = header ++ rest := by
  apply hasHeader_iff.mp
  by_contra hheader
  unfold parse TermReader.readAll TermReader.ofSource requireHeader at h
  rw [if_neg hheader] at h
  exact nomatch h

/-- **A text with the header is split into the terms of its pieces**, which stand side by side and
cover every token but whitespace and separators. -/
theorem parse_splits (rest : String) :
    ∃ terms, parse (header ++ rest) = .ok terms ∧
      List.Forall₂ (Piece.Forms (header ++ rest))
        (piecesAfter [] (afterHeader (header ++ rest))) terms ∧
      (∀ before t after, afterHeader (header ++ rest) = before ++ t :: after →
        t.isWhitespace = false → ¬ Separates before t →
          ∃! term, term ∈ terms ∧ term.Covers t.span) ∧
      (∀ term ∈ terms, term.span.start < term.span.stop) ∧
      terms.Pairwise fun a b => a.span.stop ≤ b.span.start := by
  have hbuilds := all_builds (afterHeader (header ++ rest)) [] rfl
  obtain ⟨skipped, hskipped⟩ := Piece.exists_append_piecesAfter [] (afterHeader (header ++ rest))
  obtain ⟨stop, hrun⟩ := run_afterHeader rest
  obtain ⟨start, -, hpieces⟩ := (hskipped ▸ hrun).append
  obtain ⟨hspans, hordered⟩ := Piece.ordered_of_builds hbuilds hpieces
  refine ⟨_, parse_header rest, Piece.forms_of_builds hbuilds hskipped, ?_,
    fun term hterm => (hspans term hterm).2, hordered⟩
  intro before t after hbody hsignificant (hseparates : ¬ Separates ([] ++ before) t)
  have ht : t ∈ afterHeader (header ++ rest) := by
    rw [hbody]
    exact List.mem_append_right _ List.mem_cons_self
  obtain ⟨p, hp, hmem⟩ := mem_piecesAfter rfl hsignificant hseparates after
  rw [← hbody] at hp
  obtain ⟨term, hterm, hcovers⟩ := Piece.covers_of_builds hbuilds hpieces hp hmem hsignificant
  refine ⟨term, ⟨hterm, hcovers⟩, fun other hother => ?_⟩
  exact eq_of_covers hordered hother.1 hterm (hrun.mem ht).2.1 hother.2 hcovers

end Term

end Fluxion
