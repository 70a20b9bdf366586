import Fluxion.Proofs.Addition
import Fluxion.Proofs.Fault

/-!
# The tokens of a term

A text is read twice: as a whole, to find its terms, and then each term on its own, to classify it.
Both times the same tokens are found, because a term is cut out between two of them.

* `Token.Run.eq_place`, `Token.filter_covers`: a run of tokens is known by the range that it takes.
* `Term.exists_run_of_parse`: the tokens that a term was read from take exactly its span.
* **`Term.tokenize_text`**: the tokens of a term's text are those of the whole text in its span.
-/

namespace Fluxion

instance (t : Term) (span : Span) : Decidable (t.Covers span) := by
  unfold Term.Covers
  infer_instance

namespace Token

theorem Run.eq_place {start stop : ℕ} {ts : List Token} (h : Run start ts stop) :
    ts = place start (ts.map (·.toLexeme)) := by
  induction h with
  | nil => rfl
  | cons _ _ ih => rw [List.map_cons, place_cons, ← ih]

theorem filter_covers {t : Term} {before middle after : List Token} {start stop : ℕ}
    (hbefore : Run start before t.span.start) (hmiddle : Run t.span.start middle t.span.stop)
    (hafter : Run t.span.stop after stop) :
    (before ++ middle ++ after).filter (fun u => t.Covers u.span) = middle := by
  have hleft : before.filter (fun u => t.Covers u.span) = [] :=
    List.filter_eq_nil_iff.mpr fun u hu hcovers => by
      have hu := hbefore.mem hu
      exact (hu.2.1.trans_le hu.2.2).not_ge (of_decide_eq_true hcovers).1
  have hright : after.filter (fun u => t.Covers u.span) = [] :=
    List.filter_eq_nil_iff.mpr fun u hu hcovers => by
      have hu := hafter.mem hu
      exact (hu.1.trans_lt hu.2.1).not_ge (of_decide_eq_true hcovers).2
  have hinside : middle.filter (fun u => t.Covers u.span) = middle :=
    List.filter_eq_self.mpr fun u hu => by
      have hu := hmiddle.mem hu
      exact decide_eq_true ⟨hu.1, hu.2.2⟩
  rw [List.filter_append, List.filter_append, hleft, hinside, hright, List.nil_append,
    List.append_nil]

end Token

namespace Term

/-- A term with a text was read from tokens that take exactly its span. -/
theorem exists_run_of_parse {source : String} {terms : List Term} (h : parse source = .ok terms)
    {t : Term} (ht : t ∈ terms) (hne : t.text ≠ "") :
    ∃ before middle after, tokenize source = before ++ middle ++ after ∧
      Token.Run 0 before t.span.start ∧ Token.Run t.span.start middle t.span.stop ∧
      Token.Run t.span.stop after (utf8Length source.toList) ∧
      Lexeme.scan t.text.toList = middle.map (·.toLexeme) := by
  obtain ⟨rest, rfl⟩ := exists_rest_of_parse h
  obtain ⟨p, hp, hbuilds⟩ := exists_of_forall₂ (parse_eq_ok_iff.mp h) ht
  have hscan := hbuilds.scan_text (Piece.isScan_of_mem hp)
  rcases hbuilds.cases with ⟨-, -, -, hempty, -⟩ | ⟨ws, middle, vs, first, last, htrimmed, -, hspan⟩
  · exact absurd hempty hne
  · obtain ⟨before, after, htokens⟩ := Piece.infix_of_mem hp
    have hrun := Token.run_tokenize (header ++ rest)
    rw [← htokens] at hrun
    obtain ⟨b, hleft, hafter⟩ := hrun.append
    obtain ⟨a, hbefore, hpiece⟩ := hleft.append
    obtain ⟨hws, hmiddle, hvs⟩ := htrimmed.run hpiece
    rw [htrimmed.trimTokens_eq] at hscan
    rw [hspan]
    refine ⟨before ++ ws, middle, vs ++ after, ?_, hbefore.concat hws, hmiddle, hvs.concat hafter,
      hscan⟩
    rw [← htokens, htrimmed.eq]
    simp only [List.append_assoc]

/-- **The tokens of a term's text, moved to where the term stands, are exactly the tokens of the
whole text that lie in its span.** -/
theorem tokenize_text {source : String} {terms : List Term} (h : parse source = .ok terms)
    {t : Term} (ht : t ∈ terms) (hne : t.text ≠ "") :
    (tokenize t.text).map (Token.shift t.span.start) =
        (tokenize source).filter (fun u => t.Covers u.span) ∧
      (tokenize t.text).map (Token.shift t.span.start) <:+: tokenize source ∧
      ∀ u ∈ tokenize source,
        t.Covers u.span ∨ u.span.stop ≤ t.span.start ∨ t.span.stop ≤ u.span.start := by
  obtain ⟨before, middle, after, hsource, hbefore, hmiddle, hafter, hscan⟩ :=
    exists_run_of_parse h ht hne
  have hmoved : (tokenize t.text).map (Token.shift t.span.start) = middle := by
    rw [tokenize, hscan, ← Token.place_add, Nat.zero_add, ← hmiddle.eq_place]
  rw [hmoved, hsource]
  refine ⟨(Token.filter_covers hbefore hmiddle hafter).symm, ⟨before, after, rfl⟩, fun u hu => ?_⟩
  rw [List.mem_append, List.mem_append] at hu
  rcases hu with (hu | hu) | hu
  · exact .inr (.inl (hbefore.mem hu).2.2)
  · exact .inl ⟨(hmiddle.mem hu).1, (hmiddle.mem hu).2.2⟩
  · exact .inr (.inr (hafter.mem hu).1)

/-- The second term has characters of two and of three bytes, and whitespace inside. -/
theorem tokenize_text_symbols :
    parse "f(x) = x^ -2 - é−sin( x ) + " = .ok [⟨.positive, "x^ -2", ⟨7, 12⟩⟩,
        ⟨.negative, "é−sin( x )", ⟨15, 28⟩⟩, ⟨.positive, "", ⟨29, 30⟩⟩] ∧
      (tokenize "é−sin( x )").map (Token.shift 15) =
        (tokenize "f(x) = x^ -2 - é−sin( x ) + ").filter
          (fun u => Covers ⟨.negative, "é−sin( x )", ⟨15, 28⟩⟩ u.span) ∧
      (tokenize "é−sin( x )").length = 8 := by
  have h : parse "f(x) = x^ -2 - é−sin( x ) + " = .ok [⟨.positive, "x^ -2", ⟨7, 12⟩⟩,
      ⟨.negative, "é−sin( x )", ⟨15, 28⟩⟩, ⟨.positive, "", ⟨29, 30⟩⟩] := by decide +kernel
  exact ⟨h, (tokenize_text h (List.mem_cons_of_mem _ List.mem_cons_self) (by decide)).1,
    by decide +kernel⟩

end Term

end Fluxion
