import Fluxion.Proofs.Parse
import Mathlib.Data.List.Chain

/-!
# Pieces of changed tokens

Where tokens are cut depends on neither their places nor the whitespace among them, and a separator
leaves nothing behind that later tokens could depend on.

* `Nesting.after_map`, `Nesting.after_filter`: the state of the reader after changed tokens.
* `cut_map`, `cut_filter`: changed tokens are cut at the same separators.
* **`piecesAfter_map`**, **`piecesAfter_filter`**: the pieces change as the tokens do.
* **`piecesAfter_append`**: pieces on both sides of a separator do not depend on each other.
* `Unparted`, `isChain_piecesAfter`: no piece is cut any further, and nothing is open where the next
  one begins.
* `Piece.Builds.unique`, **`Term.parse_eq_ok_iff`**: a text is split into the terms of its pieces,
  and into no others.
-/

namespace Fluxion

/-! ## The state of the reader -/

namespace Nesting

theorem step_congr (n : Nesting) {t u : Token} (h : t.toLexeme = u.toLexeme) :
    n.step t = n.step u := by
  cases t
  cases u
  subst h
  rfl

theorem after_congr_concat {before before' : List Token} (h : after before' = after before)
    {t u : Token} (ht : u.toLexeme = t.toLexeme) :
    after (before' ++ [u]) = after (before ++ [t]) := by
  rw [after_concat, after_concat, h, step_congr _ ht]

theorem after_map {f : Token → Token} (hf : ∀ t, (f t).toLexeme = t.toLexeme) (ts : List Token) :
    after (ts.map f) = after ts := by
  induction ts using List.reverseRecOn with
  | nil => rfl
  | append_singleton ts t ih =>
    rw [List.map_append]
    exact after_congr_concat ih (hf t)

theorem after_filter (ts : List Token) : after (ts.filter (!·.isWhitespace)) = after ts := by
  induction ts using List.reverseRecOn with
  | nil => rfl
  | append_singleton ts t ih =>
    rw [List.filter_append, after_concat]
    cases ht : t.isWhitespace with
    | true => simp [ht, ih, step_of_whitespace]
    | false => simp [ht, ih, after_concat]

theorem after_append_of_outer {ts : List Token} (h : after ts = outer) (us : List Token) :
    after (ts ++ us) = after us := by
  unfold after at h ⊢
  rw [List.foldl_append, h]

end Nesting

theorem separates_congr {before before' : List Token}
    (h : Nesting.after before' = Nesting.after before) {t u : Token}
    (ht : u.toLexeme = t.toLexeme) : Separates before' u ↔ Separates before t := by
  have hk : u.kind = t.kind := congrArg Lexeme.kind ht
  rw [← Nesting.endsAt_after, ← Nesting.endsAt_after, h]
  unfold Nesting.endsAt
  rw [hk]

/-! ## Where tokens are cut -/

theorem cut_map {f : Token → Token} (hf : ∀ t, (f t).toLexeme = t.toLexeme)
    {before before' : List Token} (h : Nesting.after before' = Nesting.after before)
    (ts : List Token) : cut before' (ts.map f) =
      ((cut before ts).1.map f, (cut before ts).2.map fun s => (f s.1, s.2.map f)) := by
  induction ts generalizing before before' with
  | nil => rfl
  | cons t ts ih =>
    have hrest := ih (Nesting.after_congr_concat h (hf t))
    have hsep := separates_congr h (hf t)
    rw [List.map_cons]
    by_cases ht : Separates before t
    · rw [cut_cons_of_separates ht, cut_cons_of_separates (hsep.mpr ht), hrest]
      rfl
    · rw [cut_cons_of_not ht, cut_cons_of_not (mt hsep.mp ht), hrest]
      rfl

theorem cut_congr {before before' : List Token}
    (h : Nesting.after before' = Nesting.after before) (ts : List Token) :
    cut before' ts = cut before ts := by
  have hid := cut_map (f := id) (fun _ => rfl) h ts
  simpa using hid

theorem cut_filter {before before' : List Token}
    (h : Nesting.after before' = Nesting.after before) (ts : List Token) :
    cut before' (ts.filter (!·.isWhitespace)) =
      ((cut before ts).1.filter (!·.isWhitespace),
        (cut before ts).2.map fun s => (s.1, s.2.filter (!·.isWhitespace))) := by
  induction ts generalizing before before' with
  | nil => rfl
  | cons t ts ih =>
    cases hblank : t.isWhitespace with
    | true =>
      -- whitespace leaves the state as it is, so it can be left out
      have hstep : Nesting.after before' = Nesting.after (before ++ [t]) := by
        rw [Nesting.after_concat, Nesting.step_of_whitespace _ hblank, h]
      rw [cut_cons_of_not (not_separates_of_whitespace hblank),
        List.filter_cons_of_neg (by simp [hblank]), List.filter_cons_of_neg (by simp [hblank])]
      exact ih hstep
    | false =>
      have hrest := ih (Nesting.after_congr_concat (t := t) h rfl)
      have hsep := separates_congr (t := t) h rfl
      rw [List.filter_cons_of_pos (by simp [hblank])]
      by_cases ht : Separates before t
      · rw [cut_cons_of_separates ht, cut_cons_of_separates (hsep.mpr ht), hrest]
        rfl
      · rw [cut_cons_of_not ht, cut_cons_of_not (mt hsep.mp ht), hrest,
          List.filter_cons_of_pos (by simp [hblank])]

theorem Nesting.after_sign {t : Token} (h : t.kind = .plus ∨ t.kind = .minus) :
    after [t] = outer := step_of_sign h

/-- What stands after a separator is cut as if nothing stood before it. -/
theorem cut_append_separator (before : List Token) {ts : List Token} {t : Token}
    (h : Separates (before ++ ts) t) (us : List Token) : cut before (ts ++ t :: us) =
      ((cut before ts).1, (cut before ts).2 ++ (t, (cut [t] us).1) :: (cut [t] us).2) := by
  induction ts generalizing before with
  | nil =>
    rw [List.append_nil] at h
    have hafter : Nesting.after (before ++ [t]) = Nesting.after [t] :=
      (Nesting.after_concat_of_separates h).trans (Nesting.after_sign h.1).symm
    rw [List.nil_append, cut_cons_of_separates h, cut_congr hafter]
    rfl
  | cons u ts ih =>
    have hrest := ih (before ++ [u]) (by rwa [List.append_assoc])
    rw [List.cons_append]
    by_cases hu : Separates before u
    · rw [cut_cons_of_separates hu, cut_cons_of_separates hu, hrest]
      rfl
    · rw [cut_cons_of_not hu, cut_cons_of_not hu, hrest]

/-! ## The pieces -/

namespace Piece

/-- The piece with every token changed. -/
def map (f : Token → Token) (p : Piece) : Piece := ⟨p.separator.map f, p.tokens.map f⟩

/-- The piece without its whitespace. -/
def significant (p : Piece) : Piece := ⟨p.separator, p.tokens.filter (!·.isWhitespace)⟩

end Piece

theorem piecesAfter_map {f : Token → Token} (hf : ∀ t, (f t).toLexeme = t.toLexeme)
    (ts : List Token) : piecesAfter [] (ts.map f) = (piecesAfter [] ts).map (Piece.map f) := by
  have hkind (t : Token) : (f t).kind = t.kind := congrArg Lexeme.kind (hf t)
  have hblank (t : Token) : (f t).isWhitespace = t.isWhitespace :=
    congrArg Lexeme.isWhitespace (hf t)
  have hfirst : ((ts.map f).find? (!·.isWhitespace)).any (·.kind.sign? = none) =
      (ts.find? (!·.isWhitespace)).any (·.kind.sign? = none) := by
    simp only [List.find?_map, Option.any_map, Function.comp_def, hkind, hblank]
  unfold piecesAfter
  rw [hfirst, cut_map hf (rfl : Nesting.after [] = Nesting.after [])]
  split <;> simp [Piece.map]

theorem piecesAfter_filter (ts : List Token) :
    piecesAfter [] (ts.filter (!·.isWhitespace)) = (piecesAfter [] ts).map Piece.significant := by
  have hfirst : (ts.filter (!·.isWhitespace)).find? (!·.isWhitespace) =
      ts.find? (!·.isWhitespace) := by
    simp only [List.find?_filter, and_self, Bool.decide_eq_true]
  unfold piecesAfter
  rw [hfirst, cut_filter (rfl : Nesting.after [] = Nesting.after [])]
  split <;> simp [Piece.significant]

/-- **Pieces on both sides of a separator do not depend on each other.** -/
theorem piecesAfter_append {ts : List Token} {t : Token} (h : Separates ts t) (us : List Token) :
    piecesAfter [] (ts ++ t :: us) = piecesAfter [] ts ++ piecesAfter [] (t :: us) := by
  obtain ⟨sign, hsign⟩ := Option.isSome_iff_exists.mp (LexemeKind.sign?_isSome.mpr h.1)
  have hfirst : ((ts ++ t :: us).find? (!·.isWhitespace)).any (·.kind.sign? = none) =
      (ts.find? (!·.isWhitespace)).any (·.kind.sign? = none) := by
    have ht : (t :: us).find? (!·.isWhitespace) = some t :=
      List.find?_cons_of_pos (by simp [isWhitespace_of_sign hsign])
    rw [List.find?_append, ht]
    cases ts.find? (!·.isWhitespace) <;> simp [hsign]
  have hright : piecesAfter [] ([] ++ t :: us) = _ :=
    piecesAfter_sign rfl (fun _ hw => absurd hw List.not_mem_nil) hsign
  rw [List.nil_append] at hright
  rw [hright, piecesAfter, piecesAfter, hfirst, cut_append_separator [] h, List.map_append,
    List.append_assoc]
  rfl

/-! ## Tokens of one piece -/

/-- None of the tokens separates others. -/
def Unparted (ts : List Token) : Prop := (cut [] ts).2 = []

instance (ts : List Token) : Decidable (Unparted ts) := by
  unfold Unparted
  infer_instance

theorem Unparted.cut_eq {ts : List Token} (h : Unparted ts) : cut [] ts = (ts, []) := by
  unfold Unparted at h
  have happend := cut_append [] ts
  rw [h, List.flatMap_nil, List.append_nil] at happend
  exact Prod.ext happend h

theorem unparted_map {f : Token → Token} (hf : ∀ t, (f t).toLexeme = t.toLexeme)
    (ts : List Token) : Unparted (ts.map f) = Unparted ts := by
  unfold Unparted
  rw [cut_map hf (rfl : Nesting.after [] = Nesting.after []), List.map_eq_nil_iff]

theorem unparted_filter (ts : List Token) :
    Unparted (ts.filter (!·.isWhitespace)) = Unparted ts := by
  unfold Unparted
  rw [cut_filter (rfl : Nesting.after [] = Nesting.after []), List.map_eq_nil_iff]

theorem unparted_iff {ts : List Token} :
    Unparted ts ↔ ∀ before t after, ts = before ++ t :: after → ¬ Separates before t := by
  unfold Unparted
  constructor
  · rintro h before t after rfl hseparates
    rw [cut_append_separator [] hseparates] at h
    exact List.cons_ne_nil _ _ (List.append_eq_nil_iff.mp h).2
  · intro h
    cases hcut : (cut [] ts).2 with
    | nil => rfl
    | cons s others =>
      obtain ⟨s, us⟩ := s
      have hts := cut_append [] ts
      rw [hcut, List.flatMap_cons] at hts
      exact absurd (separates_of_cut hcut).1 (h _ s _ hts.symm)

theorem cut_fst (before ts : List Token) : (cut before (cut before ts).1).2 = [] := by
  induction ts generalizing before with
  | nil => rfl
  | cons t ts ih =>
    by_cases ht : Separates before t
    · rw [cut_cons_of_separates ht]
      rfl
    · rw [cut_cons_of_not ht]
      change (cut before (t :: _)).2 = []
      rw [cut_cons_of_not ht]
      exact ih _

theorem unparted_of_mem_cut {before ts : List Token} {s : Token × List Token}
    (hs : s ∈ (cut before ts).2) : Unparted s.2 := by
  induction ts generalizing before with
  | nil => exact absurd hs List.not_mem_nil
  | cons t ts ih =>
    by_cases ht : Separates before t
    · rw [cut_cons_of_separates ht] at hs
      rcases List.mem_cons.mp hs with rfl | hs
      · have houter : Nesting.after [] = Nesting.after (before ++ [t]) :=
          (Nesting.after_concat_of_separates ht).symm
        unfold Unparted
        rw [cut_congr houter]
        exact cut_fst _ _
      · exact ih hs
    · rw [cut_cons_of_not ht] at hs
      exact ih hs

theorem unparted_of_mem_piecesAfter {ts : List Token} {p : Piece} (hp : p ∈ piecesAfter [] ts) :
    Unparted p.tokens := by
  rcases List.mem_append.mp hp with hp | hp
  · split at hp
    · rw [List.mem_singleton.mp hp]
      exact cut_fst [] ts
    · exact absurd hp List.not_mem_nil
  · obtain ⟨s, hs, rfl⟩ := List.mem_map.mp hp
    exact unparted_of_mem_cut hs

theorem after_of_mem_head? {before ts : List Token} {s : Token × List Token}
    (hs : s ∈ (cut before ts).2.head?) : Nesting.after (before ++ (cut before ts).1) = .outer := by
  obtain ⟨others, hothers⟩ := List.head?_eq_some_iff.mp hs
  exact Nesting.after_of_separates (separates_of_cut hothers).1

theorem isChain_cut (before ts : List Token) :
    (cut before ts).2.IsChain fun s _ => Nesting.after s.2 = .outer := by
  induction ts generalizing before with
  | nil => exact .nil
  | cons t ts ih =>
    by_cases ht : Separates before t
    · rw [cut_cons_of_separates ht]
      refine List.isChain_cons.mpr ⟨fun s hs => ?_, ih _⟩
      -- the tokens after `t` are read as if nothing stood before them
      rw [← Nesting.after_append_of_outer (Nesting.after_concat_of_separates ht)]
      exact after_of_mem_head? hs
    · rw [cut_cons_of_not ht]
      exact ih _

/-- **Nothing is open at the end of a piece that another one follows.** -/
theorem isChain_piecesAfter (ts : List Token) :
    (piecesAfter [] ts).IsChain fun p _ => Nesting.after p.tokens = .outer := by
  have hothers : ((cut [] ts).2.map fun s => (⟨some s.1, s.2⟩ : Piece)).IsChain
      fun p _ => Nesting.after p.tokens = .outer := (List.isChain_map _).mpr (isChain_cut [] ts)
  unfold piecesAfter
  split
  · rw [List.singleton_append]
    refine List.isChain_cons.mpr ⟨fun p hp => ?_, hothers⟩
    rw [List.head?_map] at hp
    obtain ⟨s, hs, -⟩ := Option.map_eq_some_iff.mp hp
    exact after_of_mem_head? hs
  · exact hothers

/-- A sign in front of tokens that stay together makes them one piece. -/
theorem piecesAfter_of_unparted {s : Token} {sign : Sign} (hs : s.kind.sign? = some sign)
    {ts : List Token} (hts : Unparted ts) : piecesAfter [] (s :: ts) = [⟨some s, ts⟩] := by
  have hpieces : piecesAfter [] ([] ++ s :: ts) = _ :=
    piecesAfter_sign rfl (fun _ hw => absurd hw List.not_mem_nil) hs
  have houter : Nesting.after ([] ++ [] ++ [s]) = Nesting.after [] :=
    Nesting.after_sign (separates_of_sign hs rfl : Separates [] s).1
  rw [List.nil_append, cut_congr houter, hts.cut_eq] at hpieces
  exact hpieces

theorem piecesAfter_of_unparted_unsigned {ts : List Token} (h : Unparted ts)
    (hts : ¬ ∀ t ∈ ts, t.isWhitespace) : piecesAfter [] ts = [⟨none, ts⟩] := by
  obtain ⟨ws, t, us, rfl, hws, hsignificant⟩ := (blank_or_first ts).resolve_left hts
  have hfirst : t.kind.sign? = none := by
    by_contra hsign
    obtain ⟨sign, hsign⟩ := Option.ne_none_iff_exists'.mp hsign
    have hseparates : Separates ([] ++ ws) t :=
      separates_of_sign hsign (Nesting.after_append_whitespace [] hws)
    unfold Unparted at h
    rw [cut_whitespace [] hws, cut_cons_of_separates hseparates] at h
    exact nomatch h
  unfold piecesAfter
  rw [find?_blank_append hws hsignificant, h.cut_eq, Option.any_some, hfirst]
  rfl

/-! ## Their terms -/

namespace Piece

/-- Only one term is read for a piece. -/
theorem Builds.unique {p : Piece} {t u : Term} (ht : p.Builds t) (hu : p.Builds u) : t = u := by
  cases ht with
  | leading h place =>
    cases hu with
    | leading _ place' =>
      obtain ⟨before, middle, after, first, last, htrimmed⟩ := exists_trimmed h
      rw [htrimmed.ofTokens_eq, htrimmed.ofTokens_eq]
  | separated h =>
    cases hu with
    | separated h' => rw [Option.some.inj (h.symm.trans h')]

end Piece

namespace Term

/-- A text is split into the terms of its pieces, and into no others. -/
theorem parse_eq_ok_iff {rest : String} {terms : List Term} :
    parse (header ++ rest) = .ok terms ↔
      List.Forall₂ Piece.Builds (piecesAfter [] (afterHeader (header ++ rest))) terms := by
  have hbuilds := all_builds (afterHeader (header ++ rest)) [] rfl
  rw [parse_header]
  constructor
  · intro h
    rw [← Except.ok.inj h]
    exact hbuilds
  · intro h
    have hunique : Relator.RightUnique Piece.Builds := fun _ _ _ ht hu => ht.unique hu
    rw [hunique.forall₂ hbuilds h]

end Term

end Fluxion
