import Fluxion.Proofs.Term
import Mathlib.Data.List.Forall2
import Mathlib.Data.List.Induction

/-!
# Where terms are parted

The reader starts afresh with every term. The same terms result from one scan of all tokens that
counts parentheses from the left and never starts afresh, because a sign parts terms only where
nothing is open.

* `openDepth`, `lastSignificant?`, `Separates`: whether a sign parts two terms, in view of all the
  tokens before it.
* `cut`, `Piece`, `piecesAfter`: the tokens between these signs, in one scan.
* `Nesting.after`, `Nesting.endsAt_after`: the state of the reader is what that scan knows.
* `Nesting.split_after`: one term ends where the scan has a separator.
* **`Term.all_builds`**: the terms that are read are those of the pieces.
-/

namespace Fluxion

/-! ## The scan -/

/-- The parentheses that are open after tokens. -/
def openDepth (ts : List Token) : Nat :=
  ts.foldl (fun depth t =>
    if t.kind = .openParen then depth + 1 else if t.kind = .closeParen then depth - 1 else depth) 0

/-- The last token that is not whitespace. -/
def lastSignificant? (ts : List Token) : Option Token := (ts.filter (!·.isWhitespace)).getLast?

/-- Whether a token parts two terms: a sign outside of parentheses and not after `^`. -/
def Separates (before : List Token) (t : Token) : Prop :=
  (t.kind = .plus ∨ t.kind = .minus) ∧ openDepth before = 0 ∧
    (lastSignificant? before).map (·.kind) ≠ some .caret

instance (before : List Token) (t : Token) : Decidable (Separates before t) := by
  unfold Separates
  infer_instance

/-- The tokens up to the first separator, and the pieces after it. -/
def cut (before : List Token) : List Token → List Token × List (Token × List Token)
  | [] => ([], [])
  | t :: ts =>
    let rest := cut (before ++ [t]) ts
    if Separates before t then ([], (t, rest.1) :: rest.2) else (t :: rest.1, rest.2)

/-- The tokens of a term, and the separator in front of them if there is one. -/
structure Piece where
  separator : Option Token
  tokens : List Token

/-- The pieces of tokens, one for each separator and one in front of them. -/
def piecesAfter (before ts : List Token) : List Piece :=
  (if (ts.find? (!·.isWhitespace)).any (·.kind.sign? = none) then [⟨none, (cut before ts).1⟩]
    else []) ++ (cut before ts).2.map fun s => ⟨some s.1, s.2⟩

theorem cut_cons_of_separates {before : List Token} {t : Token} (h : Separates before t)
    (ts : List Token) : cut before (t :: ts) =
      ([], (t, (cut (before ++ [t]) ts).1) :: (cut (before ++ [t]) ts).2) := if_pos h

theorem cut_cons_of_not {before : List Token} {t : Token} (h : ¬ Separates before t)
    (ts : List Token) : cut before (t :: ts) =
      (t :: (cut (before ++ [t]) ts).1, (cut (before ++ [t]) ts).2) := if_neg h

/-- Nothing is lost where tokens are cut. -/
theorem cut_append (before ts : List Token) :
    (cut before ts).1 ++ (cut before ts).2.flatMap (fun s => s.1 :: s.2) = ts := by
  induction ts generalizing before with
  | nil => rfl
  | cons t ts ih =>
    by_cases h : Separates before t
    · rw [cut_cons_of_separates h, List.nil_append, List.flatMap_cons, List.cons_append, ih]
    · rw [cut_cons_of_not h, List.cons_append, ih]

/-! ## The state of the reader -/

theorem LexemeKind.sign?_isSome {k : LexemeKind} : k.sign?.isSome ↔ k = .plus ∨ k = .minus := by
  cases k <;> decide

namespace Nesting

/-- The state after tokens, when none of them starts a term afresh. -/
def after (ts : List Token) : Nesting := ts.foldl step outer

theorem after_concat (ts : List Token) (t : Token) : after (ts ++ [t]) = (after ts).step t := by
  rw [after, List.foldl_append]
  rfl

theorem depth_after (ts : List Token) : (after ts).depth = openDepth ts := by
  induction ts using List.reverseRecOn with
  | nil => rfl
  | append_singleton ts t ih =>
    rw [after_concat, openDepth, List.foldl_append, ← openDepth, ← ih]
    unfold step
    cases hk : t.kind <;> simp [hk]

theorem afterCaret_after (ts : List Token) :
    (after ts).afterCaret = decide ((lastSignificant? ts).map (·.kind) = some .caret) := by
  induction ts using List.reverseRecOn with
  | nil => rfl
  | append_singleton ts t ih =>
    rw [after_concat, lastSignificant?, List.filter_append]
    unfold step
    cases ht : t.isWhitespace with
    | true =>
      have hfilter : [t].filter (!·.isWhitespace) = [] := by simp [ht]
      rw [hfilter, List.append_nil, ← lastSignificant?, ← ih]
      rfl
    | false =>
      have hfilter : [t].filter (!·.isWhitespace) = [t] := by simp [ht]
      rw [hfilter, List.getLast?_concat]
      simp

/-- **The reader ends a term at the signs that separate.** -/
theorem endsAt_after (ts : List Token) (t : Token) : (after ts).endsAt t ↔ Separates ts t := by
  unfold endsAt Separates
  rw [Bool.and_eq_true, Bool.and_eq_true, LexemeKind.sign?_isSome, depth_after, afterCaret_after,
    decide_eq_true_iff, Bool.not_eq_true', decide_eq_false_iff_not, and_assoc]

theorem after_eq_outer_iff {ts : List Token} : after ts = outer ↔
    openDepth ts = 0 ∧ (lastSignificant? ts).map (·.kind) ≠ some .caret := by
  have hcaret := afterCaret_after ts
  rw [← depth_after]
  cases hn : after ts with
  | mk depth afterCaret =>
    rw [hn] at hcaret
    change afterCaret = _ at hcaret
    rw [hcaret, outer, mk.injEq, decide_eq_false_iff_not]

theorem after_of_separates {ts : List Token} {t : Token} (h : Separates ts t) :
    after ts = outer := after_eq_outer_iff.mpr h.2

theorem step_of_sign {n : Nesting} {t : Token} (h : t.kind = .plus ∨ t.kind = .minus) :
    n.step t = ⟨n.depth, false⟩ := by
  unfold step Lexeme.isWhitespace
  rcases h with h | h <;> rw [h] <;> rfl

theorem step_of_whitespace (n : Nesting) {t : Token} (h : t.isWhitespace) : n.step t = n := by
  have hk : t.kind = .whitespace := of_decide_eq_true h
  unfold step
  rw [if_pos h, hk]

theorem after_concat_of_separates {ts : List Token} {t : Token} (h : Separates ts t) :
    after (ts ++ [t]) = outer := by
  rw [after_concat, after_of_separates h, step_of_sign h.1]
  rfl

theorem after_append_whitespace (ts : List Token) {ws : List Token}
    (h : ∀ t ∈ ws, t.isWhitespace) : after (ts ++ ws) = after ts := by
  induction ws using List.reverseRecOn with
  | nil => rw [List.append_nil]
  | append_singleton ws t ih =>
    rw [← List.append_assoc, after_concat, step_of_whitespace _ (h t (by simp)),
      ih fun u hu => h u (List.mem_append_left _ hu)]

/-- The reader takes the tokens up to the next separator. -/
theorem split_after (before ts : List Token) : (after before).split ts =
    ((cut before ts).1, (cut before ts).2.flatMap fun s => s.1 :: s.2) := by
  induction ts generalizing before with
  | nil => rfl
  | cons t ts ih =>
    unfold split
    by_cases h : Separates before t
    · rw [if_pos ((endsAt_after before t).mpr h), cut_cons_of_separates h, List.flatMap_cons,
        List.cons_append, cut_append]
    · rw [if_neg (mt (endsAt_after before t).mp h), cut_cons_of_not h, ← after_concat, ih]

end Nesting

/-! ## One term after the other -/

theorem not_separates_of_whitespace {before : List Token} {t : Token} (h : t.isWhitespace) :
    ¬ Separates before t := fun hs => by
  have hk : t.kind = .whitespace := of_decide_eq_true h
  rcases hs.1 with hsign | hsign <;> rw [hk] at hsign <;> exact nomatch hsign

theorem cut_whitespace (before : List Token) {ws : List Token} (h : ∀ t ∈ ws, t.isWhitespace)
    (ts : List Token) : cut before (ws ++ ts) =
      (ws ++ (cut (before ++ ws) ts).1, (cut (before ++ ws) ts).2) := by
  induction ws generalizing before with
  | nil => rw [List.append_nil]; rfl
  | cons t ws ih =>
    obtain ⟨ht, hws⟩ := List.forall_mem_cons.mp h
    rw [List.cons_append, cut_cons_of_not (not_separates_of_whitespace ht), ih _ hws,
      List.append_assoc]
    rfl

theorem isWhitespace_of_sign {t : Token} {sign : Sign} (h : t.kind.sign? = some sign) :
    t.isWhitespace = false := by
  unfold Lexeme.isWhitespace
  cases hk : t.kind <;> rw [hk] at h <;> first | rfl | exact nomatch h

theorem separates_of_sign {before : List Token} {t : Token} {sign : Sign}
    (h : t.kind.sign? = some sign) (hbefore : Nesting.after before = .outer) :
    Separates before t := by
  rw [← Nesting.endsAt_after, hbefore]
  unfold Nesting.endsAt
  rw [h]
  rfl

theorem not_separates_of_sign {before : List Token} {t : Token} (h : t.kind.sign? = none) :
    ¬ Separates before t := fun hs => by
  have hsome := LexemeKind.sign?_isSome.mpr hs.1
  rw [h] at hsome
  exact Bool.false_ne_true hsome

theorem separates_of_cut {before ts : List Token} {s : Token} {us : List Token}
    {others : List (Token × List Token)} (h : (cut before ts).2 = (s, us) :: others) :
    Separates (before ++ (cut before ts).1) s ∧
      cut (before ++ (cut before ts).1) ((cut before ts).2.flatMap fun s => s.1 :: s.2) =
        ([], (cut before ts).2) := by
  induction ts generalizing before with
  | nil => exact nomatch h
  | cons t ts ih =>
    by_cases ht : Separates before t
    · have hcut := cut_append before (t :: ts)
      rw [cut_cons_of_separates ht] at h hcut ⊢
      rw [List.append_nil]
      obtain ⟨rfl, rfl⟩ := Prod.mk.inj (List.cons.inj h).1
      refine ⟨ht, ?_⟩
      rw [List.nil_append] at hcut
      rw [hcut, cut_cons_of_separates ht]
    · rw [cut_cons_of_not ht] at h ⊢
      have happend : before ++ t :: (cut (before ++ [t]) ts).1 =
          before ++ [t] ++ (cut (before ++ [t]) ts).1 := by rw [List.append_assoc]; rfl
      rw [happend]
      exact ih h

/-- The term that a piece forms. -/
inductive Piece.Builds : Piece → Term → Prop where
  | leading {ts : List Token} (h : ¬ ∀ t ∈ ts, t.isWhitespace) (place : Span) :
      Builds ⟨none, ts⟩ (.ofTokens .positive place ts)
  | separated {s : Token} {ts : List Token} {sign : Sign} (h : s.kind.sign? = some sign) :
      Builds ⟨some s, ts⟩ (.ofTokens sign s.span ts)

namespace Term

theorem all_of_none {ts : List Token} (h : next? ts = none) : (all ts).1 = [] := by
  fun_cases all ts with
  | case1 => rfl
  | case2 term rest hnext => exact absurd (h.symm.trans hnext) nofun

theorem all_of_some {ts rest : List Token} {t : Term} (h : next? ts = some (t, rest)) :
    (all ts).1 = t :: (all rest).1 := by
  fun_cases all ts with
  | case1 hnone => exact absurd (h.symm.trans hnone) nofun
  | case2 term others hnext =>
    obtain ⟨rfl, rfl⟩ := Prod.mk.inj (Option.some.inj (h.symm.trans hnext))
    rfl

theorem next?_blank {ts : List Token} (h : ∀ t ∈ ts, t.isWhitespace) : next? ts = none := by
  have hskip : skipWhitespace ts = [] := List.dropWhile_eq_nil_iff.mpr h
  unfold next?
  rw [hskip]

theorem next?_sign {ws us : List Token} {t : Token} {sign : Sign} (hws : ∀ t ∈ ws, t.isWhitespace)
    (ht : t.kind.sign? = some sign) : next? (ws ++ t :: us) =
      some (ofTokens sign t.span (Nesting.outer.split us).1, (Nesting.outer.split us).2) := by
  unfold next?
  rw [skipWhitespace_eq hws (isWhitespace_of_sign ht)]
  simp only [ht]

theorem next?_unsigned {ws us : List Token} {t : Token} (hws : ∀ t ∈ ws, t.isWhitespace)
    (hsignificant : t.isWhitespace = false) (ht : t.kind.sign? = none) : next? (ws ++ t :: us) =
      some (ofTokens .positive t.span (t :: ((Nesting.outer.step t).split us).1),
        ((Nesting.outer.step t).split us).2) := by
  unfold next?
  rw [skipWhitespace_eq hws hsignificant]
  simp only [ht]

end Term

/-! ## All terms -/

theorem piecesAfter_blank {before ts : List Token} (h : ∀ t ∈ ts, t.isWhitespace) :
    piecesAfter before ts = [] := by
  have hcut := cut_whitespace before h []
  rw [List.append_nil] at hcut
  rw [piecesAfter, find?_blank h, hcut]
  rfl

theorem piecesAfter_sign {before ws us : List Token} {t : Token} {sign : Sign}
    (hbefore : Nesting.after before = .outer) (hws : ∀ t ∈ ws, t.isWhitespace)
    (ht : t.kind.sign? = some sign) : piecesAfter before (ws ++ t :: us) =
      ⟨some t, (cut (before ++ ws ++ [t]) us).1⟩ ::
        (cut (before ++ ws ++ [t]) us).2.map fun s => ⟨some s.1, s.2⟩ := by
  have hseparates : Separates (before ++ ws) t :=
    separates_of_sign ht ((Nesting.after_append_whitespace before hws).trans hbefore)
  rw [piecesAfter, find?_blank_append hws (isWhitespace_of_sign ht), cut_whitespace before hws,
    cut_cons_of_separates hseparates]
  simp [ht]

theorem piecesAfter_unsigned {before ws us : List Token} {t : Token}
    (hws : ∀ t ∈ ws, t.isWhitespace)
    (hsignificant : t.isWhitespace = false) (ht : t.kind.sign? = none) :
    piecesAfter before (ws ++ t :: us) = ⟨none, ws ++ t :: (cut (before ++ ws ++ [t]) us).1⟩ ::
      (cut (before ++ ws ++ [t]) us).2.map fun s => ⟨some s.1, s.2⟩ := by
  rw [piecesAfter, find?_blank_append hws hsignificant, cut_whitespace before hws,
    cut_cons_of_not (not_separates_of_sign ht)]
  simp [ht]

theorem piecesAfter_restart {before ts : List Token} (h : (cut before ts).2 ≠ []) :
    Nesting.after (before ++ (cut before ts).1) = .outer ∧
      piecesAfter (before ++ (cut before ts).1) ((cut before ts).2.flatMap fun s => s.1 :: s.2) =
        (cut before ts).2.map fun s => ⟨some s.1, s.2⟩ := by
  cases hcut : (cut before ts).2 with
  | nil => exact absurd hcut h
  | cons s others =>
    obtain ⟨s, us⟩ := s
    obtain ⟨hseparates, hrestart⟩ := separates_of_cut hcut
    refine ⟨Nesting.after_of_separates hseparates, ?_⟩
    rw [hcut] at hrestart
    obtain ⟨sign, hsign⟩ := Option.isSome_iff_exists.mp (LexemeKind.sign?_isSome.mpr hseparates.1)
    have hfind : (((s, us) :: others).flatMap fun s => s.1 :: s.2).find? (!·.isWhitespace) =
        some s := by
      rw [List.flatMap_cons, List.cons_append,
        List.find?_cons_of_pos (by simp [isWhitespace_of_sign hsign])]
    rw [piecesAfter, hfind, hrestart]
    simp [hsign]

theorem Piece.Builds.unsigned {ws us : List Token} {t : Token} (hws : ∀ t ∈ ws, t.isWhitespace)
    (ht : t.isWhitespace = false) : Builds ⟨none, ws ++ t :: us⟩
      (.ofTokens .positive t.span (t :: us)) := by
  have hsignificant : ¬ ∀ u ∈ t :: us, u.isWhitespace := fun h => by
    have hblank := h t List.mem_cons_self
    rw [ht] at hblank
    exact Bool.false_ne_true hblank
  obtain ⟨before, middle, after, first, last, htrimmed⟩ := exists_trimmed hsignificant
  rw [htrimmed.ofTokens_eq, ← (htrimmed.append hws).ofTokens_eq .positive t.span]
  exact .leading (fun h => hsignificant fun u hu => h u (List.mem_append_right _ hu)) _

/-- **The terms that are read one after the other are those of the pieces.** -/
theorem Term.all_builds (ts : List Token) (before : List Token)
    (hbefore : Nesting.after before = .outer) :
    List.Forall₂ Piece.Builds (piecesAfter before ts) (all ts).1 := by
  induction hn : ts.length using Nat.strongRecOn generalizing ts before with
  | ind n ih =>
    -- what is left after the first term is shorter, and begins where nothing is open
    have hrest (before us : List Token) (hus : us.length < n) :
        List.Forall₂ Piece.Builds ((cut before us).2.map fun s => ⟨some s.1, s.2⟩)
          (all ((cut before us).2.flatMap fun s => s.1 :: s.2)).1 := by
      by_cases hnil : (cut before us).2 = []
      · rw [hnil, List.flatMap_nil, all_of_none (next?_blank fun _ h => absurd h List.not_mem_nil)]
        exact .nil
      · obtain ⟨houter, hpieces⟩ := piecesAfter_restart hnil
        rw [← hpieces]
        refine ih _ ?_ _ _ houter rfl
        have hlength := congrArg List.length (cut_append before us)
        rw [List.length_append] at hlength
        omega
    rcases blank_or_first ts with hblank | ⟨ws, t, us, rfl, hws, hsignificant⟩
    · rw [piecesAfter_blank hblank, all_of_none (next?_blank hblank)]
      exact .nil
    · have hus : us.length < n := by
        rw [← hn, List.length_append, List.length_cons]
        omega
      have hws' := (Nesting.after_append_whitespace before hws).trans hbefore
      cases ht : t.kind.sign? with
      | some sign =>
        have houter := Nesting.after_concat_of_separates (separates_of_sign ht hws')
        rw [piecesAfter_sign hbefore hws ht, all_of_some (next?_sign hws ht), ← houter,
          Nesting.split_after]
        exact .cons (.separated ht) (hrest _ us hus)
      | none =>
        have hstep : Nesting.after (before ++ ws ++ [t]) = Nesting.outer.step t := by
          rw [Nesting.after_concat, hws']
        rw [piecesAfter_unsigned hws hsignificant ht,
          all_of_some (next?_unsigned hws hsignificant ht),
          ← hstep, Nesting.split_after]
        exact .cons (.unsigned hws hsignificant) (hrest _ us hus)

end Fluxion
