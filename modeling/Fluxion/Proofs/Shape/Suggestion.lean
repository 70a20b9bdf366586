import Fluxion.Proofs.Shape.Classify
import Fluxion.Proofs.Shape.EditDistance
import Fluxion.Proofs.Token
import Mathlib.Data.List.Nodup

/-!
# Which functions are suggested

A term that is not supported may contain names that are one edit away from the name of a function.
These functions are suggested, each one once, in the order in which they are first met.

* `Lexeme.Misspells`: an unknown name at the distance one from that of a function.
* `Shape.MetBefore`: the order in which functions are met.
* `Shape.pairwise_meant`: they are suggested in that order.
* **`Term.suggestions_of_classify`**: the suggestions for a term that is not supported.
-/

namespace Fluxion

/-! ## Misspelt names -/

namespace Lexeme

/-- The edit distance of the lexeme from the name of the function. -/
def distance (l : Lexeme) (f : TrigFunction) : ℕ := editDistance f.name.toList l.chars

/-- The lexeme is an unknown name at distance one from that of the function. -/
def Misspells (l : Lexeme) (f : TrigFunction) : Prop :=
  l.kind = .name ∧ (∀ name ∈ Shape.knownNames, l.chars ≠ name.toList) ∧ l.distance f = 1

instance (l : Lexeme) (f : TrigFunction) : Decidable (l.Misspells f) := by
  unfold Misspells
  infer_instance

theorem isUnknownName_iff {l : Lexeme} : Shape.isUnknownName l ↔
    l.kind = .name ∧ ∀ name ∈ Shape.knownNames, l.chars ≠ name.toList := by
  unfold Shape.isUnknownName isName
  simp +contextual

end Lexeme

theorem one_lt_editDistance_of_cos {word : List Char}
    (h : editDistance TrigFunction.cos.name.toList word ≤ 1) {f : TrigFunction} (hf : f ≠ .cos) :
    1 < editDistance f.name.toList word := by
  have hfar : editDistance TrigFunction.cos.name.toList f.name.toList = 3 := by
    cases f with
    | cos => exact absurd rfl hf
    | sin | tan => decide
  have hdetour := editDistance_triangle TrigFunction.cos.name.toList word f.name.toList
  rw [editDistance_comm word] at hdetour
  omega

namespace Shape

/-- The functions whose names a lexeme misspells. -/
def misspelled (l : Lexeme) : List TrigFunction := TrigFunction.all.filter (l.Misspells ·)

/-- The functions that the lexemes misspell, each one once. -/
def meant (ls : List Lexeme) : List TrigFunction := (ls.flatMap misspelled).eraseDups

theorem mem_misspelled {l : Lexeme} {f : TrigFunction} : f ∈ misspelled l ↔ l.Misspells f := by
  unfold misspelled
  rw [List.mem_filter, decide_eq_true_iff, and_iff_right f.mem_all]

theorem near_of_isUnknownName {l : Lexeme} (h : isUnknownName l) : near l = misspelled l := by
  obtain ⟨hkind, hunknown⟩ := Lexeme.isUnknownName_iff.mp h
  refine List.filter_congr fun f _ => Bool.eq_iff_iff.mpr ?_
  have hname : f.name ∈ knownNames := by cases f <;> decide
  have hne : l.distance f ≠ 0 := fun hzero =>
    hunknown f.name hname (editDistance_eq_zero_iff.mp hzero).symm
  rw [withinOneEdit_iff, decide_eq_true_iff, Lexeme.Misspells, and_iff_right hkind,
    and_iff_right hunknown]
  change l.distance f ≤ 1 ↔ _
  omega

theorem misspelled_of_not {l : Lexeme} (h : ¬ isUnknownName l) : misspelled l = [] := by
  refine List.filter_eq_nil_iff.mpr fun f _ hf => h ?_
  obtain ⟨hkind, hunknown, -⟩ := of_decide_eq_true hf
  exact Lexeme.isUnknownName_iff.mpr ⟨hkind, hunknown⟩

theorem flatMap_near (ls : List Lexeme) :
    (ls.filter isUnknownName).flatMap near = ls.flatMap misspelled := by
  induction ls with
  | nil => rfl
  | cons l ls ih =>
    rw [List.flatMap_cons, ← ih]
    by_cases h : isUnknownName l
    · rw [List.filter_cons_of_pos h, List.flatMap_cons, near_of_isUnknownName h]
    · rw [List.filter_cons_of_neg h, misspelled_of_not h, List.nil_append]

end Shape

/-! ## Each function once -/

theorem eraseDups_map {α β : Type} [DecidableEq α] [DecidableEq β] {f : α → β}
    (hf : Function.Injective f) (xs : List α) : (xs.map f).eraseDups = xs.eraseDups.map f := by
  match xs with
  | [] => rfl
  | x :: xs =>
    have hfilter : (xs.map f).filter (fun b => !b == f x) =
        (xs.filter fun a => !a == x).map f := by
      rw [List.filter_map]
      congr 2
      funext a
      simp [hf.eq_iff]
    rw [List.map_cons, List.eraseDups_cons, List.eraseDups_cons, List.map_cons, hfilter,
      eraseDups_map hf (xs.filter _)]
termination_by xs.length
decreasing_by exact Nat.lt_succ_of_le (List.length_filter_le _ _)

theorem eraseDups_of_nodup {α : Type} [DecidableEq α] {xs : List α} (h : xs.Nodup) :
    xs.eraseDups = xs := by
  induction xs with
  | nil => rfl
  | cons x xs ih =>
    obtain ⟨hx, hxs⟩ := List.nodup_cons.mp h
    have hfilter : xs.filter (fun a => !a == x) = xs := by
      refine List.filter_eq_self.mpr fun a ha => ?_
      simpa using ne_of_mem_of_not_mem ha hx
    rw [List.eraseDups_cons, hfilter, ih hxs]

theorem TrigFunction.name_injective : Function.Injective name := by
  intro f g h
  have hname := congrArg ofName? h
  rw [ofName?_name, ofName?_name] at hname
  exact Option.some.inj hname

namespace Shape

theorem suggestions_eq (ls : List Lexeme) :
    suggestions ls = (meant ls).map TrigFunction.name := by
  rw [suggestions, flatMap_near, eraseDups_map TrigFunction.name_injective, meant]

theorem mem_meant {ls : List Lexeme} {f : TrigFunction} :
    f ∈ meant ls ↔ ∃ l ∈ ls, l.Misspells f := by
  rw [meant, List.mem_eraseDups, List.mem_flatMap]
  simp only [mem_misspelled]

/-! ## The order -/

/-- The place of the first lexeme that misspells the name of the function. -/
def firstMet (ls : List Lexeme) (f : TrigFunction) : ℕ := ls.findIdx (·.Misspells f)

/-- The first function is met in an earlier lexeme, or in the same one and is listed first. -/
def MetBefore (ls : List Lexeme) (f g : TrigFunction) : Prop :=
  firstMet ls f < firstMet ls g ∨
    firstMet ls f = firstMet ls g ∧ TrigFunction.all.idxOf f < TrigFunction.all.idxOf g

theorem firstMet_cons_of_mem {l : Lexeme} {f : TrigFunction} (h : f ∈ misspelled l)
    (ls : List Lexeme) : firstMet (l :: ls) f = 0 := by
  rw [firstMet, List.findIdx_cons, decide_eq_true (mem_misspelled.mp h), cond_true]

theorem firstMet_cons_of_notMem {l : Lexeme} {f : TrigFunction} (h : f ∉ misspelled l)
    (ls : List Lexeme) : firstMet (l :: ls) f = firstMet ls f + 1 := by
  rw [firstMet, List.findIdx_cons, decide_eq_false (mt mem_misspelled.mpr h), cond_false]
  rfl

theorem pairwise_all :
    TrigFunction.all.Pairwise fun f g => TrigFunction.all.idxOf f < TrigFunction.all.idxOf g := by
  decide

theorem pairwise_filter_misspelled (p : TrigFunction → Bool) (ls : List Lexeme) :
    ((ls.flatMap misspelled).filter p).eraseDups.Pairwise (MetBefore ls) := by
  induction ls generalizing p with
  | nil => exact .nil
  | cons l ls ih =>
    have hsublist : ((misspelled l).filter p).Sublist TrigFunction.all :=
      List.filter_sublist.trans List.filter_sublist
    have hnodup : ((misspelled l).filter p).Nodup := hsublist.nodup (by decide)
    have hfirst {f : TrigFunction} (hf : f ∈ (misspelled l).filter p) :
        firstMet (l :: ls) f = 0 := firstMet_cons_of_mem (List.mem_filter.mp hf).1 ls
    have hlater {f : TrigFunction} (hf : f ∈ (((ls.flatMap misspelled).filter p).removeAll
        ((misspelled l).filter p)).eraseDups) : firstMet (l :: ls) f = firstMet ls f + 1 := by
      rw [List.mem_eraseDups, List.removeAll, List.mem_filter, List.mem_filter] at hf
      obtain ⟨⟨-, hp⟩, hnot⟩ := hf
      refine firstMet_cons_of_notMem (fun hmem => ?_) ls
      simp [List.mem_filter.mpr ⟨hmem, hp⟩] at hnot
    rw [List.flatMap_cons, List.filter_append, List.eraseDups_append, eraseDups_of_nodup hnodup]
    refine List.pairwise_append.mpr ⟨?_, ?_, fun f hf g hg => .inl ?_⟩
    · refine (pairwise_all.sublist hsublist).imp_of_mem fun hf hg hfg => .inr ⟨?_, hfg⟩
      rw [hfirst hf, hfirst hg]
    · rw [List.removeAll, List.filter_filter] at hlater ⊢
      refine (ih _).imp_of_mem fun hf hg hfg => ?_
      unfold MetBefore at hfg ⊢
      rw [hlater hf, hlater hg]
      omega
    · rw [hfirst hf, hlater hg]
      omega

/-- **The functions are suggested in the order in which they are met.** -/
theorem pairwise_meant (ls : List Lexeme) : (meant ls).Pairwise (MetBefore ls) := by
  have h := pairwise_filter_misspelled (fun _ => true) ls
  rwa [List.filter_true] at h

theorem nodup_meant (ls : List Lexeme) : (meant ls).Nodup := by
  refine (pairwise_meant ls).imp fun hbefore heq => ?_
  subst heq
  rcases hbefore with hlt | ⟨-, hlt⟩
  · exact lt_irrefl _ hlt
  · exact lt_irrefl _ hlt

/-- Whitespace contains no names. -/
theorem suggestions_significant (cs : List Char) :
    suggestions (Lexeme.significant cs) = suggestions (Lexeme.scan cs) := by
  have hname (l : Lexeme) (h : isUnknownName l) : (!l.isWhitespace) = true := by
    rw [Lexeme.isWhitespace, (Lexeme.isUnknownName_iff.mp h).1]
    rfl
  have hfilter : (Lexeme.significant cs).filter isUnknownName =
      (Lexeme.scan cs).filter isUnknownName := by
    rw [Lexeme.significant, List.filter_filter]
    refine List.filter_congr fun l _ => ?_
    cases h : isUnknownName l with
    | false => rfl
    | true => rw [hname l h, Bool.and_self]
  unfold suggestions
  rw [hfilter]

end Shape

/-! ## Terms -/

namespace Term

theorem eq_suggestions_of_classify {t : Term} {text : String} {names : List String}
    {spans : List Span} (h : t.classify = .error ⟨.unsupportedTerm text names, spans⟩) :
    names = Shape.suggestions t.lexemes := by
  have hwritten := not_written_of_error h
  by_cases hcall : Grammar.HasCall t.lexemes
  · rw [classify_of_hasCall hcall hwritten] at h
    exact nomatch h
  · rw [classify_of_not_hasCall hcall hwritten] at h
    injection h with h
    injection h with hcause
    injection hcause with _ hnames
    exact hnames.symm

/-- **The suggestions for a term that is not supported are exactly the near misses**, each one once
and in the order in which they are met in the text. -/
theorem suggestions_of_classify {t : Term} {text : String} {names : List String}
    {spans : List Span} (h : t.classify = .error ⟨.unsupportedTerm text names, spans⟩) :
    names.Nodup ∧
      (∀ f : TrigFunction, f.name ∈ names ↔ ∃ u ∈ tokenize t.text, u.Misspells f) ∧
      (∃ fs : List TrigFunction, names = fs.map TrigFunction.name ∧
        fs.Pairwise (Shape.MetBefore ((tokenize t.text).map (·.toLexeme)))) ∧
      ∀ word : Lexeme, word.distance .cos ≤ 1 →
        1 < word.distance .sin ∧ 1 < word.distance .tan := by
  have hnames : names = (Shape.meant ((tokenize t.text).map (·.toLexeme))).map TrigFunction.name := by
    rw [map_toLexeme_tokenize, eq_suggestions_of_classify h, lexemes,
      Shape.suggestions_significant, Shape.suggestions_eq]
  refine ⟨?_, fun f => ?_, ⟨_, hnames, Shape.pairwise_meant _⟩, fun word hword =>
    ⟨one_lt_editDistance_of_cos hword (by decide), one_lt_editDistance_of_cos hword (by decide)⟩⟩
  · rw [hnames]
    exact (Shape.nodup_meant _).map TrigFunction.name_injective
  · rw [hnames, List.mem_map_of_injective TrigFunction.name_injective, Shape.mem_meant]
    simp only [List.mem_map, exists_exists_and_eq_and]

/-- The name `con` is met first, and `tin` is near to two functions. -/
theorem suggestions_of_classify_con :
    Term.classify ⟨.negative, "con(x) tin x", ⟨9, 21⟩⟩ =
        .error ⟨.unsupportedTerm "con(x) tin x" ["cos", "sin", "tan"], [⟨9, 21⟩]⟩ ∧
      ["cos", "sin", "tan"].Nodup ∧
      (∀ f : TrigFunction, f.name ∈ ["cos", "sin", "tan"] ↔
        ∃ u ∈ tokenize "con(x) tin x", u.Misspells f) ∧
      ∃ fs : List TrigFunction, ["cos", "sin", "tan"] = fs.map TrigFunction.name ∧
        fs.Pairwise (Shape.MetBefore ((tokenize "con(x) tin x").map (·.toLexeme))) := by
  have h : Term.classify ⟨.negative, "con(x) tin x", ⟨9, 21⟩⟩ =
      .error ⟨.unsupportedTerm "con(x) tin x" ["cos", "sin", "tan"], [⟨9, 21⟩]⟩ := by
    decide +kernel
  obtain ⟨hnodup, hnames, horder, -⟩ := suggestions_of_classify h
  exact ⟨h, hnodup, hnames, horder⟩

end Term

end Fluxion
