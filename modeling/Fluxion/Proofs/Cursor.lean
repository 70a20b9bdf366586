import Fluxion.Proofs.Tokenization
import Fluxion.Proofs.Validation
import Fluxion.Term.Cursor

/-!
# A cursor can be asked in any order

Each part of a function moves the cursor as far as the list of tokens is shortened where terms are
read from a list. Since no sign is unknown, reading only ends where no token is left, and the next
reading begins with the first one again.

* `TermCursor.Stands`: a cursor into the tokens of a text, and those that lie ahead of it.
* `Stands.skipWhitespace`, `Stands.skipTerm`, `Stands.readSign`, `Stands.readTerm`,
  `Stands.readTerms`: what is read, and where the cursor stands afterwards.
* **`TermCursor.Stands.readAll`**: the terms of the text are read from wherever the cursor stands.
* **`TermCursor.run_reply`**: the reply to each call in a sequence.
-/

namespace Fluxion

theorem Term.ofTokens_place {ts : List Token} (h : ¬ ∀ t ∈ ts, t.isWhitespace) (sign : Sign)
    (place place' : Span) : ofTokens sign place ts = ofTokens sign place' ts := by
  obtain ⟨before, middle, after, first, last, htrimmed⟩ := exists_trimmed h
  rw [htrimmed.ofTokens_eq, htrimmed.ofTokens_eq]

theorem Term.isWhitespace_of_skipWhitespace {ts us : List Token} {t : Token}
    (h : skipWhitespace ts = t :: us) : t.isWhitespace = false := by
  have hnot := List.head?_dropWhile_not (fun t : Token => t.isWhitespace) ts
  rw [show ts.dropWhile _ = t :: us from h] at hnot
  exact hnot

theorem Nesting.split_unsigned {t : Token} (h : t.kind.sign? = none) (ts : List Token) :
    Nesting.outer.split (t :: ts) =
      (t :: ((Nesting.outer.step t).split ts).1, ((Nesting.outer.step t).split ts).2) := by
  rw [split, if_neg (by simp [endsAt, h])]

namespace TermCursor

theorem readTerms_of_none {r next : TermCursor} (h : r.readTerm = (.ok none, next)) :
    r.readTerms = (.ok [], next) := by
  rw [readTerms]
  split
  · next heq => cases h.symm.trans heq
  · next heq => rw [(Prod.mk.inj (h.symm.trans heq)).2]
  · next heq => cases h.symm.trans heq

theorem readTerms_of_some {r next : TermCursor} {term : Term}
    (h : r.readTerm = (.ok (some term), next)) :
    r.readTerms = (next.readTerms.1.map (term :: ·), next.readTerms.2) := by
  rw [readTerms]
  split
  · next heq => cases h.symm.trans heq
  · next heq => cases h.symm.trans heq
  · next heq =>
    obtain ⟨hterm, rfl⟩ := Prod.mk.inj (h.symm.trans heq)
    rw [Option.some.inj (Except.ok.inj hterm)]

/-- The given tokens of the text are still to be read. -/
structure Stands (source : String) (ts : List Token) (r : TermCursor) : Prop where
  source_eq : r.source = source
  tokens_eq : r.tokens.toList = tokenize source
  ahead : r.tokens.toList.drop r.index = ts

theorem stands_ofSource (source : String) : Stands source (tokenize source) (ofSource source) where
  source_eq := rfl
  tokens_eq := rfl
  ahead := rfl

namespace Stands

variable {source : String} {r : TermCursor} {t : Token} {ts : List Token}

theorem current?_eq (h : Stands source ts r) : r.current? = ts.head? := by
  rw [current?, ← Array.getElem?_toList, ← h.ahead, List.head?_drop]

theorem advance (h : Stands source (t :: ts) r) : Stands source ts r.advance where
  source_eq := h.source_eq
  tokens_eq := h.tokens_eq
  ahead := by
    change r.tokens.toList.drop (r.index + 1) = ts
    rw [← List.drop_drop, h.ahead]
    rfl

theorem mem (h : Stands source ts r) (ht : t ∈ ts) : t ∈ tokenize source := by
  rw [← h.ahead, h.tokens_eq] at ht
  exact List.mem_of_mem_drop ht

/-! ## The parts of a function -/

theorem skipWhitespace (h : Stands source ts r) :
    Stands source (Term.skipWhitespace ts) r.skipWhitespace := by
  induction ts generalizing r with
  | nil =>
    rw [skipWhitespace_eq, h.current?_eq]
    exact h
  | cons t ts ih =>
    rw [skipWhitespace_eq, h.current?_eq]
    change Stands source ((t :: ts).dropWhile _) (if t.isWhitespace then _ else r)
    rw [List.dropWhile_cons]
    split
    · exact ih h.advance
    · exact h

theorem skipTerm (n : Nesting) (h : Stands source ts r) :
    Stands source (n.split ts).2 (r.skipTerm n) ∧
      (r.skipTerm n).index = r.index + (n.split ts).1.length := by
  induction ts generalizing r n with
  | nil =>
    rw [skipTerm_eq, h.current?_eq]
    exact ⟨h, rfl⟩
  | cons t ts ih =>
    rw [skipTerm_eq, h.current?_eq, Nesting.split]
    dsimp only [List.head?_cons]
    split
    · exact ⟨h, rfl⟩
    · obtain ⟨hstands, hindex⟩ := ih (n.step t) h.advance
      refine ⟨hstands, ?_⟩
      rw [hindex, List.length_cons]
      exact (Nat.add_right_comm _ _ _).trans (Nat.add_assoc _ _ _)

theorem toList_extract (n : Nesting) (h : Stands source ts r) :
    (r.tokens.extract r.index (r.skipTerm n).index).toList = (n.split ts).1 := by
  rw [(h.skipTerm n).2, Array.toList_extract, List.extract_eq_take_drop, Nat.add_sub_cancel_left,
    h.ahead]
  exact (congrArg (List.take _) (n.split_append ts).symm).trans List.take_left

/-- No sign is unknown. -/
theorem readSign (h : Stands source (t :: ts) r) : r.readSign = .ok (match t.kind.sign? with
    | some sign => (some (sign, t.span), r.advance)
    | none => (none, r)) := by
  unfold TermCursor.readSign
  rw [h.current?_eq]
  dsimp only [List.head?_cons]
  cases hsign : t.kind.sign? with
  | none => rfl
  | some sign =>
    have hread : Sign.ofString (String.ofList t.chars) = .ok sign := by
      rw [(Token.whole_of_mem (h.mem List.mem_cons_self)).chars_eq hsign, Sign.ofString,
        String.toList_ofList]
      exact sign.ofChar_symbol
    rw [hread]
    rfl

/-! ## Terms -/

theorem readTerm_none (h : Stands source ts r) (hnext : Term.next? ts = none) :
    ∃ next, r.readTerm = (.ok none, next) ∧ Stands source [] next := by
  have hfirst := h.skipWhitespace
  have hblank : Term.skipWhitespace ts = [] := by
    unfold Term.next? at hnext
    split at hnext
    · assumption
    · split at hnext <;> exact nomatch hnext
  rw [hblank] at hfirst
  refine ⟨r.skipWhitespace, ?_, hfirst⟩
  simp only [readTerm, hfirst.current?_eq, List.head?_nil]

theorem readTerm_some (h : Stands source ts r) {term : Term} {rest : List Token}
    (hnext : Term.next? ts = some (term, rest)) :
    ∃ next, r.readTerm = (.ok (some term), next) ∧ Stands source rest next := by
  have hfirst := h.skipWhitespace
  unfold Term.next? at hnext
  split at hnext
  · exact nomatch hnext
  · next t us hskip =>
    rw [hskip] at hfirst
    have hsign := hfirst.readSign
    split at hnext
    · next sign hkind =>
      obtain ⟨rfl, rfl⟩ := Prod.mk.inj (Option.some.inj hnext)
      rw [hkind] at hsign
      simp only [readTerm, hfirst.current?_eq, List.head?_cons, hsign]
      refine ⟨_, ?_, (hfirst.advance.skipTerm .outer).1⟩
      rw [hfirst.advance.toList_extract]
      rfl
    · next hkind =>
      obtain ⟨rfl, rfl⟩ := Prod.mk.inj (Option.some.inj hnext)
      have hstands := (hfirst.skipTerm .outer).1
      have hbody := hfirst.toList_extract .outer
      rw [Nesting.split_unsigned hkind] at hstands hbody
      have hnot : ¬ ∀ u ∈ t :: ((Nesting.outer.step t).split us).1, u.isWhitespace := fun hall => by
        have hblank := hall t List.mem_cons_self
        rw [Term.isWhitespace_of_skipWhitespace hskip] at hblank
        cases hblank
      rw [hkind] at hsign
      simp only [readTerm, hfirst.current?_eq, List.head?_cons, hsign]
      refine ⟨_, ?_, hstands⟩
      rw [hbody, Term.ofTokens_place hnot .positive t.span]
      rfl

/-- All terms are read, whatever they are, and no token is left. -/
theorem readTerms (h : Stands source ts r) :
    ∃ last, r.readTerms = (.ok (Term.all ts).1, last) ∧ Stands source [] last := by
  induction ts using Term.all.induct generalizing r with
  | case1 ts hnext =>
    obtain ⟨next, hread, hstands⟩ := h.readTerm_none hnext
    rw [readTerms_of_none hread, Term.all_of_none hnext]
    exact ⟨next, rfl, hstands⟩
  | case2 ts term rest hnext _ ih =>
    obtain ⟨next, hread, hstands⟩ := h.readTerm_some hnext
    obtain ⟨last, hlast, hend⟩ := ih hstands
    rw [readTerms_of_some hread, Term.all_of_some hnext, hlast]
    exact ⟨last, rfl, hend⟩

/-! ## Whole texts -/

theorem readHeader (h : Stands source ts r) (hheader : hasHeader source = true) :
    ∃ body, r.readHeader = .ok body ∧ Stands source (afterHeader source) body := by
  unfold TermCursor.readHeader requireHeader
  rw [h.source_eq, if_pos hheader]
  refine ⟨_, rfl, rfl, h.tokens_eq, ?_⟩
  obtain ⟨rest, rfl⟩ := hasHeader_iff.mp hheader
  have hdrop : (tokenize (header ++ rest)).dropWhile (·.span.start < headerLength) =
      (tokenize (header ++ rest)).drop
        ((tokenize (header ++ rest)).findIdx fun t => headerLength ≤ t.span.start) := by
    rw [List.dropWhile_eq_drop_findIdx_not]
    simp only [← decide_not, Nat.not_lt]
  rw [← dropWhile_header, hdrop, ← h.tokens_eq, ← List.findIdx_toArray]

/-- **The terms of a text are read from wherever a cursor into it stands.** -/
theorem readAll (h : Stands source ts r) : ∃ last, r.readAll = (Term.parse source, last) ∧
    Stands source (if hasHeader source then [] else tokenize source) last := by
  have hstart : Stands source (tokenize source) { r with index := 0 } :=
    ⟨h.source_eq, h.tokens_eq, h.tokens_eq⟩
  cases hheader : hasHeader source with
  | false =>
    refine ⟨_, ?_, hstart⟩
    have hrefused : TermCursor.readHeader { r with index := 0 } = .error (.missingHeader source) := by
      unfold TermCursor.readHeader requireHeader
      rw [hstart.source_eq, hheader]
      rfl
    unfold TermCursor.readAll
    simp only [hrefused]
    rw [Term.parse_eq_error_iff.mpr ⟨hheader, rfl⟩]
  | true =>
    obtain ⟨body, hbody, hstands⟩ := hstart.readHeader hheader
    obtain ⟨last, hlast, hend⟩ := hstands.readTerms
    obtain ⟨rest, rfl⟩ := hasHeader_iff.mp hheader
    refine ⟨last, ?_, hend⟩
    unfold TermCursor.readAll
    simp only [hbody]
    rw [hlast, Term.parse_header]

end Stands

/-! ## Calls -/

/-- The tokens that lie ahead of a cursor after calls. -/
def aheadAfter (source : String) (calls : List Call) : List Token :=
  if .readAll ∈ calls ∧ hasHeader source then [] else tokenize source

/-- The cursor after calls. -/
def after (r : TermCursor) (calls : List Call) : TermCursor :=
  calls.foldl (fun r call => (r.perform call).2) r

theorem run_append (r : TermCursor) (before after : List Call) :
    r.run (before ++ after) = r.run before ++ (r.after before).run after := by
  induction before generalizing r with
  | nil => rfl
  | cons call before ih => exact congrArg ((r.perform call).1 :: ·) (ih _)

theorem length_run (r : TermCursor) (calls : List Call) : (r.run calls).length = calls.length := by
  induction calls generalizing r with
  | nil => rfl
  | cons call calls ih => exact congrArg (· + 1) (ih _)

theorem aheadAfter_concat (source : String) (calls : List Call) (call : Call) :
    aheadAfter source (calls ++ [call]) = if call = .readAll then
      (if hasHeader source then [] else tokenize source) else aheadAfter source calls := by
  unfold aheadAfter
  by_cases hcall : call = .readAll
  · simp [hcall]
  · simp [hcall, Ne.symm hcall]

theorem Stands.perform {source : String} {calls : List Call} {r : TermCursor}
    (h : Stands source (aheadAfter source calls) r) (call : Call) :
    Stands source (aheadAfter source (calls ++ [call])) (r.perform call).2 := by
  rw [aheadAfter_concat]
  cases call with
  | endSpan | current | clone => exact h
  | readAll =>
    obtain ⟨last, hlast, hstands⟩ := h.readAll
    unfold TermCursor.perform
    rw [hlast, if_pos rfl]
    exact hstands

theorem stands_after (source : String) (calls : List Call) :
    Stands source (aheadAfter source calls) ((ofSource source).after calls) := by
  induction calls using List.reverseRecOn with
  | nil => exact stands_ofSource source
  | append_singleton calls call ih =>
    rw [after, List.foldl_append]
    exact ih.perform call

theorem head?_tokenize_eq_none_iff {source : String} :
    (tokenize source).head? = none ↔ source = "" := by
  rw [List.head?_eq_none_iff]
  constructor
  · intro hnil
    have hchars := tokenChars_tokenize source
    rw [hnil] at hchars
    exact String.toList_eq_nil_iff.mp hchars.symm
  · rintro rfl
    rfl

/-- **A cursor can be asked in any order.** Whatever was asked before, all terms are read as from a
new cursor. -/
theorem run_reply (source : String) (before after : List Call) :
    let reply (call : Call) := ((ofSource source).run (before ++ call :: after))[before.length]?
    reply .readAll = some (.terms (ofSource source).readAll.1) ∧
      reply .endSpan = some (.span ⟨source.utf8ByteSize, source.utf8ByteSize⟩) ∧
      reply .current = some (.token (if .readAll ∈ before ∧ hasHeader source then none
        else (tokenize source).head?)) ∧
      reply .clone = some .cloned ∧
      ((tokenize source).head? = none ↔ source = "") := by
  have hstands := stands_after source before
  have hreply (call : Call) : ((ofSource source).run (before ++ call :: after))[before.length]? =
      some (((ofSource source).after before).perform call).1 := by
    rw [run_append, List.getElem?_append_right (length_run _ _).le, length_run, Nat.sub_self]
    rfl
  obtain ⟨fresh, hfresh, -⟩ := (stands_ofSource source).readAll
  obtain ⟨last, hlast, -⟩ := hstands.readAll
  simp only [hreply, perform, hlast, hfresh, hstands.current?_eq, endSpan, hstands.source_eq,
    utf8ByteSize_eq, aheadAfter, Span.point, true_and]
  refine ⟨?_, head?_tokenize_eq_none_iff⟩
  split <;> rfl

end TermCursor

end Fluxion
