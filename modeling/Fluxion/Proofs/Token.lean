import Fluxion.Proofs.Lexeme.Scan
import Fluxion.Term.Reader

/-!
# Tokens and the places they have

* `Token.Run`: tokens that stand one after the other, from one offset to another.
* `Token.run_place`, `Token.run_tokenize`: the lexemes of a text are laid out without gaps.
* `afterHeader`, `afterHeader_eq`: the tokens after the header are those of the rest of the text.
* `IsSlice`, `Token.isSlice_of_mem`, **`isSlice_of_run`**: a token and a run of tokens are written in
  the bytes that they take.
-/

namespace Fluxion

/-! ## Runs -/

theorem utf8Length_pos {cs : List Char} (h : cs ≠ []) : 0 < utf8Length cs := by
  cases cs with
  | nil => exact absurd rfl h
  | cons c cs => exact Nat.add_pos_left c.utf8Size_pos _

namespace Token

/-- The tokens stand one after the other from one offset to another. -/
inductive Run : Nat → List Token → Nat → Prop where
  | nil {offset : Nat} : Run offset [] offset
  | cons {start stop : Nat} {l : Lexeme} {ts : List Token} (hl : l.chars ≠ [])
      (h : Run (start + utf8Length l.chars) ts stop) :
      Run start (⟨l, ⟨start, start + utf8Length l.chars⟩⟩ :: ts) stop

theorem run_place {ls : List Lexeme} (h : ∀ l ∈ ls, l.Uniform) (offset : Nat) :
    ∃ stop, Run offset (place offset ls) stop := by
  induction ls generalizing offset with
  | nil => exact ⟨offset, .nil⟩
  | cons l ls ih =>
    obtain ⟨hl, hls⟩ := List.forall_mem_cons.mp h
    obtain ⟨stop, hrun⟩ := ih hls (offset + utf8Length l.chars)
    exact ⟨stop, .cons hl.ne_nil hrun⟩

namespace Run

variable {start stop : Nat} {ts us : List Token}

theorem stop_eq (h : Run start ts stop) : stop = start + utf8Length (Term.tokenChars ts) := by
  induction h with
  | nil => rfl
  | @cons _ _ l ts _ _ ih =>
    change _ = _ + utf8Length (l.chars ++ Term.tokenChars ts)
    rw [ih, utf8Length_append, Nat.add_assoc]

theorem le (h : Run start ts stop) : start ≤ stop := by
  rw [h.stop_eq]
  exact Nat.le_add_right _ _

theorem append (h : Run start (ts ++ us) stop) :
    ∃ middle, Run start ts middle ∧ Run middle us stop := by
  induction ts generalizing start with
  | nil => exact ⟨start, .nil, h⟩
  | cons t ts ih =>
    cases h with
    | cons hl hrun =>
      obtain ⟨middle, hts, hus⟩ := ih hrun
      exact ⟨middle, .cons hl hts, hus⟩

theorem concat {middle : Nat} (hts : Run start ts middle) (hus : Run middle us stop) :
    Run start (ts ++ us) stop := by
  induction hts with
  | nil => exact hus
  | cons hl _ ih => exact .cons hl (ih hus)

theorem mem (h : Run start ts stop) {t : Token} (ht : t ∈ ts) :
    start ≤ t.span.start ∧ t.span.start < t.span.stop ∧ t.span.stop ≤ stop := by
  induction h with
  | nil => exact absurd ht List.not_mem_nil
  | @cons start stop l ts hl hrun ih =>
    have hpos := utf8Length_pos hl
    rcases List.mem_cons.mp ht with rfl | ht
    · exact ⟨Nat.le_refl _, Nat.lt_add_of_pos_right hpos, hrun.le⟩
    · obtain ⟨hle, hlt, hstop⟩ := ih ht
      exact ⟨Nat.le_trans (Nat.le_add_right _ _) hle, hlt, hstop⟩

theorem head_start {t : Token} (h : Run start (t :: ts) stop) : t.span.start = start := by
  cases h
  rfl

theorem last_stop {t : Token} (h : Run start (ts ++ [t]) stop) : t.span.stop = stop := by
  obtain ⟨middle, -, hlast⟩ := h.append
  cases hlast with
  | cons hl hnil =>
    cases hnil
    rfl

end Run

end Token

/-! ## The tokens of a text -/

theorem Token.tokenChars_place (offset : Nat) (ls : List Lexeme) :
    Term.tokenChars (place offset ls) = ls.flatMap (·.chars) := by
  induction ls generalizing offset with
  | nil => rfl
  | cons l ls ih => exact congrArg (l.chars ++ ·) (ih _)

theorem tokenChars_tokenize (source : String) :
    Term.tokenChars (tokenize source) = source.toList := by
  rw [tokenize, Token.tokenChars_place, Lexeme.flatMap_scan]

theorem Token.run_tokenize (source : String) :
    Run 0 (tokenize source) (utf8Length source.toList) := by
  have huniform : ∀ l ∈ Lexeme.scan source.toList, l.Uniform := Lexeme.uniform_of_mem_scan
  obtain ⟨stop, hrun⟩ := run_place huniform 0
  have hstop : stop = utf8Length source.toList := by
    rw [hrun.stop_eq, tokenChars_place, Lexeme.flatMap_scan, Nat.zero_add]
  rw [← hstop]
  exact hrun

/-! ## The tokens after the header -/

/-- The tokens that stand after the header. -/
def afterHeader (source : String) : List Token :=
  (tokenize source).filter fun t => headerLength ≤ t.span.start

namespace Lexeme

theorem scan_header (cs : List Char) :
    scan (header.toList ++ cs) = scan header.toList ++ scan cs :=
  scan_append_single (rfl : (LexemeKind.ofChar '=').joins = false) ['f', '(', 'x', ')', ' '] cs

end Lexeme

theorem Token.place_append (offset : Nat) (ls ms : List Lexeme) : place offset (ls ++ ms) =
    place offset ls ++ place (offset + utf8Length (ls.flatMap (·.chars))) ms := by
  induction ls generalizing offset with
  | nil => rfl
  | cons l ls ih =>
    rw [List.cons_append, place_cons, place_cons, ih, List.flatMap_cons, utf8Length_append,
      Nat.add_assoc]
    rfl

theorem Token.map_toLexeme_place (offset : Nat) (ls : List Lexeme) :
    (place offset ls).map (·.toLexeme) = ls := by
  induction ls generalizing offset with
  | nil => rfl
  | cons l ls ih => exact congrArg (l :: ·) (ih _)

theorem map_toLexeme_tokenize (text : String) :
    (tokenize text).map (·.toLexeme) = Lexeme.scan text.toList := Token.map_toLexeme_place 0 _

theorem tokenize_header (rest : String) : tokenize (header ++ rest) =
    Token.place 0 (Lexeme.scan header.toList) ++
      Token.place headerLength (Lexeme.scan rest.toList) := by
  rw [tokenize, String.toList_append, Lexeme.scan_header, Token.place_append,
    Lexeme.flatMap_scan, Nat.zero_add]
  rfl

theorem start_lt_of_mem_header :
    ∀ t ∈ Token.place 0 (Lexeme.scan header.toList), t.span.start < headerLength := by decide

theorem le_start_of_mem_rest (cs : List Char) :
    ∀ t ∈ Token.place headerLength (Lexeme.scan cs), headerLength ≤ t.span.start := fun t ht => by
  have huniform : ∀ l ∈ Lexeme.scan cs, l.Uniform := Lexeme.uniform_of_mem_scan
  obtain ⟨stop, hrun⟩ := Token.run_place huniform headerLength
  exact (hrun.mem ht).1

theorem afterHeader_eq (rest : String) :
    afterHeader (header ++ rest) = Token.place headerLength (Lexeme.scan rest.toList) := by
  have hheader : (Token.place 0 (Lexeme.scan header.toList)).filter
      (fun t => headerLength ≤ t.span.start) = [] :=
    List.filter_eq_nil_iff.mpr fun t ht hle =>
      Nat.not_le_of_lt (start_lt_of_mem_header t ht) (of_decide_eq_true hle)
  have hrest : (Token.place headerLength (Lexeme.scan rest.toList)).filter
      (fun t => headerLength ≤ t.span.start) =
        Token.place headerLength (Lexeme.scan rest.toList) :=
    List.filter_eq_self.mpr fun t ht => decide_eq_true (le_start_of_mem_rest _ t ht)
  rw [afterHeader, tokenize_header, List.filter_append, hheader, hrest, List.nil_append]

theorem dropWhile_header (rest : String) :
    (tokenize (header ++ rest)).dropWhile (·.span.start < headerLength) =
      afterHeader (header ++ rest) := by
  have hheader : ∀ t ∈ Token.place 0 (Lexeme.scan header.toList),
      decide (t.span.start < headerLength) = true := fun t ht =>
    decide_eq_true (start_lt_of_mem_header t ht)
  rw [afterHeader_eq, tokenize_header, List.dropWhile_append_of_pos hheader]
  cases hplace : Token.place headerLength (Lexeme.scan rest.toList) with
  | nil => rfl
  | cons t ts =>
    have hle := le_start_of_mem_rest rest.toList t (by rw [hplace]; exact List.mem_cons_self)
    exact List.dropWhile_cons_of_neg fun h => Nat.not_le_of_lt (of_decide_eq_true h) hle

theorem run_afterHeader (rest : String) :
    ∃ stop, Token.Run headerLength (afterHeader (header ++ rest)) stop := by
  rw [afterHeader_eq]
  exact Token.run_place Lexeme.uniform_of_mem_scan headerLength

theorem tokenChars_afterHeader (rest : String) :
    Term.tokenChars (afterHeader (header ++ rest)) = rest.toList := by
  rw [afterHeader_eq, Token.tokenChars_place, Lexeme.flatMap_scan]

/-! ## Slices -/

/-- The text stands in the bytes of the source that the span gives. -/
def IsSlice (source : String) (span : Span) (text : String) : Prop :=
  ∃ before after, source.toList = before ++ text.toList ++ after ∧
    utf8Length before = span.start ∧ utf8Length (before ++ text.toList) = span.stop

theorem Token.isSlice_of_mem {source : String} {t : Token} (ht : t ∈ tokenize source) :
    IsSlice source t.span (String.ofList t.chars) := by
  obtain ⟨us, vs, hsplit⟩ := List.append_of_mem ht
  have hrun := run_tokenize source
  have hchars := tokenChars_tokenize source
  rw [hsplit] at hrun hchars
  obtain ⟨start, hbefore, hrest⟩ := hrun.append
  have hstart : t.span.start = utf8Length (Term.tokenChars us) := by
    rw [hrest.head_start, hbefore.stop_eq, Nat.zero_add]
  have hstop : t.span.stop = t.span.start + utf8Length t.chars := by
    cases hrest
    rfl
  refine ⟨Term.tokenChars us, Term.tokenChars vs, ?_, hstart.symm, ?_⟩
  · rw [← hchars, Term.tokenChars, List.flatMap_append, List.flatMap_cons, String.toList_ofList,
      List.append_assoc]
    rfl
  · rw [utf8Length_append, String.toList_ofList, hstop, hstart]

/-- **A run of tokens is written in the bytes that it takes.** -/
theorem isSlice_of_run {rest : String} {ts us vs : List Token}
    (h : afterHeader (header ++ rest) = ts ++ us ++ vs) {start stop : Nat}
    (hts : Token.Run headerLength ts start) (hus : Token.Run start us stop) :
    IsSlice (header ++ rest) ⟨start, stop⟩ (String.ofList (Term.tokenChars us)) := by
  have hchars : rest.toList =
      Term.tokenChars ts ++ Term.tokenChars us ++ Term.tokenChars vs := by
    rw [← tokenChars_afterHeader, h, Term.tokenChars, List.flatMap_append, List.flatMap_append]
    rfl
  refine ⟨header.toList ++ Term.tokenChars ts, Term.tokenChars vs, ?_, ?_, ?_⟩
  · rw [String.toList_append, hchars, String.toList_ofList]
    simp only [List.append_assoc]
  · rw [utf8Length_append]
    exact hts.stop_eq.symm
  · rw [utf8Length_append, utf8Length_append, String.toList_ofList, hus.stop_eq, hts.stop_eq]
    rfl

end Fluxion
