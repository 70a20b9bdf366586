import Fluxion.Proofs.Rendering

/-!
# Written sums that are read back

A written sum differs from its terms written one directly after the other: the first sign may be
missing, and there are spaces around the others. The spaces belong to no term, so the terms are read
back all the same.

* `WrittenSum.Readable`: the texts that can be summands.
* `WrittenSum.Readable.trimTokens_eq`: such a text is found in the whitespace around it.
* `WrittenSum.Reads`: texts that are read as one term, whatever whitespace follows.
* `WrittenSum.Reads.exists_parse`: terms written after such a text are read back.
* **`Term.parse_writtenSum`**: a written sum has the terms that it was written for.
-/

namespace Fluxion

/-! ## Whitespace -/

/-- The text is nothing but whitespace. -/
def IsSpace (s : String) : Prop := ∀ c ∈ s.toList, LexemeKind.ofChar c = .whitespace

theorem isSpace_empty : IsSpace "" := fun _ hc => absurd hc List.not_mem_nil

theorem isSpace_single : IsSpace " " := List.forall_mem_singleton.mpr rfl

namespace Lexeme

theorem isWhitespace_of_mem_scan {s : String} (h : IsSpace s) :
    ∀ l ∈ scan s.toList, l.isWhitespace := by
  intro l hl
  have huniform := uniform_of_mem_scan l hl
  obtain ⟨c, hc⟩ := List.exists_mem_of_ne_nil _ huniform.ne_nil
  exact decide_eq_true ((huniform.ofChar_eq c hc).symm.trans (h c (mem_of_mem_scan hl hc)))

theorem apart_of_isWhitespace_ne {l m : Lexeme} (h : l.isWhitespace ≠ m.isWhitespace) :
    Apart l m := fun hk => by
  unfold isWhitespace at h
  rw [hk] at h
  exact absurd rfl h

end Lexeme

/-! ## Texts of summands -/

namespace WrittenSum

/-- The text has no whitespace at its ends, no sign parts it, and nothing is open at its end. -/
structure Readable (text : String) : Prop where
  nonempty : text ≠ ""
  head_significant : ∀ t ∈ (tokenize text).head?, t.isWhitespace = false
  last_significant : ∀ t ∈ (tokenize text).getLast?, t.isWhitespace = false
  together : ∀ before t after, tokenize text = before ++ t :: after → ¬ Separates before t
  closed : openDepth (tokenize text) = 0
  complete : (lastSignificant? (tokenize text)).map (·.kind) ≠ some .caret

namespace Readable

variable {text p s : String}

theorem scan_ne_nil (h : Readable text) : Lexeme.scan text.toList ≠ [] := by
  intro hnil
  have hchars := Lexeme.flatMap_scan text.toList
  rw [hnil] at hchars
  exact h.nonempty (String.toList_eq_nil_iff.mp hchars.symm)

theorem isWhitespace_head (h : Readable text) :
    ∀ l ∈ (Lexeme.scan text.toList).head?, l.isWhitespace = false := by
  rw [← map_toLexeme_tokenize, List.head?_map]
  intro l hl
  obtain ⟨t, ht, rfl⟩ := Option.map_eq_some_iff.mp hl
  exact h.head_significant t ht

theorem isWhitespace_last (h : Readable text) :
    ∀ l ∈ (Lexeme.scan text.toList).getLast?, l.isWhitespace = false := by
  rw [← map_toLexeme_tokenize, List.getLast?_map]
  intro l hl
  obtain ⟨t, ht, rfl⟩ := Option.map_eq_some_iff.mp hl
  exact h.last_significant t ht

theorem scan_padded (h : Readable text) (hp : IsSpace p) (hs : IsSpace s) :
    Lexeme.scan (p ++ (text ++ s)).toList =
      Lexeme.scan p.toList ++ (Lexeme.scan text.toList ++ Lexeme.scan s.toList) := by
  have hafter : Lexeme.scan (text.toList ++ s.toList) =
      Lexeme.scan text.toList ++ Lexeme.scan s.toList := by
    refine Lexeme.scan_append fun l hl m hm => Lexeme.apart_of_isWhitespace_ne ?_
    rw [h.isWhitespace_last l hl, Lexeme.isWhitespace_of_mem_scan hs m (List.mem_of_mem_head? hm)]
    exact Bool.false_ne_true
  rw [String.toList_append, String.toList_append, ← hafter]
  refine Lexeme.scan_append fun l hl m hm => Lexeme.apart_of_isWhitespace_ne ?_
  rw [hafter, List.head?_append_of_ne_nil _ h.scan_ne_nil] at hm
  rw [h.isWhitespace_head m hm, Lexeme.isWhitespace_of_mem_scan hp l (List.mem_of_getLast? hl)]
  exact Bool.false_ne_true.symm

/-- **Such a text is found in the whitespace around it.** -/
theorem trimTokens_eq (h : Readable text) (hp : IsSpace p) (hs : IsSpace s) :
    (Term.trimTokens (tokenize (p ++ (text ++ s)))).map (·.toLexeme) =
      Lexeme.scan text.toList := by
  have hscan := (map_toLexeme_tokenize _).trans (h.scan_padded hp hs)
  obtain ⟨before, rest, hts, hbefore, hrest⟩ := List.map_eq_append_iff.mp hscan
  obtain ⟨middle, after, rfl, hmiddle, hafter⟩ := List.map_eq_append_iff.mp hrest
  have hblank {ts : List Token} {s : String} (hs : IsSpace s)
      (hts : ts.map (·.toLexeme) = Lexeme.scan s.toList) : ∀ t ∈ ts, t.isWhitespace :=
    fun _ ht => Lexeme.isWhitespace_of_mem_scan hs _ (hts ▸ List.mem_map_of_mem ht)
  have hne : middle ≠ [] := by
    rintro rfl
    exact h.scan_ne_nil hmiddle.symm
  have htrimmed : Trimmed (tokenize (p ++ (text ++ s))) before middle after (middle.head hne)
      (middle.getLast hne) :=
    { eq := hts.trans (List.append_assoc _ _ _).symm
      before_blank := hblank hp hbefore
      after_blank := hblank hs hafter
      first_eq := ⟨middle.tail, (List.cons_head_tail hne).symm⟩
      last_eq := ⟨middle.dropLast, (List.dropLast_append_getLast hne).symm⟩
      first_significant := by
        refine h.isWhitespace_head _ ?_
        rw [← hmiddle, List.head?_map, List.head?_eq_some_head hne]
        rfl
      last_significant := by
        refine h.isWhitespace_last _ ?_
        rw [← hmiddle, List.getLast?_map, List.getLast?_eq_some_getLast hne]
        rfl }
  rw [htrimmed.trimTokens_eq, hmiddle]

theorem text_eq (h : Readable text) (hp : IsSpace p) (hs : IsSpace s) :
    String.ofList (Term.tokenChars (Term.trimTokens (tokenize (p ++ (text ++ s))))) = text := by
  rw [Term.tokenChars_eq_flatMap, h.trimTokens_eq hp hs, Lexeme.flatMap_scan, String.ofList_toList]

theorem significantLexemes_eq (h : Readable text) (hp : IsSpace p) (hs : IsSpace s) :
    significantLexemes (tokenize (p ++ (text ++ s))) = significantLexemes (tokenize text) := by
  rw [← significantLexemes_trimTokens]
  exact significantLexemes_congr ((h.trimTokens_eq hp hs).trans (map_toLexeme_tokenize text).symm)

theorem unparted (h : Readable text) (hp : IsSpace p) (hs : IsSpace s) :
    Unparted (tokenize (p ++ (text ++ s))) := by
  rw [unparted_congr (h.significantLexemes_eq hp hs)]
  exact unparted_iff.mpr h.together

theorem after_eq (h : Readable text) (hp : IsSpace p) (hs : IsSpace s) :
    Nesting.after (tokenize (p ++ (text ++ s))) = .outer := by
  rw [Nesting.after_congr (h.significantLexemes_eq hp hs)]
  exact Nesting.after_eq_outer_iff.mpr ⟨h.closed, h.complete⟩

theorem not_blank (h : Readable text) (hp : IsSpace p) (hs : IsSpace s) :
    ¬ ∀ t ∈ tokenize (p ++ (text ++ s)), t.isWhitespace := by
  intro hblank
  have htrim := h.trimTokens_eq hp hs
  rw [Term.trimTokens_blank hblank] at htrim
  exact h.scan_ne_nil htrim.symm

end Readable

/-! ## One term -/

/-- The text is read as the term, whatever whitespace follows it. -/
structure Reads (a : String) (t : Term) : Prop where
  parse : ∀ s, IsSpace s → ∃ u, Term.parse (Fluxion.header ++ (a ++ s)) = .ok [u] ∧ t.Agrees u
  closed : ∀ s, IsSpace s → Nesting.after (tokenize (a ++ s)) = .outer

namespace Readable

variable {t : Term} {p : String}

theorem reads_signed (h : Readable t.text) (hp : IsSpace p) :
    Reads (t.sign.text ++ (p ++ t.text)) t where
  parse := fun s hs => by
    obtain ⟨u, hu, hsign, htext⟩ := Term.parse_signed (h.unparted hp hs) t.sign
    rw [String.append_assoc, String.append_assoc]
    exact ⟨u, hu, hsign.symm, (htext.trans (h.text_eq hp hs)).symm⟩
  closed := fun s hs => by
    rw [String.append_assoc, String.append_assoc, Term.after_sign_append]
    exact h.after_eq hp hs

theorem reads_unsigned (h : Readable t.text) (hsign : t.sign = .positive) (hp : IsSpace p) :
    Reads (p ++ t.text) t where
  parse := fun s hs => by
    obtain ⟨u, hu, hpositive, htext⟩ :=
      Term.parse_unsigned (h.unparted hp hs) (h.not_blank hp hs)
    rw [String.append_assoc]
    exact ⟨u, hu, hsign.trans hpositive.symm, (htext.trans (h.text_eq hp hs)).symm⟩
  closed := fun s hs => by
    rw [String.append_assoc]
    exact h.after_eq hp hs

end Readable

/-! ## All terms -/

/-- **The terms written after a text that is read as one term are read back.** -/
theorem Reads.exists_parse {a : String} {t : Term} (ha : Reads a t) {ts : List Term}
    (hts : ∀ t ∈ ts, Readable t.text) :
    ∃ us, Term.parse (Fluxion.header ++ (a ++ String.join (ts.map further))) = .ok us ∧
      List.Forall₂ Term.Agrees (t :: ts) us := by
  induction ts generalizing a t with
  | nil =>
    obtain ⟨u, hu, hagrees⟩ := ha.parse "" isSpace_empty
    exact ⟨[u], hu, .cons hagrees .nil⟩
  | cons v vs ih =>
    obtain ⟨hv, hvs⟩ := List.forall_mem_cons.mp hts
    obtain ⟨u, hu, hagrees⟩ := ha.parse " " isSpace_single
    obtain ⟨us, hus, hforall⟩ := ih (hv.reads_signed isSpace_single) hvs
    -- the space before the next sign belongs to what stands before it
    have hsplit : a ++ String.join ((v :: vs).map further) =
        a ++ " " ++ (v.sign.text ++ (" " ++ v.text ++ String.join (vs.map further))) := by
      rw [List.map_cons, String.join_cons, further]
      simp only [String.append_assoc]
    rw [String.append_assoc] at hus
    rw [hsplit]
    refine ⟨_, Term.parse_add (ha.closed " " isSpace_single) hu hus, .cons hagrees ?_⟩
    exact List.forall₂_map_right_iff.mpr hforall

theorem body_positive {t : Term} (h : t.sign = .positive) (ts : List Term) :
    body (t :: ts) = " " ++ t.text ++ String.join (ts.map further) := by
  rw [body, first, h]

theorem body_negative {t : Term} (h : t.sign = .negative) (ts : List Term) :
    body (t :: ts) = " " ++ (t.sign.text ++ (t.text ++ String.join (ts.map further))) := by
  have hsign : " -" = " " ++ Sign.negative.text := by decide
  rw [body, first, h, hsign]
  simp only [String.append_assoc]

theorem exists_parse_body {ts : List Term} (hts : ∀ t ∈ ts, Readable t.text) (hne : ts ≠ []) :
    ∃ us, Term.parse (Fluxion.header ++ body ts) = .ok us ∧ List.Forall₂ Term.Agrees ts us := by
  obtain ⟨t, ts, rfl⟩ := List.exists_cons_of_ne_nil hne
  obtain ⟨ht, hts⟩ := List.forall_mem_cons.mp hts
  cases hsign : t.sign with
  | positive =>
    rw [body_positive hsign]
    exact (ht.reads_unsigned hsign isSpace_single).exists_parse hts
  | negative =>
    have hspace : Term.parse (Fluxion.header ++ " ") = .ok [] := by decide +kernel
    have houter : Nesting.after (tokenize " ") = .outer := by decide +kernel
    obtain ⟨us, hus, hforall⟩ := (ht.reads_signed isSpace_empty).exists_parse hts
    rw [String.empty_append, String.append_assoc] at hus
    rw [body_negative hsign]
    exact ⟨_, Term.parse_add houter hspace hus, List.forall₂_map_right_iff.mpr hforall⟩

/-- What is written for a sum without terms. -/
def zero : Term := ⟨.positive, "0", .point 0⟩

theorem readable_zero : Readable "0" where
  nonempty := by decide
  head_significant := by decide
  last_significant := by decide
  together := unparted_iff.mp (by decide)
  closed := by decide
  complete := by decide

end WrittenSum

/-! ## Written sums -/

namespace Term

/-- The sign and the text. -/
def signed (t : Term) : Sign × String := (t.sign, t.text)

theorem map_signed_eq {ts us : List Term} (h : List.Forall₂ Agrees ts us) :
    us.map signed = ts.map signed := by
  induction h with
  | nil => rfl
  | cons hagrees _ ih =>
    rw [List.map_cons, List.map_cons, ih]
    exact congrArg (· :: _) (Prod.ext hagrees.1.symm hagrees.2.symm)

/-- **A written sum has the terms that it was written for**, but those whose text is `0`. Without
any other it has the single term `0`. -/
theorem parse_writtenSum {ts : List Term} (h : ∀ t ∈ ts, WrittenSum.Readable t.text) :
    ∃ rest us, WrittenSum.ofTerms ts = WrittenSum.header ++ rest ∧
      parse (header ++ rest) = .ok us ∧
      us.map signed =
        if ts.filter (·.text ≠ "0") = [] then [(.positive, "0")]
        else (ts.filter (·.text ≠ "0")).map signed := by
  have hwritten : WrittenSum.ofTerms ts =
      WrittenSum.header ++ WrittenSum.body (ts.filter (·.text ≠ "0")) := rfl
  by_cases hnil : ts.filter (·.text ≠ "0") = []
  · have hzero : ∀ t ∈ [WrittenSum.zero], WrittenSum.Readable t.text :=
      List.forall_mem_singleton.mpr WrittenSum.readable_zero
    obtain ⟨us, hus, hagree⟩ := WrittenSum.exists_parse_body hzero (List.cons_ne_nil _ [])
    refine ⟨_, us, ?_, hus, ?_⟩
    · rw [hwritten, hnil]
      rfl
    · rw [if_pos hnil]
      exact map_signed_eq hagree
  · have hremaining : ∀ t ∈ ts.filter (·.text ≠ "0"), WrittenSum.Readable t.text :=
      fun t ht => h t (List.mem_filter.mp ht).1
    obtain ⟨us, hus, hagree⟩ := WrittenSum.exists_parse_body hremaining hnil
    refine ⟨_, us, hwritten, hus, ?_⟩
    rw [if_neg hnil]
    exact map_signed_eq hagree

theorem parse_writtenSum_power :
    WrittenSum.ofTerms [⟨.positive, "0", .point 0⟩, ⟨.negative, "(x - 1)^ -2", .point 0⟩,
        ⟨.positive, "x", .point 0⟩] = "f'(x) = -(x - 1)^ -2 + x" ∧
      ∃ us, parse "f(x) = -(x - 1)^ -2 + x" = .ok us ∧
        us.map signed = [(.negative, "(x - 1)^ -2"), (.positive, "x")] := by
  have hpower : WrittenSum.Readable "(x - 1)^ -2" :=
    ⟨by decide, by decide, by decide, unparted_iff.mp (by decide), by decide, by decide⟩
  have hx : WrittenSum.Readable "x" :=
    ⟨by decide, by decide, by decide, unparted_iff.mp (by decide), by decide, by decide⟩
  have hwritten : WrittenSum.ofTerms [⟨.positive, "0", .point 0⟩,
      ⟨.negative, "(x - 1)^ -2", .point 0⟩, ⟨.positive, "x", .point 0⟩] =
        WrittenSum.header ++ " -(x - 1)^ -2 + x" := by decide +kernel
  have hreadable : ∀ t ∈ ([⟨.positive, "0", .point 0⟩, ⟨.negative, "(x - 1)^ -2", .point 0⟩,
      ⟨.positive, "x", .point 0⟩] : List Term), WrittenSum.Readable t.text :=
    List.forall_mem_cons.mpr ⟨WrittenSum.readable_zero,
      List.forall_mem_cons.mpr ⟨hpower, List.forall_mem_singleton.mpr hx⟩⟩
  obtain ⟨rest, us, hrest, hus, hsigned⟩ := parse_writtenSum hreadable
  obtain rfl := (String.append_right_inj _).mp (hwritten.symm.trans hrest)
  exact ⟨hwritten, us, hus, hsigned⟩

end Term

end Fluxion
