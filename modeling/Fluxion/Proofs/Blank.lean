import Fluxion.Answer
import Fluxion.Proofs.Span
import Fluxion.Proofs.Whitespace

/-!
# Blank characters

A line may contain every character with the property `White_Space`, but only four of them separate
lexemes. Each of the others is a symbol, and terms have no symbols. So a line that contains one of
them is refused, even if it would not be with plain spaces in place of its blank characters.

* `LexemeKind.ofChar_of_isBlank`: the kinds of blank characters.
* `Lexeme.scan_map`, `Lexeme.significant_map`: lexemes of characters that are changed within their
  kind.
* `differentiate_ne_ok_of_symbol`: functions with a symbol have no derivative.
* `spaced`, `validate_spaced`: plain spaces in place of all blank characters.
* `differentiate_spaced_iff`: what they change for a function.
* `respond_eq_derivative_iff`, `exists_respond`: the answer to a valid line.
* **`respond_spaced`**: what they change for the answer.
-/

namespace Fluxion

/-! ## Kinds -/

theorem toNat_of_isBlank {c : Char} (h : isBlank c) : c.toNat ≤ 32 ∨ 128 ≤ c.toNat := by
  simp only [isBlank, blankRanges, CodeRanges.covers, Bool.and_eq_true, Bool.or_eq_true,
    decide_eq_true_eq, Bool.false_eq_true, or_false] at h
  omega

namespace LexemeKind

theorem toNat_of_ofChar {c : Char} (hwhitespace : ofChar c ≠ .whitespace)
    (hsymbol : ofChar c ≠ .symbol) : 32 < c.toNat ∧ c.toNat < 128 := by
  have hc : c ∈ ['+', '-', '^', '=', '(', ')', '.', '_'] ∨ c.isDigit ∨ c.isAlpha := by
    unfold ofChar at hwhitespace hsymbol
    grind
  rcases hc with hc | hc | hc
  · simp only [List.mem_cons, List.not_mem_nil, or_false] at hc
    rcases hc with rfl | rfl | rfl | rfl | rfl | rfl | rfl | rfl <;> decide
  · unfold Char.isDigit at hc
    simp only [Bool.and_eq_true, decide_eq_true_eq, UInt32.le_iff_toNat_le, ge_iff_le] at hc
    have hcode : 48 ≤ c.toNat ∧ c.toNat ≤ 57 := hc
    omega
  · unfold Char.isAlpha Char.isUpper Char.isLower at hc
    simp only [Bool.or_eq_true, Bool.and_eq_true, decide_eq_true_eq, UInt32.le_iff_toNat_le,
      ge_iff_le] at hc
    have hcode : 65 ≤ c.toNat ∧ c.toNat ≤ 90 ∨ 97 ≤ c.toNat ∧ c.toNat ≤ 122 := hc
    omega

/-- A blank character separates lexemes, or it is a symbol. -/
theorem ofChar_of_isBlank {c : Char} (h : isBlank c) :
    ofChar c = .whitespace ∨ ofChar c = .symbol := by
  by_contra hne
  obtain ⟨hwhitespace, hsymbol⟩ := not_or.mp hne
  have hcode := toNat_of_isBlank h
  have hvisible := toNat_of_ofChar hwhitespace hsymbol
  omega

example : isBlank '\u00a0' ∧ ofChar '\u00a0' = .symbol := by decide

theorem ofChar_eq_whitespace_of_all {cs : List Char}
    (h : cs.all fun c => !isBlank c || ofChar c == .whitespace) :
    ∀ c ∈ cs, isBlank c → ofChar c = .whitespace := by
  intro c hc hblank
  have hcheck := List.all_eq_true.mp h c hc
  simpa [hblank] using hcheck

end LexemeKind

namespace Lexeme

/-- The lexeme with every character changed. -/
def mapChars (f : Char → Char) (l : Lexeme) : Lexeme := ⟨l.kind, l.chars.map f⟩

theorem attach_map {f : Char → Char} {c : Char}
    (hc : LexemeKind.ofChar (f c) = LexemeKind.ofChar c) (ls : List Lexeme) :
    attach (f c) (ls.map (mapChars f)) = (attach c ls).map (mapChars f) := by
  cases ls with
  | nil => simp [attach, mapChars, hc]
  | cons l ls =>
    rw [List.map_cons, attach_cons, attach_cons, hc]
    change (if l.kind = _ ∧ l.kind.joins then _ else _) = _
    split <;> simp [mapChars]

theorem scan_map {f : Char → Char} {cs : List Char}
    (h : ∀ c ∈ cs, LexemeKind.ofChar (f c) = LexemeKind.ofChar c) :
    scan (cs.map f) = (scan cs).map (mapChars f) := by
  induction cs with
  | nil => rfl
  | cons c cs ih =>
    obtain ⟨hc, hcs⟩ := List.forall_mem_cons.mp h
    rw [List.map_cons, scan_cons, scan_cons, ih hcs, attach_map hc]

/-- Nothing changes where only whitespace is replaced by other whitespace. -/
theorem significant_map {f : Char → Char} {cs : List Char}
    (h : ∀ c ∈ cs, LexemeKind.ofChar (f c) = LexemeKind.ofChar c)
    (hf : ∀ c ∈ cs, LexemeKind.ofChar c ≠ .whitespace → f c = c) :
    significant (cs.map f) = significant cs := by
  have hblank : (fun l => !isWhitespace l) ∘ mapChars f = fun l => !isWhitespace l := rfl
  rw [significant, significant, scan_map h, List.filter_map, hblank]
  refine (List.map_congr_left fun l hl => ?_).trans (List.map_id _)
  obtain ⟨hmem, hsignificant⟩ := List.mem_filter.mp hl
  have hkind : l.kind ≠ .whitespace := by simpa [isWhitespace] using hsignificant
  have hchars : l.chars.map f = l.chars := by
    refine (List.map_congr_left fun c hc => ?_).trans (List.map_id _)
    refine hf c (mem_of_mem_scan hmem hc) ?_
    rw [(uniform_of_mem_scan l hmem).ofChar_eq c hc]
    exact hkind
  rw [mapChars, hchars]
  rfl

end Lexeme

/-! ## Symbols -/

theorem exists_mem_afterHeader {rest : String} {c : Char} (hc : c ∈ rest.toList) :
    ∃ t ∈ afterHeader (header ++ rest), t.kind = LexemeKind.ofChar c := by
  rw [← Lexeme.flatMap_scan rest.toList] at hc
  obtain ⟨l, hl, hmem⟩ := List.mem_flatMap.mp hc
  have hlexeme := hl
  rw [← Token.map_toLexeme_place headerLength (Lexeme.scan rest.toList), ← afterHeader_eq] at hl
  obtain ⟨t, ht, rfl⟩ := List.mem_map.mp hl
  exact ⟨t, ht, ((Lexeme.uniform_of_mem_scan _ hlexeme).ofChar_eq c hmem).symm⟩

theorem exists_mem_lexemes {rest : String} {terms : List Term}
    (hterms : Term.parse (header ++ rest) = .ok terms) {t : Token}
    (ht : t ∈ afterHeader (header ++ rest)) (hsignificant : t.isWhitespace = false)
    (hsign : t.kind.sign? = none) : ∃ u ∈ terms, t.toLexeme ∈ u.lexemes := by
  obtain ⟨before, after, hsplit⟩ := List.append_of_mem ht
  have hpiece : ∃ p ∈ piecesAfter [] (before ++ t :: after), t ∈ p.tokens :=
    mem_piecesAfter rfl hsignificant (not_separates_of_sign hsign) after
  obtain ⟨p, hp, hmem⟩ := hpiece
  rw [← hsplit] at hp
  have hcontent := List.mem_map_of_mem (f := Piece.content) hp
  rw [← Term.map_content_of_parse hterms] at hcontent
  obtain ⟨u, hu, heq⟩ := List.mem_map.mp hcontent
  have hlexemes : u.lexemes = significantLexemes p.tokens := (Prod.mk.inj heq).2
  refine ⟨u, hu, ?_⟩
  rw [hlexemes, significantLexemes]
  exact List.mem_map_of_mem (List.mem_filter.mpr ⟨hmem, by simp [hsignificant]⟩)

/-- A function with a symbol has no derivative. -/
theorem differentiate_ne_ok_of_symbol {rest : String} {c : Char} (hc : c ∈ rest.toList)
    (hsymbol : LexemeKind.ofChar c = .symbol) (out : String) :
    differentiate (header ++ rest) ≠ .ok out := by
  intro h
  obtain ⟨terms, shapes, hterms, hshapes, -⟩ := differentiate_eq_ok_iff.mp h
  obtain ⟨t, ht, hkind⟩ := exists_mem_afterHeader hc
  rw [hsymbol] at hkind
  obtain ⟨u, hu, hmem⟩ := exists_mem_lexemes hterms ht (by simp [Lexeme.isWhitespace, hkind])
    (by rw [hkind]; rfl)
  obtain ⟨s, -, hs⟩ := exists_of_forall₂ hshapes.flip hu
  have hterm := (Term.classify_eq_ok_iff.mp hs).kind_mem _ hmem
  rw [hkind] at hterm
  exact absurd hterm (by decide)

/-! ## Plain spaces -/

/-- A plain space in place of a blank character. -/
def blankToSpace (c : Char) : Char := if isBlank c then ' ' else c

/-- The text with plain spaces in place of all blank characters. -/
def spaced (text : String) : String := String.ofList (text.toList.map blankToSpace)

theorem toList_spaced (text : String) : (spaced text).toList = text.toList.map blankToSpace :=
  String.toList_ofList

theorem spaced_header (rest : String) : spaced (header ++ rest) = header ++ spaced rest := by
  apply String.toList_inj.mp
  rw [toList_spaced, String.toList_append, String.toList_append, toList_spaced, List.map_append]
  rfl

theorem blankToSpace_of_not_isBlank {c : Char} (h : ¬ isBlank c) : blankToSpace c = c := if_neg h

theorem differentiate_eq_ok_iff_of_significant {rest₁ rest₂ : String}
    (h : Lexeme.significant (header ++ rest₁).toList = Lexeme.significant (header ++ rest₂).toList)
    (out : String) :
    differentiate (header ++ rest₁) = .ok out ↔ differentiate (header ++ rest₂) = .ok out := by
  have hts := Term.parse_header rest₁
  have hus := Term.parse_header rest₂
  rw [Term.differentiate_of_parse hts, Term.differentiate_of_parse hus]
  rcases Term.surviving_of_alike (Term.alike_of_significant_eq h hts hus) with
    ⟨ds, hds, hes⟩ | ⟨i, f, g, hf, hg, -⟩
  · rw [hds, hes]
  · rw [hf.surviving_eq, hg.surviving_eq]
    exact iff_of_false nofun nofun

/-- **Plain spaces change nothing, unless a blank character is no whitespace.** -/
theorem differentiate_spaced_iff (rest out : String) :
    differentiate (header ++ rest) = .ok out ↔ differentiate (header ++ spaced rest) = .ok out ∧
      ∀ c ∈ rest.toList, isBlank c → LexemeKind.ofChar c = .whitespace := by
  by_cases hplain : ∀ c ∈ rest.toList, isBlank c → LexemeKind.ofChar c = .whitespace
  · have hkind : ∀ c ∈ rest.toList, LexemeKind.ofChar (blankToSpace c) = LexemeKind.ofChar c := by
      intro c hc
      by_cases hblank : isBlank c
      · rw [blankToSpace, if_pos hblank, hplain c hc hblank]
        rfl
      · rw [blankToSpace_of_not_isBlank hblank]
    have hsame : ∀ c ∈ rest.toList, LexemeKind.ofChar c ≠ .whitespace → blankToSpace c = c :=
      fun c hc hne => blankToSpace_of_not_isBlank (mt (hplain c hc) hne)
    have hsignificant : Lexeme.significant (header ++ rest).toList =
        Lexeme.significant (header ++ spaced rest).toList := by
      unfold Lexeme.significant
      rw [String.toList_append, String.toList_append, Lexeme.scan_header, Lexeme.scan_header,
        List.filter_append, List.filter_append, toList_spaced]
      exact congrArg _ (Lexeme.significant_map hkind hsame).symm
    rw [differentiate_eq_ok_iff_of_significant hsignificant, and_iff_left hplain]
  · refine iff_of_false (fun h => ?_) fun h => hplain h.2
    simp only [not_forall] at hplain
    obtain ⟨c, hc, hblank, hkind⟩ := hplain
    have hsymbol := (LexemeKind.ofChar_of_isBlank hblank).resolve_left hkind
    exact differentiate_ne_ok_of_symbol hc hsymbol out h

/-! ## Valid lines -/

theorem blankToSpace_asciiMinus (c : Char) :
    blankToSpace (asciiMinus c) = asciiMinus (blankToSpace c) := by
  unfold blankToSpace
  rw [isBlank_asciiMinus]
  split <;> rfl

theorem exists_rest_of_validate {line text : String} (h : validate line = .ok text) :
    ∃ rest, text = header ++ rest ∧
      ((∀ c ∈ rest.toList, isBlank c → LexemeKind.ofChar c = .whitespace) ↔
        ∀ c ∈ line.toList, isBlank c → LexemeKind.ofChar c = .whitespace) := by
  obtain ⟨rest, rfl, rfl⟩ := exists_of_validate h
  refine ⟨_, rfl, ?_⟩
  have hplain : ∀ c ∈ header.toList, isBlank c → LexemeKind.ofChar c = .whitespace :=
    LexemeKind.ofChar_eq_whitespace_of_all (by decide)
  rw [String.toList_ofList, String.toList_append, List.forall_mem_append, and_iff_right hplain,
    List.forall_mem_map]
  refine forall₂_congr fun c _ => ?_
  rw [isBlank_asciiMinus]
  refine forall_congr' fun hblank => ?_
  rw [asciiMinus_of_isBlank hblank]

theorem validate_spaced {line text : String} (h : validate line = .ok text) :
    validate (spaced line) = .ok (spaced text) := by
  obtain ⟨hheader, hallowed, rfl⟩ := validate_eq_ok_iff.mp h
  obtain ⟨rest, rfl⟩ := hasHeader_iff.mp hheader
  refine validate_eq_ok_iff.mpr ⟨?_, ?_, ?_⟩
  · rw [spaced_header]
    exact hasHeader_iff.mpr ⟨_, rfl⟩
  · rw [toList_spaced, List.forall_mem_map]
    intro c hc
    unfold blankToSpace
    split
    · decide
    · exact hallowed c hc
  · rw [spaced, toList_spaced, String.toList_ofList, List.map_map, List.map_map]
    congr 2
    funext c
    exact blankToSpace_asciiMinus c

/-! ## Answers -/

theorem respond_of_validate {line text : String} (h : validate line = .ok text) :
    (∃ out, differentiate text = .ok out ∧ respond line = some (.derivative out)) ∨
      ∃ fault report, differentiate text = .error fault ∧
        respond line = some (.refusal report) := by
  obtain ⟨rest, rfl, -⟩ := exists_rest_of_validate h
  unfold respond
  rw [h]
  cases hout : differentiate (header ++ rest) with
  | ok out => exact .inl ⟨out, rfl, by simp only [hout]⟩
  | error fault =>
    obtain ⟨span, text, report, -, -, -, hreport, -⟩ :=
      (Fault.pointsAt_of_differentiate hout).exists_report
    exact .inr ⟨fault, report, rfl, by simp only [hout, hreport, Option.map_some]⟩

theorem exists_respond {line text : String} (h : validate line = .ok text) :
    ∃ answer, respond line = some answer := by
  rcases respond_of_validate h with ⟨out, -, hrespond⟩ | ⟨fault, report, -, hrespond⟩
  · exact ⟨_, hrespond⟩
  · exact ⟨_, hrespond⟩

theorem respond_eq_derivative_iff {line text : String} (h : validate line = .ok text)
    (out : String) : respond line = some (.derivative out) ↔ differentiate text = .ok out := by
  rcases respond_of_validate h with ⟨out', hout, hrespond⟩ | ⟨fault, report, hfault, hrespond⟩
  · rw [hrespond, hout]
    simp
  · rw [hrespond, hfault]
    simp

/-- **Plain spaces in place of the blank characters of a line change nothing about its answer,
unless one of these characters is no whitespace.** Then the line is refused. -/
theorem respond_spaced {line text : String} (h : validate line = .ok text) :
    (∃ answer, respond line = some answer) ∧ (∃ answer, respond (spaced line) = some answer) ∧
      ∀ out, respond line = some (.derivative out) ↔
        respond (spaced line) = some (.derivative out) ∧
          ∀ c ∈ line.toList, isBlank c → LexemeKind.ofChar c = .whitespace := by
  refine ⟨exists_respond h, exists_respond (validate_spaced h), fun out => ?_⟩
  obtain ⟨rest, rfl, hplain⟩ := exists_rest_of_validate h
  rw [respond_eq_derivative_iff h, respond_eq_derivative_iff (validate_spaced h), ← hplain,
    spaced_header]
  exact differentiate_spaced_iff rest out

theorem respond_spaced_tab : validate "f(x) = x\t+ 1" = .ok "f(x) = x\t+ 1" ∧
    respond "f(x) = x\t+ 1" = some (.derivative "f'(x) = 1") := by
  have h : validate "f(x) = x\t+ 1" = .ok "f(x) = x\t+ 1" := by decide +kernel
  have hspaced : spaced "f(x) = x\t+ 1" = "f(x) = x + 1" := by decide +kernel
  have hvalid : validate "f(x) = x + 1" = .ok "f(x) = x + 1" := by decide +kernel
  have hanswer : respond "f(x) = x + 1" = some (.derivative "f'(x) = 1") :=
    (respond_eq_derivative_iff hvalid _).mpr (by decide +kernel)
  refine ⟨h, ((respond_spaced h).2.2 _).mpr ⟨?_, ?_⟩⟩
  · rw [hspaced]
    exact hanswer
  · exact LexemeKind.ofChar_eq_whitespace_of_all (by decide +kernel)

/-- The no-break space is blank, but it separates no lexemes. -/
theorem respond_spaced_noBreak :
    validate "f(x) = x\u00a0+ 1" = .ok "f(x) = x\u00a0+ 1" ∧
      (∃ report, respond "f(x) = x\u00a0+ 1" = some (.refusal report)) ∧
      respond (spaced "f(x) = x\u00a0+ 1") = some (.derivative "f'(x) = 1") := by
  have h : validate "f(x) = x\u00a0+ 1" = .ok "f(x) = x\u00a0+ 1" := by decide +kernel
  have hfault : differentiate "f(x) = x\u00a0+ 1" =
      .error ⟨.unsupportedTerm "x\u00a0" [], [⟨7, 10⟩]⟩ := by decide +kernel
  refine ⟨h, ?_, ?_⟩
  · rcases respond_of_validate h with ⟨out, hout, -⟩ | ⟨fault, report, -, hrespond⟩
    · exact nomatch hfault.symm.trans hout
    · exact ⟨report, hrespond⟩
  · exact (respond_eq_derivative_iff (validate_spaced h) _).mpr (by decide +kernel)

end Fluxion
