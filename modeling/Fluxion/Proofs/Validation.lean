import Fluxion.Answer
import Fluxion.Proofs.Alphabet
import Fluxion.Proofs.Fault

/-!
# What validation promises

A line that is valid becomes a text that the reader of terms accepts. Every character of the
alphabet belongs to a lexeme that means something, except for the minus sign, which is replaced. So
the only symbols that are left are blank characters.

* `LexemeKind.isBlank_of_ofChar`: the symbols among the characters of a validated text.
* `Validated`: what is true of a line and the text that it becomes.
* `validated_of_validate`: that it is.
* `validate_eq_missingHeader_iff`, `validate_eq_disallowed_iff`: the two ways to be refused.
* **`validate_outcomes`**: when a line is valid, and what is wrong with it otherwise.
-/

namespace Fluxion

/-! ## Characters -/

theorem ofChar_asciiMinus_ne_symbol :
    ∀ c ∈ alphabet.toList, LexemeKind.ofChar (asciiMinus c) ≠ .symbol := by
  have h : alphabet.toList.all fun c => LexemeKind.ofChar (asciiMinus c) ≠ .symbol := by
    decide +kernel
  exact fun c hc => of_decide_eq_true (List.all_eq_true.mp h c hc)

theorem asciiMinus_mem_alphabet : ∀ c ∈ alphabet.toList, asciiMinus c ∈ alphabet.toList := by
  have h : alphabet.toList.all fun c => asciiMinus c ∈ alphabet.toList := by decide +kernel
  exact fun c hc => of_decide_eq_true (List.all_eq_true.mp h c hc)

theorem isAllowed_asciiMinus {c : Char} (h : isAllowed c) : isAllowed (asciiMinus c) := by
  rcases isAllowed_iff.mp h with hblank | hmem
  · rw [asciiMinus_of_isBlank hblank]
    exact h
  · exact isAllowed_iff.mpr (.inr (asciiMinus_mem_alphabet c hmem))

theorem LexemeKind.isBlank_of_ofChar {c : Char} (h : isAllowed c)
    (hsymbol : ofChar (asciiMinus c) = .symbol) : isBlank (asciiMinus c) := by
  rcases isAllowed_iff.mp h with hblank | hmem
  · rw [asciiMinus_of_isBlank hblank]
    exact hblank
  · exact absurd hsymbol (ofChar_asciiMinus_ne_symbol c hmem)

theorem Token.mem_of_mem_chars {source : String} {t : Token} (ht : t ∈ tokenize source) {c : Char}
    (hc : c ∈ t.chars) : c ∈ source.toList := by
  have hlexeme : t.toLexeme ∈ (tokenize source).map (·.toLexeme) := List.mem_map_of_mem ht
  rw [tokenize, map_toLexeme_place] at hlexeme
  exact Lexeme.mem_of_mem_scan hlexeme hc

/-! ## Validated texts -/

/-- What is true of a valid line and the text that it becomes. -/
structure Validated (line text : String) : Prop where
  /-- Only minus signs are replaced. -/
  replaced : List.Forall₂ (fun c d => d = if c = '\u2212' then '-' else c) line.toList text.toList
  /-- The text is valid as it is. -/
  fixed : validate text = .ok text
  /-- The text has terms. -/
  parsed : ∃ terms, Term.parse text = .ok terms
  /-- No sign of it is unknown. -/
  signs : ∀ t ∈ tokenize text, t.readSign = .ok t.kind.sign?
  /-- Its symbols are single blank characters. -/
  symbols : ∀ t ∈ tokenize text, t.kind = .symbol → ∃ c, t.chars = [c] ∧ isBlank c
  /-- It has the same answer as the line. -/
  answered : respond line = respond text

theorem validate_of_validate {line text : String} (h : validate line = .ok text) :
    validate text = .ok text := by
  obtain ⟨rest, -, htext⟩ := exists_of_validate h
  refine validate_eq_ok_iff.mpr ⟨hasHeader_iff.mpr ⟨_, htext⟩, ?_⟩
  obtain ⟨-, hallowed, rfl⟩ := validate_eq_ok_iff.mp h
  rw [String.toList_ofList, List.forall_mem_map, List.map_map]
  refine ⟨fun c hc => isAllowed_asciiMinus (hallowed c hc), ?_⟩
  congr 2
  funext c
  exact (asciiMinus_asciiMinus c).symm

theorem exists_blank_of_symbol {line text : String} (h : validate line = .ok text) {t : Token}
    (ht : t ∈ tokenize text) (hsymbol : t.kind = .symbol) : ∃ c, t.chars = [c] ∧ isBlank c := by
  obtain ⟨-, hallowed, rfl⟩ := validate_eq_ok_iff.mp h
  have hwhole := Token.whole_of_mem ht
  have hsingle : t.kind.joins = false := by
    rw [hsymbol]
    rfl
  obtain ⟨c, hc⟩ := List.length_eq_one_iff.mp (hwhole.length_eq hsingle)
  have hmem : c ∈ t.chars := hc ▸ List.mem_singleton_self c
  have hkind : LexemeKind.ofChar c = .symbol := (hwhole.ofChar_eq c hmem).trans hsymbol
  have htext : c ∈ line.toList.map asciiMinus := by
    rw [← String.toList_ofList (l := line.toList.map asciiMinus)]
    exact Token.mem_of_mem_chars ht hmem
  obtain ⟨d, hd, rfl⟩ := List.mem_map.mp htext
  exact ⟨_, hc, LexemeKind.isBlank_of_ofChar (hallowed d hd) hkind⟩

theorem validated_of_validate {line text : String} (h : validate line = .ok text) :
    Validated line text := by
  have hfixed := validate_of_validate h
  obtain ⟨hheader, hallowed, rfl⟩ := validate_eq_ok_iff.mp h
  refine ⟨?_, hfixed, ?_, fun t ht => Token.readSign_of_mem ht,
    fun t ht => exists_blank_of_symbol h ht, ?_⟩
  · rw [String.toList_ofList, List.forall₂_map_right_iff]
    exact List.forall₂_same.mpr fun _ _ => rfl
  · obtain ⟨rest, hrest⟩ := hasHeader_iff.mp (validate_eq_ok_iff.mp hfixed).1
    rw [hrest]
    exact ⟨_, Term.parse_header rest⟩
  · unfold respond
    rw [h, hfixed]

/-! ## The outcomes -/

theorem Term.parse_eq_error_iff {source : String} {fault : Fault} :
    parse source = .error fault ↔ hasHeader source = false ∧ fault = .missingHeader source := by
  refine ⟨parse_eq_error, ?_⟩
  rintro ⟨hheader, rfl⟩
  unfold parse TermReader.readAll TermReader.ofSource requireHeader
  rw [if_neg (Bool.eq_false_iff.mp hheader)]

/-- A line is refused for its header exactly if the reader of terms refuses it. -/
theorem validate_eq_missingHeader_iff {line : String} {spans : List Span} :
    validate line = .error ⟨.missingHeader, spans⟩ ↔
      Term.parse line = .error ⟨.missingHeader, spans⟩ := by
  rw [validate_eq_error_iff, Term.parse_eq_error_iff]
  refine or_iff_left ?_
  rintro ⟨-, h⟩
  obtain ⟨before, c, after, -, -, -, hfault⟩ := disallowed?_eq_some_iff.mp h
  exact nomatch congrArg Fault.cause hfault

/-- It is refused for its first character that is neither blank nor in the alphabet. -/
theorem validate_eq_disallowed_iff {line : String} {c : Char} {spans : List Span} :
    validate line = .error ⟨.disallowedCharacter c, spans⟩ ↔
      hasHeader line = true ∧ ∃ before after, line.toList = before ++ c :: after ∧
        (∀ d ∈ before, isBlank d ∨ d ∈ alphabet.toList) ∧ ¬ (isBlank c ∨ c ∈ alphabet.toList) ∧
        spans = [⟨utf8Length before, utf8Length before + c.utf8Size⟩] := by
  have hheader : ¬ (hasHeader line = false ∧
      (⟨.disallowedCharacter c, spans⟩ : Fault) = .missingHeader line) := by
    rintro ⟨-, h⟩
    exact nomatch congrArg Fault.cause h
  simp only [← isAllowed_iff]
  rw [validate_eq_error_iff, or_iff_right hheader, disallowed?_eq_some_iff]
  refine and_congr_right fun _ => ⟨?_, ?_⟩
  · rintro ⟨before, d, after, hline, hbefore, hd, hfault⟩
    obtain ⟨hcause, rfl⟩ := Fault.mk.inj hfault
    obtain rfl := Fault.Cause.disallowedCharacter.inj hcause
    refine ⟨before, after, hline, hbefore, hd, ?_⟩
    rw [Nat.zero_add]
  · rintro ⟨before, after, hline, hbefore, hc, rfl⟩
    refine ⟨before, c, after, hline, hbefore, hc, ?_⟩
    rw [Nat.zero_add]

/-- **A line is refused for its header exactly if the reader of terms refuses it, or else for a
character. Otherwise it is valid**, and becomes a text that the reader accepts. -/
theorem validate_outcomes (line : String) :
    (∀ spans, validate line = .error ⟨.missingHeader, spans⟩ ↔
      Term.parse line = .error ⟨.missingHeader, spans⟩) ∧
    (∀ c spans, validate line = .error ⟨.disallowedCharacter c, spans⟩ ↔
      hasHeader line = true ∧ ∃ before after, line.toList = before ++ c :: after ∧
        (∀ d ∈ before, isBlank d ∨ d ∈ alphabet.toList) ∧ ¬ (isBlank c ∨ c ∈ alphabet.toList) ∧
        spans = [⟨utf8Length before, utf8Length before + c.utf8Size⟩]) ∧
    ((∃ spans, validate line = .error ⟨.missingHeader, spans⟩) ∨
      (∃ c spans, validate line = .error ⟨.disallowedCharacter c, spans⟩) ∨
      ∃ text, validate line = .ok text ∧ Validated line text) := by
  refine ⟨fun spans => validate_eq_missingHeader_iff, fun c spans => validate_eq_disallowed_iff, ?_⟩
  cases h : validate line with
  | ok text => exact .inr (.inr ⟨text, rfl, validated_of_validate h⟩)
  | error fault =>
    rcases validate_eq_error_iff.mp h with ⟨-, rfl⟩ | ⟨-, hdisallowed⟩
    · exact .inl ⟨_, rfl⟩
    · obtain ⟨before, c, after, -, -, -, rfl⟩ := disallowed?_eq_some_iff.mp hdisallowed
      exact .inr (.inl ⟨c, _, rfl⟩)

end Fluxion
