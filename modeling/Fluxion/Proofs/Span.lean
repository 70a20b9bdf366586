import Fluxion.Proofs.Alphabet
import Fluxion.Proofs.Fault
import Fluxion.Report

/-!
# The spans of faults

A span counts bytes, so it may end where there is no text or inside of a character. The spans of
terms and of characters are taken from the text and never do. The span of a missing header is not:
it ends after as many bytes as the header has, whatever characters stand there.

* `utf8ByteSize_eq`, `isValid_iff`: bytes and boundaries of characters.
* `Span.Fits`: a span that lies within a text and cuts no character.
* `Fault.PointsAt`: faults that point at some characters of the text.
* `Fault.PointsAt.exists_report`: such a fault can be reported.
* `Fault.eq_missingHeader_or_pointsAt`: only a missing header is another kind of fault.
* **`Fault.spans_fit_iff`**: whose spans fit.
-/

namespace Fluxion

/-! ## Bytes and characters -/

theorem utf8ByteSize_ofList (cs : List Char) : (String.ofList cs).utf8ByteSize = utf8Length cs := by
  induction cs with
  | nil => rfl
  | cons c cs ih =>
    have hsplit : String.ofList (c :: cs) = String.singleton c ++ String.ofList cs := by
      apply String.toList_inj.mp
      rw [String.toList_append, String.toList_ofList, String.toList_ofList,
        String.toList_singleton, List.singleton_append]
    rw [hsplit, String.utf8ByteSize_append, String.utf8ByteSize_singleton, ih, utf8Length_cons]

theorem utf8ByteSize_eq (text : String) : text.utf8ByteSize = utf8Length text.toList := by
  rw [← utf8ByteSize_ofList, String.ofList_toList]

/-- A boundary has some characters of the text before it. -/
theorem isValid_iff {text : String} {offset : ℕ} : String.Pos.Raw.IsValid text ⟨offset⟩ ↔
    ∃ before after, text.toList = before ++ after ∧ utf8Length before = offset := by
  rw [String.Pos.Raw.isValid_iff_exists_append]
  constructor
  · rintro ⟨s, t, rfl, hoffset⟩
    refine ⟨s.toList, t.toList, String.toList_append, ?_⟩
    rw [← utf8ByteSize_eq]
    exact (congrArg String.Pos.Raw.byteIdx hoffset).symm
  · rintro ⟨before, after, htext, rfl⟩
    refine ⟨String.ofList before, String.ofList after, ?_, ?_⟩
    · rw [← String.ofList_append, ← htext, String.ofList_toList]
    · rw [← utf8ByteSize_ofList]
      rfl

/-! ## Spans that fit -/

/-- The span lies within the text and cuts no character. -/
structure Span.Fits (span : Span) (text : String) : Prop where
  le : span.start ≤ span.stop
  stop_le : span.stop ≤ text.utf8ByteSize
  isValid_start : String.Pos.Raw.IsValid text ⟨span.start⟩
  isValid_stop : String.Pos.Raw.IsValid text ⟨span.stop⟩

theorem IsSlice.fits {source text : String} {span : Span} (h : IsSlice source span text) :
    span.Fits source := by
  obtain ⟨before, after, hsource, hstart, hstop⟩ := h
  refine ⟨?_, ?_, isValid_iff.mpr ⟨before, text.toList ++ after, ?_, hstart⟩,
    isValid_iff.mpr ⟨_, after, hsource, hstop⟩⟩
  · rw [← hstart, ← hstop, utf8Length_append]
    exact Nat.le_add_right _ _
  · rw [utf8ByteSize_eq, hsource, utf8Length_append, hstop]
    exact Nat.le_add_right _ _
  · rw [hsource, List.append_assoc]

/-! ## Faults -/

namespace Fault

/-- The fault has one span, and some characters of the text stand there. -/
def PointsAt (fault : Fault) (source : String) : Prop :=
  ∃ span text, fault.spans = [span] ∧ text ≠ "" ∧ IsSlice source span text

theorem PointsAt.source_ne {fault : Fault} {source : String} (h : fault.PointsAt source) :
    source ≠ "" := by
  rintro rfl
  obtain ⟨span, text, -, htext, before, after, hsource, -, -⟩ := h
  rw [String.toList_empty, eq_comm, List.append_eq_nil_iff, List.append_eq_nil_iff] at hsource
  exact htext (String.toList_eq_nil_iff.mp hsource.1.2)

/-- A fault that points at characters can be reported. -/
theorem PointsAt.exists_report {fault : Fault} {source : String} (h : fault.PointsAt source) :
    ∃ span text report, fault.spans = [span] ∧ text ≠ "" ∧ IsSlice source span text ∧
      fault.report? source = some report ∧ report.source = source.toList ∧
      report.first = span.start ∧ report.stop = span.stop := by
  have hne := h.source_ne
  obtain ⟨span, text, hspans, htext, hslice⟩ := h
  have hdrawn : ¬(source = "" ∨ span.stop < span.start) :=
    not_or.mpr ⟨hne, hslice.fits.le.not_gt⟩
  unfold report?
  rw [hspans]
  exact ⟨span, text, _, rfl, htext, hslice, if_neg hdrawn, rfl, rfl, rfl⟩

theorem pointsAt_of_disallowed? {line : String} {fault : Fault}
    (h : disallowed? 0 line.toList = some fault) : fault.PointsAt line := by
  obtain ⟨before, c, after, hline, -, -, rfl⟩ := disallowed?_eq_some_iff.mp h
  refine ⟨_, String.ofList [c], rfl, ?_, before, after, ?_, ?_, ?_⟩
  · exact fun hempty => absurd (congrArg String.toList hempty) (by simp)
  · rw [hline, String.toList_ofList, List.append_assoc, List.singleton_append]
  · exact (Nat.zero_add _).symm
  · rw [utf8Length_append, String.toList_ofList, Nat.zero_add]
    rfl

theorem pointsAt_of_differentiate {rest : String} {fault : Fault}
    (h : differentiate (header ++ rest) = .error fault) : fault.PointsAt (header ++ rest) := by
  obtain ⟨before, t, after, -, -, -, hconcerns, hplaced⟩ := concerns_of_differentiate h
  by_cases hempty : t.text = ""
  · refine ⟨t.span, t.sign.text, hconcerns.spans, ?_, hplaced.sign hempty⟩
    cases t.sign <;> decide
  · exact ⟨t.span, t.text, hconcerns.spans, hempty, hplaced.text hempty⟩

/-- A fault is the one of a missing header, or it points at characters. -/
theorem eq_missingHeader_or_pointsAt {source : String} {fault : Fault}
    (h : validate source = .error fault ∨ Term.parse source = .error fault ∨
      differentiate source = .error fault) :
    hasHeader source = false ∧ fault = .missingHeader source ∨
      hasHeader source = true ∧ fault.PointsAt source := by
  rcases h with h | h | h
  · rcases validate_eq_error_iff.mp h with hheader | ⟨hheader, hdisallowed⟩
    · exact .inl hheader
    · exact .inr ⟨hheader, pointsAt_of_disallowed? hdisallowed⟩
  · exact .inl (Term.parse_eq_error h)
  · cases hheader : hasHeader source with
    | true =>
      obtain ⟨rest, rfl⟩ := hasHeader_iff.mp hheader
      exact .inr ⟨rfl, pointsAt_of_differentiate h⟩
    | false =>
      rcases exists_of_differentiate_eq_error h with hparse | ⟨before, t, after, hparse, -, -⟩
      · exact .inl (hheader ▸ Term.parse_eq_error hparse)
      · rw [hasHeader_iff.mpr (Term.exists_rest_of_parse hparse)] at hheader
        exact nomatch hheader

theorem isValid_headerLength {source : String} (h : hasHeader source = true) :
    String.Pos.Raw.IsValid source ⟨min source.utf8ByteSize headerLength⟩ := by
  obtain ⟨rest, rfl⟩ := hasHeader_iff.mp h
  have hle : headerLength ≤ (header ++ rest).utf8ByteSize := by
    rw [utf8ByteSize_eq, String.toList_append, utf8Length_append]
    exact Nat.le_add_right _ _
  rw [min_eq_right hle]
  exact isValid_iff.mpr ⟨header.toList, rest.toList, String.toList_append, rfl⟩

/-- **The spans of a fault fit the text, unless the bytes of the header end inside a character of
it.** -/
theorem spans_fit_iff {source : String} {fault : Fault}
    (h : validate source = .error fault ∨ Term.parse source = .error fault ∨
      differentiate source = .error fault) :
    (∀ span ∈ fault.spans, span.start ≤ span.stop ∧ span.stop ≤ source.utf8ByteSize ∧
      String.Pos.Raw.IsValid source ⟨span.start⟩) ∧
    ((∀ span ∈ fault.spans, span.Fits source) ↔
      String.Pos.Raw.IsValid source ⟨min source.utf8ByteSize headerLength⟩) := by
  rcases eq_missingHeader_or_pointsAt h with ⟨-, rfl⟩ | ⟨hheader, span, text, hspans, -, hslice⟩
  · have hsize : (missingHeader source).spans =
        [⟨0, min source.utf8ByteSize headerLength⟩] := by
      rw [missingHeader, utf8ByteSize_eq]
    have hstart : String.Pos.Raw.IsValid source ⟨0⟩ :=
      isValid_iff.mpr ⟨[], source.toList, rfl, rfl⟩
    rw [hsize, List.forall_mem_singleton, List.forall_mem_singleton]
    exact ⟨⟨Nat.zero_le _, min_le_left _ _, hstart⟩, fun hfits => hfits.isValid_stop,
      fun hstop => ⟨Nat.zero_le _, min_le_left _ _, hstart, hstop⟩⟩
  · have hfits := hslice.fits
    rw [hspans, List.forall_mem_singleton, List.forall_mem_singleton]
    exact ⟨⟨hfits.le, hfits.stop_le, hfits.isValid_start⟩,
      iff_of_true hfits (isValid_headerLength hheader)⟩

theorem spans_fit_letter : validate "f(x) = π" = .error ⟨.disallowedCharacter 'π', [⟨7, 9⟩]⟩ ∧
    Span.Fits ⟨7, 9⟩ "f(x) = π" := by
  have h : validate "f(x) = π" = .error ⟨.disallowedCharacter 'π', [⟨7, 9⟩]⟩ := by decide +kernel
  have hheader : hasHeader "f(x) = π" = true := by decide +kernel
  refine ⟨h, ?_⟩
  exact (spans_fit_iff (.inl h)).2.mpr (isValid_headerLength hheader) _ List.mem_cons_self

/-- The sixth byte, where the header would end, is inside of the character `≠`. -/
theorem spans_fit_unequal :
    validate "f(x) ≠ x" = .error ⟨.missingHeader, [⟨0, 6⟩]⟩ ∧
      Term.parse "f(x) ≠ x" = .error ⟨.missingHeader, [⟨0, 6⟩]⟩ ∧
      differentiate "f(x) ≠ x" = .error ⟨.missingHeader, [⟨0, 6⟩]⟩ ∧
      ¬ Span.Fits ⟨0, 6⟩ "f(x) ≠ x" := by
  have hcut : ¬ String.Pos.Raw.IsValid "f(x) ≠ x" ⟨6⟩ := by decide
  exact ⟨by decide +kernel, by decide +kernel, by decide +kernel, fun h => hcut h.isValid_stop⟩

end Fault

end Fluxion
