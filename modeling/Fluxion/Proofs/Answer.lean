import Fluxion.Proofs.Blank
import Fluxion.Proofs.Report

/-!
# Every line is answered

* `Refused.exists_span`, `Refused.source_ne`: a fault can be reported.
* `Answers`, `respond_eq_some_iff`: the two kinds of answers.
* `exists_respond_of_ne`: only the empty line has none.
-/

namespace Fluxion

/-! ## Faults can be reported -/

namespace Refused

variable {line source : String} {fault : Fault}

theorem exists_span (h : Refused line source fault) : ∃ span, fault.spans = [span] ∧
    span.start ≤ span.stop ∧ span.stop ≤ source.utf8ByteSize := by
  rcases h.eq_missingHeader_or_pointsAt with ⟨-, rfl⟩ | ⟨-, span, text, hspans, -, hslice⟩
  · rw [utf8ByteSize_eq]
    exact ⟨_, rfl, Nat.zero_le _, Nat.min_le_left _ _⟩
  · exact ⟨span, hspans, hslice.fits.le, hslice.fits.stop_le⟩

theorem source_ne (h : Refused line source fault) (hline : line ≠ "") : source ≠ "" := by
  cases h with
  | invalid => exact hline
  | validated h =>
    obtain ⟨rest, rfl, -⟩ := exists_rest_of_validate h
    intro hempty
    have hchars := congrArg String.toList hempty
    rw [String.toList_append, String.toList_empty, List.append_eq_nil_iff] at hchars
    exact absurd hchars.1 (by decide)

theorem exists_report_of_ne (h : Refused line source fault) (hline : line ≠ "") :
    ∃ report, fault.report? source = some report := by
  obtain ⟨span, hspans, hle, -⟩ := h.exists_span
  have hdrawn : ¬ (source = "" ∨ span.stop < span.start) :=
    not_or.mpr ⟨h.source_ne hline, hle.not_gt⟩
  unfold Fault.report?
  rw [hspans]
  exact ⟨_, if_neg hdrawn⟩

end Refused

/-! ## Answers -/

/-- An answer to a line: its derivative, or the report of its fault. -/
inductive Answers (line : String) : Answer → Prop where
  | derivative {text out : String} (h : validate line = .ok text)
      (hout : differentiate text = .ok out) : Answers line (.derivative out)
  | refusal {source : String} {fault : Fault} {report : Report} (h : Refused line source fault)
      (hreport : fault.report? source = some report) : Answers line (.refusal report)

theorem differentiate_or_refused (line : String) :
    (∃ text out, validate line = .ok text ∧ differentiate text = .ok out) ∨
      ∃ source fault, Refused line source fault := by
  cases h : validate line with
  | error fault => exact .inr ⟨line, fault, .invalid h⟩
  | ok text =>
    cases hout : differentiate text with
    | ok out => exact .inl ⟨text, out, rfl, hout⟩
    | error fault => exact .inr ⟨text, fault, .validated h hout⟩

theorem respond_eq_some_iff {line : String} {answer : Answer} :
    respond line = some answer ↔ Answers line answer := by
  constructor
  · intro hanswer
    rcases differentiate_or_refused line with ⟨text, out, h, hout⟩ | ⟨source, fault, h⟩
    · rw [(respond_eq_derivative_iff h out).mpr hout] at hanswer
      obtain rfl := Option.some.inj hanswer
      exact .derivative h hout
    · rw [h.respond_eq, Option.map_eq_some_iff] at hanswer
      obtain ⟨report, hreport, rfl⟩ := hanswer
      exact .refusal h hreport
  · rintro (⟨h, hout⟩ | ⟨h, hreport⟩)
    · exact (respond_eq_derivative_iff h _).mpr hout
    · rw [h.respond_eq, hreport]
      rfl

/-- A line that is not empty has an answer. -/
theorem exists_respond_of_ne {line : String} (hline : line ≠ "") :
    ∃ answer, respond line = some answer := by
  rcases differentiate_or_refused line with ⟨text, out, h, hout⟩ | ⟨source, fault, h⟩
  · exact ⟨_, respond_eq_some_iff.mpr (.derivative h hout)⟩
  · obtain ⟨report, hreport⟩ := h.exists_report_of_ne hline
    exact ⟨_, respond_eq_some_iff.mpr (.refusal h hreport)⟩

end Fluxion
