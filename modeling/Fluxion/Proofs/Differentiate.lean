import Fluxion.Differentiate
import Fluxion.Proofs.Derivative.Text
import Mathlib.Data.List.Forall2

/-!
# The steps of differentiation

* `bind_eq_ok_iff`, `mapM_eq_ok_iff`: when steps that may fail succeed together.
* `bind_eq_error_iff`, `exists_of_mapM_eq_error`: which of them fails otherwise.
* `Summand`: a term and the derivative of its shape.
* `Summand.all`, `Summand.remaining`: the summands of a function and those that are written.
* `Summand.remains_iff`: what is not written vanishes.
* **`differentiate_eq_ok_iff`**: the derivative of a function is the sum of the summands that
  remain, and there is one exactly if every term has a shape.
* `exists_of_differentiate_eq_error`: otherwise the first term without a shape is at fault.
-/

namespace Fluxion

/-! ## Steps that may fail -/

section

variable {ε α β : Type}

theorem bind_eq_ok_iff {x : Except ε α} {f : α → Except ε β} {b : β} :
    x >>= f = .ok b ↔ ∃ a, x = .ok a ∧ f a = .ok b := by
  cases x with
  | error e =>
    constructor
    · intro h
      exact nomatch h
    · rintro ⟨a, h, -⟩
      exact nomatch h
  | ok a =>
    constructor
    · intro h
      exact ⟨a, rfl, h⟩
    · rintro ⟨a', h, hf⟩
      rw [Except.ok.inj h]
      exact hf

theorem map_eq_ok_iff {x : Except ε α} {f : α → β} {b : β} :
    x.map f = .ok b ↔ ∃ a, x = .ok a ∧ b = f a := by
  cases x with
  | error e =>
    constructor
    · intro h
      exact nomatch h
    · rintro ⟨a, h, -⟩
      exact nomatch h
  | ok a =>
    constructor
    · intro h
      exact ⟨a, rfl, (Except.ok.inj h).symm⟩
    · rintro ⟨a', h, rfl⟩
      rw [Except.ok.inj h]
      rfl

theorem mapM_eq_ok_iff {f : α → Except ε β} {as : List α} {bs : List β} :
    as.mapM f = .ok bs ↔ List.Forall₂ (fun a b => f a = .ok b) as bs := by
  induction as generalizing bs with
  | nil =>
    rw [List.forall₂_nil_left_iff]
    exact ⟨fun h => (Except.ok.inj h).symm, fun h => h ▸ rfl⟩
  | cons a as ih =>
    rw [List.mapM_cons, List.forall₂_cons_left_iff, bind_eq_ok_iff]
    constructor
    · rintro ⟨b, hb, h⟩
      obtain ⟨cs, hcs, h⟩ := bind_eq_ok_iff.mp h
      exact ⟨b, cs, hb, ih.mp hcs, (Except.ok.inj h).symm⟩
    · rintro ⟨b, cs, hb, hcs, rfl⟩
      exact ⟨b, hb, bind_eq_ok_iff.mpr ⟨cs, ih.mpr hcs, rfl⟩⟩

theorem bind_eq_error_iff {x : Except ε α} {f : α → Except ε β} {e : ε} :
    x >>= f = .error e ↔ x = .error e ∨ ∃ a, x = .ok a ∧ f a = .error e := by
  cases x with
  | error e' =>
    constructor
    · intro h
      exact .inl (congrArg Except.error (Except.error.inj h))
    · rintro (h | ⟨a, h, -⟩)
      · exact congrArg Except.error (Except.error.inj h)
      · exact nomatch h
  | ok a =>
    constructor
    · intro h
      exact .inr ⟨a, rfl, h⟩
    · rintro (h | ⟨a', h, hf⟩)
      · exact nomatch h
      · rw [Except.ok.inj h]
        exact hf

theorem map_eq_error_iff {x : Except ε α} {f : α → β} {e : ε} :
    x.map f = .error e ↔ x = .error e := by
  cases x with
  | error e' =>
    constructor
    · intro h
      exact congrArg Except.error (Except.error.inj h)
    · intro h
      exact congrArg Except.error (Except.error.inj h)
  | ok a => exact iff_of_false nofun nofun

theorem exists_of_mapM_eq_error {f : α → Except ε β} {as : List α} {e : ε}
    (h : as.mapM f = .error e) : ∃ before a after, as = before ++ a :: after ∧
      (∀ b ∈ before, ∃ c, f b = .ok c) ∧ f a = .error e := by
  induction as with
  | nil => exact nomatch h
  | cons a as ih =>
    rw [List.mapM_cons, bind_eq_error_iff] at h
    rcases h with ha | ⟨d, ha, h⟩
    · exact ⟨[], a, as, rfl, nofun, ha⟩
    · rcases bind_eq_error_iff.mp h with hrest | ⟨ds, -, h⟩
      · obtain ⟨before, b, after, rfl, hbefore, hb⟩ := ih hrest
        exact ⟨a :: before, b, after, rfl, List.forall_mem_cons.mpr ⟨⟨d, ha⟩, hbefore⟩, hb⟩
      · exact nomatch h

end

/-! ## Summands -/

/-- A term and the derivative of its shape. -/
structure Summand where
  term : Term
  derivative : Derivative

namespace Summand

/-- The term with the text of its derivative. -/
def written (d : Summand) : Term := d.term.withText d.derivative.text

/-- The summands of terms with the given shapes. -/
def all (terms : List Term) (shapes : List Shape) : List Summand :=
  List.zipWith (fun t s => ⟨t, s.derivative⟩) terms shapes

/-- The summands that are written: those with another text than `0`. -/
def remaining (terms : List Term) (shapes : List Shape) : List Summand :=
  (all terms shapes).filter fun d => WrittenSum.remains d.written

theorem map_derivative_all {terms : List Term} {shapes : List Shape}
    (h : terms.length = shapes.length) :
    (all terms shapes).map (·.derivative) = shapes.map Shape.derivative := by
  unfold all
  rw [List.map_zipWith]
  induction terms generalizing shapes with
  | nil => rw [List.length_eq_zero_iff.mp h.symm]; rfl
  | cons t terms ih =>
    cases shapes with
    | nil => exact nomatch h
    | cons s shapes => exact congrArg (s.derivative :: ·) (ih (Nat.succ.inj h))

theorem remains_iff {d : Summand} (h : d.derivative = .zero ∨ d.derivative.Normal) :
    WrittenSum.remains d.written ↔ d.derivative ≠ .zero := by
  change decide (d.derivative.text ≠ "0") = true ↔ _
  rw [decide_eq_true_iff, ne_eq, Derivative.text_eq_zero_iff h]

end Summand

theorem regular_of_forall₂ {terms : List Term} {shapes : List Shape}
    (h : List.Forall₂ (fun t s => t.classify = .ok s) terms shapes) : ∀ s ∈ shapes, s.Regular := by
  induction h with
  | nil => exact fun _ hs => absurd hs List.not_mem_nil
  | cons hs _ ih => exact List.forall_mem_cons.mpr ⟨Term.regular_of_classify hs, ih⟩

theorem Term.differentiate_eq_ok_iff {t u : Term} : t.differentiate = .ok u ↔
    ∃ s, t.classify = .ok s ∧ u = Summand.written ⟨t, s.derivative⟩ := map_eq_ok_iff

theorem Term.differentiateAll_eq_ok_iff {terms us : List Term} :
    Term.differentiateAll terms = .ok us ↔
      ∃ shapes, List.Forall₂ (fun t s => t.classify = .ok s) terms shapes ∧
        us = (Summand.all terms shapes).map Summand.written := by
  unfold Term.differentiateAll
  rw [mapM_eq_ok_iff]
  constructor
  · intro h
    induction h with
    | nil => exact ⟨[], .nil, rfl⟩
    | cons hu _ ih =>
      obtain ⟨s, hs, rfl⟩ := Term.differentiate_eq_ok_iff.mp hu
      obtain ⟨shapes, hshapes, rfl⟩ := ih
      exact ⟨s :: shapes, .cons hs hshapes, rfl⟩
  · rintro ⟨shapes, hshapes, rfl⟩
    induction hshapes with
    | nil => exact .nil
    | cons hs _ ih => exact .cons (Term.differentiate_eq_ok_iff.mpr ⟨_, hs, rfl⟩) ih

theorem ofTerms_written (terms : List Term) (shapes : List Shape) :
    WrittenSum.ofTerms ((Summand.all terms shapes).map Summand.written) = WrittenSum.header ++
      WrittenSum.body ((Summand.remaining terms shapes).map Summand.written) := by
  rw [WrittenSum.ofTerms, List.filter_map]
  rfl

/-- **The derivative of a function is the written sum of the summands that remain.** -/
theorem differentiate_eq_ok_iff {source out : String} : differentiate source = .ok out ↔
    ∃ terms shapes, Term.parse source = .ok terms ∧
      List.Forall₂ (fun t s => t.classify = .ok s) terms shapes ∧
      out = WrittenSum.header ++
        WrittenSum.body ((Summand.remaining terms shapes).map Summand.written) := by
  unfold differentiate
  rw [bind_eq_ok_iff]
  constructor
  · rintro ⟨terms, hterms, h⟩
    obtain ⟨us, hus, h⟩ := bind_eq_ok_iff.mp h
    obtain ⟨shapes, hshapes, rfl⟩ := Term.differentiateAll_eq_ok_iff.mp hus
    exact ⟨terms, shapes, hterms, hshapes, (Except.ok.inj h).symm.trans (ofTerms_written _ _)⟩
  · rintro ⟨terms, shapes, hterms, hshapes, rfl⟩
    refine ⟨terms, hterms, bind_eq_ok_iff.mpr ⟨_, ?_, congrArg Except.ok (ofTerms_written _ _)⟩⟩
    exact Term.differentiateAll_eq_ok_iff.mpr ⟨shapes, hshapes, rfl⟩

theorem exists_of_differentiate_eq_error {source : String} {fault : Fault}
    (h : differentiate source = .error fault) :
    Term.parse source = .error fault ∨
      ∃ before t after, Term.parse source = .ok (before ++ t :: after) ∧
        (∀ u ∈ before, ∃ s, u.classify = .ok s) ∧ t.classify = .error fault := by
  unfold differentiate at h
  rw [bind_eq_error_iff] at h
  refine h.imp_right ?_
  rintro ⟨terms, hterms, h⟩
  rcases bind_eq_error_iff.mp h with hall | ⟨us, -, h⟩
  · obtain ⟨before, t, after, rfl, hbefore, ht⟩ := exists_of_mapM_eq_error hall
    refine ⟨before, t, after, hterms, fun u hu => ?_, map_eq_error_iff.mp ht⟩
    obtain ⟨v, hv⟩ := hbefore u hu
    obtain ⟨s, hs, -⟩ := Term.differentiate_eq_ok_iff.mp hv
    exact ⟨s, hs⟩
  · exact nomatch h

end Fluxion
