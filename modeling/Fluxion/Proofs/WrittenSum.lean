import Fluxion.Proofs.Differentiate

/-!
# What a written sum determines

A written derivative is split at its spaces into signs and the texts of its summands, and each of
these texts belongs to one derivative. The first sign has no space after it, but no text begins with
a `-` that could be taken for it.

* `Summand.signed`, `survivors`: signs and derivatives of the summands that are written.
* `Summand.firstChars`, `Summand.furtherChars`: how they are written.
* `Summand.signed_eq_of_first`: what the first summand determines.
* `Summand.signed_eq_of_further`: what the others determine.
* **`survivors_of_differentiate_eq`**: functions with the same written derivative have the same
  summands in it.
-/

namespace Fluxion

namespace Derivative

theorem space_notMem_suffix (d : Derivative) : ' ' ∉ d.suffix := fun h =>
  (mem_suffix h).elim (fun hdigit => absurd hdigit (by decide)) fun hmem => absurd hmem (by decide)

theorem space_notMem_text {d : Derivative} (h : d.Normal) : ' ' ∉ d.text.toList := by
  rw [toList_text h, List.mem_append, List.mem_append, not_or, not_or]
  refine ⟨⟨?_, fun hbody => ?_⟩, d.space_notMem_suffix⟩
  · cases d.minus <;> decide
  · exact absurd (d.isNumberChar_body ' ' hbody) (by decide)

end Derivative

namespace Summand

/-- The sign of the term and the derivative. -/
def signed (d : Summand) : Sign × Derivative := (d.term.sign, d.derivative)

/-- The first summand, without the space in front of it. -/
def firstChars (d : Summand) : List Char :=
  signText (decide (d.term.sign = .negative)) ++ d.derivative.text.toList

/-- The summands after the first one. -/
def furtherChars : List Summand → List Char
  | [] => []
  | d :: ds =>
    ' ' :: d.term.sign.symbol :: ' ' :: (d.derivative.text.toList ++ furtherChars ds)

theorem toList_first (d : Summand) : (WrittenSum.first d.written).toList = ' ' :: d.firstChars := by
  unfold WrittenSum.first written firstChars
  cases hs : d.term.sign
  · simp only [Term.withText, hs, String.toList_append]
    rfl
  · simp only [Term.withText, hs, String.toList_append]
    rfl

theorem toList_further (d : Summand) : (WrittenSum.further d.written).toList =
    ' ' :: d.term.sign.symbol :: ' ' :: d.derivative.text.toList := by
  unfold WrittenSum.further Sign.text
  simp only [String.toList_append, String.toList_ofList]
  rfl

theorem toList_join_further (ds : List Summand) :
    (String.join ((ds.map written).map WrittenSum.further)).toList = furtherChars ds := by
  rw [String.toList_join]
  induction ds with
  | nil => rfl
  | cons d ds ih =>
    rw [List.map_cons, List.map_cons, List.flatMap_cons, ih, toList_further]
    rfl

theorem toList_body_cons (d : Summand) (ds : List Summand) :
    (WrittenSum.body ((d :: ds).map written)).toList =
      ' ' :: (d.firstChars ++ furtherChars ds) := by
  change (WrittenSum.first d.written ++ _).toList = _
  rw [String.toList_append, toList_first, toList_join_further]
  rfl

/-! ## One summand -/

theorem space_notMem_firstChars {d : Summand} (h : d.derivative.Normal) :
    ∀ c ∈ d.firstChars, ¬ c = ' ' := by
  rintro c hc rfl
  rcases List.mem_append.mp hc with hc | hc
  · cases hsign : decide (d.term.sign = .negative) <;> rw [hsign] at hc
    · exact absurd hc List.not_mem_nil
    · exact absurd hc (by decide)
  · exact Derivative.space_notMem_text h hc

theorem space_furtherChars (ds : List Summand) : ∀ c ∈ (furtherChars ds).head?, c = ' ' := by
  cases ds with
  | nil => exact nofun
  | cons d ds => exact fun _ hc => (Option.some.inj hc).symm

/-- **The first summand determines its sign and its derivative.** -/
theorem signed_eq_of_first {d e : Summand} (hd : d.derivative.Normal) (he : e.derivative.Normal)
    (h : d.firstChars = e.firstChars) : d.signed = e.signed := by
  unfold firstChars at h
  unfold signed
  cases hs : d.term.sign <;> cases ht : e.term.sign <;> rw [hs, ht] at h
  · rw [Derivative.eq_of_text hd he (String.toList_injective h)]
  · exact absurd h.symm (Derivative.cons_text_ne he hd)
  · exact absurd h (Derivative.cons_text_ne hd he)
  · rw [Derivative.eq_of_text hd he (String.toList_injective (List.cons.inj h).2)]

theorem symbol_injective : Function.Injective Sign.symbol := by
  intro s t h
  cases s <;> cases t <;> first | rfl | exact absurd h (by decide)

/-! ## Several summands -/

theorem signed_eq_of_further {ds es : List Summand} (hds : ∀ d ∈ ds, d.derivative.Normal)
    (hes : ∀ e ∈ es, e.derivative.Normal) (h : furtherChars ds = furtherChars es) :
    ds.map signed = es.map signed := by
  induction ds generalizing es with
  | nil =>
    cases es with
    | nil => rfl
    | cons e es => exact absurd h nofun
  | cons d ds ih =>
    cases es with
    | nil => exact absurd h nofun
    | cons e es =>
      obtain ⟨hd, hds⟩ := List.forall_mem_cons.mp hds
      obtain ⟨he, hes⟩ := List.forall_mem_cons.mp hes
      obtain ⟨-, htail⟩ := List.cons.inj h
      obtain ⟨hsign, htail⟩ := List.cons.inj htail
      have hspace {d : Summand} (hd : d.derivative.Normal) :
          ∀ c ∈ d.derivative.text.toList, ¬ c = ' ' := by
        rintro c hc rfl
        exact Derivative.space_notMem_text hd hc
      obtain ⟨htext, hrest⟩ := append_inj_of_separated (hspace hd) (hspace he)
        (space_furtherChars ds) (space_furtherChars es) (List.cons.inj htail).2
      have hderivative := Derivative.eq_of_text hd he (String.toList_injective htext)
      have hsigned : d.signed = e.signed := Prod.ext (symbol_injective hsign) hderivative
      rw [List.map_cons, List.map_cons, hsigned, ih hds hes hrest]

theorem firstChars_ne_zero {d : Summand} (hd : d.derivative.Normal) : d.firstChars ≠ ['0'] := by
  intro h
  unfold firstChars at h
  cases hs : d.term.sign <;> rw [hs] at h
  · exact Derivative.text_ne_zero hd (String.toList_injective h)
  · exact absurd (List.cons.inj h).1 (by decide)

theorem body_ne_zero {d : Summand} {ds : List Summand} (hd : d.derivative.Normal) :
    WrittenSum.body ((d :: ds).map written) ≠ " 0" := by
  intro h
  have hlist := congrArg String.toList h
  rw [toList_body_cons] at hlist
  have hzero : ∀ c ∈ ['0'], ¬ c = ' ' := List.forall_mem_singleton.mpr (by decide)
  obtain ⟨hfirst, -⟩ := append_inj_of_separated (s := []) (space_notMem_firstChars hd) hzero
    (space_furtherChars ds) nofun (List.cons.inj hlist).2
  exact firstChars_ne_zero hd hfirst

theorem body_eq_zero_iff {ds : List Summand} (hds : ∀ d ∈ ds, d.derivative.Normal) :
    WrittenSum.body (ds.map written) = " 0" ↔ ds = [] := by
  cases ds with
  | nil => exact iff_of_true rfl rfl
  | cons d ds =>
    exact iff_of_false (body_ne_zero (hds d List.mem_cons_self)) (List.cons_ne_nil d ds)

/-- **A written sum determines the signs and derivatives of its summands.** -/
theorem signed_eq_of_body {ds es : List Summand} (hds : ∀ d ∈ ds, d.derivative.Normal)
    (hes : ∀ e ∈ es, e.derivative.Normal)
    (h : WrittenSum.body (ds.map written) = WrittenSum.body (es.map written)) :
    ds.map signed = es.map signed := by
  cases ds with
  | nil =>
    cases es with
    | nil => rfl
    | cons e es => exact absurd h.symm (body_ne_zero (hes e List.mem_cons_self))
  | cons d ds =>
    cases es with
    | nil => exact absurd h (body_ne_zero (hds d List.mem_cons_self))
    | cons e es =>
      obtain ⟨hd, hds⟩ := List.forall_mem_cons.mp hds
      obtain ⟨he, hes⟩ := List.forall_mem_cons.mp hes
      have hlist := congrArg String.toList h
      rw [toList_body_cons, toList_body_cons] at hlist
      obtain ⟨hfirst, hfurther⟩ := append_inj_of_separated (space_notMem_firstChars hd)
        (space_notMem_firstChars he) (space_furtherChars ds) (space_furtherChars es)
        (List.cons.inj hlist).2
      rw [List.map_cons, List.map_cons, signed_eq_of_first hd he hfirst,
        signed_eq_of_further hds hes hfurther]

/-! ## Functions -/

theorem normal_of_mem_all {terms : List Term} {shapes : List Shape} (h : ∀ s ∈ shapes, s.Regular) :
    ∀ d ∈ all terms shapes, d.derivative = .zero ∨ d.derivative.Normal := by
  induction terms generalizing shapes with
  | nil => exact fun _ hd => absurd hd List.not_mem_nil
  | cons t terms ih =>
    cases shapes with
    | nil => exact fun _ hd => absurd hd List.not_mem_nil
    | cons s shapes =>
      obtain ⟨hs, hshapes⟩ := List.forall_mem_cons.mp h
      exact List.forall_mem_cons.mpr ⟨Shape.normal_derivative hs, ih hshapes⟩

theorem normal_of_mem_remaining (terms : List Term) {shapes : List Shape}
    (h : ∀ s ∈ shapes, s.Regular) : ∀ d ∈ remaining terms shapes, d.derivative.Normal := by
  intro d hd
  obtain ⟨hmem, hremains⟩ := List.mem_filter.mp hd
  have hd := normal_of_mem_all h d hmem
  exact hd.resolve_left ((remains_iff hd).mp hremains)

theorem map_signed_remaining (terms : List Term) {shapes : List Shape}
    (h : ∀ s ∈ shapes, s.Regular) : (remaining terms shapes).map signed =
      ((all terms shapes).map signed).filter (·.2 ≠ .zero) := by
  rw [List.filter_map, remaining]
  refine congrArg _ (List.filter_congr fun d hd => ?_)
  rw [Bool.eq_iff_iff, remains_iff (normal_of_mem_all h d hd)]
  exact decide_eq_true_iff.symm

end Summand

/-- The signs and derivatives of the terms of a function, without the derivatives that vanish. -/
def survivors (source : String) : Except Fault (List (Sign × Derivative)) := do
  let terms ← Term.parse source
  let shapes ← terms.mapM Term.classify
  return (List.zipWith (fun t s => (t.sign, s.derivative)) terms shapes).filter (·.2 ≠ .zero)

theorem survivors_eq {source : String} {terms : List Term} {shapes : List Shape}
    (hterms : Term.parse source = .ok terms)
    (hshapes : List.Forall₂ (fun t s => t.classify = .ok s) terms shapes) :
    survivors source = .ok ((Summand.remaining terms shapes).map Summand.signed) := by
  have hfilter : (List.zipWith (fun t s => (t.sign, s.derivative)) terms shapes).filter
      (·.2 ≠ .zero) = (Summand.remaining terms shapes).map Summand.signed := by
    rw [Summand.map_signed_remaining terms (regular_of_forall₂ hshapes), Summand.all,
      List.map_zipWith]
    rfl
  unfold survivors
  refine bind_eq_ok_iff.mpr ⟨terms, hterms, bind_eq_ok_iff.mpr ⟨shapes, ?_, ?_⟩⟩
  · exact mapM_eq_ok_iff.mpr hshapes
  · exact congrArg Except.ok hfilter

/-- **Functions with the same written derivative have the same summands in it.** Only a sum without
summands is written as `0`. -/
theorem survivors_of_differentiate_eq {source₁ source₂ out : String}
    (h₁ : differentiate source₁ = .ok out) (h₂ : differentiate source₂ = .ok out) :
    ∃ ds, survivors source₁ = .ok ds ∧ survivors source₂ = .ok ds ∧
      (out = "f'(x) = 0" ↔ ds = []) := by
  obtain ⟨terms₁, shapes₁, hterms₁, hshapes₁, rfl⟩ := differentiate_eq_ok_iff.mp h₁
  obtain ⟨terms₂, shapes₂, hterms₂, hshapes₂, hout⟩ := differentiate_eq_ok_iff.mp h₂
  have hnormal₁ := Summand.normal_of_mem_remaining terms₁ (regular_of_forall₂ hshapes₁)
  have hnormal₂ := Summand.normal_of_mem_remaining terms₂ (regular_of_forall₂ hshapes₂)
  have hbody := (String.append_right_inj _).mp hout
  have hsigned := Summand.signed_eq_of_body hnormal₁ hnormal₂ hbody
  have hzero : "f'(x) = 0" = WrittenSum.header ++ " 0" := by decide
  refine ⟨_, survivors_eq hterms₁ hshapes₁, hsigned ▸ survivors_eq hterms₂ hshapes₂, ?_⟩
  rw [hzero, String.append_right_inj, Summand.body_eq_zero_iff hnormal₁, List.map_eq_nil_iff]

theorem survivors_square : ∃ ds, survivors "f(x) = x^2" = .ok ds ∧
    survivors "f(x) = 1x^2 - 3" = .ok ds ∧ ("f'(x) = 2x" = "f'(x) = 0" ↔ ds = []) :=
  survivors_of_differentiate_eq (by decide +kernel) (by decide +kernel)

end Fluxion
