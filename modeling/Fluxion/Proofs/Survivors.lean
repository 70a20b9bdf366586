import Fluxion.Proofs.WrittenSum

/-!
# Surviving summands

Differentiating a function ends with the first term that has no shape, or with a sum that is known
from the signs and derivatives that survive.

* `WrittenSum.ofSigned`, **`differentiate_eq_map`**: the derivative of a function is the written sum
  of its survivors.
* `Term.signedDerivative`, `Term.surviving`: the survivors, term by term.
* `Term.surviving_append`: the first fault wins.
* `Term.FailsAt`: which term is at fault.
* `Term.Alike`, **`Term.surviving_of_alike`**: terms of the same signs and lexemes have the same
  survivors, or are at fault at the same place for the same reason.
-/

namespace Fluxion

/-! ## Sums of signed derivatives -/

theorem mapM_map_eq {ε α β γ : Type} (f : α → Except ε β) (g : α → β → γ) (as : List α) :
    (as.mapM fun a => (f a).map (g a)) = (as.mapM f).map (List.zipWith g as) := by
  induction as with
  | nil => rfl
  | cons a as ih =>
    rw [List.mapM_cons, List.mapM_cons, ih]
    cases f a with
    | error e => rfl
    | ok b => cases as.mapM f <;> rfl

namespace WrittenSum

theorem body_congr {α : Type} {f g : α → Term} (hsign : ∀ a, (f a).sign = (g a).sign)
    (htext : ∀ a, (f a).text = (g a).text) (as : List α) : body (as.map f) = body (as.map g) := by
  have hfirst (a : α) : first (f a) = first (g a) := by
    unfold first
    rw [hsign, htext]
  have hfurther (a : α) : further (f a) = further (g a) := by
    unfold further
    rw [hsign, htext]
  cases as with
  | nil => rfl
  | cons a as =>
    change first (f a) ++ _ = first (g a) ++ _
    rw [hfirst, List.map_map, List.map_map]
    congr 3
    funext b
    exact hfurther b

/-- Derivatives with their signs, written as a sum. -/
def ofSigned (ds : List (Sign × Derivative)) : String :=
  header ++ body (ds.map fun d => ⟨d.1, d.2.text, .point 0⟩)

theorem ofSigned_signed (ds : List Summand) :
    ofSigned (ds.map Summand.signed) = header ++ body (ds.map Summand.written) := by
  unfold ofSigned
  rw [List.map_map]
  congr 1
  apply body_congr
  · exact fun _ => rfl
  · exact fun _ => rfl

end WrittenSum

/-- **The derivative of a function is the written sum of its survivors.** -/
theorem differentiate_eq_map (source : String) :
    differentiate source = (survivors source).map WrittenSum.ofSigned := by
  cases hterms : Term.parse source with
  | error fault =>
    unfold differentiate survivors
    rw [hterms]
    rfl
  | ok terms =>
    cases hshapes : terms.mapM Term.classify with
    | error fault =>
      have hall : Term.differentiateAll terms = .error fault := by
        unfold Term.differentiateAll Term.differentiate
        rw [mapM_map_eq, hshapes]
        rfl
      unfold differentiate survivors
      rw [hterms]
      change Term.differentiateAll terms >>= _ = Except.map _ (terms.mapM Term.classify >>= _)
      rw [hall, hshapes]
      rfl
    | ok shapes =>
      have hforall := mapM_eq_ok_iff.mp hshapes
      rw [survivors_eq hterms hforall]
      change _ = Except.ok _
      rw [WrittenSum.ofSigned_signed]
      exact differentiate_eq_ok_iff.mpr ⟨terms, shapes, hterms, hforall, rfl⟩

/-! ## Survivors of terms -/

namespace Term

/-- The sign and the derivative of a term. -/
def signedDerivative (t : Term) : Except Fault (Sign × Derivative) :=
  t.classify.map fun s => (t.sign, s.derivative)

/-- The signs and derivatives of terms, without the derivatives that vanish. -/
def surviving (ts : List Term) : Except Fault (List (Sign × Derivative)) :=
  (ts.mapM signedDerivative).map (List.filter (·.2 ≠ .zero))

theorem survivors_eq_bind (source : String) : survivors source = parse source >>= surviving := by
  unfold survivors
  congr 1
  funext terms
  unfold surviving signedDerivative
  rw [mapM_map_eq]
  cases terms.mapM classify <;> rfl

theorem differentiate_of_parse {source : String} {terms : List Term}
    (h : parse source = .ok terms) :
    Fluxion.differentiate source = (surviving terms).map WrittenSum.ofSigned := by
  rw [differentiate_eq_map, survivors_eq_bind, h]
  rfl

/-- The first fault wins, and without one all survivors stand in their order. -/
theorem surviving_append (ts us : List Term) : surviving (ts ++ us) =
    surviving ts >>= fun ds => (surviving us).map (ds ++ ·) := by
  unfold surviving
  rw [List.mapM_append]
  cases ts.mapM signedDerivative with
  | error fault => rfl
  | ok ds =>
    cases us.mapM signedDerivative with
    | error fault => rfl
    | ok es => exact congrArg Except.ok (List.filter_append ds es)

/-! ## The term at fault -/

/-- The term of index `i` is the first one without a shape. -/
inductive FailsAt : List Term → ℕ → Fault → Prop where
  | here {t : Term} {ts : List Term} {fault : Fault} (h : t.classify = .error fault) :
      FailsAt (t :: ts) 0 fault
  | there {t : Term} {ts : List Term} {i : ℕ} {fault : Fault} {s : Shape} (hs : t.classify = .ok s)
      (h : FailsAt ts i fault) : FailsAt (t :: ts) (i + 1) fault

theorem surviving_cons_of_ok {t : Term} {s : Shape} (h : t.classify = .ok s) (ts : List Term) :
    surviving (t :: ts) = (surviving ts).map fun ds =>
      if s.derivative = .zero then ds else (t.sign, s.derivative) :: ds := by
  unfold surviving
  rw [List.mapM_cons, signedDerivative, h]
  change ((ts.mapM signedDerivative) >>= fun ds => Except.ok ((t.sign, s.derivative) :: ds)).map _ =
    _
  cases ts.mapM signedDerivative with
  | error fault => rfl
  | ok ds =>
    refine congrArg Except.ok ?_
    by_cases hzero : s.derivative = .zero <;> simp [hzero]

theorem surviving_cons_of_error {t : Term} {fault : Fault} (h : t.classify = .error fault)
    (ts : List Term) : surviving (t :: ts) = .error fault := by
  unfold surviving
  rw [List.mapM_cons, signedDerivative, h]
  rfl

theorem FailsAt.surviving_eq {ts : List Term} {i : ℕ} {fault : Fault} (h : FailsAt ts i fault) :
    surviving ts = .error fault := by
  induction h with
  | here h => exact surviving_cons_of_error h _
  | there hs _ ih =>
    rw [surviving_cons_of_ok hs, ih]
    rfl

/-! ## Terms of the same lexemes -/

/-- The terms have the same sign, and the same lexemes apart from whitespace. -/
def Alike (t u : Term) : Prop := t.sign = u.sign ∧ t.lexemes = u.lexemes

end Term

/-- The causes agree but for whitespace in the texts that they name. -/
inductive Fault.Cause.Alike : Fault.Cause → Fault.Cause → Prop where
  | unsupportedTerm {text₁ text₂ : String} (names : List String)
      (h : Lexeme.significant text₁.toList = Lexeme.significant text₂.toList) :
      Alike (.unsupportedTerm text₁ names) (.unsupportedTerm text₂ names)
  | invalidTrigTerm {text₁ text₂ : String}
      (h : Lexeme.significant text₁.toList = Lexeme.significant text₂.toList) :
      Alike (.invalidTrigTerm text₁) (.invalidTrigTerm text₂)

namespace Term

theorem Alike.classify_eq_or {t u : Term} (h : t.Alike u) :
    (∃ s, t.classify = .ok s ∧ u.classify = .ok s) ∨
      ∃ c d, t.classify = .error ⟨c, [t.span]⟩ ∧ u.classify = .error ⟨d, [u.span]⟩ ∧
        c.Alike d := by
  obtain ⟨-, hlexemes⟩ := h
  cases hfind : TrigCall.find? t.lexemes with
  | some call =>
    rw [classify_of_call hfind, classify_of_call (hlexemes ▸ hfind)]
    cases Shape.ofCall? call with
    | some s => exact .inl ⟨s, rfl, rfl⟩
    | none => exact .inr ⟨_, _, rfl, rfl, .invalidTrigTerm hlexemes⟩
  | none =>
    rw [classify_of_no_call hfind, classify_of_no_call (hlexemes ▸ hfind), ← hlexemes]
    cases Shape.uncalled? t.lexemes with
    | some s => exact .inl ⟨s, rfl, rfl⟩
    | none => exact .inr ⟨_, _, rfl, rfl, .unsupportedTerm _ hlexemes⟩

/-- **Terms of the same lexemes have the same survivors**, or the same one of them is at fault. -/
theorem surviving_of_alike {ts us : List Term} (h : List.Forall₂ Alike ts us) :
    (∃ ds, surviving ts = .ok ds ∧ surviving us = .ok ds) ∨
      ∃ i f g, FailsAt ts i f ∧ FailsAt us i g ∧ f.cause.Alike g.cause := by
  induction h with
  | nil => exact .inl ⟨[], rfl, rfl⟩
  | @cons t u ts us htu _ ih =>
    rcases htu.classify_eq_or with ⟨s, ht, hu⟩ | ⟨c, d, ht, hu, hcause⟩
    · rcases ih with ⟨ds, hds, hes⟩ | ⟨i, f, g, hf, hg, hcause⟩
      · rw [surviving_cons_of_ok ht, surviving_cons_of_ok hu, hds, hes, htu.1]
        exact .inl ⟨_, rfl, rfl⟩
      · exact .inr ⟨i + 1, f, g, .there ht hf, .there hu hg, hcause⟩
    · exact .inr ⟨0, _, _, .here ht, .here hu, hcause⟩

end Term

end Fluxion
