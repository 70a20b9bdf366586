import Fluxion.Proofs.Shape.Grammar

/-!
# Classification by the grammar

The search for a call and for the first `x` recognises what the grammar describes.

* `Shape.ofCall?_eq_some_iff`: terms with a call.
* `Shape.uncalled?_eq_some_iff`: terms without one.
* **`Term.classify_grammar`**: the shape of a term is the one that its lexemes write, and each of
  the two faults has its own terms.
-/

namespace Fluxion

open Grammar

namespace Shape

/-! ## Terms with a call -/

theorem find?_of_written {before argument : List Lexeme} {callee : Lexeme} {f : TrigFunction}
    {c : Binary64} (hc : Coefficient before c) (hf : callee.isName f.name)
    (hx : Argument argument) :
    TrigCall.find? (before ++ callee :: argument) = some ⟨before, callee, f, []⟩ := by
  have hafter : TrigCall.afterArgument? argument = some [] :=
    TrigCall.afterArgument?_eq_some_iff.mpr ⟨argument, hx, (List.append_nil _).symm⟩
  have hcall : TrigCall.find? (callee :: argument) = some ⟨[], callee, f, []⟩ := by
    rw [TrigCall.find?_cons, hafter, TrigCall.function?_of_isName hf]
  cases hc with
  | absent => exact hcall
  | @numeral l _ hl _ =>
    have hnone : TrigCall.function? l = none :=
      TrigCall.function?_eq_none (by rw [hl.1]; exact nofun)
    rw [List.singleton_append, TrigCall.find?_cons, hnone, hcall]
    cases TrigCall.afterArgument? (callee :: argument) <;> rfl

/-- **The shape of a term with a call is the one that its lexemes write.** -/
theorem ofCall?_eq_some_iff {ls : List Lexeme} (hls : ∀ l ∈ ls, l.Uniform) {call : TrigCall}
    (h : TrigCall.find? ls = some call) {s : Shape} : ofCall? call = some s ↔ Written ls s := by
  obtain ⟨hcalls, argument, hargument, hsplit⟩ := TrigCall.find?_eq_some h
  constructor
  · intro hs
    unfold ofCall? at hs
    split at hs
    · next hcall =>
      obtain ⟨c, hc, rfl⟩ := Option.map_eq_some_iff.mp hs
      rw [hcall.2, List.append_nil] at hsplit
      subst hsplit
      have hbefore : ∀ l ∈ call.before, l.Uniform := fun l hl =>
        hls l (List.mem_append_left _ hl)
      exact .trigonometric ((coefficient?_eq_some_iff hbefore).mp hc)
        (Lexeme.isName_iff.mpr ⟨hcalls.1, hcall.1⟩) hargument
    · simp at hs
  · intro hs
    by_cases htrig : ∀ f c, s ≠ .trigonometric f c
    · exact absurd (TrigCall.exists_find?_iff.mp ⟨call, h⟩) (hs.not_hasCall htrig)
    · push Not at htrig
      obtain ⟨f, c, rfl⟩ := htrig
      obtain ⟨hc, hf, hx⟩ := hs
      next before argument callee =>
        have hbefore : ∀ l ∈ before, l.Uniform := fun l hl => hls l (List.mem_append_left _ hl)
        rw [find?_of_written hc hf hx] at h
        obtain rfl := Option.some.inj h
        unfold ofCall?
        rw [if_pos ⟨(Lexeme.isName_iff.mp hf).2, rfl⟩, (coefficient?_eq_some_iff hbefore).mpr hc]
        rfl

/-! ## Terms without a call -/

theorem exponential?_eq_some_iff {ls : List Lexeme} {s : Shape} :
    exponential? ls = some s ↔ s = .exponential ∧ Written ls .exponential := by
  constructor
  · intro h
    unfold exponential? at h
    split at h
    · split at h
      · next hkinds =>
        obtain rfl := Option.some.inj h
        exact ⟨rfl, .exponential hkinds.1 hkinds.2.1 hkinds.2.2⟩
      · simp at h
    · simp at h
  · rintro ⟨rfl, hw⟩
    cases hw with
    | exponential he hcaret hx => exact if_pos ⟨he, hcaret, hx⟩

theorem not_isName_of_number {l : Lexeme} (h : l.kind = .number) (name : String) :
    l.isName name = false := by
  rw [← Bool.not_eq_true, Lexeme.isName_iff, h]
  exact nofun

theorem monomial?_of_written {before after : List Lexeme} {x : Lexeme} {c : Binary64}
    (hc : Coefficient before c) (hx : x.isName "x") :
    monomial? (before ++ x :: after) = (coefficient? before).bind fun c =>
      (power? after).bind fun n => some (.monomial c n) := by
  have hnot : ∀ l ∈ before, (!l.isName "x") = true := by
    intro l hl
    rw [not_isName_of_number (hc.kind_eq l hl), Bool.not_false]
  have hdrop : (before ++ x :: after).dropWhile (!·.isName "x") = x :: after := by
    rw [List.dropWhile_append_of_pos hnot]
    exact List.dropWhile_cons_of_neg (by simp [hx])
  have htake : (before ++ x :: after).takeWhile (!·.isName "x") = before := by
    rw [List.takeWhile_append_of_pos hnot, List.takeWhile_cons_of_neg (by simp [hx]),
      List.append_nil]
  unfold monomial?
  rw [hdrop, htake]
  rfl

theorem exponential?_of_monomial {before after : List Lexeme} {x : Lexeme} {c : Binary64}
    (hc : Coefficient before c) (hx : x.isName "x") :
    exponential? (before ++ x :: after) = none := by
  have hnone {l : Lexeme} (ls : List Lexeme) (hl : l.isName "e" = false) :
      exponential? (l :: ls) = none := by
    unfold exponential?
    split
    · next heq =>
      obtain ⟨rfl, -⟩ := List.cons.inj heq
      rw [if_neg (by simp [hl])]
    · rfl
  cases hc with
  | absent =>
    refine hnone _ ?_
    rw [← Bool.not_eq_true, Lexeme.isName_iff, (Lexeme.isName_iff.mp hx).2]
    exact fun h => absurd h.2 (by decide)
  | numeral hl _ => exact hnone _ (not_isName_of_number hl.1 _)

theorem written_of_monomial? {ls : List Lexeme} (hls : ∀ l ∈ ls, l.Uniform) {s : Shape}
    (h : monomial? ls = some s) : Written ls s := by
  have hsplit := List.takeWhile_append_dropWhile (p := (!·.isName "x")) (l := ls)
  unfold monomial? at h
  split at h
  · simp at h
  · next x after hdrop =>
    have hx : x.isName "x" := by
      have hhead := List.head?_dropWhile_not (!Lexeme.isName "x" ·) ls
      rw [hdrop] at hhead
      simpa using hhead
    rw [hdrop] at hsplit
    obtain ⟨c, hc, h⟩ := Option.bind_eq_some_iff.mp h
    obtain ⟨n, hn, h⟩ := Option.bind_eq_some_iff.mp h
    obtain rfl := Option.some.inj h
    rw [← hsplit] at hls ⊢
    refine .monomial ((coefficient?_eq_some_iff fun l hl => hls l ?_).mp hc) hx
      ((power?_eq_some_iff fun l hl => hls l ?_).mp hn)
    · exact List.mem_append_left _ hl
    · exact List.mem_append_right _ (List.mem_cons_of_mem _ hl)

theorem written_of_constant? {ls : List Lexeme} (hls : ∀ l ∈ ls, l.Uniform) {s : Shape}
    (h : constant? ls = some s) : Written ls s := by
  unfold constant? at h
  split at h
  · next l =>
    split at h
    · next hk =>
      obtain ⟨c, hc, rfl⟩ := Option.map_eq_some_iff.mp h
      have hl := numeral_eq_some_iff (hls l List.mem_cons_self) (c := c)
      rw [if_pos hk] at hl
      exact .constant (hl.mp hc).1 (hl.mp hc).2
    · simp at h
  · simp at h

theorem constant?_of_written {l : Lexeme} (hl : l.Uniform) {c : Binary64} (hn : l.IsNumeral)
    (hc : c.Rounds (Numeral.value l.chars)) : constant? [l] = some (.constant c) := by
  have hread := (numeral_eq_some_iff hl).mpr ⟨hn, hc⟩
  rw [if_pos hn.1] at hread
  change (if l.kind = .number then (Numeral.read? l.chars).map constant else none) = _
  rw [if_pos hn.1, hread, Option.map_some]

/-- The shape of a term without a call. -/
def uncalled? (ls : List Lexeme) : Option Shape :=
  exponential? ls <|> monomial? ls <|> constant? ls

/-- **The shape of a term without a call is the one that its lexemes write.** -/
theorem uncalled?_eq_some_iff {ls : List Lexeme} (hls : ∀ l ∈ ls, l.Uniform)
    (hcall : ¬ HasCall ls) {s : Shape} : uncalled? ls = some s ↔ Written ls s := by
  unfold uncalled?
  simp only [Option.orElse_eq_orElse, Option.orElse_eq_or, Option.or_eq_some_iff]
  constructor
  · rintro (h | ⟨-, h | ⟨-, h⟩⟩)
    · obtain ⟨rfl, hw⟩ := exponential?_eq_some_iff.mp h
      exact hw
    · exact written_of_monomial? hls h
    · exact written_of_constant? hls h
  · intro hw
    have hw' := hw
    cases hw with
    | trigonometric => exact absurd hw'.hasCall hcall
    | exponential => exact .inl (exponential?_eq_some_iff.mpr ⟨rfl, hw'⟩)
    | @monomial before after x c n hc hx hn =>
      have hbefore : ∀ l ∈ before, l.Uniform := fun l hl => hls l (List.mem_append_left _ hl)
      have hafter : ∀ l ∈ after, l.Uniform := fun l hl =>
        hls l (List.mem_append_right _ (List.mem_cons_of_mem _ hl))
      refine .inr ⟨exponential?_of_monomial hc hx, .inl ?_⟩
      rw [monomial?_of_written hc hx, (coefficient?_eq_some_iff hbefore).mpr hc,
        (power?_eq_some_iff hafter).mpr hn]
      rfl
    | @constant l c hl hc =>
      refine .inr ⟨rfl, .inr ⟨?_, constant?_of_written (hls l List.mem_cons_self) hl hc⟩⟩
      unfold monomial?
      rw [List.dropWhile_cons_of_pos (by rw [not_isName_of_number hl.1, Bool.not_false])]
      rfl

end Shape

/-! ## Terms -/

namespace Term

/-- The lexemes of a term that mean something. -/
def lexemes (t : Term) : List Lexeme := Lexeme.significant t.text.toList

theorem uniform_lexemes (t : Term) : ∀ l ∈ t.lexemes, l.Uniform := fun _ =>
  Lexeme.uniform_of_mem_significant

theorem classify_of_call {t : Term} {call : TrigCall} (h : TrigCall.find? t.lexemes = some call) :
    t.classify =
      (Shape.ofCall? call).elim (.error ⟨.invalidTrigTerm t.text, [t.span]⟩) .ok := by
  unfold lexemes at h
  unfold classify
  cases hcall : Shape.ofCall? call <;> simp only [h, hcall, Option.elim_none, Option.elim_some]

theorem classify_of_no_call {t : Term} (h : TrigCall.find? t.lexemes = none) :
    t.classify = (Shape.uncalled? t.lexemes).elim
      (.error ⟨.unsupportedTerm t.text (Shape.suggestions t.lexemes), [t.span]⟩) .ok := by
  have hfold (ls : List Lexeme) : (Shape.exponential? ls <|> Shape.monomial? ls <|>
      Shape.constant? ls) = Shape.uncalled? ls := rfl
  unfold lexemes at h ⊢
  unfold classify
  cases hshape : Shape.uncalled? (Lexeme.significant t.text.toList) <;>
    simp only [h, hfold, hshape, Option.elim_none, Option.elim_some]

/-- The shape of a term is the one that its lexemes write. -/
theorem classify_eq_ok_iff {t : Term} {s : Shape} :
    t.classify = .ok s ↔ Written t.lexemes s := by
  cases hfind : TrigCall.find? t.lexemes with
  | some call =>
    rw [classify_of_call hfind, ← Shape.ofCall?_eq_some_iff t.uniform_lexemes hfind]
    cases Shape.ofCall? call <;> simp
  | none =>
    rw [classify_of_no_call hfind,
      ← Shape.uncalled?_eq_some_iff t.uniform_lexemes (TrigCall.find?_eq_none_iff.mp hfind)]
    cases Shape.uncalled? t.lexemes <;> simp

theorem not_written_of_error {t : Term} {fault : Fault} (h : t.classify = .error fault)
    (s : Shape) : ¬ Written t.lexemes s := fun hs => by
  rw [classify_eq_ok_iff.mpr hs] at h
  cases h

theorem classify_of_hasCall {t : Term} (hcall : HasCall t.lexemes)
    (hs : ∀ s, ¬ Written t.lexemes s) :
    t.classify = .error ⟨.invalidTrigTerm t.text, [t.span]⟩ := by
  obtain ⟨call, hfind⟩ := TrigCall.exists_find?_iff.mpr hcall
  rw [classify_of_call hfind]
  cases h : Shape.ofCall? call with
  | some s => exact absurd ((Shape.ofCall?_eq_some_iff t.uniform_lexemes hfind).mp h) (hs s)
  | none => rfl

theorem classify_of_not_hasCall {t : Term} (hcall : ¬ HasCall t.lexemes)
    (hs : ∀ s, ¬ Written t.lexemes s) : t.classify =
      .error ⟨.unsupportedTerm t.text (Shape.suggestions t.lexemes), [t.span]⟩ := by
  rw [classify_of_no_call (TrigCall.find?_eq_none_iff.mpr hcall)]
  cases h : Shape.uncalled? t.lexemes with
  | some s =>
    exact absurd ((Shape.uncalled?_eq_some_iff t.uniform_lexemes hcall).mp h) (hs s)
  | none => rfl

theorem not_written_iff {ls : List Lexeme} (hcall : HasCall ls) :
    (∀ s, ¬ Written ls s) ↔ ∀ f c, ¬ Written ls (.trigonometric f c) := by
  refine ⟨fun h f c => h _, fun h s hs => ?_⟩
  refine hs.not_hasCall (fun f c heq => ?_) hcall
  rw [heq] at hs
  exact h f c hs

/-- **A term is classified by the grammar of its lexemes**, and its fault depends on whether there
is a call among them. -/
theorem classify_grammar (t : Term) :
    (∀ s, t.classify = .ok s ↔ Written t.lexemes s) ∧
    (∀ text spans, t.classify = .error ⟨.invalidTrigTerm text, spans⟩ ↔
      ((∀ f c, ¬ Written t.lexemes (.trigonometric f c)) ∧ HasCall t.lexemes) ∧
        text = t.text ∧ spans = [t.span]) ∧
    (∀ text spans, (∃ names, t.classify = .error ⟨.unsupportedTerm text names, spans⟩) ↔
      ((∀ s, ¬ Written t.lexemes s) ∧ ¬ HasCall t.lexemes) ∧
        text = t.text ∧ spans = [t.span]) := by
  refine ⟨fun s => classify_eq_ok_iff, fun text spans => ⟨fun h => ?_, ?_⟩,
    fun text spans => ⟨?_, ?_⟩⟩
  · have hs := not_written_of_error h
    by_cases hcall : HasCall t.lexemes
    · rw [classify_of_hasCall hcall hs] at h
      injection h with h
      injection h with htext hspans
      injection htext with htext
      exact ⟨⟨fun f c => hs _, hcall⟩, htext.symm, hspans.symm⟩
    · rw [classify_of_not_hasCall hcall hs] at h
      injection h with h
      injection h with hcause
      cases hcause
  · rintro ⟨⟨htrig, hcall⟩, rfl, rfl⟩
    exact classify_of_hasCall hcall ((not_written_iff hcall).mpr htrig)
  · rintro ⟨names, h⟩
    have hs := not_written_of_error h
    by_cases hcall : HasCall t.lexemes
    · rw [classify_of_hasCall hcall hs] at h
      injection h with h
      injection h with hcause
      cases hcause
    · rw [classify_of_not_hasCall hcall hs] at h
      injection h with h
      injection h with htext hspans
      injection htext with htext
      exact ⟨⟨hs, hcall⟩, htext.symm, hspans.symm⟩
  · rintro ⟨⟨hs, hcall⟩, rfl, rfl⟩
    exact ⟨_, classify_of_not_hasCall hcall hs⟩

end Term

end Fluxion
