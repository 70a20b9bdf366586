import Fluxion.Lexeme

/-!
# The lexemes of a text

* `Lexeme.Uniform`: a lexeme has characters, and all of them are of its kind.
* `Lexeme.flatMap_scan`: no character of a text is lost or moved.
* **`Lexeme.uniform_of_mem_scan`**: every lexeme of a text is uniform.
-/

namespace Fluxion

namespace LexemeKind

theorem isDigit_or_of_ofChar {c : Char} (h : ofChar c = .number) : c.isDigit ∨ c = '.' := by
  unfold ofChar at h
  grind

theorem ofChar_of_isDigit_or {c : Char} (h : c.isDigit ∨ c = '.') : ofChar c = .number := by
  have hne (d : Char) (hd : ¬ (d.isDigit ∨ d = '.')) : c ≠ d := fun heq => hd (heq ▸ h)
  unfold ofChar
  simp only [hne ' ' (by decide), hne '\t' (by decide), hne '\n' (by decide), hne '\r' (by decide),
    hne '+' (by decide), hne '-' (by decide), hne '^' (by decide), hne '=' (by decide),
    hne '(' (by decide), hne ')' (by decide), or_self, if_false, h, if_true]

end LexemeKind

namespace Lexeme

/-- The lexeme has characters, and the kind of each of them is its own. -/
structure Uniform (l : Lexeme) : Prop where
  ne_nil : l.chars ≠ []
  ofChar_eq : ∀ c ∈ l.chars, LexemeKind.ofChar c = l.kind

theorem uniform_single (c : Char) : Uniform ⟨.ofChar c, [c]⟩ where
  ne_nil := List.cons_ne_nil c []
  ofChar_eq := fun _ hd => congrArg LexemeKind.ofChar (List.mem_singleton.mp hd)

theorem Uniform.cons {l : Lexeme} (h : l.Uniform) {c : Char} (hc : l.kind = .ofChar c) :
    Uniform ⟨l.kind, c :: l.chars⟩ where
  ne_nil := List.cons_ne_nil c _
  ofChar_eq := fun d hd => by
    rcases List.mem_cons.mp hd with rfl | hd
    · exact hc.symm
    · exact h.ofChar_eq d hd

theorem Uniform.isDigit_or {l : Lexeme} (h : l.Uniform) (hk : l.kind = .number) :
    ∀ c ∈ l.chars, c.isDigit ∨ c = '.' := fun c hc =>
  LexemeKind.isDigit_or_of_ofChar ((h.ofChar_eq c hc).trans hk)

theorem attach_cons (c : Char) (l : Lexeme) (ls : List Lexeme) :
    attach c (l :: ls) = if l.kind = .ofChar c ∧ l.kind.joins then ⟨l.kind, c :: l.chars⟩ :: ls
      else ⟨.ofChar c, [c]⟩ :: l :: ls := rfl

theorem flatMap_attach (c : Char) (ls : List Lexeme) :
    (attach c ls).flatMap (·.chars) = c :: ls.flatMap (·.chars) := by
  cases ls with
  | nil => rfl
  | cons l ls =>
    rw [attach_cons]
    split <;> rfl

theorem flatMap_scan (cs : List Char) : (scan cs).flatMap (·.chars) = cs := by
  induction cs with
  | nil => rfl
  | cons c cs ih => rw [scan_cons, flatMap_attach, ih]

theorem mem_of_mem_scan {cs : List Char} {l : Lexeme} (hl : l ∈ scan cs) {c : Char}
    (hc : c ∈ l.chars) : c ∈ cs := by
  rw [← flatMap_scan cs]
  exact List.mem_flatMap.mpr ⟨l, hl, hc⟩

theorem uniform_attach (c : Char) {ls : List Lexeme} (h : ∀ l ∈ ls, l.Uniform) :
    ∀ l ∈ attach c ls, l.Uniform := by
  cases ls with
  | nil =>
    intro l hl
    rw [List.mem_singleton.mp hl]
    exact uniform_single c
  | cons m ls =>
    obtain ⟨hm, hls⟩ := List.forall_mem_cons.mp h
    rw [attach_cons]
    split
    · next hjoin => exact List.forall_mem_cons.mpr ⟨hm.cons hjoin.1, hls⟩
    · exact List.forall_mem_cons.mpr ⟨uniform_single c, h⟩

/-- **Every lexeme of a text is uniform.** -/
theorem uniform_of_mem_scan {cs : List Char} : ∀ l ∈ scan cs, l.Uniform := by
  induction cs with
  | nil => exact fun _ hl => absurd hl List.not_mem_nil
  | cons c cs ih => exact uniform_attach c ih

theorem uniform_of_mem_significant {cs : List Char} {l : Lexeme} (h : l ∈ significant cs) :
    l.Uniform := uniform_of_mem_scan l (List.mem_filter.mp h).1

end Lexeme

end Fluxion
