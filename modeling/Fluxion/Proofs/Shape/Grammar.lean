import Fluxion.Proofs.Lexeme
import Fluxion.Proofs.Number.Reading
import Fluxion.Shape.Classify

/-!
# The grammar of terms

What the lexemes of a term have to be for each shape, stated without any search among them.

* `Lexeme.IsNumeral`, `Lexeme.IsNatural`: the lexemes that write numbers.
* `Grammar.Coefficient`, `Grammar.Power`, `Grammar.Argument`: the parts of a term.
* `Grammar.Written`: the lexemes that write a shape.
* `Grammar.HasCall`: lexemes with a call of a trigonometric function somewhere.
* `Shape.coefficient?_eq_some_iff`, `Shape.power?_eq_some_iff`: the parts are recognised exactly
  where the grammar has them.
* **`TrigCall.exists_find?_iff`**: a call is found exactly if there is one.
-/

namespace Fluxion

namespace Lexeme

theorem isName_iff {name : String} {l : Lexeme} :
    l.isName name ↔ l.kind = .name ∧ l.chars = name.toList := by
  simp [isName]

/-- The lexeme is a number with a digit and at most one point. -/
def IsNumeral (l : Lexeme) : Prop :=
  l.kind = .number ∧ (∃ c ∈ l.chars, c.isDigit) ∧ l.chars.count '.' ≤ 1

/-- The natural number that digits write. -/
def natural (l : Lexeme) : ℕ := Nat.ofDigitChars 10 l.chars 0

/-- The lexeme is a number of digits alone, and fits into 31 bits. -/
def IsNatural (l : Lexeme) : Prop :=
  l.kind = .number ∧ (∀ c ∈ l.chars, c.isDigit) ∧ l.natural ≤ 2 ^ 31 - 1

end Lexeme

namespace Grammar

/-- What stands in front of `x` or of a call: a numeral or nothing. -/
inductive Coefficient : List Lexeme → Binary64 → Prop where
  | absent : Coefficient [] .one
  | numeral {l : Lexeme} {c : Binary64} (hl : l.IsNumeral) (hc : c.Rounds (Numeral.value l.chars)) :
      Coefficient [l] c

/-- What stands after `x`: a power that may be negative, or nothing for `1`. -/
inductive Power : List Lexeme → ℤ → Prop where
  | absent : Power [] 1
  | positive {caret l : Lexeme} (hcaret : caret.kind = .caret) (hl : l.IsNatural) :
      Power [caret, l] l.natural
  | negative {caret minus l : Lexeme} (hcaret : caret.kind = .caret) (hminus : minus.kind = .minus)
      (hl : l.IsNatural) : Power [caret, minus, l] (-l.natural)

theorem power_nil_iff {z : ℤ} : Power [] z ↔ z = 1 := by
  constructor
  · rintro ⟨⟩
    rfl
  · rintro rfl
    exact .absent

theorem power_positive_iff {caret l : Lexeme} {z : ℤ} :
    Power [caret, l] z ↔ caret.kind = .caret ∧ l.IsNatural ∧ z = l.natural := by
  constructor
  · rintro ⟨⟩
    next hcaret hl => exact ⟨hcaret, hl, rfl⟩
  · rintro ⟨hcaret, hl, rfl⟩
    exact .positive hcaret hl

theorem power_negative_iff {caret minus l : Lexeme} {z : ℤ} : Power [caret, minus, l] z ↔
    caret.kind = .caret ∧ minus.kind = .minus ∧ l.IsNatural ∧ z = -l.natural := by
  constructor
  · rintro ⟨⟩
    next hcaret hminus hl => exact ⟨hcaret, hminus, hl, rfl⟩
  · rintro ⟨hcaret, hminus, hl, rfl⟩
    exact .negative hcaret hminus hl

/-- The argument `(x)` of a call. -/
inductive Argument : List Lexeme → Prop where
  | intro {paren x close : Lexeme} (hparen : paren.kind = .openParen) (hx : x.isName "x")
      (hclose : close.kind = .closeParen) : Argument [paren, x, close]

/-- The lexemes write the shape. -/
inductive Written : List Lexeme → Shape → Prop where
  | trigonometric {before argument : List Lexeme} {callee : Lexeme} {f : TrigFunction}
      {c : Binary64} (hc : Coefficient before c) (hf : callee.isName f.name)
      (hx : Argument argument) : Written (before ++ callee :: argument) (.trigonometric f c)
  | exponential {e caret x : Lexeme} (he : e.isName "e") (hcaret : caret.kind = .caret)
      (hx : x.isName "x") : Written [e, caret, x] .exponential
  | monomial {before after : List Lexeme} {x : Lexeme} {c : Binary64} {n : Int32}
      (hc : Coefficient before c) (hx : x.isName "x") (hn : Power after n.toInt) :
      Written (before ++ x :: after) (.monomial c n)
  | constant {l : Lexeme} {c : Binary64} (hl : l.IsNumeral)
      (hc : c.Rounds (Numeral.value l.chars)) : Written [l] (.constant c)

/-- The name ends in the name of the function. -/
def Calls (callee : Lexeme) (f : TrigFunction) : Prop :=
  callee.kind = .name ∧ f.name.toList <:+ callee.chars

/-- Somewhere a name that ends in the name of a function stands in front of `(x)`. -/
def HasCall (ls : List Lexeme) : Prop :=
  ∃ before callee argument after, ls = before ++ callee :: (argument ++ after) ∧
    (∃ f, Calls callee f) ∧ Argument argument

end Grammar

/-! ## Numbers -/

namespace Shape

open Grammar

/-- A numeral is read, correctly rounded, and nothing else is. -/
theorem numeral_eq_some_iff {l : Lexeme} (hl : l.Uniform) {c : Binary64} :
    (if l.kind = .number then Numeral.read? l.chars else none) = some c ↔
      l.IsNumeral ∧ c.Rounds (Numeral.value l.chars) := by
  unfold Lexeme.IsNumeral
  by_cases hk : l.kind = .number
  · rw [if_pos hk, Numeral.read?_eq_some_iff (hl.isDigit_or hk)]
    simp only [hk, true_and, and_assoc]
  · rw [if_neg hk]
    simp only [hk, false_and, reduceCtorEq]

theorem coefficient?_eq_some_iff {ls : List Lexeme} (hls : ∀ l ∈ ls, l.Uniform) {c : Binary64} :
    coefficient? ls = some c ↔ Coefficient ls c := by
  match ls, hls with
  | [], _ =>
    constructor
    · intro h
      rw [← Option.some.inj h]
      exact .absent
    · rintro ⟨⟩
      rfl
  | [l], hls =>
    change (if l.kind = .number then Numeral.read? l.chars else none) = some c ↔ _
    rw [numeral_eq_some_iff (hls l List.mem_cons_self)]
    constructor
    · rintro ⟨hl, hc⟩
      exact .numeral hl hc
    · rintro ⟨⟩
      next hl hc => exact ⟨hl, hc⟩
  | _ :: _ :: _, _ =>
    constructor
    · intro h
      exact absurd h (by simp [coefficient?])
    · rintro ⟨⟩

theorem exponent?_eq_some_iff {l : Lexeme} (hl : l.Uniform) {n : Int32} :
    exponent? l = some n ↔ l.IsNatural ∧ n.toInt = l.natural := by
  have hfits : l.natural ≤ 2 ^ 31 - 1 ↔ l.natural < 2 ^ 31 := by omega
  unfold exponent? Numeral.readNat? Lexeme.IsNatural
  rw [hfits]
  by_cases hk : l.kind = .number
  · by_cases hdigits : ∀ c ∈ l.chars, c.isDigit
    · rw [if_pos hk, if_pos ⟨hl.ne_nil, List.all_eq_true.mpr hdigits⟩, Option.bind_some]
      change (if l.natural < 2 ^ 31 then some (Int32.ofNat l.natural) else none) = some n ↔ _
      by_cases hlt : l.natural < 2 ^ 31
      · rw [if_pos hlt, Option.some.injEq, ← Int32.toInt_inj, Int32.toInt_ofNat_of_lt hlt]
        exact ⟨fun h => ⟨⟨hk, hdigits, hlt⟩, h.symm⟩, fun h => h.2.symm⟩
      · simp [hlt]
    · have hall : ¬ l.chars.all Char.isDigit := fun h => hdigits (List.all_eq_true.mp h)
      simp [hall, hdigits]
  · simp [hk]

theorem toInt_neg_of_lt {m : Int32} (h : -2 ^ 31 < m.toInt) : (-m).toInt = -m.toInt := by
  have hlt := m.toInt_lt
  rw [Int32.toInt_neg, Int.bmod_eq_of_le] <;> omega

theorem power?_eq_some_iff {ls : List Lexeme} (hls : ∀ l ∈ ls, l.Uniform) {n : Int32} :
    power? ls = some n ↔ Power ls n.toInt := by
  match ls, hls with
  | [], _ =>
    rw [power_nil_iff, ← Int32.toInt_one, Int32.toInt_inj]
    exact Option.some_inj.trans eq_comm
  | [caret, l], hls =>
    change (if caret.kind = .caret then exponent? l else none) = some n ↔ _
    rw [power_positive_iff]
    by_cases hcaret : caret.kind = .caret
    · rw [if_pos hcaret, exponent?_eq_some_iff (hls l (by simp))]
      exact (and_iff_right hcaret).symm
    · rw [if_neg hcaret]
      exact iff_of_false nofun fun h => hcaret h.1
  | [caret, minus, l], hls =>
    change (if caret.kind = .caret ∧ minus.kind = .minus then (exponent? l).map (-·) else none) =
      some n ↔ _
    rw [power_negative_iff]
    by_cases hkinds : caret.kind = .caret ∧ minus.kind = .minus
    · rw [if_pos hkinds, Option.map_eq_some_iff]
      simp only [exponent?_eq_some_iff (hls l (by simp))]
      constructor
      · rintro ⟨m, ⟨hl, hm⟩, rfl⟩
        exact ⟨hkinds.1, hkinds.2, hl, by rw [toInt_neg_of_lt (by omega), hm]⟩
      · rintro ⟨-, -, hl, hn⟩
        have hle := hl.2.2
        have hneg : (-n).toInt = l.natural := by
          rw [toInt_neg_of_lt (by omega), hn, Int.neg_neg]
        exact ⟨-n, ⟨hl, hneg⟩, Int32.neg_neg⟩
    · rw [if_neg hkinds]
      exact iff_of_false nofun fun h => hkinds ⟨h.1, h.2.1⟩
  | [_], _ => exact iff_of_false nofun nofun
  | _ :: _ :: _ :: _ :: _, _ => exact iff_of_false nofun nofun

end Shape

/-! ## Calls -/

namespace TrigCall

open Grammar

theorem afterArgument?_eq_some_iff {ls after : List Lexeme} :
    afterArgument? ls = some after ↔ ∃ argument, Argument argument ∧ ls = argument ++ after := by
  constructor
  · intro h
    unfold afterArgument? at h
    split at h
    · next paren x close rest =>
      split at h
      · next hkinds =>
        obtain rfl := Option.some.inj h
        exact ⟨[paren, x, close], .intro hkinds.1 hkinds.2.1 hkinds.2.2, rfl⟩
      · simp at h
    · simp at h
  · rintro ⟨_, ⟨hparen, hx, hclose⟩, rfl⟩
    exact if_pos ⟨hparen, hx, hclose⟩

theorem calls_of_function? {callee : Lexeme} {f : TrigFunction} (h : function? callee = some f) :
    Calls callee f := by
  unfold function? at h
  split at h
  · next hk =>
    have hf := List.find?_some h
    exact ⟨hk, List.isSuffixOf_iff_suffix.mp hf⟩
  · simp at h

theorem exists_function? {callee : Lexeme} {f : TrigFunction} (h : Calls callee f) :
    ∃ g, function? callee = some g := by
  have hf : f.name.toList.isSuffixOf callee.chars := List.isSuffixOf_iff_suffix.mpr h.2
  unfold function?
  rw [if_pos h.1, ← Option.isSome_iff_exists, List.find?_isSome]
  exact ⟨f, f.mem_all, hf⟩

theorem function?_of_isName {callee : Lexeme} {f : TrigFunction} (h : callee.isName f.name) :
    function? callee = some f := by
  obtain ⟨hk, hchars⟩ := Lexeme.isName_iff.mp h
  unfold function?
  rw [if_pos hk, hchars]
  cases f <;> decide

theorem function?_eq_none {l : Lexeme} (h : l.kind ≠ .name) : function? l = none := if_neg h

theorem find?_cons (l : Lexeme) (ls : List Lexeme) :
    find? (l :: ls) = match afterArgument? ls, function? l with
      | some after, some function => some ⟨[], l, function, after⟩
      | _, _ => (find? ls).map fun call => { call with before := l :: call.before } := rfl

theorem find?_eq_some {ls : List Lexeme} {call : TrigCall} (h : find? ls = some call) :
    Calls call.callee call.function ∧
      ∃ argument, Argument argument ∧
        ls = call.before ++ call.callee :: (argument ++ call.after) := by
  induction ls generalizing call with
  | nil => simp [find?] at h
  | cons l ls ih =>
    rw [find?_cons] at h
    split at h
    · next after function hafter hfunction =>
      obtain rfl := Option.some.inj h
      obtain ⟨argument, hargument, rfl⟩ := afterArgument?_eq_some_iff.mp hafter
      exact ⟨calls_of_function? hfunction, argument, hargument, rfl⟩
    · obtain ⟨call, hcall, rfl⟩ := Option.map_eq_some_iff.mp h
      obtain ⟨hcalls, argument, hargument, rfl⟩ := ih hcall
      exact ⟨hcalls, argument, hargument, rfl⟩

theorem exists_find?_cons {l : Lexeme} {ls : List Lexeme} (h : ∃ call, find? ls = some call) :
    ∃ call, find? (l :: ls) = some call := by
  rw [find?_cons]
  split
  · exact ⟨_, rfl⟩
  · obtain ⟨call, hcall⟩ := h
    rw [hcall]
    exact ⟨_, rfl⟩

/-- **A call is found exactly if there is one.** -/
theorem exists_find?_iff {ls : List Lexeme} : (∃ call, find? ls = some call) ↔ HasCall ls := by
  constructor
  · rintro ⟨call, h⟩
    obtain ⟨hcalls, argument, hargument, hls⟩ := find?_eq_some h
    exact ⟨_, _, _, _, hls, ⟨_, hcalls⟩, hargument⟩
  · rintro ⟨before, callee, argument, after, rfl, ⟨f, hcalls⟩, hargument⟩
    induction before with
    | nil =>
      obtain ⟨g, hg⟩ := exists_function? hcalls
      have hafter : afterArgument? (argument ++ after) = some after :=
        afterArgument?_eq_some_iff.mpr ⟨argument, hargument, rfl⟩
      rw [List.nil_append, find?_cons, hafter, hg]
      exact ⟨_, rfl⟩
    | cons l before ih => exact exists_find?_cons ih

theorem find?_eq_none_iff {ls : List Lexeme} : find? ls = none ↔ ¬ HasCall ls := by
  rw [← exists_find?_iff, not_exists, Option.eq_none_iff_forall_ne_some]

end TrigCall

/-! ## The four shapes -/

namespace Grammar

theorem Coefficient.kind_eq {ls : List Lexeme} {c : Binary64} (h : Coefficient ls c) :
    ∀ l ∈ ls, l.kind = .number := by
  cases h with
  | absent => exact fun _ hl => absurd hl List.not_mem_nil
  | numeral hl _ =>
    intro m hm
    rw [List.mem_singleton.mp hm]
    exact hl.1

theorem Power.kind_mem {ls : List Lexeme} {z : ℤ} (h : Power ls z) :
    ∀ l ∈ ls, l.kind ∈ [LexemeKind.caret, .minus, .number] := by
  cases h with
  | absent => exact fun _ hl => absurd hl List.not_mem_nil
  | positive hcaret hl => simp [hcaret, hl.1]
  | negative hcaret hminus hl => simp [hcaret, hminus, hl.1]

/-- The kinds of the lexemes that write terms. -/
def termKinds : List LexemeKind := [.number, .name, .caret, .minus, .openParen, .closeParen]

theorem Written.kind_mem {ls : List Lexeme} {s : Shape} (h : Written ls s) :
    ∀ l ∈ ls, l.kind ∈ termKinds := by
  have hname {l : Lexeme} {name : String} (hl : l.isName name) : l.kind = .name :=
    (Lexeme.isName_iff.mp hl).1
  have hkind : LexemeKind.name ∈ termKinds := by decide
  have hcoefficient {before : List Lexeme} {c : Binary64} (hc : Coefficient before c) :
      ∀ l ∈ before, l.kind ∈ termKinds := by
    intro l hl
    rw [hc.kind_eq l hl]
    decide
  cases h with
  | trigonometric hc hf hx =>
    refine List.forall_mem_append.mpr
      ⟨hcoefficient hc, List.forall_mem_cons.mpr ⟨(hname hf).symm ▸ hkind, ?_⟩⟩
    obtain ⟨hparen, hx, hclose⟩ := hx
    simp [hparen, hname hx, hclose, termKinds]
  | exponential he hcaret hx => simp [hname he, hcaret, hname hx, termKinds]
  | monomial hc hx hn =>
    refine List.forall_mem_append.mpr
      ⟨hcoefficient hc, List.forall_mem_cons.mpr ⟨(hname hx).symm ▸ hkind, ?_⟩⟩
    have hpower : [LexemeKind.caret, .minus, .number] ⊆ termKinds := by decide
    exact fun l hl => hpower (hn.kind_mem l hl)
  | constant hl _ => simp [hl.1, termKinds]

theorem HasCall.exists_openParen {ls : List Lexeme} (h : HasCall ls) :
    ∃ l ∈ ls, l.kind = .openParen := by
  obtain ⟨before, callee, _, after, rfl, -, hparen, -, -⟩ := h
  exact ⟨_, by simp, hparen⟩

theorem Written.not_hasCall {ls : List Lexeme} {s : Shape} (h : Written ls s)
    (hs : ∀ f c, s ≠ .trigonometric f c) : ¬ HasCall ls := by
  intro hcall
  obtain ⟨l, hl, hparen⟩ := hcall.exists_openParen
  cases h with
  | trigonometric => exact hs _ _ rfl
  | exponential he hcaret hx =>
    have hex := And.intro (Lexeme.isName_iff.mp he).1 (Lexeme.isName_iff.mp hx).1
    simp only [List.mem_cons, List.not_mem_nil, or_false] at hl
    rcases hl with rfl | rfl | rfl <;> simp_all
  | monomial hc hx hn =>
    rcases List.mem_append.mp hl with hl | hl
    · simp [hc.kind_eq l hl] at hparen
    · rcases List.mem_cons.mp hl with rfl | hl
      · simp [(Lexeme.isName_iff.mp hx).1] at hparen
      · have hkind := hn.kind_mem l hl
        rw [hparen] at hkind
        exact absurd hkind (by decide)
  | constant hl' _ =>
    rw [List.mem_singleton.mp hl, hl'.1] at hparen
    simp at hparen

theorem Written.hasCall {ls : List Lexeme} {f : TrigFunction} {c : Binary64}
    (h : Written ls (.trigonometric f c)) : HasCall ls := by
  obtain ⟨hc, hf, hx⟩ := h
  next before argument callee =>
    obtain ⟨hk, hchars⟩ := Lexeme.isName_iff.mp hf
    exact ⟨before, callee, argument, [], by rw [List.append_nil],
      ⟨f, hk, hchars ▸ List.suffix_refl _⟩, hx⟩

end Grammar

end Fluxion
