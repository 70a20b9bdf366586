import Fluxion.Lexeme.Rule
import Fluxion.Proofs.Lexeme.Scan
import Mathlib.Data.List.TakeWhile

/-!
# The rules cut every text

The rules of two kinds are for different characters, that of symbols apart, and that one gives way
to every other. So the kind of the first character decides which rule wins. As every character has
a kind, some rule always does, and a text is read to its end.

* `LexemeKind.accepts_iff`, `LexemeKind.Covers`: the characters of a kind.
* `LexemeKind.wins_cons_iff`: the rule that wins.
* **`Lexeme.munch_eq`**: the rules cut a text into its lexemes.
-/

namespace Fluxion

namespace LexemeKind

/-! ## The characters of a kind -/

theorem isAlpha_iff {c : Char} : c.isAlpha ↔ 'A' ≤ c ∧ c ≤ 'Z' ∨ 'a' ≤ c ∧ c ≤ 'z' := by
  change (decide ('A' ≤ c ∧ c ≤ 'Z') || (decide ('a' ≤ c) && decide (c ≤ 'z'))) = true ↔ _
  simp only [Bool.or_eq_true, Bool.and_eq_true, decide_eq_true_eq]

theorem not_isDigit_of_isAlpha {c : Char} (h : c.isAlpha) : ¬ c.isDigit := by
  have hletter : 65 ≤ c.toNat ∧ c.toNat ≤ 90 ∨ 97 ≤ c.toNat ∧ c.toNat ≤ 122 := isAlpha_iff.mp h
  rw [Char.isDigit_iff_toNat]
  change ¬ (48 ≤ c.toNat ∧ c.toNat ≤ 57)
  omega

theorem ofChar_of_isAlpha_or {c : Char} (h : c.isAlpha ∨ c = '_') : ofChar c = .name := by
  have hne (d : Char) (hd : ¬ (d.isAlpha ∨ d = '_')) : c ≠ d := fun heq => hd (heq ▸ h)
  have hdigit : ¬ (c.isDigit ∨ c = '.') := by
    rcases h with h | rfl
    · exact not_or.mpr ⟨not_isDigit_of_isAlpha h, hne '.' (by decide)⟩
    · decide
  unfold ofChar
  simp only [hne ' ' (by decide), hne '\t' (by decide), hne '\n' (by decide), hne '\r' (by decide),
    hne '+' (by decide), hne '-' (by decide), hne '^' (by decide), hne '=' (by decide),
    hne '(' (by decide), hne ')' (by decide), or_self, if_false, hdigit, h, if_true]

theorem accepts_number (c : Char) : accepts .number c ↔ c.isDigit ∨ c = '.' := by
  simp [accepts, Char.isDigit, Char.le_def]

theorem accepts_name (c : Char) : accepts .name c ↔ c.isAlpha ∨ c = '_' := by
  simp only [accepts, isAlpha_iff, Bool.or_eq_true, Bool.and_eq_true, decide_eq_true_eq]
  rw [or_comm (a := 'a' ≤ c ∧ _)]

theorem accepts_iff {k : LexemeKind} (hk : k ≠ .symbol) (c : Char) :
    k.accepts c ↔ ofChar c = k := by
  cases k with
  | symbol => exact absurd rfl hk
  | number =>
    rw [accepts_number]
    exact ⟨ofChar_of_isDigit_or, isDigit_or_of_ofChar⟩
  | name =>
    rw [accepts_name]
    refine ⟨ofChar_of_isAlpha_or, fun h => ?_⟩
    unfold ofChar at h
    grind
  | _ =>
    unfold accepts ofChar
    grind

theorem accepts_ofChar (c : Char) : (ofChar c).accepts c := by
  by_cases hk : ofChar c = .symbol
  · rw [hk]
    refine decide_eq_true fun hc => ?_
    rw [hc] at hk
    exact absurd hk (by decide)
  · exact (accepts_iff hk c).mpr rfl

/-- The characters of a kind. A symbol is a character that no other rule is for. -/
def Covers (k : LexemeKind) (c : Char) : Prop :=
  if k = .symbol then ∀ m ≠ symbol, m.accepts c = false else k.accepts c

theorem covers_iff {k : LexemeKind} {c : Char} : k.Covers c ↔ ofChar c = k := by
  unfold Covers
  split
  · next hk =>
    subst hk
    constructor
    · intro h
      by_contra hne
      have hnot := h _ hne
      rw [accepts_ofChar c] at hnot
      exact nomatch hnot
    · intro h m hm
      refine Bool.eq_false_iff.mpr fun haccepts => hm ?_
      rw [← (accepts_iff hm c).mp haccepts, h]
  · next hk => exact accepts_iff hk c

/-! ## The rule that wins -/

theorem matched_cons_of_accepts {k : LexemeKind} {c : Char} (h : k.accepts c) (cs : List Char) :
    k.matched (c :: cs) = c :: if k.joins then cs.takeWhile k.accepts else [] := by
  unfold matched
  cases k.joins
  · exact List.takeWhile_cons_of_pos h
  · exact List.takeWhile_cons_of_pos h

theorem matched_cons_of_not {k : LexemeKind} {c : Char} (h : ¬ k.accepts c) (cs : List Char) :
    k.matched (c :: cs) = [] := by
  unfold matched
  cases k.joins
  · exact List.takeWhile_cons_of_neg h
  · exact List.takeWhile_cons_of_neg h

theorem length_matched_symbol_le (cs : List Char) : (symbol.matched cs).length ≤ 1 :=
  (List.takeWhile_prefix _).length_le.trans (List.length_take_le 1 cs)

theorem beats_iff {cs : List Char} {k m : LexemeKind} : k.beats cs m ↔
    (m.matched cs).length < (k.matched cs).length ∨
      (m.matched cs).length = (k.matched cs).length ∧ m.priority < k.priority := by
  simp only [beats, Bool.or_eq_true, Bool.and_eq_true, decide_eq_true_eq]

theorem beats_asymm {cs : List Char} {k m : LexemeKind} (h : k.beats cs m) : ¬ m.beats cs k := by
  rw [beats_iff] at h ⊢
  omega

theorem mem_all (k : LexemeKind) : k ∈ all := by cases k <;> decide

theorem priority_lt {k : LexemeKind} (hk : k ≠ .symbol) : symbol.priority < k.priority := by
  cases k <;> first | exact absurd rfl hk | decide

/-- The kind of a character beats the others there. -/
theorem ofChar_beats (c : Char) (cs : List Char) {m : LexemeKind} (hm : m ≠ ofChar c) :
    (ofChar c).beats (c :: cs) m := by
  have hmatched := matched_cons_of_accepts (accepts_ofChar c) cs
  rw [beats_iff, hmatched, List.length_cons]
  by_cases haccepts : m.accepts c
  · have hsymbol : m = .symbol := by
      by_contra hne
      exact hm ((accepts_iff hne c).mp haccepts).symm
    subst hsymbol
    have hle := length_matched_symbol_le (c :: cs)
    have hpriority := priority_lt hm.symm
    omega
  · rw [matched_cons_of_not haccepts]
    exact .inl (Nat.succ_pos _)

theorem wins_cons_iff {c : Char} {cs : List Char} {k : LexemeKind} :
    k.wins (c :: cs) ↔ k = ofChar c := by
  rw [wins_iff]
  constructor
  · rintro ⟨-, hall⟩
    by_contra hne
    rcases hall _ (mem_all (ofChar c)) with heq | hbeats
    · exact hne heq.symm
    · exact beats_asymm (ofChar_beats c cs hne) hbeats
  · rintro rfl
    refine ⟨?_, fun m _ => ?_⟩
    · rw [matched_cons_of_accepts (accepts_ofChar c)]
      exact List.cons_ne_nil c _
    · by_cases hm : m = ofChar c
      · exact .inl hm
      · exact .inr (ofChar_beats c cs hm)

end LexemeKind

namespace Lexeme

open LexemeKind

/-! ## One lexeme after the other -/

theorem next?_nil : next? [] = none := by
  cases h : next? [] with
  | none => rfl
  | some l => exact absurd (next?_pos h).2 (Nat.lt_irrefl 0)

theorem next?_cons (c : Char) (cs : List Char) :
    next? (c :: cs) = some ⟨.ofChar c, (LexemeKind.ofChar c).matched (c :: cs)⟩ := by
  have hfind : LexemeKind.all.find? (·.wins (c :: cs)) = some (.ofChar c) := by
    cases h : LexemeKind.all.find? (·.wins (c :: cs)) with
    | none =>
      have hnot := List.find?_eq_none.mp h _ (mem_all (.ofChar c))
      exact absurd (wins_cons_iff.mpr rfl) hnot
    | some k => rw [wins_cons_iff.mp (List.find?_some h)]
  rw [next?, hfind, Option.map_some]

theorem kind_of_mem_head?_scan {cs : List Char} {m : Lexeme} (h : m ∈ (scan cs).head?) :
    ∃ c ∈ cs.head?, m.kind = .ofChar c := by
  cases cs with
  | nil => exact nomatch h
  | cons c cs =>
    refine ⟨c, rfl, ?_⟩
    rw [scan_cons] at h
    cases hscan : scan cs with
    | nil =>
      rw [hscan] at h
      rw [← Option.some.inj h]
    | cons l ls =>
      rw [hscan, attach_cons] at h
      split at h
      · next hjoin =>
        rw [← Option.some.inj h]
        exact hjoin.1
      · rw [← Option.some.inj h]

theorem exists_matched_append {k : LexemeKind} (hk : k.joins) (cs : List Char) :
    ∃ rest, cs = k.matched cs ++ rest ∧ ∀ d ∈ rest.head?, ¬ k.accepts d := by
  refine ⟨cs.dropWhile k.accepts, ?_, fun d hd => ?_⟩
  · rw [matched, if_pos hk, List.takeWhile_append_dropWhile]
  · have hnot := List.head?_dropWhile_not k.accepts cs
    rw [Option.mem_def.mp hd] at hnot
    exact Bool.eq_false_iff.mp hnot

/-- What the winning rule matches is the first lexeme. -/
theorem scan_cons_eq (c : Char) (cs : List Char) :
    scan (c :: cs) = ⟨.ofChar c, (LexemeKind.ofChar c).matched (c :: cs)⟩ ::
      scan ((c :: cs).drop ((LexemeKind.ofChar c).matched (c :: cs)).length) := by
  have haccepts := accepts_ofChar c
  have hmatched := matched_cons_of_accepts haccepts cs
  cases hjoins : (LexemeKind.ofChar c).joins with
  | false =>
    rw [hmatched, hjoins]
    exact scan_cons_single hjoins cs
  | true =>
    have hsymbol : LexemeKind.ofChar c ≠ .symbol := fun h => by
      rw [h] at hjoins
      exact nomatch hjoins
    have hne : (LexemeKind.ofChar c).matched (c :: cs) ≠ [] := by
      rw [hmatched]
      exact List.cons_ne_nil c _
    have hkind : ∀ d ∈ (LexemeKind.ofChar c).matched (c :: cs), .ofChar d = LexemeKind.ofChar c :=
      fun d hd => by
        rw [matched, if_pos hjoins] at hd
        exact (accepts_iff hsymbol d).mp (List.mem_takeWhile_imp hd)
    obtain ⟨rest, hsplit, hrest⟩ := exists_matched_append hjoins (c :: cs)
    generalize (LexemeKind.ofChar c).matched (c :: cs) = run at *
    have hapart : ∀ m ∈ (scan rest).head?, Apart ⟨.ofChar c, run⟩ m := by
      intro m hm heq
      obtain ⟨d, hd, hm⟩ := kind_of_mem_head?_scan hm
      exact absurd ((accepts_iff hsymbol d).mpr (hm ▸ heq.symm)) (hrest d hd)
    rw [hsplit, List.drop_left, scan, List.foldr_append]
    exact foldr_attach_run hjoins hne hkind hapart

theorem munch_of_none {cs : List Char} (h : next? cs = none) : munch cs = [] := by
  rw [munch]
  split
  · rfl
  · next l hl => cases h.symm.trans hl

theorem munch_of_some {cs : List Char} {l : Lexeme} (h : next? cs = some l) :
    munch cs = l :: munch (cs.drop l.chars.length) := by
  rw [munch]
  split
  · next hnone => cases h.symm.trans hnone
  · next m hm =>
    obtain rfl := Option.some.inj (hm.symm.trans h)
    rfl

/-- **The rules cut a text into its lexemes**, and so to its end. -/
theorem munch_eq (cs : List Char) : munch cs = scan cs := by
  induction cs using munch.induct with
  | case1 cs h =>
    cases cs with
    | nil => exact munch_of_none h
    | cons c cs =>
      rw [next?_cons] at h
      exact nomatch h
  | case2 cs l h _ ih =>
    cases cs with
    | nil =>
      rw [next?_nil] at h
      exact nomatch h
    | cons c cs =>
      rw [munch_of_some h, ih, scan_cons_eq]
      rw [next?_cons] at h
      obtain rfl := Option.some.inj h
      rfl

end Lexeme

end Fluxion
