import Fluxion.Proofs.Lexeme
import Mathlib.Data.List.Chain

/-!
# Which lexemes a text has

A list of lexemes is the one that a text is cut into exactly if each lexeme is whole and no two
neighbours would have been read as one. Whether that holds can be seen from neighbours alone, so a
part of the lexemes of a text is what the part of the text is cut into.

* `Lexeme.Whole`, `Lexeme.Apart`, `Lexeme.IsScan`: lexemes as a text is cut into them.
* `Lexeme.isScan_scan`: the lexemes of a text are such.
* **`Lexeme.scan_flatMap`**: such lexemes are the ones of the text that they make up.
* **`Lexeme.scan_append`**: texts can be cut apart where two lexemes meet that do not join.
-/

namespace Fluxion.Lexeme

/-- The lexeme is uniform, and it is a single character unless characters of its kind join. -/
structure Whole (l : Lexeme) : Prop extends Uniform l where
  length_eq : l.kind.joins = false → l.chars.length = 1

/-- The lexemes stay two when the second one stands directly after the first. -/
def Apart (l m : Lexeme) : Prop := l.kind = m.kind → l.kind.joins = false

/-- The lexemes are whole, and neighbours are apart. -/
structure IsScan (ls : List Lexeme) : Prop where
  whole : ∀ l ∈ ls, l.Whole
  apart : ls.IsChain Apart

theorem whole_single (c : Char) : Whole ⟨.ofChar c, [c]⟩ where
  toUniform := uniform_single c
  length_eq := fun _ => rfl

theorem Whole.cons {l : Lexeme} (h : l.Whole) {c : Char} (hc : l.kind = .ofChar c)
    (hjoins : l.kind.joins = true) : Whole ⟨l.kind, c :: l.chars⟩ where
  toUniform := h.toUniform.cons hc
  length_eq := fun hsingle => by
    change l.kind.joins = false at hsingle
    rw [hjoins] at hsingle
    exact nomatch hsingle

/-! ## A character in front -/

theorem attach_of_joins {c : Char} {l : Lexeme} (hc : l.kind = .ofChar c)
    (hjoins : l.kind.joins = true) (ls : List Lexeme) :
    attach c (l :: ls) = ⟨l.kind, c :: l.chars⟩ :: ls := if_pos ⟨hc, hjoins⟩

theorem attach_of_apart {c : Char} {ls : List Lexeme}
    (h : ∀ m ∈ ls.head?, Apart ⟨.ofChar c, [c]⟩ m) : attach c ls = ⟨.ofChar c, [c]⟩ :: ls := by
  cases ls with
  | nil => rfl
  | cons m ls =>
    rw [attach_cons]
    refine if_neg fun hjoin => ?_
    have hsingle : (LexemeKind.ofChar c).joins = false := h m rfl hjoin.1.symm
    rw [← hjoin.1, hjoin.2] at hsingle
    exact nomatch hsingle

theorem IsScan.nil : IsScan [] := ⟨fun _ h => absurd h List.not_mem_nil, .nil⟩

theorem IsScan.cons {l : Lexeme} {ls : List Lexeme} (hl : l.Whole)
    (h : ∀ m ∈ ls.head?, Apart l m) (hls : IsScan ls) : IsScan (l :: ls) where
  whole := List.forall_mem_cons.mpr ⟨hl, hls.whole⟩
  apart := List.isChain_cons.mpr ⟨h, hls.apart⟩

theorem isScan_attach (c : Char) {ls : List Lexeme} (h : IsScan ls) : IsScan (attach c ls) := by
  cases ls with
  | nil => exact .cons (whole_single c) nofun .nil
  | cons l ls =>
    obtain ⟨hwhole, hapart⟩ := h
    obtain ⟨hl, hls⟩ := List.forall_mem_cons.mp hwhole
    obtain ⟨hhead, htail⟩ := List.isChain_cons.mp hapart
    by_cases hjoin : l.kind = .ofChar c ∧ l.kind.joins = true
    · rw [attach_of_joins hjoin.1 hjoin.2]
      exact .cons (hl.cons hjoin.1 hjoin.2) hhead ⟨hls, htail⟩
    · have hc : ∀ m ∈ (l :: ls).head?, Apart ⟨.ofChar c, [c]⟩ m := by
        intro m hm heq
        obtain rfl : l = m := Option.some.inj hm
        refine eq_false_of_ne_true fun hj => hjoin ⟨heq.symm, ?_⟩
        rw [← heq]
        exact hj
      rw [attach_of_apart hc]
      exact .cons (whole_single c) hc ⟨hwhole, hapart⟩

/-- The lexemes of a text are whole, and neighbours are apart. -/
theorem isScan_scan (cs : List Char) : IsScan (scan cs) := by
  induction cs with
  | nil => exact .nil
  | cons c cs ih => exact isScan_attach c ih

/-! ## The text of lexemes -/

theorem foldr_attach_run {k : LexemeKind} (hk : k.joins = true) {cs : List Char} (hne : cs ≠ [])
    (hcs : ∀ c ∈ cs, LexemeKind.ofChar c = k) {ls : List Lexeme}
    (h : ∀ m ∈ ls.head?, Apart ⟨k, cs⟩ m) : cs.foldr attach ls = ⟨k, cs⟩ :: ls := by
  induction cs with
  | nil => exact absurd rfl hne
  | cons c cs ih =>
    obtain ⟨rfl, hcs⟩ := List.forall_mem_cons.mp hcs
    rw [List.foldr_cons]
    by_cases hnil : cs = []
    · subst hnil
      exact attach_of_apart h
    · rw [ih hnil hcs h]
      exact attach_of_joins rfl hk ls

theorem Whole.foldr_attach {l : Lexeme} (hl : l.Whole) {ls : List Lexeme}
    (h : ∀ m ∈ ls.head?, Apart l m) : l.chars.foldr attach ls = l :: ls := by
  cases hj : l.kind.joins with
  | true => exact foldr_attach_run hj hl.ne_nil hl.ofChar_eq h
  | false =>
    obtain ⟨c, hc⟩ := List.length_eq_one_iff.mp (hl.length_eq hj)
    have hk : LexemeKind.ofChar c = l.kind := hl.ofChar_eq c (by rw [hc]; exact List.mem_cons_self)
    have heq : (⟨.ofChar c, [c]⟩ : Lexeme) = l := by rw [hk, ← hc]
    rw [← heq] at h ⊢
    exact attach_of_apart h

/-- **Whole lexemes with neighbours apart are the lexemes of their text.** -/
theorem scan_flatMap {ls : List Lexeme} (h : IsScan ls) : scan (ls.flatMap (·.chars)) = ls := by
  induction ls with
  | nil => rfl
  | cons l ls ih =>
    obtain ⟨hwhole, hapart⟩ := h
    obtain ⟨hl, hls⟩ := List.forall_mem_cons.mp hwhole
    obtain ⟨hhead, htail⟩ := List.isChain_cons.mp hapart
    have hrest : (ls.flatMap (·.chars)).foldr attach [] = ls := ih ⟨hls, htail⟩
    rw [List.flatMap_cons, scan, List.foldr_append, hrest]
    exact hl.foldr_attach hhead

theorem IsScan.part {ls ms : List Lexeme} (h : IsScan ms) (hls : ls <:+: ms) : IsScan ls where
  whole := fun l hl => h.whole l (hls.subset hl)
  apart := h.apart.infix hls

/-- **Texts can be cut apart where two lexemes meet that do not join.** -/
theorem scan_append {cs ds : List Char}
    (h : ∀ l ∈ (scan cs).getLast?, ∀ m ∈ (scan ds).head?, Apart l m) :
    scan (cs ++ ds) = scan cs ++ scan ds := by
  have hscan : IsScan (scan cs ++ scan ds) :=
    ⟨List.forall_mem_append.mpr ⟨(isScan_scan cs).whole, (isScan_scan ds).whole⟩,
      List.isChain_append.mpr ⟨(isScan_scan cs).apart, (isScan_scan ds).apart, h⟩⟩
  have hchars : (scan cs ++ scan ds).flatMap (·.chars) = cs ++ ds := by
    rw [List.flatMap_append, flatMap_scan, flatMap_scan]
  rw [← hchars, scan_flatMap hscan]

/-! ## Characters that stand alone -/

theorem apart_of_single {l m : Lexeme} (h : m.kind.joins = false) : Apart l m := fun heq => by
  rw [heq]
  exact h

theorem scan_cons_single {c : Char} (hc : (LexemeKind.ofChar c).joins = false) (cs : List Char) :
    scan (c :: cs) = ⟨.ofChar c, [c]⟩ :: scan cs := attach_of_apart fun _ _ _ => hc

theorem scan_append_single {c : Char} (hc : (LexemeKind.ofChar c).joins = false)
    (cs ds : List Char) : scan (cs ++ c :: ds) = scan cs ++ ⟨.ofChar c, [c]⟩ :: scan ds := by
  rw [← scan_cons_single hc]
  refine scan_append fun l _ m hm => apart_of_single ?_
  rw [scan_cons_single hc] at hm
  rw [← Option.some.inj hm]
  exact hc

end Fluxion.Lexeme
