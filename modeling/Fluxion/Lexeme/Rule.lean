import Fluxion.Lexeme

/-!
# The rules of the lexer

Read from left to right, a text is cut by one rule for each kind of lexeme. The rule that matches
the most characters counts, and of rules that match equally many the one of the highest priority.
Where no rule matches, nothing more is read.

* `LexemeKind.accepts`, `LexemeKind.matched`: the characters that a rule is for, and those that it
  matches.
* `LexemeKind.wins`: whether a rule comes before all others.
* `Lexeme.next?`: the first lexeme of a text.
* `Lexeme.munch`: the lexemes up to the first place where no rule matches.
-/

namespace Fluxion

namespace LexemeKind

/-- The kinds that have a rule. -/
def all : List LexemeKind :=
  [whitespace, plus, minus, caret, equals, openParen, closeParen, number, name, symbol]

/-- The characters that the rule of a kind is for. -/
def accepts : LexemeKind → Char → Bool
  | whitespace, c => c = ' ' || c = '\t' || c = '\n' || c = '\r'
  | plus, c => c = '+'
  | minus, c => c = '-'
  | caret, c => c = '^'
  | equals, c => c = '='
  | openParen, c => c = '('
  | closeParen, c => c = ')'
  | number, c => ('0' ≤ c && c ≤ '9') || c = '.'
  | name, c => ('a' ≤ c && c ≤ 'z') || ('A' ≤ c && c ≤ 'Z') || c = '_'
  | symbol, c => c ≠ '\n'

/-- How the rule of a kind stands to others that match as many characters. -/
def priority : LexemeKind → Nat
  | symbol => 0
  | _ => 1

/-- The characters at the beginning of a text that the rule of a kind matches. -/
def matched (k : LexemeKind) (cs : List Char) : List Char :=
  if k.joins then cs.takeWhile k.accepts else (cs.take 1).takeWhile k.accepts

/-- Whether the rule of the first kind comes before that of the second one. -/
def beats (cs : List Char) (k m : LexemeKind) : Bool :=
  (m.matched cs).length < (k.matched cs).length ||
    ((m.matched cs).length = (k.matched cs).length && m.priority < k.priority)

/-- Whether the rule of a kind matches and comes before all others. -/
def wins (cs : List Char) (k : LexemeKind) : Bool :=
  k.matched cs ≠ [] && all.all fun m => m = k || k.beats cs m

theorem wins_iff {cs : List Char} {k : LexemeKind} :
    k.wins cs ↔ k.matched cs ≠ [] ∧ ∀ m ∈ all, m = k ∨ k.beats cs m := by
  simp only [wins, Bool.and_eq_true, Bool.or_eq_true, List.all_eq_true, decide_eq_true_eq]

end LexemeKind

namespace Lexeme

/-- The first lexeme of a text, if a rule matches there. -/
def next? (cs : List Char) : Option Lexeme :=
  (LexemeKind.all.find? (·.wins cs)).map fun k => ⟨k, k.matched cs⟩

theorem next?_pos {cs : List Char} {l : Lexeme} (h : next? cs = some l) :
    0 < l.chars.length ∧ 0 < cs.length := by
  obtain ⟨k, hk, rfl⟩ := Option.map_eq_some_iff.mp h
  have hwins : k.wins cs := List.find?_some hk
  have hne := (LexemeKind.wins_iff.mp hwins).1
  refine ⟨List.length_pos_iff.mpr hne, List.length_pos_iff.mpr ?_⟩
  rintro rfl
  exact hne (by simp [LexemeKind.matched])

/-- The lexemes of a text, up to the first place where no rule matches. -/
def munch (cs : List Char) : List Lexeme :=
  match h : next? cs with
  | none => []
  | some l =>
    have := next?_pos h
    l :: munch (cs.drop l.chars.length)
termination_by cs.length

end Lexeme

end Fluxion
