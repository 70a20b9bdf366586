/-!
# Lexemes

A text is cut into lexemes: maximal runs of whitespace, of digits and points, and of letters, and
single characters of every other kind. The kind of a character decides alone, so a cut depends
only on the two characters beside it.

* `LexemeKind.ofChar`: the kind of a character.
* `LexemeKind.joins`: the kinds whose neighbouring characters form one lexeme.
* `Lexeme.scan`: the lexemes of a text.
-/

namespace Fluxion

/-- What a lexeme is made of. -/
inductive LexemeKind where
  | whitespace
  | plus
  | minus
  | caret
  | equals
  | openParen
  | closeParen
  | number
  | name
  | symbol
deriving DecidableEq

namespace LexemeKind

/-- The kind of the lexemes that a character belongs to. -/
def ofChar (c : Char) : LexemeKind :=
  if c = ' ' ∨ c = '\t' ∨ c = '\n' ∨ c = '\r' then .whitespace
  else if c = '+' then .plus
  else if c = '-' then .minus
  else if c = '^' then .caret
  else if c = '=' then .equals
  else if c = '(' then .openParen
  else if c = ')' then .closeParen
  else if c.isDigit ∨ c = '.' then .number
  else if c.isAlpha ∨ c = '_' then .name
  else .symbol

/-- Whether neighbouring characters of this kind belong to one lexeme. -/
def joins : LexemeKind → Bool
  | whitespace | number | name => true
  | _ => false

end LexemeKind

/-- Characters that stand together, with their kind. -/
structure Lexeme where
  kind : LexemeKind
  chars : List Char
deriving DecidableEq

namespace Lexeme

/-- Puts a character in front of lexemes: into the first one if it joins with it. -/
def attach (c : Char) : List Lexeme → List Lexeme
  | [] => [⟨.ofChar c, [c]⟩]
  | l :: ls =>
    if l.kind = .ofChar c ∧ l.kind.joins then ⟨l.kind, c :: l.chars⟩ :: ls
    else ⟨.ofChar c, [c]⟩ :: l :: ls

/-- The lexemes of a text, from left to right. -/
def scan (cs : List Char) : List Lexeme := cs.foldr attach []

@[simp] theorem scan_cons (c : Char) (cs : List Char) : scan (c :: cs) = attach c (scan cs) := rfl

/-- Whether the lexeme separates others without meaning anything. -/
def isWhitespace (l : Lexeme) : Bool := l.kind = .whitespace

/-- Whether the lexeme is the given name. -/
def isName (name : String) (l : Lexeme) : Bool := l.kind = .name && l.chars = name.toList

/-- The lexemes of a text that mean something. -/
def significant (cs : List Char) : List Lexeme := (scan cs).filter fun l => !l.isWhitespace

end Lexeme

end Fluxion
