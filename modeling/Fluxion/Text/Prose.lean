/-!
# Prose

Sentences in which some expressions stand out.

* `Prose.colored`: the words with terminal colors around the expressions.
* `withoutColors`: a text as it is where there are no colors.
-/

namespace Fluxion

/-- A part of a sentence. -/
inductive Phrase where
  | words (text : String)
  | expression (text : String)

/-- A sentence, part by part. -/
abbrev Prose := List Phrase

/-- The part with the terminal's sequences for the color of expressions. -/
def Phrase.colored : Phrase → String
  | words text => text
  | expression text => "\x1b[38;2;52;235;152m" ++ text ++ "\x1b[0m"

/-- The sentence with its expressions colored. -/
def Prose.colored (p : Prose) : String := String.join (p.map Phrase.colored)

/-! ## Removing colors -/

/-- The length of the terminal's sequence for a color at the beginning of the characters, or `0`. -/
def colorLength : List Char → Nat
  | '\x1b' :: '[' :: cs =>
    let codes := cs.takeWhile fun c => c.isDigit || c = ';'
    if cs[codes.length]? = some 'm' then codes.length + 3 else 0
  | _ => 0

/-- The characters from the one of the given place on, without sequences for colors. -/
def dropColors : Nat → List Char → List Char
  | _, [] => []
  | n + 1, _ :: cs => dropColors n cs
  | 0, c :: cs =>
    match colorLength (c :: cs) with
    | 0 => c :: dropColors 0 cs
    | n + 1 => dropColors n cs

/-- The text without sequences for colors. -/
def withoutColors (text : String) : String := String.ofList (dropColors 0 text.toList)

end Fluxion
