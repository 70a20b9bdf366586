import Fluxion.Header
import Fluxion.Term

/-!
# Reading terms

The text after the header is a sum. A sign ends the term before it unless it is inside parentheses
or directly after `^`; a closing parenthesis without an opening one closes nothing.

* `Nesting`: what decides whether a sign ends the term that is being read.
* `Nesting.split`: the tokens of a term and those after it.
* `Term.next?`: the first term of a run of tokens, and the tokens after it.
* `TermReader`: a text together with the tokens of it that are still to be read.
* `Term.parse`: the terms of a whole text.
-/

namespace Fluxion

/-! ## Where a term ends -/

/-- What has been read of a term, as far as it concerns the next sign. -/
structure Nesting where
  /-- The parentheses that are open. -/
  depth : Nat
  /-- Whether the last token that is not whitespace is `^`. -/
  afterCaret : Bool
deriving DecidableEq

namespace Nesting

/-- Before the first token of a term. -/
def outer : Nesting := ⟨0, false⟩

/-- Whether a token ends the term. -/
def endsAt (n : Nesting) (t : Token) : Bool :=
  t.kind.sign?.isSome && n.depth = 0 && !n.afterCaret

/-- After another token of the term. -/
def step (n : Nesting) (t : Token) : Nesting where
  depth :=
    match t.kind with
    | .openParen => n.depth + 1
    | .closeParen => n.depth - 1
    | _ => n.depth
  afterCaret := if t.isWhitespace then n.afterCaret else t.kind = .caret

/-- The tokens up to the sign that ends the term, and the others. -/
def split (n : Nesting) : List Token → List Token × List Token
  | [] => ([], [])
  | t :: ts =>
    if n.endsAt t then ([], t :: ts)
    else ((t :: ((n.step t).split ts).1), ((n.step t).split ts).2)

/-- Nothing is lost where a term ends. -/
theorem split_append (n : Nesting) (ts : List Token) : (n.split ts).1 ++ (n.split ts).2 = ts := by
  induction ts generalizing n with
  | nil => rfl
  | cons t ts ih =>
    unfold split
    split
    · rfl
    · simp [ih]

theorem split_length_le (n : Nesting) (ts : List Token) :
    (n.split ts).2.length ≤ ts.length := by
  have h := congrArg List.length (n.split_append ts)
  simp only [List.length_append] at h
  omega

end Nesting

/-! ## One term after the other -/

namespace Term

/-- The tokens from the first one on that is not whitespace. -/
def skipWhitespace (ts : List Token) : List Token := ts.dropWhile (·.isWhitespace)

theorem skipWhitespace_length_le (ts : List Token) :
    (skipWhitespace ts).length ≤ ts.length :=
  (List.dropWhile_sublist _).length_le

/-- The first term and the tokens after it, unless only whitespace is left. -/
def next? (ts : List Token) : Option (Term × List Token) :=
  match skipWhitespace ts with
  | [] => none
  | t :: ts =>
    match t.kind.sign? with
    | some sign =>
      let (body, rest) := Nesting.outer.split ts
      some (ofTokens sign t.span body, rest)
    | none =>
      let (body, rest) := (Nesting.outer.step t).split ts
      some (ofTokens .positive t.span (t :: body), rest)

theorem next?_length {ts rest : List Token} {term : Term} (h : next? ts = some (term, rest)) :
    rest.length < ts.length := by
  have hskip := skipWhitespace_length_le ts
  unfold next? at h
  split at h
  · simp at h
  · next t ts' heq =>
    rw [heq, List.length_cons] at hskip
    split at h
    · obtain ⟨-, rfl⟩ : _ ∧ _ := by simpa using h
      have := Nesting.outer.split_length_le ts'
      omega
    · obtain ⟨-, rfl⟩ : _ ∧ _ := by simpa using h
      have := (Nesting.outer.step t).split_length_le ts'
      omega

/-- All terms of a run of tokens, and the tokens after the last one. -/
def all (ts : List Token) : List Term × List Token :=
  match h : next? ts with
  | none => ([], skipWhitespace ts)
  | some (term, rest) =>
    have := next?_length h
    (term :: (all rest).1, (all rest).2)
termination_by ts.length

end Term

/-! ## A reader -/

/-- A text and the tokens of it that are still to be read. -/
structure TermReader where
  source : String
  pending : List Token

namespace TermReader

/-- The reader at the beginning of a text. -/
def ofSource (source : String) : TermReader := ⟨source, tokenize source⟩

/-- The terms of the whole text, wherever the reader stands, and the reader afterwards. -/
def readAll (r : TermReader) : Except Fault (List Term) × TermReader :=
  let start := ofSource r.source
  match requireHeader r.source with
  | .error fault => (.error fault, start)
  | .ok () =>
    let (terms, rest) := Term.all (start.pending.dropWhile (·.span.start < headerLength))
    (.ok terms, { start with pending := rest })

end TermReader

/-- The terms of a text, in their order. -/
def Term.parse (source : String) : Except Fault (List Term) := (TermReader.ofSource source).readAll.1

end Fluxion
