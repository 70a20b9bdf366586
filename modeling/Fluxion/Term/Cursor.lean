import Fluxion.Term.Reader

/-!
# Reading terms with a cursor

A cursor holds a text, its tokens and the number of tokens that have been read. It can be kept, copied
and asked again.

* `TermCursor.skipWhitespace`, `TermCursor.readHeader`, `TermCursor.readSign`, `TermCursor.skipTerm`:
  the parts of a function, each of which moves the cursor behind what it reads.
* `TermCursor.readTerm`, `TermCursor.readAll`: a term, and all terms of the text.
* `TermCursor.perform`, `TermCursor.run`: calls, one after the other.
-/

namespace Fluxion

/-- A text with its tokens and the number of those that have been read. -/
structure TermCursor where
  source : String
  tokens : Array Token
  index : Nat

namespace TermCursor

/-- The cursor before the first token of a text. -/
def ofSource (source : String) : TermCursor := ⟨source, (tokenize source).toArray, 0⟩

/-- The empty span at the end of the text. -/
def endSpan (r : TermCursor) : Span := .point (utf8Length r.source.toList)

/-- The next token to be read. -/
def current? (r : TermCursor) : Option Token := r.tokens[r.index]?

/-- Behind the next token. -/
def advance (r : TermCursor) : TermCursor := { r with index := r.index + 1 }

/-- The number of tokens that are still to be read. -/
def remaining (r : TermCursor) : Nat := r.tokens.size - r.index

theorem remaining_advance_lt {r : TermCursor} {t : Token} (h : r.current? = some t) :
    r.advance.remaining < r.remaining := by
  obtain ⟨hindex, -⟩ := Array.getElem?_eq_some_iff.mp h
  unfold remaining advance
  dsimp only
  omega

/-! ## The parts of a function -/

/-- Behind the whitespace. -/
def skipWhitespace (r : TermCursor) : TermCursor :=
  match h : r.current? with
  | none => r
  | some t =>
    have := remaining_advance_lt h
    if t.isWhitespace then r.advance.skipWhitespace else r
termination_by r.remaining

/-- Behind the header, if the text begins with it. -/
def readHeader (r : TermCursor) : Except Fault TermCursor :=
  match requireHeader r.source with
  | .error fault => .error fault
  | .ok () => .ok { r with index := r.tokens.findIdx fun t => headerLength ≤ t.span.start }

/-- The sign that is next, if there is one, with its place. -/
def readSign (r : TermCursor) : Except Fault (Option (Sign × Span) × TermCursor) :=
  match r.current? with
  | none => .ok (none, r)
  | some t =>
    if t.kind.sign?.isSome then
      match Sign.ofString (String.ofList t.chars) with
      | .error cause => .error ⟨cause, [t.span]⟩
      | .ok sign => .ok (some (sign, t.span), r.advance)
    else .ok (none, r)

/-- Before the sign that ends the term. -/
def skipTerm (n : Nesting) (r : TermCursor) : TermCursor :=
  match h : r.current? with
  | none => r
  | some t =>
    have := remaining_advance_lt h
    if n.endsAt t then r else r.advance.skipTerm (n.step t)
termination_by r.remaining

theorem skipWhitespace_eq (r : TermCursor) : r.skipWhitespace =
    match r.current? with
    | none => r
    | some t => if t.isWhitespace then r.advance.skipWhitespace else r := by
  rw [skipWhitespace]
  split
  · next h => simp only [h]
  · next t h => simp only [h]

theorem skipTerm_eq (n : Nesting) (r : TermCursor) : r.skipTerm n =
    match r.current? with
    | none => r
    | some t => if n.endsAt t then r else r.advance.skipTerm (n.step t) := by
  rw [skipTerm]
  split
  · next h => simp only [h]
  · next t h => simp only [h]

theorem remaining_skipWhitespace_le (r : TermCursor) :
    r.skipWhitespace.remaining ≤ r.remaining := by
  induction r using skipWhitespace.induct with
  | case1 r h => simp [skipWhitespace_eq r, h]
  | case2 r t h hlt hblank ih =>
    simp only [skipWhitespace_eq r, h, hblank, if_true]
    exact Nat.le_trans ih (Nat.le_of_lt hlt)
  | case3 r t h hlt hblank => simp [skipWhitespace_eq r, h, hblank]

theorem remaining_skipTerm_le (n : Nesting) (r : TermCursor) :
    (r.skipTerm n).remaining ≤ r.remaining := by
  induction n, r using skipTerm.induct with
  | case1 n r h => simp [skipTerm_eq n r, h]
  | case2 n r t h hlt hends => simp [skipTerm_eq n r, h, hends]
  | case3 n r t h hlt hends ih =>
    simp only [skipTerm_eq n r, h, hends]
    exact Nat.le_trans ih (Nat.le_of_lt hlt)

theorem remaining_skipTerm_lt {n : Nesting} {r : TermCursor} {t : Token} (h : r.current? = some t)
    (hends : n.endsAt t = false) : (r.skipTerm n).remaining < r.remaining := by
  simp only [skipTerm_eq n r, h, hends]
  exact Nat.lt_of_le_of_lt (remaining_skipTerm_le _ _) (remaining_advance_lt h)

/-! ## One term after the other -/

/-- The next term, unless only whitespace is left. -/
def readTerm (r : TermCursor) : Except Fault (Option Term) × TermCursor :=
  let first := r.skipWhitespace
  match first.current? with
  | none => (.ok none, first)
  | some _ =>
    match first.readSign with
    | .error fault => (.error fault, first)
    | .ok (signed, start) =>
      let (sign, place) := signed.getD (.positive, start.endSpan)
      let stop := start.skipTerm .outer
      let body := (start.tokens.extract start.index stop.index).toList
      (.ok (some (Term.ofTokens sign place body)), stop)

theorem remaining_of_readSign {r start : TermCursor} {t : Token} {signed : Option (Sign × Span)}
    (ht : r.current? = some t) (h : r.readSign = .ok (signed, start)) :
    (start.skipTerm .outer).remaining < r.remaining := by
  simp only [readSign, ht] at h
  split at h
  · split at h
    · simp at h
    · obtain ⟨-, rfl⟩ : _ ∧ _ := by simpa using h
      exact Nat.lt_of_le_of_lt (remaining_skipTerm_le _ _) (remaining_advance_lt ht)
  · next hsign =>
    obtain ⟨-, rfl⟩ : _ ∧ _ := by simpa using h
    exact remaining_skipTerm_lt ht (by simp [Nesting.endsAt, hsign])

theorem remaining_readTerm_lt {r next : TermCursor} {term : Term}
    (h : r.readTerm = (.ok (some term), next)) : next.remaining < r.remaining := by
  have hskip := remaining_skipWhitespace_le r
  unfold readTerm at h
  generalize r.skipWhitespace = first at *
  dsimp only at h
  split at h
  · simp at h
  · next t ht =>
    split at h
    · simp at h
    · next signed start hsign =>
      obtain ⟨-, rfl⟩ : _ ∧ _ := by simpa using h
      exact Nat.lt_of_lt_of_le (remaining_of_readSign ht hsign) hskip

/-- The terms that are still to be read. -/
def readTerms (r : TermCursor) : Except Fault (List Term) × TermCursor :=
  match h : r.readTerm with
  | (.error fault, next) => (.error fault, next)
  | (.ok none, next) => (.ok [], next)
  | (.ok (some term), next) =>
    have := remaining_readTerm_lt h
    let (terms, last) := next.readTerms
    (terms.map (term :: ·), last)
termination_by r.remaining

/-- The terms of the whole text, wherever the cursor stands. -/
def readAll (r : TermCursor) : Except Fault (List Term) × TermCursor :=
  let start := { r with index := 0 }
  match start.readHeader with
  | .error fault => (.error fault, start)
  | .ok body => body.readTerms

/-! ## Calls -/

/-- What a cursor can be asked. -/
inductive Call where
  | endSpan
  | current
  | readAll
  | clone
deriving DecidableEq

/-- What a cursor answers. -/
inductive Reply where
  | span (span : Span)
  | token (token : Option Token)
  | terms (terms : Except Fault (List Term))
  | cloned

/-- The answer to a call, and the cursor that the next call goes to. -/
def perform (r : TermCursor) : Call → Reply × TermCursor
  | .endSpan => (.span r.endSpan, r)
  | .current => (.token r.current?, r)
  | .readAll => (.terms r.readAll.1, r.readAll.2)
  | .clone => (.cloned, ⟨r.source, r.tokens, r.index⟩)

/-- The answers to calls. -/
def run (r : TermCursor) : List Call → List Reply
  | [] => []
  | call :: calls => (r.perform call).1 :: (r.perform call).2.run calls

end TermCursor

end Fluxion
