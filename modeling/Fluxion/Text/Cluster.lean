import Fluxion.Text.Cluster.Class

/-!
# Clusters

What a reader takes for one character may be several: a letter with its accents, a pictograph
composed of others, a flag. Such a cluster ends where the rules for extended grapheme clusters of
Unicode see a boundary; a rule looks at the next character and at what precedes it.

* `ClusterContext`: what the rules have to know of the characters before a place.
* `ClusterContext.joins`: whether the next character belongs to the same cluster.
* `clusters`: the clusters of a text.
-/

namespace Fluxion

/-- How far a conjunct has come. -/
inductive Conjunct where
  | none
  /-- There is a consonant. -/
  | consonant
  /-- There is a consonant and a link to a next one. -/
  | linked
deriving DecidableEq

/-- What the characters before a place are like. -/
structure ClusterContext where
  /-- The class of the last one, if there is any. -/
  last : Option ClusterClass
  /-- Whether the last ones are a pictograph and characters that extend it. -/
  pictograph : Bool
  /-- Whether such a pictograph is followed by a joiner. -/
  joinedPictograph : Bool
  /-- Whether the number of regional indicators at the end is odd. -/
  oddIndicators : Bool
  conjunct : Conjunct

namespace ClusterContext

/-- Before the first character. -/
def start : ClusterContext := ⟨none, false, false, false, .none⟩

/-- Whether two Hangul letters or syllables belong to one syllable. -/
def formSyllable : ClusterClass → ClusterClass → Bool
  | .leading, .leading | .leading, .vowel | .leading, .openSyllable | .leading, .closedSyllable
  | .openSyllable, .vowel | .openSyllable, .trailing | .vowel, .vowel | .vowel, .trailing
  | .closedSyllable, .trailing | .trailing, .trailing => true
  | _, _ => false

/-- Whether a character belongs to the cluster of the one before it. -/
def joins (ctx : ClusterContext) (c : Char) : Bool :=
  match ctx.last, ClusterClass.ofChar c with
  | none, _ => false
  | some .carriageReturn, .lineFeed => true
  | some .carriageReturn, _ | some .lineFeed, _ | some .control, _ => false
  | _, .carriageReturn | _, .lineFeed | _, .control => false
  | _, .extend | _, .joiner | _, .spacingMark => true
  | some .prepended, _ => true
  | some .regionalIndicator, .regionalIndicator => ctx.oddIndicators
  | some last, next =>
    formSyllable last next || (ctx.conjunct = .linked && isConjunctConsonant c) ||
      (ctx.joinedPictograph && isPictographic c)

/-- The conjunct after another character, of the given class. -/
def nextConjunct (conjunct : Conjunct) (c : Char) (kind : ClusterClass) : Conjunct :=
  if isConjunctConsonant c then .consonant
  else if conjunct = .none then .none
  else if isConjunctLinker c then .linked
  else if kind = .joiner ∨ (kind = .extend ∧ c.toNat ≠ 0x200C) then conjunct
  else .none

/-- After another character. -/
def step (ctx : ClusterContext) (c : Char) : ClusterContext :=
  let kind := ClusterClass.ofChar c
  { last := some kind
    pictograph := isPictographic c || (ctx.pictograph && kind = .extend)
    joinedPictograph := ctx.pictograph && kind = .joiner
    oddIndicators := kind = .regionalIndicator && !ctx.oddIndicators
    conjunct := nextConjunct ctx.conjunct c kind }

/-- The characters that go on with the cluster before them, and the clusters after those. -/
def split (ctx : ClusterContext) : List Char → List Char × List (List Char)
  | [] => ([], [])
  | c :: cs =>
    let rest := (ctx.step c).split cs
    if ctx.joins c then (c :: rest.1, rest.2) else ([], (c :: rest.1) :: rest.2)

/-- Nothing is lost. -/
theorem split_append (ctx : ClusterContext) (cs : List Char) :
    (ctx.split cs).1 ++ (ctx.split cs).2.flatten = cs := by
  induction cs generalizing ctx with
  | nil => rfl
  | cons c cs ih =>
    rw [split]
    split <;> simp [ih]

end ClusterContext

/-- The clusters of a text. -/
def clusters (cs : List Char) : List (List Char) := (ClusterContext.start.split cs).2

/-- The clusters are the whole text. -/
theorem flatten_clusters (cs : List Char) : (clusters cs).flatten = cs := by
  have h := ClusterContext.start.split_append cs
  have hfirst : (ClusterContext.start.split cs).1 = [] := by
    cases cs with
    | nil => rfl
    | cons c cs => rfl
  rwa [hfirst] at h

end Fluxion
