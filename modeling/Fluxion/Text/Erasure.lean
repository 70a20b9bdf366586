import Fluxion.Text.Cluster
import Fluxion.Text.Span

/-!
# Erasure

A backspace in a line takes back the cluster before it.

* `Draft`: a line that is being entered.
* `erase?`: a line after its backspaces.
* `erase?_of_notMem`: a line without backspaces stays as it is.
-/

namespace Fluxion

/-- The character that takes back what was entered. -/
def backspace : Char := '\x08'

/-- The characters without so many bytes at the front, if none of them is cut in two. -/
def dropBytes? : Nat → List Char → Option (List Char)
  | 0, cs => some cs
  | _ + 1, [] => none
  | n + 1, c :: cs => if c.utf8Size ≤ n + 1 then dropBytes? (n + 1 - c.utf8Size) cs else none

/-- A line that is being entered: its characters and the sizes of its clusters, the last one first.
-/
structure Draft where
  chars : List Char
  sizes : List Nat

namespace Draft

/-- The bytes that a backspace takes for a cluster, counted in eight bits. -/
def size (cluster : List Char) : Nat := utf8Length cluster % 256

/-- After another cluster. A backspace without anything before it changes nothing. -/
def step (d : Draft) (cluster : List Char) : Option Draft :=
  if cluster = [backspace] then
    match d.sizes with
    | [] => some d
    | n :: sizes => (dropBytes? n d.chars).map (⟨·, sizes⟩)
  else some ⟨cluster.reverse ++ d.chars, size cluster :: d.sizes⟩

theorem foldlM_step (d : Draft) {gs : List (List Char)} (h : backspace ∉ gs.flatten) :
    ∃ sizes, gs.foldlM step d = some ⟨gs.flatten.reverse ++ d.chars, sizes⟩ := by
  induction gs generalizing d with
  | nil => exact ⟨d.sizes, rfl⟩
  | cons g gs ih =>
    rw [List.flatten_cons, List.mem_append, not_or] at h
    have hg : g ≠ [backspace] := fun hg => h.1 (hg ▸ List.mem_singleton_self _)
    obtain ⟨sizes, hs⟩ := ih ⟨g.reverse ++ d.chars, size g :: d.sizes⟩ h.2
    exact ⟨sizes, by simp [step, hg, hs]⟩

end Draft

/-- A line after its backspaces, unless one of them has cut a character in two. -/
def erase? (cs : List Char) : Option (List Char) :=
  ((clusters cs).foldlM Draft.step ⟨[], []⟩).map (·.chars.reverse)

theorem erase?_of_notMem {cs : List Char} (h : backspace ∉ cs) : erase? cs = some cs := by
  rw [← flatten_clusters cs] at h
  obtain ⟨sizes, hs⟩ := Draft.foldlM_step ⟨[], []⟩ h
  simp [erase?, hs, flatten_clusters]

end Fluxion
