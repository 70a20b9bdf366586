import Fluxion.Text.Lines
import Mathlib.Data.List.Basic
import Mathlib.Data.List.SplitBy

/-!
# Cutting a text into lines

* `pieces_append`: two texts are cut separately if the last line of the first one is complete.
* `pieces_line`, `byLine`: the first line of a text, and induction on its lines.
* `lines_append`, `filter_lines_intercalate`: the lines of texts that are put together.
* `toList_toUTF8`, `pieces_encoded`: a text as bytes, which are cut where its characters are.
-/

namespace Fluxion

/-! ## Pieces -/

/-- The text is empty, or its last line is complete. -/
def IsComplete {α : Type} (newline : α) (xs : List α) : Prop :=
  xs = [] ∨ xs.getLast? = some newline

section Pieces

variable {α : Type} [DecidableEq α] {newline : α} {xs : List α}

theorem pieces_append (h : IsComplete newline xs) (ys : List α) :
    pieces newline (xs ++ ys) = pieces newline xs ++ pieces newline ys := by
  refine List.splitBy_append fun x hx _ _ => ?_
  rcases h with rfl | hlast
  · exact nomatch hx
  · obtain rfl : newline = x := Option.some.inj (hlast.symm.trans hx)
    exact decide_eq_false (not_not.mpr rfl)

theorem pieces_concat (h : newline ∉ xs) (y : α) : pieces newline (xs ++ [y]) = [xs ++ [y]] := by
  refine List.splitBy_of_isChain (List.concat_ne_nil y xs) (List.isChain_append.mpr ⟨?_, ?_, ?_⟩)
  · refine (List.pairwise_of_forall_mem_list fun x hx _ _ => ?_).isChain
    exact decide_eq_true (ne_of_mem_of_not_mem hx h)
  · exact List.isChain_singleton y
  · exact fun x hx _ _ => decide_eq_true (ne_of_mem_of_not_mem (List.mem_of_getLast? hx) h)

theorem pieces_of_notMem (h : newline ∉ xs) (hne : xs ≠ []) : pieces newline xs = [xs] := by
  rw [← List.dropLast_concat_getLast hne] at h ⊢
  exact pieces_concat (fun hmem => h (List.mem_append_left _ hmem)) _

theorem pieces_line (h : newline ∉ xs) (ys : List α) :
    pieces newline (xs ++ newline :: ys) = (xs ++ [newline]) :: pieces newline ys := by
  have hcomplete : IsComplete newline (xs ++ [newline]) := .inr List.getLast?_concat
  calc pieces newline (xs ++ newline :: ys) = pieces newline (xs ++ [newline] ++ ys) := by simp
    _ = (xs ++ [newline]) :: pieces newline ys := by
      rw [pieces_append hcomplete, pieces_concat h, List.singleton_append]

/-- Induction on the lines of a text. -/
theorem byLine (newline : α) {motive : List α → Prop} (last : ∀ xs, newline ∉ xs → motive xs)
    (line : ∀ xs ys, newline ∉ xs → motive ys → motive (xs ++ newline :: ys)) (xs : List α) :
    motive xs := by
  by_cases h : newline ∈ xs
  · obtain ⟨before, after, rfl, hbefore⟩ := List.eq_append_cons_of_mem h
    exact line before after hbefore (byLine newline last line after)
  · exact last xs h
termination_by xs.length

end Pieces

/-! ## Lines -/

@[simp] theorem lines_nil : lines [] = [] := rfl

theorem lines_append {cs : List Char} (h : IsComplete '\n' cs) (ds : List Char) :
    lines (cs ++ ds) = lines cs ++ lines ds := by
  rw [lines, pieces_append h, List.map_append]
  rfl

/-- The characters have no line end among them. -/
structure IsLineText (cs : List Char) : Prop where
  lf : '\n' ∉ cs
  cr : '\r' ∉ cs

namespace IsLineText

variable {cs : List Char}

theorem chomp_eq (h : IsLineText cs) : chomp cs = cs :=
  if_neg fun hlast => h.lf (List.mem_of_getLast? hlast)

theorem chomp_concat (h : IsLineText cs) : chomp (cs ++ ['\n']) = cs := by
  rw [chomp, if_pos List.getLast?_concat, List.dropLast_concat]
  exact if_neg fun hlast => h.cr (List.mem_of_getLast? hlast)

theorem lines_line (h : IsLineText cs) (ds : List Char) :
    lines (cs ++ '\n' :: ds) = cs :: lines ds := by
  rw [lines, pieces_line h.lf, List.map_cons, h.chomp_concat]
  rfl

end IsLineText

/-- Texts without line ends are the lines of the text that joins them. -/
theorem filter_lines_intercalate {p : List Char → Bool} (hp : p [] = false) {css : List (List Char)}
    (h : ∀ cs ∈ css, IsLineText cs) : (lines (['\n'].intercalate css)).filter p = css.filter p := by
  induction css with
  | nil => rfl
  | cons cs css ih =>
    obtain ⟨hcs, hcss⟩ := List.forall_mem_cons.mp h
    cases css with
    | nil =>
      rw [List.intercalate_singleton]
      by_cases hnil : cs = []
      · simp [hnil, hp]
      · rw [lines, pieces_of_notMem hcs.lf hnil, List.map_singleton, hcs.chomp_eq]
    | cons ds css =>
      rw [List.intercalate_cons_cons, List.append_assoc, List.singleton_append, hcs.lines_line,
        List.filter_cons, ih hcss, ← List.filter_cons]

/-! ## Bytes -/

/-- The bytes of characters in UTF-8. -/
def encoded (cs : List Char) : List UInt8 := cs.flatMap String.utf8EncodeChar

theorem encoded_append (cs ds : List Char) : encoded (cs ++ ds) = encoded cs ++ encoded ds :=
  List.flatMap_append

theorem toList_toUTF8 (text : String) : text.toUTF8.data.toList = encoded text.toList := by
  rw [String.toUTF8_eq_toByteArray, ← String.utf8Encode_toList]
  exact List.toList_data_toByteArray

theorem toByteArray_encoded (cs : List Char) :
    (encoded cs).toByteArray = (String.ofList cs).toUTF8 :=
  String.toByteArray_ofList.symm

theorem fromUTF8?_toUTF8 (text : String) : String.fromUTF8? text.toUTF8 = some text := by
  simp only [String.fromUTF8?, String.toUTF8_eq_toByteArray, dif_pos text.isValidUTF8]
  rfl

theorem newline_mem_utf8EncodeChar {c : Char} (h : 10 ∈ String.utf8EncodeChar c) : c = '\n' := by
  have hcode : c.val.toNat = 10 := by
    revert h
    fun_cases String.utf8EncodeChar c
    all_goals
      simp only [List.mem_cons, List.not_mem_nil, or_false, ← UInt8.toNat_inj, UInt8.toNat_ofNat,
        UInt8.toNat_ofNat']
      omega
  exact Char.ext (UInt32.toNat_inj.mp hcode)

theorem newline_notMem_encoded {cs : List Char} (h : '\n' ∉ cs) : 10 ∉ encoded cs := by
  intro hmem
  obtain ⟨c, hc, hbyte⟩ := List.mem_flatMap.mp hmem
  exact h (newline_mem_utf8EncodeChar hbyte ▸ hc)

theorem encoded_ne_nil {cs : List Char} (h : cs ≠ []) : encoded cs ≠ [] := by
  obtain ⟨c, cs, rfl⟩ := List.exists_cons_of_ne_nil h
  exact List.append_ne_nil_of_left_ne_nil String.utf8EncodeChar_ne_nil _

/-- The bytes of a text are cut where its characters are. -/
theorem pieces_encoded (cs : List Char) :
    pieces 10 (encoded cs) = (pieces '\n' cs).map encoded := by
  induction cs using byLine '\n' with
  | last cs h =>
    by_cases hnil : cs = []
    · subst hnil
      rfl
    · have hbytes := pieces_of_notMem (newline_notMem_encoded h) (encoded_ne_nil hnil)
      rw [pieces_of_notMem h hnil, hbytes]
      rfl
  | line cs ds h ih =>
    have hline : encoded (cs ++ '\n' :: ds) = encoded cs ++ 10 :: encoded ds := encoded_append _ _
    rw [hline, pieces_line h, pieces_line (newline_notMem_encoded h), ih, List.map_cons,
      encoded_append]
    rfl

end Fluxion
