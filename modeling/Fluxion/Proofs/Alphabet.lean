import Fluxion.Alphabet
import Fluxion.Proofs.Differentiate
import Fluxion.Proofs.Parse

/-!
# Valid lines

* `isAllowed_iff`, `asciiMinus_of_isBlank`: the characters of a line.
* `disallowed?_eq_none_iff`, **`disallowed?_eq_some_iff`**: the first character that is not allowed.
* `validate_eq_ok_iff`, `validate_eq_error_iff`: when a line is valid, and what is wrong with it
  otherwise.
-/

namespace Fluxion

/-! ## Characters -/

theorem isAllowed_iff {c : Char} : isAllowed c ↔ isBlank c ∨ c ∈ alphabet.toList := by
  unfold isAllowed
  rw [Bool.or_eq_true, List.contains_iff_mem]

theorem asciiMinus_of_ne {c : Char} (h : c ≠ '−') : asciiMinus c = c := if_neg h

theorem asciiMinus_eq_iff {c d : Char} (hd : d ≠ '-') (hminus : d ≠ '−') :
    asciiMinus c = d ↔ c = d := by
  by_cases h : c = '−'
  · rw [h]
    exact iff_of_false (Ne.symm hd) (Ne.symm hminus)
  · rw [asciiMinus_of_ne h]

theorem asciiMinus_asciiMinus (c : Char) : asciiMinus (asciiMinus c) = asciiMinus c := by
  by_cases h : c = '−'
  · rw [h]
    decide
  · rw [asciiMinus_of_ne h, asciiMinus_of_ne h]

theorem asciiMinus_of_isBlank {c : Char} (h : isBlank c) : asciiMinus c = c := by
  apply asciiMinus_of_ne
  rintro rfl
  exact absurd h (by decide)

theorem isBlank_asciiMinus (c : Char) : isBlank (asciiMinus c) = isBlank c := by
  unfold asciiMinus
  split
  · next h =>
    rw [h]
    decide
  · rfl

/-! ## Lines -/

theorem disallowed?_eq_none_iff {offset : ℕ} {cs : List Char} :
    disallowed? offset cs = none ↔ ∀ c ∈ cs, isAllowed c := by
  induction cs generalizing offset with
  | nil => exact iff_of_true rfl nofun
  | cons c cs ih =>
    rw [List.forall_mem_cons, disallowed?]
    by_cases hc : isAllowed c
    · rw [if_pos hc, ih, and_iff_right hc]
    · rw [if_neg hc]
      exact iff_of_false nofun fun h => hc h.1

theorem disallowed?_append {before : List Char} (h : ∀ d ∈ before, isAllowed d) (offset : ℕ)
    (cs : List Char) :
    disallowed? offset (before ++ cs) = disallowed? (offset + utf8Length before) cs := by
  induction before generalizing offset with
  | nil => rfl
  | cons d before ih =>
    obtain ⟨hd, hbefore⟩ := List.forall_mem_cons.mp h
    rw [List.cons_append, disallowed?, if_pos hd, ih hbefore, utf8Length_cons, Nat.add_assoc]

theorem exists_of_disallowed? {offset : ℕ} {cs : List Char} {fault : Fault}
    (h : disallowed? offset cs = some fault) :
    ∃ before c after, cs = before ++ c :: after ∧ (∀ d ∈ before, isAllowed d) ∧ ¬ isAllowed c := by
  induction cs generalizing offset with
  | nil => exact nomatch h
  | cons c cs ih =>
    rw [disallowed?] at h
    by_cases hc : isAllowed c
    · rw [if_pos hc] at h
      obtain ⟨before, d, after, rfl, hbefore, hd⟩ := ih h
      exact ⟨c :: before, d, after, rfl, List.forall_mem_cons.mpr ⟨hc, hbefore⟩, hd⟩
    · exact ⟨[], c, cs, rfl, nofun, hc⟩

/-- The fault points at the first character that is not allowed. -/
theorem disallowed?_eq_some_iff {offset : ℕ} {cs : List Char} {fault : Fault} :
    disallowed? offset cs = some fault ↔ ∃ before c after, cs = before ++ c :: after ∧
      (∀ d ∈ before, isAllowed d) ∧ ¬ isAllowed c ∧
      fault = ⟨.disallowedCharacter c, [⟨offset + utf8Length before,
        offset + utf8Length before + c.utf8Size⟩]⟩ := by
  have hfirst {before after : List Char} {c : Char} (hbefore : ∀ d ∈ before, isAllowed d)
      (hc : ¬ isAllowed c) : disallowed? offset (before ++ c :: after) =
        some ⟨.disallowedCharacter c, [⟨offset + utf8Length before,
          offset + utf8Length before + c.utf8Size⟩]⟩ := by
    rw [disallowed?_append hbefore, disallowed?, if_neg hc]
  constructor
  · intro h
    obtain ⟨before, c, after, rfl, hbefore, hc⟩ := exists_of_disallowed? h
    rw [hfirst hbefore hc] at h
    exact ⟨before, c, after, rfl, hbefore, hc, (Option.some.inj h).symm⟩
  · rintro ⟨before, c, after, rfl, hbefore, hc, rfl⟩
    exact hfirst hbefore hc

/-- A line is valid if it has the header and nothing but allowed characters. -/
theorem validate_eq_ok_iff {line text : String} : validate line = .ok text ↔
    hasHeader line = true ∧ (∀ c ∈ line.toList, isAllowed c) ∧
      text = String.ofList (line.toList.map asciiMinus) := by
  unfold validate requireHeader
  rw [bind_eq_ok_iff, ← @disallowed?_eq_none_iff 0]
  cases hasHeader line with
  | false =>
    refine iff_of_false ?_ fun h => nomatch h.1
    rintro ⟨_, h, -⟩
    exact nomatch h
  | true =>
    cases disallowed? 0 line.toList with
    | some fault =>
      refine iff_of_false ?_ fun h => nomatch h.2.1
      rintro ⟨_, -, h⟩
      exact nomatch h
    | none =>
      constructor
      · rintro ⟨_, -, h⟩
        exact ⟨rfl, rfl, (Except.ok.inj h).symm⟩
      · rintro ⟨-, -, rfl⟩
        exact ⟨(), rfl, rfl⟩

theorem exists_of_validate {line text : String} (h : validate line = .ok text) : ∃ rest,
    line = header ++ rest ∧ text = header ++ String.ofList (rest.toList.map asciiMinus) := by
  obtain ⟨hheader, -, rfl⟩ := validate_eq_ok_iff.mp h
  obtain ⟨rest, rfl⟩ := hasHeader_iff.mp hheader
  refine ⟨rest, rfl, ?_⟩
  apply String.toList_inj.mp
  rw [String.toList_ofList, String.toList_append, String.toList_append, String.toList_ofList,
    List.map_append]
  rfl

/-- A line is refused for its header or for a character. -/
theorem validate_eq_error_iff {line : String} {fault : Fault} : validate line = .error fault ↔
    hasHeader line = false ∧ fault = .missingHeader line ∨
      hasHeader line = true ∧ disallowed? 0 line.toList = some fault := by
  unfold validate requireHeader
  rw [bind_eq_error_iff]
  cases hasHeader line with
  | false => simp [eq_comm]
  | true =>
    cases disallowed? 0 line.toList with
    | some fault' => simp [throw, throwThe, MonadExceptOf.throw]
    | none => simp [pure, Except.pure]

end Fluxion
