import Fluxion.Proofs.Batch
import Fluxion.Session

/-!
# Sessions line by line

A session reads its lines one after the other, and what a line is for depends on the line before it
alone: after a function with a derivative it answers the question whether to go on, and otherwise it
is a function itself. It cannot be both, since no function says yes.

* `Session.accepts`: the lines that are functions with a derivative.
* `Session.exchange`, `Session.exchanges`: what is shown before and after lines that are read.
* `Session.runFrom_line`, `Session.runFrom_declined`: one line.
* `Session.runFrom_lines`: lines after which the session goes on.
* **`Session.run_or_declined`**: a session over any lines.
-/

namespace Fluxion

/-! ## What a line is for -/

theorem mem_trimBlank {cs : List Char} {c : Char} (hc : c ∈ cs) (h : ¬ isBlank c) :
    c ∈ trimBlank cs := by
  have hmem {ds : List Char} (hd : c ∈ ds) : c ∈ ds.dropWhile isBlank := by
    rw [← List.takeWhile_append_dropWhile (p := isBlank) (l := ds), List.mem_append] at hd
    exact hd.resolve_left fun htake => h (List.mem_takeWhile_imp htake)
  rw [trimBlank, trimBlankEnd, List.mem_reverse]
  exact hmem (List.mem_reverse.mpr (hmem hc))

namespace Session

/-- Whether a line is a function with a derivative. -/
def accepts (line : String) : Bool :=
  match respond line with
  | some (.derivative _) => true
  | _ => false

theorem accepts_iff {line : String} :
    accepts line = true ↔ ∃ text, respond line = some (.derivative text) := by
  unfold accepts
  split
  · next text h => exact iff_of_true rfl ⟨text, h⟩
  · next h => exact iff_of_false nofun fun ⟨text, htext⟩ => h text htext

theorem mem_of_accepts {line : String} (h : accepts line = true) : 'f' ∈ line.toList := by
  obtain ⟨text, htext⟩ := accepts_iff.mp h
  cases respond_eq_some_iff.mp htext with
  | derivative hvalid _ =>
    obtain ⟨rest, rfl, -⟩ := exists_of_validate hvalid
    rw [String.toList_append]
    exact List.mem_append_left _ (by decide)

theorem accepts_of_isBlankLine {line : String} (h : Batch.isBlankLine line.toList = true) :
    accepts line = false := by
  refine Bool.eq_false_iff.mpr fun haccepts => ?_
  have hblank : isBlank 'f' := List.all_eq_true.mp h 'f' (mem_of_accepts haccepts)
  exact absurd hblank (by decide)

/-- No function says yes. -/
theorem accepts_of_saysYes {line : String} (h : saysYes line = true) : accepts line = false := by
  refine Bool.eq_false_iff.mpr fun haccepts => ?_
  have hmem : Char.toLower 'f' ∈ (trimBlank line.toList).map Char.toLower :=
    List.mem_map_of_mem (mem_trimBlank (mem_of_accepts haccepts) (by decide))
  rw [of_decide_eq_true h] at hmem
  exact absurd hmem (by decide)

/-! ## What is shown for a line -/

/-- What is shown after a line that was read as a function. -/
def answered (line : String) : List Event :=
  if Batch.isBlankLine line.toList then []
  else
    match respond line with
    | some (.derivative text) => [.echo line, .result text]
    | some (.refusal report) => [.echo line, .refused report]
    | none => []

/-- What is shown before and after a line. -/
def exchange (previous : Option String) (line : String) : List Event :=
  if previous.any accepts then [.ask .again] else .ask .function :: answered line

/-- What is shown before and after lines. -/
def exchanges (previous : Option String) : List String → List Event
  | [] => []
  | line :: lines => exchange previous line ++ exchanges (some line) lines

/-- The question after a line. -/
def question (previous : Option String) : Question :=
  if previous.any accepts then .again else .function

variable {previous : Option String} {line : String}

theorem reply_function :
    reply .function line = some (answered line, some (question (some line))) := by
  unfold reply answered question
  rw [Option.any_some]
  cases hblank : Batch.isBlankLine line.toList with
  | true => simp [accepts_of_isBlankLine hblank]
  | false =>
    obtain ⟨answer, hanswer⟩ := exists_respond_of_ne (Batch.ne_empty_of_isBlankLine hblank)
    cases answer <;> simp [accepts, hanswer]

/-! ## One line -/

/-- A session goes on after a line that is a function, or the right answer. -/
theorem runFrom_line (h : previous.any accepts = true → saysYes line = true)
    (readings : List Reading) : runFrom (question previous) (.line line :: readings) =
      (runFrom (question (some line)) readings).map
        fun (later, ending) => (exchange previous line ++ later, ending) := by
  cases hprevious : previous.any accepts with
  | true =>
    have hyes := h hprevious
    simp [question, exchange, hprevious, runFrom, reply, hyes, accepts_of_saysYes hyes]
  | false => simp [question, exchange, hprevious, runFrom, reply_function]

/-- It ends with any other answer. -/
theorem runFrom_declined (hprevious : previous.any accepts = true) (hno : saysYes line = false)
    (readings : List Reading) : runFrom (question previous) (.line line :: readings) =
      some (exchange previous line, .declined) := by
  simp [question, exchange, hprevious, runFrom, reply, hno]

/-! ## Lines -/

/-- After an accepted line the session only goes on with the right answer. -/
def GoesOn (line next : String) : Prop := accepts line = true → saysYes next = true

theorem exchanges_concat (previous : Option String) (lines : List String) (line : String) :
    exchanges previous (lines ++ [line]) =
      exchanges previous lines ++ exchange (lines.getLast?.or previous) line := by
  induction lines generalizing previous with
  | nil => simp [exchanges]
  | cons first lines ih =>
    rw [List.cons_append, exchanges, exchanges, ih, List.append_assoc, List.getLast?_cons]
    cases lines.getLast? <;> rfl

/-- A session reads lines as long as it goes on. -/
theorem runFrom_lines {lines : List String} (h : (previous.toList ++ lines).IsChain GoesOn)
    (readings : List Reading) : runFrom (question previous) (lines.map .line ++ readings) =
      (runFrom (question (lines.getLast?.or previous)) readings).map
        fun (later, ending) => (exchanges previous lines ++ later, ending) := by
  induction lines generalizing previous with
  | nil => simp [exchanges]
  | cons line lines ih =>
    have hnext : ((some line).toList ++ lines).IsChain GoesOn :=
      h.suffix (List.suffix_append _ _)
    have hline : previous.any accepts = true → saysYes line = true := by
      cases previous with
      | none => exact nofun
      | some before => exact (List.isChain_cons_cons.mp h).1
    have hlast : (line :: lines).getLast?.or previous = lines.getLast?.or (some line) := by
      rw [List.getLast?_cons]
      cases lines.getLast? <;> rfl
    rw [List.map_cons, List.cons_append, runFrom_line hline, ih hnext, hlast, Option.map_map]
    congr 1
    funext ⟨later, ending⟩
    simp [exchanges]

theorem isChain_or_break {α : Type} (R : α → α → Prop) (xs : List α) : xs.IsChain R ∨
    ∃ before x y after, xs = before ++ x :: y :: after ∧ (before ++ [x]).IsChain R ∧ ¬ R x y := by
  induction xs using List.reverseRecOn with
  | nil => exact .inl .nil
  | append_singleton xs y ih =>
    rcases ih with hchain | ⟨before, x, z, after, rfl, hchain, hbreak⟩
    · rcases List.eq_nil_or_concat xs with rfl | ⟨before, x, rfl⟩
      · exact .inl (List.isChain_singleton y)
      · by_cases h : R x y
        · refine .inl (List.isChain_append.mpr ⟨hchain, List.isChain_singleton y, ?_⟩)
          simpa using h
        · exact .inr ⟨before, x, y, [], by simp, by simpa using hchain, h⟩
    · exact .inr ⟨before, x, z, after ++ [y], by simp, hchain, hbreak⟩

/-- **A line answers the question whether to go on if the line before it is accepted, and is a
function otherwise.** -/
theorem run_or_declined (lines : List String) :
    (lines.IsChain GoesOn ∧ run (lines.map .line) =
      some (exchanges none lines ++ [.ask (question lines.getLast?)], .endOfInput)) ∨
    ∃ before line answer after, lines = before ++ line :: answer :: after ∧
      (before ++ [line]).IsChain GoesOn ∧ accepts line = true ∧ saysYes answer = false ∧
      run (lines.map .line) = some (exchanges none (before ++ [line, answer]), .declined) := by
  rcases isChain_or_break GoesOn lines with
    hchain | ⟨before, line, answer, after, rfl, hchain, hbreak⟩
  · have hrun := @runFrom_lines none lines hchain []
    rw [List.append_nil, Option.or_none] at hrun
    exact .inl ⟨hchain, hrun⟩
  · obtain ⟨haccepts, hno⟩ := Classical.not_imp.mp hbreak
    have hdeclined : saysYes answer = false := Bool.eq_false_iff.mpr hno
    have hrun := @runFrom_lines none (before ++ [line]) hchain (.line answer :: after.map .line)
    have hprevious : (some line).any accepts = true := haccepts
    rw [List.getLast?_concat, Option.some_or, runFrom_declined hprevious hdeclined] at hrun
    refine .inr ⟨before, line, answer, after, rfl, hchain, haccepts, hdeclined, ?_⟩
    have hlines : (before ++ line :: answer :: after).map Reading.line =
        (before ++ [line]).map .line ++ .line answer :: after.map .line := by simp
    have hexchanges : exchanges none (before ++ [line, answer]) =
        exchanges none (before ++ [line]) ++ exchange (some line) answer := by
      rw [List.append_cons, exchanges_concat, List.getLast?_concat, Option.some_or]
    rw [run, hlines, hexchanges]
    exact hrun

end Session

end Fluxion
