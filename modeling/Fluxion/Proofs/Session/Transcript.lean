import Fluxion.Proofs.Session
import Fluxion.Proofs.Typing

/-!
# Sessions and batches

A session that is told to go on after every function with a derivative shows what a batch over the
same functions writes.

* `Session.withYes`, `Session.run_withYes`: functions with an answer after each that is accepted.
* `Session.Agrees`: a session shows the derivatives and the reports of an output.
* `Session.Agrees.of_contributes`: a single line of a session and of a batch.
* **`Session.run_typed`**: lines that are typed, and the same lines in a batch.
-/

namespace Fluxion

namespace Session

/-! ## Functions with their answers -/

/-- The typed lines, with a `yes` after each that is accepted. -/
def withYes (texts : List String) : List String :=
  texts.flatMap fun text => text :: if accepts (kept text) then ["yes"] else []

/-- What is shown for a function, up to the next one. -/
def shown (line : String) : List Event :=
  .ask .function :: answered line ++ if accepts line then [.ask .again] else []

theorem shown_of_isBlankLine {line : String} (h : Batch.isBlankLine line.toList = true) :
    shown line = [.ask .function] := by
  simp [shown, answered, h, accepts_of_isBlankLine h]

theorem shown_of_derivative {line text : String} (h : Batch.isBlankLine line.toList = false)
    (hanswer : respond line = some (.derivative text)) :
    shown line = [.ask .function, .echo line, .result text, .ask .again] := by
  simp [shown, answered, accepts, h, hanswer]

theorem shown_of_refusal {line : String} {report : Report}
    (h : Batch.isBlankLine line.toList = false)
    (hanswer : respond line = some (.refusal report)) :
    shown line = [.ask .function, .echo line, .refused report] := by
  simp [shown, answered, accepts, h, hanswer]

theorem isTypable_yes : IsTypable "yes" :=
  .of_notMem ⟨by decide, by decide⟩ (by decide)

theorem isTypable_of_mem_withYes {texts : List String} (h : ∀ text ∈ texts, IsTypable text) :
    ∀ text ∈ withYes texts, IsTypable text := by
  intro text hmem
  obtain ⟨line, hline, hmem⟩ := List.mem_flatMap.mp hmem
  rcases List.mem_cons.mp hmem with rfl | hyes
  · exact h _ hline
  · split at hyes
    · exact List.mem_singleton.mp hyes ▸ isTypable_yes
    · exact absurd hyes List.not_mem_nil

theorem runFrom_shown (line : String) (readings : List Reading) :
    runFrom .function (.line line :: (if accepts line then [.line "yes"] else []) ++ readings) =
      (runFrom .function readings).map fun (later, ending) => (shown line ++ later, ending) := by
  have hfunction (rest : List Reading) := @runFrom_line none line nofun rest
  have hyes : saysYes "yes" = true := by decide
  have hanswer := @runFrom_line (some line) "yes" (fun _ => hyes) readings
  cases haccepts : accepts line with
  | true =>
    rw [if_pos rfl, List.cons_append, List.singleton_append]
    calc runFrom .function (.line line :: .line "yes" :: readings)
        = (runFrom (question (some line)) (.line "yes" :: readings)).map
            fun (later, ending) => (exchange none line ++ later, ending) := hfunction _
      _ = (runFrom .function readings).map
            fun (later, ending) => (shown line ++ later, ending) := by
        rw [hanswer, Option.map_map]
        simp [question, exchange, shown, haccepts, accepts_of_saysYes hyes, Function.comp_def]
  | false => simpa [question, exchange, shown, haccepts] using hfunction readings

/-- With the right answers, a session goes from function to function. -/
theorem run_withYes (texts : List String) :
    run ((withYes texts).map fun text => .line (kept text)) =
      some ((texts.map kept).flatMap shown ++ [.ask .function], .endOfInput) := by
  induction texts with
  | nil => rfl
  | cons text texts ih =>
    have hyes : kept "yes" = "yes" := kept_of_notMem (by decide)
    have hreadings : (withYes (text :: texts)).map (fun text => Reading.line (kept text)) =
        .line (kept text) :: (if accepts (kept text) then [.line "yes"] else []) ++
          (withYes texts).map fun text => .line (kept text) := by
      rw [withYes, List.flatMap_cons, List.map_append, List.map_cons, apply_ite (List.map _)]
      rw [List.map_singleton, hyes]
      rfl
    rw [hreadings, run, runFrom_shown]
    change Option.map _ (run _) = _
    rw [ih]
    simp

/-! ## Sessions and batches -/

/-- The derivatives among what is shown. -/
def results (events : List Event) : List String :=
  events.filterMap fun event =>
    match event with
    | .result text => some text
    | _ => none

/-- An output has the derivatives of a session line by line, and its reports. -/
structure Agrees (output : Output) (events : List Event) : Prop where
  results : output.results = typed (results events)
  reports : output.reports = (Session.output events).reports
  isLineText : ∀ text ∈ Session.results events, IsLineText text.toList

namespace Agrees

theorem append {x y : Output} {xs ys : List Event} (hx : Agrees x xs) (hy : Agrees y ys) :
    Agrees ⟨x.results ++ y.results, x.reports ++ y.reports⟩ (xs ++ ys) := by
  have hresults : Session.results (xs ++ ys) = Session.results xs ++ Session.results ys :=
    List.filterMap_append
  refine ⟨?_, ?_, ?_⟩
  · rw [hresults, typed_append, hx.results, hy.results]
  · rw [output, List.map_append, Output.concat_append, hx.reports, hy.reports]
    rfl
  · rw [hresults]
    exact List.forall_mem_append.mpr ⟨hx.isLineText, hy.isLineText⟩

/-- What a line adds to a batch is what a session shows for it. -/
theorem of_contributes {line : String} {out : Output} (h : Batch.Contributes line.toList out) :
    Agrees out (shown line) := by
  cases h with
  | nothing hblank =>
    rw [shown_of_isBlankLine hblank]
    exact ⟨rfl, rfl, List.forall_mem_nil _⟩
  | @derivative rest hblank hanswer hbreak =>
    rw [String.ofList_toList] at hanswer
    rw [shown_of_derivative hblank hanswer]
    have hlf : '\n' ∉ ("f'(x) =" ++ rest).toList := fun hmem => hbreak '\n' hmem (by decide)
    have hcr : '\r' ∉ ("f'(x) =" ++ rest).toList := fun hmem => hbreak '\r' hmem (by decide)
    refine ⟨?_, rfl, List.forall_mem_singleton.mpr ⟨hlf, hcr⟩⟩
    change _ = typed ["f'(x) =" ++ rest]
    simp [typed, String.join_cons]
  | @report _ _ report hblank hfault hreport _ =>
    have hanswer := respond_eq_some_iff.mpr (.refusal hfault hreport)
    rw [String.ofList_toList] at hanswer
    rw [shown_of_refusal hblank hanswer]
    refine ⟨rfl, ?_, List.forall_mem_nil _⟩
    change _ = String.join ["", "", report.text]
    simp only [String.join_cons, String.join_nil, String.empty_append, String.append_empty]

theorem of_forall₂ {texts : List String} {outputs : List Output}
    (h : List.Forall₂ Batch.Contributes (texts.map String.toList) outputs) :
    Agrees (.concat outputs) (texts.flatMap shown) := by
  induction texts generalizing outputs with
  | nil =>
    obtain rfl := List.forall₂_nil_left_iff.mp h
    exact ⟨rfl, rfl, nofun⟩
  | cons text texts ih =>
    obtain ⟨out, outputs, hout, houtputs, rfl⟩ := List.forall₂_cons_left_iff.mp h
    rw [Output.concat_cons, List.flatMap_cons]
    exact (of_contributes hout).append (ih houtputs)

end Agrees

end Session

theorem Batch.functions_intercalate {texts : List String}
    (h : ∀ text ∈ texts, IsLineText text.toList) : functions ("\n".intercalate texts) =
      ((texts.map String.toList).filter (!isBlankLine ·)).map String.ofList := by
  rw [functions, String.toList_intercalate]
  congr 1
  exact filter_lines_intercalate rfl (List.forall_mem_map.mpr h)

end Fluxion
