import Fluxion.Proofs.Token
import Mathlib.Data.List.TakeWhile

/-!
# The term that tokens form

* `Trimmed`: tokens with the whitespace at both ends apart.
* `exists_trimmed`: unless there is nothing but whitespace, tokens can be written that way.
* `Trimmed.ofTokens_eq`, `Term.ofTokens_blank`: the term that tokens form, in either case.
* `Term.exists_append_trimTokens`, `Term.text_ofTokens`: the text of that term.
* `Trimmed.find?_eq`, `Trimmed.find?_reverse_eq`: the ends of the middle part are the first and the
  last token that is not whitespace.
-/

namespace Fluxion

/-- The tokens are a middle part with whitespace around it. -/
structure Trimmed (ts before middle after : List Token) (first last : Token) : Prop where
  eq : ts = before ++ middle ++ after
  before_blank : ∀ t ∈ before, t.isWhitespace
  after_blank : ∀ t ∈ after, t.isWhitespace
  first_eq : ∃ us, middle = first :: us
  last_eq : ∃ us, middle = us ++ [last]
  first_significant : first.isWhitespace = false
  last_significant : last.isWhitespace = false

theorem skipWhitespace_eq {ts us : List Token} {t : Token} (hts : ∀ t ∈ ts, t.isWhitespace)
    (ht : t.isWhitespace = false) : Term.skipWhitespace (ts ++ t :: us) = t :: us := by
  unfold Term.skipWhitespace
  rw [List.dropWhile_append_of_pos hts, List.dropWhile_cons_of_neg (by simpa using ht)]

theorem find?_blank {ts : List Token} (h : ∀ t ∈ ts, t.isWhitespace) :
    ts.find? (!·.isWhitespace) = none :=
  List.find?_eq_none.mpr fun t ht => by simp [h t ht]

theorem find?_blank_append {ts us : List Token} {t : Token} (hts : ∀ t ∈ ts, t.isWhitespace)
    (ht : t.isWhitespace = false) : (ts ++ t :: us).find? (!·.isWhitespace) = some t := by
  rw [List.find?_append, find?_blank hts, Option.none_or,
    List.find?_cons_of_pos (by simpa using ht)]

theorem blank_or_first (ts : List Token) : (∀ t ∈ ts, t.isWhitespace) ∨
    ∃ before t us, ts = before ++ t :: us ∧ (∀ t ∈ before, t.isWhitespace) ∧
      t.isWhitespace = false := by
  induction ts with
  | nil => exact .inl fun _ h => absurd h List.not_mem_nil
  | cons t ts ih =>
    cases ht : t.isWhitespace with
    | false => exact .inr ⟨[], t, ts, rfl, fun _ h => absurd h List.not_mem_nil, ht⟩
    | true =>
      refine ih.imp (fun h => List.forall_mem_cons.mpr ⟨ht, h⟩) ?_
      rintro ⟨before, u, us, rfl, hbefore, hu⟩
      exact ⟨t :: before, u, us, rfl, List.forall_mem_cons.mpr ⟨ht, hbefore⟩, hu⟩

theorem exists_trimmed {ts : List Token} (h : ¬ ∀ t ∈ ts, t.isWhitespace) :
    ∃ before middle after first last, Trimmed ts before middle after first last := by
  obtain ⟨before, first, us, rfl, hbefore, hfirst⟩ := (blank_or_first ts).resolve_left h
  -- seen from the other end, there is a first one as well
  rcases blank_or_first us.reverse with hblank | ⟨after, last, vs, hus, hafter, hlast⟩
  · refine ⟨before, [first], us, first, first, ?_, hbefore, ?_, ⟨[], rfl⟩, ⟨[], rfl⟩, hfirst,
      hfirst⟩
    · rw [List.append_assoc]
      rfl
    · exact fun t ht => hblank t (List.mem_reverse.mpr ht)
  · have hus' : us = vs.reverse ++ [last] ++ after.reverse := by
      rw [← List.reverse_reverse us, hus, List.reverse_append, List.reverse_cons]
    refine ⟨before, first :: (vs.reverse ++ [last]), after.reverse, first, last, ?_, hbefore, ?_,
      ⟨_, rfl⟩, ⟨first :: vs.reverse, rfl⟩, hfirst, hlast⟩
    · rw [hus']
      simp only [List.append_assoc, List.cons_append]
    · exact fun t ht => hafter t (List.mem_reverse.mp ht)

namespace Trimmed

variable {ts before middle after : List Token} {first last : Token}

theorem trimTokens_eq (h : Trimmed ts before middle after first last) :
    Term.trimTokens ts = middle := by
  obtain ⟨us, hfirst⟩ := h.first_eq
  obtain ⟨vs, hlast⟩ := h.last_eq
  have hafter : ∀ t ∈ after.reverse, t.isWhitespace = true := fun t ht =>
    h.after_blank t (List.mem_reverse.mp ht)
  have hskip : ts.dropWhile (·.isWhitespace) = middle ++ after := by
    rw [h.eq, hfirst, List.append_assoc]
    exact skipWhitespace_eq h.before_blank h.first_significant
  rw [Term.trimTokens, hskip, List.reverse_append, List.dropWhile_append_of_pos hafter, hlast,
    List.reverse_append, List.reverse_singleton, List.singleton_append,
    List.dropWhile_cons_of_neg (by simpa using h.last_significant), List.reverse_cons,
    List.reverse_reverse]

/-- The term is written from the first to the last token that is not whitespace. -/
theorem ofTokens_eq (h : Trimmed ts before middle after first last) (sign : Sign) (place : Span) :
    Term.ofTokens sign place ts = ⟨sign, String.ofList (Term.tokenChars middle),
      ⟨first.span.start, last.span.stop⟩⟩ := by
  obtain ⟨us, hfirst⟩ := h.first_eq
  obtain ⟨vs, hlast⟩ := h.last_eq
  have hhead : middle.head? = some first := by rw [hfirst, List.head?_cons]
  have hgetLast : middle.getLast? = some last := by rw [hlast, List.getLast?_concat]
  unfold Term.ofTokens
  rw [h.trimTokens_eq]
  simp only [hhead, hgetLast]

theorem find?_eq (h : Trimmed ts before middle after first last) :
    ts.find? (!·.isWhitespace) = some first := by
  obtain ⟨us, hfirst⟩ := h.first_eq
  rw [h.eq, hfirst, List.append_assoc]
  exact find?_blank_append h.before_blank h.first_significant

theorem find?_reverse_eq (h : Trimmed ts before middle after first last) :
    ts.reverse.find? (!·.isWhitespace) = some last := by
  obtain ⟨vs, hlast⟩ := h.last_eq
  have hreverse : ts.reverse = after.reverse ++ last :: (vs.reverse ++ before.reverse) := by
    rw [h.eq, hlast, List.reverse_append, List.reverse_append, List.reverse_append,
      List.reverse_singleton]
    rfl
  rw [hreverse]
  exact find?_blank_append (fun t ht => h.after_blank t (List.mem_reverse.mp ht))
    h.last_significant

theorem mem_middle (h : Trimmed ts before middle after first last) {t : Token} (ht : t ∈ ts)
    (hsignificant : t.isWhitespace = false) : t ∈ middle := by
  have hne (blank : t.isWhitespace) : False := by
    rw [hsignificant] at blank
    exact Bool.false_ne_true blank
  rw [h.eq, List.mem_append, List.mem_append] at ht
  rcases ht with (ht | ht) | ht
  · exact (hne (h.before_blank t ht)).elim
  · exact ht
  · exact (hne (h.after_blank t ht)).elim

theorem append (h : Trimmed ts before middle after first last) {blanks : List Token}
    (hblanks : ∀ t ∈ blanks, t.isWhitespace) :
    Trimmed (blanks ++ ts) (blanks ++ before) middle after first last :=
  { h with
    eq := by rw [h.eq, List.append_assoc, List.append_assoc, List.append_assoc]
    before_blank := fun t ht => (List.mem_append.mp ht).elim (hblanks t) (h.before_blank t) }

end Trimmed

namespace Term

theorem trimTokens_blank {ts : List Token} (h : ∀ t ∈ ts, t.isWhitespace) : trimTokens ts = [] := by
  unfold trimTokens
  rw [List.dropWhile_eq_nil_iff.mpr h]
  rfl

theorem ofTokens_blank {ts : List Token} (h : ∀ t ∈ ts, t.isWhitespace) (sign : Sign)
    (place : Span) : ofTokens sign place ts = ⟨sign, "", place⟩ := by
  unfold ofTokens
  rw [trimTokens_blank h]
  rfl

theorem exists_append_trimTokens (ts : List Token) : ∃ before after,
    ts = before ++ trimTokens ts ++ after ∧ (∀ t ∈ before, t.isWhitespace) ∧
      ∀ t ∈ after, t.isWhitespace := by
  by_cases h : ∀ t ∈ ts, t.isWhitespace
  · refine ⟨ts, [], ?_, h, fun _ h => absurd h List.not_mem_nil⟩
    rw [trimTokens_blank h, List.append_nil, List.append_nil]
  · obtain ⟨before, middle, after, first, last, htrimmed⟩ := exists_trimmed h
    rw [htrimmed.trimTokens_eq]
    exact ⟨before, after, htrimmed.eq, htrimmed.before_blank, htrimmed.after_blank⟩

theorem filter_trimTokens (ts : List Token) :
    (trimTokens ts).filter (!·.isWhitespace) = ts.filter (!·.isWhitespace) := by
  obtain ⟨before, after, hts, hbefore, hafter⟩ := exists_append_trimTokens ts
  have hblank {ws : List Token} (h : ∀ t ∈ ws, t.isWhitespace) :
      ws.filter (!·.isWhitespace) = [] := List.filter_eq_nil_iff.mpr fun t ht => by simp [h t ht]
  have hfilter := congrArg (List.filter (!·.isWhitespace)) hts
  rw [List.filter_append, List.filter_append, hblank hbefore, hblank hafter, List.nil_append,
    List.append_nil] at hfilter
  exact hfilter.symm

theorem trimTokens_trimTokens (ts : List Token) : trimTokens (trimTokens ts) = trimTokens ts := by
  by_cases h : ∀ t ∈ ts, t.isWhitespace
  · rw [trimTokens_blank h]
    rfl
  · obtain ⟨before, middle, after, first, last, htrimmed⟩ := exists_trimmed h
    have hmiddle : Trimmed middle [] middle [] first last :=
      { htrimmed with
        eq := (List.append_nil middle).symm
        before_blank := nofun
        after_blank := nofun }
    rw [htrimmed.trimTokens_eq, hmiddle.trimTokens_eq]

theorem trimTokens_map {f : Token → Token} (hf : ∀ t, (f t).toLexeme = t.toLexeme)
    (ts : List Token) : trimTokens (ts.map f) = (trimTokens ts).map f := by
  have hblank : (fun t : Token => t.isWhitespace) ∘ f = fun t => t.isWhitespace := by
    funext t
    exact congrArg Lexeme.isWhitespace (hf t)
  unfold trimTokens
  rw [List.dropWhile_map, hblank, ← List.map_reverse, List.dropWhile_map, hblank, List.map_reverse]

theorem tokenChars_map {f : Token → Token} (hf : ∀ t, (f t).toLexeme = t.toLexeme)
    (ts : List Token) : tokenChars (ts.map f) = tokenChars ts := by
  unfold tokenChars
  rw [List.flatMap_map]
  congr 1
  funext t
  exact congrArg Lexeme.chars (hf t)

theorem text_ofTokens (sign : Sign) (place : Span) (ts : List Token) :
    (ofTokens sign place ts).text = String.ofList (tokenChars (trimTokens ts)) := by
  by_cases h : ∀ t ∈ ts, t.isWhitespace
  · rw [ofTokens_blank h, trimTokens_blank h]
    rfl
  · obtain ⟨before, middle, after, first, last, htrimmed⟩ := exists_trimmed h
    rw [htrimmed.ofTokens_eq, htrimmed.trimTokens_eq]

end Term

end Fluxion
