import Fluxion.Proofs.Lexeme.Rule
import Fluxion.Proofs.Span

/-!
# The tokens of a text are its only maximal tokenization

* `append_inj_of_utf8Length`: a text has one beginning of a given number of bytes.
* `Token.Fills`: tokens that stand side by side and fill a range of bytes.
* `IsTokenization`: tokens that fill a text, are written where they stand, and cannot be joined.
* **`isTokenization_iff`**: a text has exactly one tokenization, its tokens, and these are the ones
  that the rules of the lexer cut it into.
-/

namespace Fluxion

theorem append_inj_of_utf8Length {b c x y : List Char} (h : b ++ x = c ++ y)
    (hlength : utf8Length b = utf8Length c) : b = c ∧ x = y := by
  induction b generalizing c with
  | nil =>
    cases c with
    | nil => exact ⟨rfl, h⟩
    | cons d c => exact absurd hlength (utf8Length_pos (List.cons_ne_nil d c)).ne
  | cons d b ih =>
    cases c with
    | nil => exact absurd hlength (utf8Length_pos (List.cons_ne_nil d b)).ne'
    | cons e c =>
      obtain ⟨rfl, htail⟩ := List.cons.inj h
      obtain ⟨rfl, rfl⟩ := ih htail (Nat.add_left_cancel hlength)
      exact ⟨rfl, rfl⟩

/-! ## Tokens side by side -/

namespace Token

/-- Tokens that are not empty stand one after the other from one offset to the other. -/
def Fills : ℕ → List Token → ℕ → Prop
  | start, [], stop => start = stop
  | start, t :: ts, stop =>
    t.span.start = start ∧ t.span.start < t.span.stop ∧ Fills t.span.stop ts stop

theorem Run.fills {start stop : ℕ} {ts : List Token} (h : Run start ts stop) :
    Fills start ts stop := by
  induction h with
  | nil => rfl
  | cons hl _ ih => exact ⟨rfl, Nat.lt_add_of_pos_right (utf8Length_pos hl), ih⟩

end Token

/-- The tokens fill the text, and each has as many characters of its kind as join. -/
structure IsTokenization (source : String) (ts : List Token) : Prop where
  fills : Token.Fills 0 ts source.utf8ByteSize
  slice : ∀ t ∈ ts, IsSlice source t.span (String.ofList t.chars)
  covers : ∀ t ∈ ts, ∀ c ∈ t.chars, t.kind.Covers c
  single : ∀ t ∈ ts, t.kind.joins = false → t.chars.length = 1
  apart : ts.IsChain fun t u => t.kind = u.kind → t.kind.joins = false

/-! ## The tokens are a tokenization -/

theorem isTokenization_tokenize (source : String) : IsTokenization source (tokenize source) := by
  have hscan := Lexeme.isScan_scan source.toList
  rw [← map_toLexeme_tokenize] at hscan
  have hwhole : ∀ t ∈ tokenize source, t.toLexeme.Whole := List.forall_mem_map.mp hscan.whole
  exact
    { fills := utf8ByteSize_eq source ▸ (Token.run_tokenize source).fills
      slice := fun t => Token.isSlice_of_mem
      covers := fun t ht c hc => LexemeKind.covers_iff.mpr ((hwhole t ht).ofChar_eq c hc)
      single := fun t ht => (hwhole t ht).length_eq
      apart := (List.isChain_map _).mp hscan.apart }

/-! ## There is no other -/

/-- Tokens that fill a text are its lexemes, laid out one after the other. -/
theorem IsTokenization.eq_place {source : String} {ts : List Token} {before rest : List Char}
    (hsource : source.toList = before ++ rest)
    (hfills : Token.Fills (utf8Length before) ts source.utf8ByteSize)
    (hslice : ∀ t ∈ ts, IsSlice source t.span (String.ofList t.chars)) :
    ts = Token.place (utf8Length before) (ts.map (·.toLexeme)) ∧ Term.tokenChars ts = rest := by
  induction ts generalizing before rest with
  | nil =>
    have hend : utf8Length before = utf8Length source.toList := by
      rw [← utf8ByteSize_eq]
      exact hfills
    have hnil : source.toList = source.toList ++ [] := (List.append_nil _).symm
    exact ⟨rfl, (append_inj_of_utf8Length (hsource.symm.trans hnil) hend).2.symm⟩
  | cons t ts ih =>
    obtain ⟨hstart, -, htail⟩ := hfills
    obtain ⟨ht, hts⟩ := List.forall_mem_cons.mp hslice
    obtain ⟨b, after, hb, hbstart, hbstop⟩ := ht
    rw [String.toList_ofList] at hb hbstop
    rw [hb, List.append_assoc] at hsource
    obtain ⟨rfl, rfl⟩ := append_inj_of_utf8Length hsource (hbstart.trans hstart)
    rw [← hbstop] at htail
    obtain ⟨hplace, hchars⟩ := ih hb htail hts
    rw [utf8Length_append] at hbstop hplace
    have hspan : t = ⟨t.toLexeme, ⟨utf8Length b, utf8Length b + utf8Length t.chars⟩⟩ := by
      rw [hbstop, ← hstart]
    refine ⟨?_, congrArg (t.chars ++ ·) hchars⟩
    rw [List.map_cons, Token.place_cons, ← hplace, ← hspan]

theorem Token.Fills.lt {start stop : ℕ} {ts : List Token} (h : Fills start ts stop) :
    ∀ t ∈ ts, t.span.start < t.span.stop := by
  induction ts generalizing start with
  | nil => exact fun _ ht => absurd ht List.not_mem_nil
  | cons t ts ih => exact List.forall_mem_cons.mpr ⟨h.2.1, ih h.2.2⟩

theorem IsSlice.text_ne {source text : String} {span : Span} (h : IsSlice source span text)
    (hlt : span.start < span.stop) : text.toList ≠ [] := by
  obtain ⟨before, after, -, hstart, hstop⟩ := h
  intro hnil
  rw [hnil, List.append_nil, hstart] at hstop
  exact hlt.ne hstop

theorem IsTokenization.isScan {source : String} {ts : List Token} (h : IsTokenization source ts) :
    Lexeme.IsScan (ts.map (·.toLexeme)) where
  whole := List.forall_mem_map.mpr fun t ht =>
    { ne_nil := by
        rw [← String.toList_ofList (l := t.chars)]
        exact (h.slice t ht).text_ne (h.fills.lt t ht)
      ofChar_eq := fun c hc => LexemeKind.covers_iff.mp (h.covers t ht c hc)
      length_eq := h.single t ht }
  apart := (List.isChain_map _).mpr h.apart

theorem IsTokenization.eq_tokenize {source : String} {ts : List Token}
    (h : IsTokenization source ts) : ts = tokenize source := by
  have hsource : source.toList = [] ++ source.toList := (List.nil_append _).symm
  obtain ⟨hplace, hchars⟩ := IsTokenization.eq_place hsource h.fills h.slice
  have hscan : Lexeme.scan source.toList = ts.map (·.toLexeme) := by
    rw [← hchars, ← Lexeme.scan_flatMap h.isScan, List.flatMap_map]
    rfl
  rw [tokenize, hscan]
  exact hplace

/-- **The tokens of a text are its only tokenization.** The rules of the lexer cut the text into
them, and no character is lost. -/
theorem isTokenization_iff (source : String) :
    (∀ ts, IsTokenization source ts ↔ ts = tokenize source) ∧
      tokenize source = Token.place 0 (Lexeme.munch source.toList) ∧
      Term.tokenChars (tokenize source) = source.toList := by
  refine ⟨fun ts => ⟨fun h => h.eq_tokenize, ?_⟩, ?_, tokenChars_tokenize source⟩
  · rintro rfl
    exact isTokenization_tokenize source
  · rw [Lexeme.munch_eq, tokenize]

end Fluxion
