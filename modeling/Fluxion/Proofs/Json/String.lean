import Mathlib.Tactic.IntervalCases
import Fluxion.Json.Reader

/-!
# Strings

* `Json.SpellsCodes`: the ways to write codes between quotation marks.
* `Json.spellsCodes_of_readCodes`, `Json.SpellsCodes.readCodes_append`: these are the ways that are
  read.
* `Json.spellsCodes_escape`, `Json.joinPairs_eq_self`: what is written for the codes of a text is
  one of them, and no two of these codes are joined.
-/

namespace Fluxion.Json

/-! ## Escapes -/

/-- The letters that stand for a code point after a backslash. -/
def letterEscapes : List (Char × ℕ) :=
  [('"', 0x22), ('\\', 0x5C), ('/', 0x2F), ('b', 0x08), ('f', 0x0C), ('n', 0x0A), ('r', 0x0D),
    ('t', 0x09)]

/-- A hexadecimal digit of a value, in lower or upper case. -/
def IsHexDigit (c : Char) (n : ℕ) : Prop :=
  n < 16 ∧ (c = n.digitChar ∨ c = n.digitChar.toUpper)

instance (c : Char) (n : ℕ) : Decidable (IsHexDigit c n) :=
  inferInstanceAs (Decidable (n < 16 ∧ (c = n.digitChar ∨ c = n.digitChar.toUpper)))

/-- The ways to write codes between quotation marks. -/
inductive SpellsCodes : List ℕ → List Char → Prop
  | nil : SpellsCodes [] []
  | char {c codes cs} (hquote : c ≠ '"') (hbackslash : c ≠ '\\') (hcontrol : 0x20 ≤ c.toNat)
      (h : SpellsCodes codes cs) : SpellsCodes (c.toNat :: codes) (c :: cs)
  | letter {c n codes cs} (hc : (c, n) ∈ letterEscapes) (h : SpellsCodes codes cs) :
      SpellsCodes (n :: codes) ('\\' :: c :: cs)
  | hex {a b c d i j k l codes cs} (ha : IsHexDigit a i) (hb : IsHexDigit b j)
      (hc : IsHexDigit c k) (hd : IsHexDigit d l) (h : SpellsCodes codes cs) :
      SpellsCodes ((((i * 16 + j) * 16 + k) * 16 + l) :: codes)
        ('\\' :: 'u' :: a :: b :: c :: d :: cs)

theorem isHexDigit_of_le {lo hi c : Char} {n : ℕ} (hlo : lo ≤ c) (hhi : c ≤ hi)
    (h : ∀ m, lo.toNat ≤ m → m ≤ hi.toNat → IsHexDigit (Char.ofNat m) (m - lo.toNat + n)) :
    IsHexDigit c (c.toNat - lo.toNat + n) := by
  have := h c.toNat hlo hhi
  rwa [c.ofNat_toNat] at this

theorem hexValue?_eq_some_iff {c : Char} {n : ℕ} : hexValue? c = some n ↔ IsHexDigit c n := by
  constructor
  · intro h
    unfold hexValue? at h
    split_ifs at h with hdigit hlower hupper <;> obtain rfl := Option.some.inj h
    · exact isHexDigit_of_le (n := 0) hdigit.1 hdigit.2 (by decide)
    · exact isHexDigit_of_le hlower.1 hlower.2 (by decide)
    · exact isHexDigit_of_le hupper.1 hupper.2 (by decide)
  · rintro ⟨hn, rfl | rfl⟩ <;> interval_cases n <;> rfl

theorem hexCode?_eq_some_iff {a b c d : Char} {n : ℕ} :
    hexCode? a b c d = some n ↔ ∃ i j k l, IsHexDigit a i ∧ IsHexDigit b j ∧ IsHexDigit c k ∧
      IsHexDigit d l ∧ ((i * 16 + j) * 16 + k) * 16 + l = n := by
  simp [hexCode?, Option.bind_eq_some_iff, hexValue?_eq_some_iff]

theorem escaped?_eq_some_iff {c : Char} {n : ℕ} :
    escaped? c = some n ↔ (c, n) ∈ letterEscapes := by
  constructor
  · intro h
    unfold escaped? at h
    split_ifs at h with hself hb ht hn hf hr <;> obtain rfl := Option.some.inj h
    · rcases hself with rfl | rfl | rfl <;> decide
    all_goals subst c; decide
  · intro h
    have : ∀ p ∈ letterEscapes, escaped? p.1 = some p.2 := by decide
    exact this _ h

/-! ## Reading -/

theorem spellsCodes_of_readCodes {input : List Char} {codes : List ℕ} {rest : List Char}
    (h : readCodes input = some (codes, rest)) :
    ∃ cs, SpellsCodes codes cs ∧ input = cs ++ '"' :: rest := by
  induction input using readCodes.induct generalizing codes with
  | case1 => simp [readCodes] at h
  | case2 input =>
    obtain ⟨rfl, rfl⟩ : [] = codes ∧ input = rest := by simpa [readCodes] using h
    exact ⟨[], .nil, rfl⟩
  | case3 a b c d input ih =>
    simp only [readCodes, Option.pure_def, Option.bind_eq_bind, Option.bind_eq_some_iff,
      Option.some.injEq, Prod.mk.injEq, Prod.exists, exists_eq_right_right] at h
    obtain ⟨code, hcode, codes, hcodes, rfl⟩ := h
    obtain ⟨i, j, k, l, ha, hb, hc, hd, rfl⟩ := hexCode?_eq_some_iff.1 hcode
    obtain ⟨cs, hcs, rfl⟩ := ih hcodes
    exact ⟨_, .hex ha hb hc hd hcs, rfl⟩
  | case4 c input hu ih =>
    simp only [readCodes.eq_4 c input hu, Option.pure_def, Option.bind_eq_bind,
      Option.bind_eq_some_iff, escaped?_eq_some_iff, Option.some.injEq, Prod.mk.injEq,
      Prod.exists, exists_eq_right_right] at h
    obtain ⟨code, hcode, codes, hcodes, rfl⟩ := h
    obtain ⟨cs, hcs, rfl⟩ := ih hcodes
    exact ⟨_, .letter hcode hcs, rfl⟩
  | case5 c input hquote hu hletter hcontrol =>
    simp [readCodes.eq_5 c input hquote hu hletter, hcontrol] at h
  | case6 c input hquote hu hletter hcontrol ih =>
    simp only [readCodes.eq_5 c input hquote hu hletter, if_neg hcontrol, Option.pure_def,
      Option.bind_eq_bind, Option.bind_eq_some_iff, Option.some.injEq, Prod.mk.injEq,
      Prod.exists, exists_eq_right_right] at h
    obtain ⟨codes, hcodes, rfl⟩ := h
    obtain ⟨cs, hcs, rfl⟩ := ih hcodes
    -- A backslash comes here only as the last character, which no quotation mark follows.
    have hbackslash : c ≠ '\\' := by
      intro hc
      cases cs with
      | nil => exact hletter _ _ hc rfl
      | cons d ds => exact hletter _ _ hc rfl
    exact ⟨_, .char hquote hbackslash (Nat.le_of_not_lt hcontrol) hcs, rfl⟩

theorem SpellsCodes.readCodes_append {codes : List ℕ} {cs : List Char} (h : SpellsCodes codes cs)
    (rest : List Char) : readCodes (cs ++ '"' :: rest) = some (codes, rest) := by
  induction h with
  | nil => rfl
  | char hquote hbackslash hcontrol h ih =>
    rw [List.cons_append, readCodes.eq_5 _ _ hquote (fun _ _ _ _ _ h => absurd h hbackslash)
      (fun _ _ h => absurd h hbackslash), if_neg (Nat.not_lt.2 hcontrol), ih]
    rfl
  | letter hc h ih =>
    have hu : ∀ p ∈ letterEscapes, p.1 ≠ 'u' := by decide
    rw [List.cons_append, List.cons_append,
      readCodes.eq_4 _ _ fun _ _ _ _ _ h => absurd h (hu _ hc), escaped?_eq_some_iff.2 hc, ih]
    rfl
  | hex ha hb hc hd h ih =>
    simp only [List.cons_append]
    rw [readCodes, hexCode?_eq_some_iff.2 ⟨_, _, _, _, ha, hb, hc, hd, rfl⟩, ih]
    rfl

/-! ## Writing -/

theorem spellsCodes_hexEscape {n : ℕ} (hn : n < 0x10000) {codes : List ℕ} {cs : List Char}
    (h : SpellsCodes codes cs) : SpellsCodes (n :: codes) (hexEscape n ++ cs) := by
  have hdigit (m : ℕ) (hm : m < 16) : IsHexDigit m.digitChar m := ⟨hm, .inl rfl⟩
  have hvalue : ((n / 4096 * 16 + n / 256 % 16) * 16 + n / 16 % 16) * 16 + n % 16 = n := by omega
  have hhex := SpellsCodes.hex (hdigit (n / 4096) (by omega)) (hdigit (n / 256 % 16) (by omega))
    (hdigit (n / 16 % 16) (by omega)) (hdigit (n % 16) (by omega)) h
  rwa [hvalue] at hhex

theorem toNat_ofNat {n : ℕ} (hn : n.isValidChar) : (Char.ofNat n).toNat = n := by
  rw [Char.ofNat, dif_pos hn]
  rfl

theorem spellsCodes_escape_append {n : ℕ} (hn : n.isValidChar) {codes : List ℕ} {cs : List Char}
    (h : SpellsCodes codes cs) : SpellsCodes (n :: codes) (escape n ++ cs) := by
  unfold escape
  split_ifs with hquote hbackslash hb ht hn' hf hr hhex
  iterate 7
    · subst n
      exact .letter (by decide) h
  · exact spellsCodes_hexEscape (by omega) h
  · have hchar := SpellsCodes.char (c := Char.ofNat n) (fun hc => hquote ?_)
      (fun hc => hbackslash ?_) ?_ h
    · rwa [toNat_ofNat hn] at hchar
    · rw [← toNat_ofNat hn, hc]
      rfl
    · rw [← toNat_ofNat hn, hc]
      rfl
    · rw [toNat_ofNat hn]
      omega

theorem spellsCodes_escape {codes : List ℕ} (h : ∀ n ∈ codes, n.isValidChar) :
    SpellsCodes codes (codes.flatMap escape) := by
  induction codes with
  | nil => exact .nil
  | cons n codes ih =>
    exact spellsCodes_escape_append (h n List.mem_cons_self)
      (ih fun m hm => h m (List.mem_cons_of_mem n hm))

theorem joinPairs_eq_self {codes : List ℕ} (h : ∀ n ∈ codes, n.isValidChar) :
    joinPairs codes = codes := by
  fun_induction joinPairs codes with
  | case1 high low codes hpair ih =>
    have := h high List.mem_cons_self
    unfold Nat.isValidChar at this
    omega
  | case2 high low codes hpair ih => rw [ih fun n hn => h n (List.mem_cons_of_mem high hn)]
  | case3 codes hcodes => rfl

theorem isValidChar_of_mem_codes {text : String} {n : ℕ} (hn : n ∈ codes text) :
    n.isValidChar := by
  obtain ⟨c, -, rfl⟩ := List.mem_map.1 hn
  exact c.valid

end Fluxion.Json
