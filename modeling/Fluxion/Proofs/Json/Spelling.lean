import Fluxion.Proofs.Json.Number
import Fluxion.Proofs.Json.String

/-!
# Spellings

* `Json.Spells`: the ways to write a value, with spaces wherever they may stand.
* `Json.read?_eq_some_iff`: these are the ways that are read.
* `Json.IsProper.spells_chars`: what is written for a value is one of them.
-/

namespace Fluxion.Json

/-! ## Spaces -/

/-- Characters that may stand between the parts of a value. -/
def IsSpaces (cs : List Char) : Prop := ∀ c ∈ cs, isSpace c

theorem isSpaces_nil : IsSpaces [] := fun _ hc => absurd hc List.not_mem_nil

theorem skipSpace_append {a rest : List Char} (ha : IsSpaces a)
    (hrest : StartsWithout isSpace rest) : skipSpace (a ++ rest) = rest := hrest.dropWhile_append ha

theorem skipSpace_spaces {a : List Char} (c : Char) (rest : List Char) (ha : IsSpaces a)
    (hc : isSpace c = false) : skipSpace (a ++ c :: rest) = c :: rest :=
  skipSpace_append ha (startsWithout_cons hc)

theorem exists_spaces (cs : List Char) : ∃ a, IsSpaces a ∧ cs = a ++ skipSpace cs :=
  ⟨cs.takeWhile isSpace, fun _ => List.mem_takeWhile_imp, List.takeWhile_append_dropWhile.symm⟩

/-! ## Values -/

/-- The ways to write the name of a field, up to the colon after it. -/
def SpellsKey (key : List ℕ) (cs : List Char) : Prop :=
  ∃ a codes ks b, IsSpaces a ∧ SpellsCodes codes ks ∧ IsSpaces b ∧ joinPairs codes = key ∧
    cs = a ++ '"' :: (ks ++ '"' :: (b ++ [':']))

mutual

/-- The ways to write a value. -/
inductive Spells : Json → List Char → Prop
  | null : Spells .null ['n', 'u', 'l', 'l']
  | boolTrue : Spells (.bool true) ['t', 'r', 'u', 'e']
  | boolFalse : Spells (.bool false) ['f', 'a', 'l', 's', 'e']
  | number {literal} (h : IsNumber literal) : Spells (.number literal) literal
  | string {codes cs} (h : SpellsCodes codes cs) :
      Spells (.string (joinPairs codes)) ('"' :: (cs ++ ['"']))
  | emptyArray {a} (ha : IsSpaces a) : Spells (.array []) ('[' :: (a ++ [']']))
  | array {items cs} (h : SpellsItems items cs) : Spells (.array items) ('[' :: cs)
  | emptyObject {a} (ha : IsSpaces a) : Spells (.object []) ('\x7b' :: (a ++ ['\x7d']))
  | object {fields cs} (h : SpellsFields fields cs) : Spells (.object fields) ('\x7b' :: cs)

/-- The ways to write values with commas between them, and the bracket after them. -/
inductive SpellsItems : List Json → List Char → Prop
  | last {a b item cs} (ha : IsSpaces a) (h : Spells item cs) (hb : IsSpaces b) :
      SpellsItems [item] (a ++ (cs ++ (b ++ [']'])))
  | cons {a b item items cs ds} (ha : IsSpaces a) (h : Spells item cs) (hb : IsSpaces b)
      (hs : SpellsItems items ds) : SpellsItems (item :: items) (a ++ (cs ++ (b ++ ',' :: ds)))

/-- The ways to write fields with commas between them, and the brace after them. -/
inductive SpellsFields : List (List ℕ × Json) → List Char → Prop
  | last {a b key value ks cs} (hk : SpellsKey key ks) (ha : IsSpaces a) (h : Spells value cs)
      (hb : IsSpaces b) : SpellsFields [(key, value)] (ks ++ (a ++ (cs ++ (b ++ ['\x7d']))))
  | cons {a b key value fields ks cs ds} (hk : SpellsKey key ks) (ha : IsSpaces a)
      (h : Spells value cs) (hb : IsSpaces b) (hs : SpellsFields fields ds) :
      SpellsFields ((key, value) :: fields) (ks ++ (a ++ (cs ++ (b ++ ',' :: ds))))

end

/-- The texts of a value. -/
def IsText (j : Json) (text : String) : Prop :=
  ∃ a cs b, IsSpaces a ∧ Spells j cs ∧ IsSpaces b ∧ text.toList = a ++ (cs ++ b)

/-! ## Steps of the reader -/

theorem readString_eq_some_iff {input key rest} :
    readString input = some (key, rest) ↔
      ∃ codes cs, SpellsCodes codes cs ∧ joinPairs codes = key ∧ input = cs ++ '"' :: rest := by
  simp only [readString, Option.map_eq_some_iff, Prod.exists, Prod.mk.injEq]
  constructor
  · rintro ⟨codes, rest, hread, hkey, rfl⟩
    obtain ⟨cs, h, rfl⟩ := spellsCodes_of_readCodes hread
    exact ⟨codes, cs, h, hkey, rfl⟩
  · rintro ⟨codes, cs, h, hkey, rfl⟩
    exact ⟨codes, rest, h.readCodes_append rest, hkey, rfl⟩

theorem SpellsKey.exists_read {key : List ℕ} {ks : List Char} (h : SpellsKey key ks)
    (ds : List Char) : ∃ cs rest, skipSpace (ks ++ ds) = '"' :: cs ∧
      readString cs = some (key, rest) ∧ skipSpace rest = ':' :: ds := by
  obtain ⟨a, codes, cs, b, ha, hcodes, hb, hkey, rfl⟩ := h
  refine ⟨cs ++ '"' :: (b ++ ':' :: ds), b ++ ':' :: ds, ?_, ?_, ?_⟩
  · simp only [List.append_assoc, List.cons_append, List.nil_append]
    exact skipSpace_spaces _ _ ha (by decide)
  · exact readString_eq_some_iff.2 ⟨codes, cs, hcodes, hkey, rfl⟩
  · exact skipSpace_spaces _ _ hb (by decide)

theorem exists_spellsKey {key : List ℕ} {input cs rest ds : List Char}
    (hinput : skipSpace input = '"' :: cs) (hread : readString cs = some (key, rest))
    (hcolon : skipSpace rest = ':' :: ds) : ∃ ks, SpellsKey key ks ∧ input = ks ++ ds := by
  obtain ⟨a, ha, hsplit⟩ := exists_spaces input
  obtain ⟨codes, ks, hcodes, hkey, rfl⟩ := readString_eq_some_iff.1 hread
  obtain ⟨b, hb, hrest⟩ := exists_spaces rest
  refine ⟨_, ⟨a, codes, ks, b, ha, hcodes, hb, hkey, rfl⟩, ?_⟩
  rw [hsplit, hinput, hrest, hcolon]
  simp only [List.append_assoc, List.cons_append, List.nil_append]

theorem readValue_number {fuel : ℕ} {input : List Char} {c : Char} {cs : List Char}
    (hc : c.isDigit ∨ c = '-') (h : skipSpace input = c :: cs) : readValue (fuel + 1) input =
      (readNumber (c :: cs)).map fun (literal, rest) => (.number literal, rest) := by
  rw [readValue, h]
  split <;> first | rfl | (next heq => cases heq; exact absurd hc (by decide))

theorem readValue_skipSpace (fuel : ℕ) (input : List Char) :
    readValue fuel (skipSpace input) = readValue fuel input := by
  cases fuel with
  | zero => rw [readValue, readValue]
  | succ fuel =>
    rw [readValue, readValue, skipSpace, skipSpace, startsWithout_dropWhile.dropWhile_eq]

theorem readItems_skipSpace (fuel : ℕ) (input : List Char) :
    readItems fuel (skipSpace input) = readItems fuel input := by
  cases fuel with
  | zero => rw [readItems, readItems]
  | succ fuel => rw [readItems, readItems, readValue_skipSpace]

theorem readFields_skipSpace (fuel : ℕ) (input : List Char) :
    readFields fuel (skipSpace input) = readFields fuel input := by
  cases fuel with
  | zero => rw [readFields, readFields]
  | succ fuel =>
    rw [readFields, readFields, skipSpace, skipSpace, startsWithout_dropWhile.dropWhile_eq]

/-! ## What is read is a spelling -/

/-- What is read with some fuel is spelled so. -/
structure ReadsSpellings (fuel : ℕ) : Prop where
  value {input j rest} (h : readValue fuel input = some (j, rest)) :
    ∃ a cs, IsSpaces a ∧ Spells j cs ∧ input = a ++ (cs ++ rest)
  items {input items rest} (h : readItems fuel input = some (items, rest)) :
    ∃ cs, SpellsItems items cs ∧ input = cs ++ rest
  fields {input fields rest} (h : readFields fuel input = some (fields, rest)) :
    ∃ cs, SpellsFields fields cs ∧ input = cs ++ rest

theorem ReadsSpellings.value_succ {fuel : ℕ} (ih : ReadsSpellings fuel) {input : List Char}
    {j : Json} {rest : List Char} (h : readValue (fuel + 1) input = some (j, rest)) :
    ∃ cs, Spells j cs ∧ skipSpace input = cs ++ rest := by
  rw [readValue] at h
  split at h
  next heq => 
    obtain ⟨rfl, rfl⟩ := Option.some.inj h
    exact ⟨_, .null, heq⟩
  next heq => 
    obtain ⟨rfl, rfl⟩ := Option.some.inj h
    exact ⟨_, .boolTrue, heq⟩
  next heq => 
    obtain ⟨rfl, rfl⟩ := Option.some.inj h
    exact ⟨_, .boolFalse, heq⟩
  next heq =>
    obtain ⟨codes, hread, rfl⟩ := exists_of_map_eq_some h
    obtain ⟨codes, cs, hcs, rfl, rfl⟩ := readString_eq_some_iff.1 hread
    exact ⟨_, .string hcs, by rw [heq]; simp⟩
  next tail heq =>
    obtain ⟨a, ha, htail⟩ := exists_spaces tail
    split at h
    next heq' =>
      obtain ⟨rfl, rfl⟩ := Option.some.inj h
      exact ⟨_, .emptyArray ha, by rw [heq, htail, heq']; simp⟩
    next =>
      rw [readItems_skipSpace] at h
      obtain ⟨items, hread, rfl⟩ := exists_of_map_eq_some h
      obtain ⟨cs, hcs, rfl⟩ := ih.items hread
      exact ⟨_, .array hcs, heq⟩
  next tail heq =>
    obtain ⟨a, ha, htail⟩ := exists_spaces tail
    split at h
    next heq' =>
      obtain ⟨rfl, rfl⟩ := Option.some.inj h
      exact ⟨_, .emptyObject ha, by rw [heq, htail, heq']; simp⟩
    next =>
      rw [readFields_skipSpace] at h
      obtain ⟨fields, hread, rfl⟩ := exists_of_map_eq_some h
      obtain ⟨cs, hcs, rfl⟩ := ih.fields hread
      exact ⟨_, .object hcs, heq⟩
  next =>
    obtain ⟨literal, hread, rfl⟩ := exists_of_map_eq_some h
    obtain ⟨hnumber, heq⟩ := isNumber_of_readNumber hread
    exact ⟨_, .number hnumber, heq⟩

theorem ReadsSpellings.items_succ {fuel : ℕ} (ih : ReadsSpellings fuel) {input : List Char}
    {items : List Json} {rest : List Char} (h : readItems (fuel + 1) input = some (items, rest)) :
    ∃ cs, SpellsItems items cs ∧ input = cs ++ rest := by
  rw [readItems] at h
  split at h
  next => cases h
  next item tail hread =>
    obtain ⟨a, cs, ha, hcs, rfl⟩ := ih.value hread
    obtain ⟨b, hb, htail⟩ := exists_spaces tail
    split at h
    next heq =>
      obtain ⟨rfl, rfl⟩ := Option.some.inj h
      exact ⟨_, .last ha hcs hb, by rw [htail, heq]; simp⟩
    next heq =>
      obtain ⟨items, hread, rfl⟩ := exists_of_map_eq_some h
      obtain ⟨ds, hds, rfl⟩ := ih.items hread
      exact ⟨_, .cons ha hcs hb hds, by rw [htail, heq]; simp⟩
    next => cases h

theorem ReadsSpellings.fields_succ {fuel : ℕ} (ih : ReadsSpellings fuel) {input : List Char}
    {fields : List (List ℕ × Json)} {rest : List Char}
    (h : readFields (fuel + 1) input = some (fields, rest)) :
    ∃ cs, SpellsFields fields cs ∧ input = cs ++ rest := by
  rw [readFields] at h
  split at h
  next keyInput hinput =>
    split at h
    next => cases h
    next key afterKey hkey =>
      split at h
      next valueInput hcolon =>
        obtain ⟨ks, hks, rfl⟩ := exists_spellsKey hinput hkey hcolon
        split at h
        next => cases h
        next value tail hread =>
          obtain ⟨a, cs, ha, hcs, rfl⟩ := ih.value hread
          obtain ⟨b, hb, htail⟩ := exists_spaces tail
          split at h
          next heq =>
            obtain ⟨rfl, rfl⟩ := Option.some.inj h
            exact ⟨_, .last hks ha hcs hb, by rw [htail, heq]; simp⟩
          next heq =>
            obtain ⟨fields, hread, rfl⟩ := exists_of_map_eq_some h
            obtain ⟨ds, hds, rfl⟩ := ih.fields hread
            exact ⟨_, .cons hks ha hcs hb hds, by rw [htail, heq]; simp⟩
          next => cases h
      next => cases h
  next => cases h

theorem readsSpellings (fuel : ℕ) : ReadsSpellings fuel := by
  induction fuel with
  | zero => exact ⟨nofun, nofun, nofun⟩
  | succ fuel ih =>
    refine ⟨fun h => ?_, ih.items_succ, ih.fields_succ⟩
    obtain ⟨cs, hcs, hinput⟩ := ih.value_succ h
    obtain ⟨a, ha, hsplit⟩ := exists_spaces _
    exact ⟨a, cs, ha, hcs, hsplit.trans (congrArg (a ++ ·) hinput)⟩

/-! ## Spellings are read -/

theorem isSpace_iff {c : Char} : isSpace c ↔ c = ' ' ∨ c = '\t' ∨ c = '\n' ∨ c = '\r' := by
  simp [isSpace, or_assoc]

theorem isSpace_eq_false {c : Char} (hc : c.isDigit ∨ c = '-') : isSpace c = false := by
  refine Bool.eq_false_iff.2 fun hspace => ?_
  rcases isSpace_iff.1 hspace with rfl | rfl | rfl | rfl <;> exact absurd hc (by decide)

theorem Spells.exists_cons {j : Json} {cs : List Char} (h : Spells j cs) :
    ∃ c ds, isSpace c = false ∧ c ≠ ']' ∧ cs = c :: ds := by
  cases h with
  | number h =>
    obtain ⟨c, ds, hc, rfl⟩ := h.exists_cons
    refine ⟨c, ds, isSpace_eq_false hc, ?_, rfl⟩
    rintro rfl
    exact absurd hc (by decide)
  | _ => exact ⟨_, _, by decide, by decide, rfl⟩

theorem SpellsItems.skipSpace_append {items : List Json} {cs : List Char}
    (h : SpellsItems items cs) (rest : List Char) :
    ∃ c ds, skipSpace (cs ++ rest) = c :: ds ∧ c ≠ ']' := by
  cases h with
  | last ha h hb | cons ha h hb hs =>
    obtain ⟨c, ds, hspace, hc, rfl⟩ := h.exists_cons
    rw [List.append_assoc]
    exact ⟨c, _, skipSpace_spaces _ _ ha hspace, hc⟩

theorem SpellsFields.skipSpace_append {fields : List (List ℕ × Json)} {cs : List Char}
    (h : SpellsFields fields cs) (rest : List Char) :
    ∃ ds, skipSpace (cs ++ rest) = '"' :: ds := by
  cases h with
  | last hk | cons hk =>
    rw [List.append_assoc]
    obtain ⟨ds, -, hskip, -, -⟩ := hk.exists_read _
    exact ⟨ds, hskip⟩

section

variable {fuel : ℕ} {input cs ds rest a b : List Char} {c : Char}

theorem startsWithout_spaces (hb : IsSpaces b) (hrest : StartsWithout continuesNumber rest) :
    StartsWithout continuesNumber (b ++ rest) := by
  cases b with
  | nil => exact hrest
  | cons d b =>
    rcases isSpace_iff.1 (hb d List.mem_cons_self) with rfl | rfl | rfl | rfl <;>
      exact startsWithout_cons (by decide)

theorem readValue_string {codes : List ℕ} (hinput : skipSpace input = '"' :: cs)
    (h : readString cs = some (codes, rest)) :
    readValue (fuel + 1) input = some (.string codes, rest) := by
  rw [readValue, hinput]
  exact congrArg (Option.map _) h

theorem readValue_emptyArray (hinput : skipSpace input = '[' :: cs)
    (h : skipSpace cs = ']' :: rest) : readValue (fuel + 1) input = some (.array [], rest) := by
  simp only [readValue, hinput, h]

theorem readValue_array {items : List Json} (hinput : skipSpace input = '[' :: cs)
    (hcs : skipSpace cs = c :: ds) (hc : c ≠ ']') (h : readItems fuel cs = some (items, rest)) :
    readValue (fuel + 1) input = some (.array items, rest) := by
  rw [← readItems_skipSpace, hcs] at h
  simp only [readValue, hinput, hcs]
  split
  next heq => cases heq; exact absurd rfl hc
  next => rw [h]; rfl

theorem readValue_emptyObject (hinput : skipSpace input = '\x7b' :: cs)
    (h : skipSpace cs = '\x7d' :: rest) : readValue (fuel + 1) input = some (.object [], rest) := by
  simp only [readValue, hinput, h]

theorem readValue_object {fields : List (List ℕ × Json)} (hinput : skipSpace input = '\x7b' :: cs)
    (hcs : skipSpace cs = c :: ds) (hc : c ≠ '\x7d')
    (h : readFields fuel cs = some (fields, rest)) :
    readValue (fuel + 1) input = some (.object fields, rest) := by
  rw [← readFields_skipSpace, hcs] at h
  simp only [readValue, hinput, hcs]
  split
  next heq => cases heq; exact absurd rfl hc
  next => rw [h]; rfl

end

/-- What is spelled in no more characters than some fuel is read with it. -/
structure ReadsSpelled (fuel : ℕ) : Prop where
  value {input rest j cs} (h : Spells j cs) (hinput : skipSpace input = cs ++ rest)
    (hrest : StartsWithout continuesNumber rest) (hfuel : cs.length ≤ fuel) :
    readValue fuel input = some (j, rest)
  items {rest items cs} (h : SpellsItems items cs) (hfuel : cs.length ≤ fuel) :
    readItems fuel (cs ++ rest) = some (items, rest)
  fields {rest fields cs} (h : SpellsFields fields cs) (hfuel : cs.length ≤ fuel) :
    readFields fuel (cs ++ rest) = some (fields, rest)

namespace ReadsSpelled

variable {fuel : ℕ} (ih : ReadsSpelled fuel) {input rest cs : List Char}

include ih

/-- A value among others is read up to what follows it. -/
theorem value_append {j : Json} {a b : List Char} (c : Char) (ds : List Char) (ha : IsSpaces a)
    (h : Spells j cs) (hb : IsSpaces b) (hc : continuesNumber c = false)
    (hfuel : cs.length ≤ fuel) :
    readValue fuel (a ++ (cs ++ (b ++ c :: ds))) = some (j, b ++ c :: ds) := by
  refine ih.value h (skipSpace_append ha ?_)
    (startsWithout_spaces hb (startsWithout_cons hc)) hfuel
  obtain ⟨d, ds, hd, -, rfl⟩ := h.exists_cons
  exact startsWithout_cons hd

theorem value_succ {j : Json} (h : Spells j cs) (hinput : skipSpace input = cs ++ rest)
    (hrest : StartsWithout continuesNumber rest) (hfuel : cs.length ≤ fuel + 1) :
    readValue (fuel + 1) input = some (j, rest) := by
  cases h with
  | null | boolTrue | boolFalse =>
    simp only [readValue, hinput, List.cons_append, List.nil_append]
  | number h =>
    obtain ⟨c, ds, hc, rfl⟩ := h.exists_cons
    rw [List.cons_append] at hinput
    rw [readValue_number hc hinput, ← List.cons_append, h.readNumber_append hrest]
    rfl
  | string h =>
    rw [List.cons_append, List.append_assoc] at hinput
    exact readValue_string hinput (readString_eq_some_iff.2 ⟨_, _, h, rfl, rfl⟩)
  | emptyArray ha =>
    rw [List.cons_append, List.append_assoc] at hinput
    exact readValue_emptyArray hinput (skipSpace_spaces _ _ ha (by decide))
  | array h =>
    obtain ⟨c, ds, hskip, hc⟩ := h.skipSpace_append rest
    exact readValue_array hinput hskip hc (ih.items h (Nat.le_of_succ_le_succ hfuel))
  | emptyObject ha =>
    rw [List.cons_append, List.append_assoc] at hinput
    exact readValue_emptyObject hinput (skipSpace_spaces _ _ ha (by decide))
  | object h =>
    obtain ⟨ds, hskip⟩ := h.skipSpace_append rest
    exact readValue_object hinput hskip (by decide) (ih.fields h (Nat.le_of_succ_le_succ hfuel))

theorem items_succ {items : List Json} (h : SpellsItems items cs) (hfuel : cs.length ≤ fuel + 1) :
    readItems (fuel + 1) (cs ++ rest) = some (items, rest) := by
  cases h with
  | last ha h hb =>
    simp only [List.length_append, List.length_singleton] at hfuel
    have hvalue := ih.value_append ']' rest ha h hb (by decide) (by omega)
    have hend := skipSpace_spaces ']' rest hb (by decide)
    simp only [List.append_assoc, List.singleton_append, readItems, hvalue, hend]
  | @cons _ _ _ _ _ ds ha h hb hs =>
    simp only [List.length_append, List.length_cons] at hfuel
    have hvalue := ih.value_append ',' (ds ++ rest) ha h hb (by decide) (by omega)
    have hend := skipSpace_spaces ',' (ds ++ rest) hb (by decide)
    simp only [List.append_assoc, List.cons_append, readItems, hvalue, hend,
      ih.items hs (show ds.length ≤ fuel by omega), Option.map_some]

theorem fields_succ {fields : List (List ℕ × Json)} (h : SpellsFields fields cs)
    (hfuel : cs.length ≤ fuel + 1) : readFields (fuel + 1) (cs ++ rest) = some (fields, rest) := by
  cases h with
  | @last a b _ _ _ cs hk ha h hb =>
    simp only [List.length_append, List.length_singleton] at hfuel
    obtain ⟨keyInput, valueInput, hinput, hkey, hcolon⟩ :=
      hk.exists_read (a ++ (cs ++ (b ++ '\x7d' :: rest)))
    have hvalue := ih.value_append '\x7d' rest ha h hb (by decide) (by omega)
    have hend := skipSpace_spaces '\x7d' rest hb (by decide)
    simp only [List.append_assoc, List.singleton_append, readFields, hinput, hkey, hcolon, hvalue,
      hend]
  | @cons a b _ _ _ _ cs ds hk ha h hb hs =>
    simp only [List.length_append, List.length_cons] at hfuel
    obtain ⟨keyInput, valueInput, hinput, hkey, hcolon⟩ :=
      hk.exists_read (a ++ (cs ++ (b ++ ',' :: (ds ++ rest))))
    have hvalue := ih.value_append ',' (ds ++ rest) ha h hb (by decide) (by omega)
    have hend := skipSpace_spaces ',' (ds ++ rest) hb (by decide)
    simp only [List.append_assoc, List.cons_append, readFields, hinput, hkey, hcolon, hvalue, hend,
      ih.fields hs (show ds.length ≤ fuel by omega), Option.map_some]

end ReadsSpelled

theorem readsSpelled (fuel : ℕ) : ReadsSpelled fuel := by
  induction fuel with
  | zero =>
    refine ⟨fun h _ _ hfuel => ?_, fun h hfuel => ?_, fun h hfuel => ?_⟩
    · obtain ⟨c, ds, -, -, rfl⟩ := h.exists_cons
      simp at hfuel
    · cases h <;> simp at hfuel
    · cases h <;> simp at hfuel
  | succ fuel ih => exact ⟨ih.value_succ, ih.items_succ, ih.fields_succ⟩

/-- The texts that are read as a value are those that spell it. -/
theorem read?_eq_some_iff {text : String} {j : Json} : read? text = some j ↔ j.IsText text := by
  unfold read?
  constructor
  · intro h
    split at h
    next j' rest hread =>
      split_ifs at h with hrest
      obtain rfl := Option.some.inj h
      obtain ⟨a, cs, ha, hcs, htext⟩ := (readsSpellings _).value hread
      exact ⟨a, cs, rest, ha, hcs, List.dropWhile_eq_nil_iff.1 hrest, htext⟩
    next => cases h
  · rintro ⟨a, cs, b, ha, hcs, hb, htext⟩
    obtain ⟨c, ds, hc, -, rfl⟩ := hcs.exists_cons
    have hb' : StartsWithout continuesNumber b := by
      rw [← List.append_nil b]
      exact startsWithout_spaces hb nofun
    have hread : readValue (2 * text.toList.length + 1) text.toList = some (j, b) := by
      refine (readsSpelled _).value hcs ?_ hb' ?_
      · rw [htext]
        exact skipSpace_spaces c (ds ++ b) ha hc
      · rw [htext, List.length_append, List.length_append]
        omega
    rw [hread]
    exact if_pos (List.dropWhile_eq_nil_iff.2 hb)

/-! ## Writing -/

/-- Values whose numbers are numbers and whose strings are texts. -/
inductive IsProper : Json → Prop
  | null : IsProper .null
  | bool (value) : IsProper (.bool value)
  | number {literal} (h : IsNumber literal) : IsProper (.number literal)
  | string {codes} (h : ∀ n ∈ codes, n.isValidChar) : IsProper (.string codes)
  | array {items} (h : ∀ item ∈ items, IsProper item) : IsProper (.array items)
  | object {fields} (hkeys : ∀ field ∈ fields, ∀ n ∈ field.1, n.isValidChar)
      (h : ∀ field ∈ fields, IsProper field.2) : IsProper (.object fields)

theorem spells_quote {codes : List ℕ} (h : ∀ n ∈ codes, n.isValidChar) :
    Spells (.string codes) (quote codes) := by
  have := Spells.string (spellsCodes_escape h)
  rwa [joinPairs_eq_self h] at this

theorem spellsKey_quote {key : List ℕ} (h : ∀ n ∈ key, n.isValidChar) :
    SpellsKey key (quote key ++ [':']) :=
  ⟨[], key, _, [], isSpaces_nil, spellsCodes_escape h, isSpaces_nil, joinPairs_eq_self h,
    by simp [quote]⟩

theorem spells_itemChars (item : Json) (items : List Json)
    (h : ∀ j ∈ item :: items, Spells j j.chars) :
    SpellsItems (item :: items) (itemChars (item :: items)) := by
  induction items generalizing item with
  | nil => exact .last isSpaces_nil (h item List.mem_cons_self) isSpaces_nil
  | cons next items ih =>
    exact .cons isSpaces_nil (h item List.mem_cons_self) isSpaces_nil
      (ih next fun j hj => h j (List.mem_cons_of_mem item hj))

theorem spells_fieldChars (field : List ℕ × Json) (fields : List (List ℕ × Json))
    (hkeys : ∀ f ∈ field :: fields, ∀ n ∈ f.1, n.isValidChar)
    (h : ∀ f ∈ field :: fields, Spells f.2 f.2.chars) :
    SpellsFields (field :: fields) (fieldChars (field :: fields)) := by
  induction fields generalizing field with
  | nil =>
    have hlast := SpellsFields.last (spellsKey_quote (hkeys field List.mem_cons_self)) isSpaces_nil
      (h field List.mem_cons_self) isSpaces_nil
    rwa [List.append_assoc] at hlast
  | cons next fields ih =>
    have hcons := SpellsFields.cons (spellsKey_quote (hkeys field List.mem_cons_self)) isSpaces_nil
      (h field List.mem_cons_self) isSpaces_nil
      (ih next (fun f hf => hkeys f (List.mem_cons_of_mem field hf))
        fun f hf => h f (List.mem_cons_of_mem field hf))
    rwa [List.append_assoc] at hcons

/-- What is written for a value is a way to write it. -/
theorem IsProper.spells_chars {j : Json} (h : IsProper j) : Spells j j.chars := by
  induction h with
  | null => exact .null
  | bool value =>
    cases value with
    | false => exact .boolFalse
    | true => exact .boolTrue
  | number h => exact .number h
  | string h => exact spells_quote h
  | @array items h ih =>
    cases items with
    | nil => exact .emptyArray isSpaces_nil
    | cons item items => exact .array (spells_itemChars item items ih)
  | @object fields hkeys h ih =>
    cases fields with
    | nil => exact .emptyObject isSpaces_nil
    | cons field fields => exact .object (spells_fieldChars field fields hkeys ih)

theorem IsProper.isText_write {j : Json} (h : IsProper j) : j.IsText j.write :=
  ⟨[], j.chars, [], isSpaces_nil, h.spells_chars, isSpaces_nil, by simp [write]⟩

end Fluxion.Json
