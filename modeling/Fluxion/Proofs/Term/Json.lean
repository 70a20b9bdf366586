import Fluxion.Proofs.Json.Spelling
import Fluxion.Term.Json

/-!
# Terms and their texts

* `Json.field?_eq_some_iff`: the value of a field, in any order of the fields.
* `Sign.Encodes`, `Span.Encodes`, `Term.Encodes`: the values of a sign, a span and a term.
* `Term.ofJson?_eq_some_iff`, `Term.read?_eq_some_iff`: these are the values, and their texts the
  texts, that a term is read from.
* **`Term.read?_write`**: a term is read back from what is written for it, and from every other
  text of one of its values.
-/

namespace Fluxion

namespace Json

/-! ## Strings and natural numbers -/

theorem text?_eq_some_iff {ns : List ℕ} {text : String} :
    text? ns = some text ↔ ns = codes text := by
  constructor
  · intro h
    unfold text? at h
    split_ifs at h with hvalid
    obtain rfl := Option.some.inj h
    rw [codes, String.toList_ofList, List.map_map]
    exact (List.map_id ns).symm.trans
      (List.map_congr_left fun n hn => (toNat_ofNat (hvalid n hn)).symm)
  · rintro rfl
    exact text?_codes text

theorem codes_injective : Function.Injective codes := fun s t h =>
  Option.some.inj ((text?_codes s).symm.trans ((congrArg text? h).trans (text?_codes t)))

theorem string?_eq_some_iff {j : Json} {text : String} :
    j.string? = some text ↔ j = ofString text := by
  cases j <;> simp [string?, ofString, text?_eq_some_iff]

/-- The value of a natural number, in digits alone. -/
def IsNatural (n : ℕ) (j : Json) : Prop :=
  ∃ ds, IsDigits ds ∧ Nat.ofDigitChars 10 ds 0 = n ∧ j = .number ds

theorem isNatural_ofNat (n : ℕ) : IsNatural n (ofNat n) :=
  ⟨_, isDigits_ofNat n, Numeral.ofDigitChars_ofNat n, rfl⟩

theorem natural?_eq_some_iff {j : Json} {n : ℕ} :
    j.natural? = some n ↔ IsNatural n j ∧ n < UInt64.size := by
  cases j with
  | number literal =>
    simp only [natural?, Option.bind_eq_some_iff, readNat?_eq_some_iff,
      Option.ite_none_right_eq_some, Option.some.injEq, IsNatural, number.injEq]
    constructor
    · rintro ⟨m, ⟨hdigits, hvalue⟩, hlt, rfl⟩
      exact ⟨⟨literal, hdigits, hvalue, rfl⟩, hlt⟩
    · rintro ⟨⟨ds, hdigits, hvalue, rfl⟩, hlt⟩
      exact ⟨n, ⟨hdigits, hvalue⟩, hlt, rfl⟩
  | _ => simp [natural?, IsNatural]

/-! ## Fields -/

section

variable {name : String} {fields fields' : List (List ℕ × Json)} {value : Json}

theorem field?_eq_some_iff_filter : field? name fields = some value ↔
    fields.filter (·.1 = codes name) = [(codes name, value)] := by
  unfold field?
  split
  next key value' hfilter =>
    have hkey : (key, value') ∈ fields.filter (·.1 = codes name) := by
      rw [hfilter]
      exact List.mem_cons_self
    obtain rfl : key = codes name := of_decide_eq_true (List.mem_filter.1 hkey).2
    simp [hfilter]
  next hnot =>
    simp only [reduceCtorEq, false_iff]
    exact hnot _ _

/-- The order of the fields does not matter. -/
theorem field?_congr (h : fields.Perm fields') : field? name fields = field? name fields' := by
  refine Option.ext fun value => ?_
  rw [field?_eq_some_iff_filter, field?_eq_some_iff_filter, ← List.perm_singleton,
    ← List.perm_singleton]
  exact ⟨(h.filter _).symm.trans, (h.filter _).trans⟩

theorem field?_cons_of_ne {key : List ℕ} (hkey : key ≠ codes name) :
    field? name ((key, value) :: fields) = field? name fields := by
  simp [field?, hkey]

theorem field?_eq_some_iff : field? name fields = some value ↔
    ∃ others, fields.Perm ((codes name, value) :: others) ∧
      ∀ field ∈ others, field.1 ≠ codes name := by
  constructor
  · intro h
    refine ⟨fields.filter fun field => !decide (field.1 = codes name), ?_, ?_⟩
    · have hperm := List.filter_append_perm (·.1 = codes name) fields
      rw [field?_eq_some_iff_filter.1 h] at hperm
      exact hperm.symm
    · intro field hfield
      simpa using (List.mem_filter.1 hfield).2
  · rintro ⟨others, hperm, hothers⟩
    rw [field?_congr hperm, field?_eq_some_iff_filter, List.filter_cons_of_pos (by simp)]
    simpa using hothers

theorem forall_field?_iff (named : List (String × Json)) (fields : List (List ℕ × Json))
    (hnodup : (named.map Prod.fst).Nodup) :
    (∀ p ∈ named, field? p.1 fields = some p.2) ↔
      ∃ others, fields.Perm (named.map (fun p => (codes p.1, p.2)) ++ others) ∧
        ∀ field ∈ others, ∀ p ∈ named, field.1 ≠ codes p.1 := by
  induction named generalizing fields with
  | nil => exact ⟨fun _ => ⟨fields, .refl fields, by simp⟩, by simp⟩
  | cons p named ih =>
    rw [List.map_cons, List.nodup_cons] at hnodup
    have hne : ∀ q ∈ named, codes p.1 ≠ codes q.1 := fun q hq =>
      codes_injective.ne fun heq => hnodup.1 (List.mem_map.2 ⟨q, hq, heq.symm⟩)
    rw [List.forall_mem_cons]
    constructor
    · rintro ⟨hp, hnamed⟩
      obtain ⟨rest, hperm, hrest⟩ := field?_eq_some_iff.1 hp
      obtain ⟨others, hperm', hothers⟩ := (ih rest hnodup.2).1 fun q hq => by
        rw [← hnamed q hq, field?_congr hperm, field?_cons_of_ne (hne q hq)]
      refine ⟨others, hperm.trans (hperm'.cons _), fun field hfield => ?_⟩
      have hmem := hperm'.mem_iff.2 (List.mem_append_right _ hfield)
      exact List.forall_mem_cons.2 ⟨hrest field hmem, hothers field hfield⟩
    · rintro ⟨others, hperm, hothers⟩
      refine ⟨field?_eq_some_iff.2 ⟨_, hperm, ?_⟩, fun q hq => ?_⟩
      · refine List.forall_mem_append.2
          ⟨?_, fun field hfield => hothers field hfield p List.mem_cons_self⟩
        rw [List.forall_mem_map]
        exact fun q hq => (hne q hq).symm
      · rw [field?_congr hperm, List.map_cons, List.cons_append, field?_cons_of_ne (hne q hq)]
        exact (ih _ hnodup.2).2 ⟨others, .refl _, fun field hfield q hq =>
          hothers field hfield q (List.mem_cons_of_mem p hq)⟩ q hq

end

end Json

/-! ## Signs -/

/-- The values of a sign. -/
inductive Sign.Encodes (s : Sign) : Json → Prop
  | name : s.Encodes (.ofString s.name)
  | object : s.Encodes (.object [(Json.codes s.name, .null)])

theorem Sign.ofName?_eq_some_iff {name : String} {s : Sign} :
    ofName? name = some s ↔ name = s.name := by
  have hne : positive.name ≠ negative.name := by decide
  unfold ofName?
  cases s <;> split_ifs <;> simp_all [eq_comm]

theorem Sign.ofJson?_eq_some_iff {j : Json} {s : Sign} : ofJson? j = some s ↔ s.Encodes j := by
  constructor
  · intro h
    unfold ofJson? at h
    split at h
    · obtain ⟨text, htext, hname⟩ := Option.bind_eq_some_iff.1 h
      rw [Json.text?_eq_some_iff.1 htext, ofName?_eq_some_iff.1 hname]
      exact .name
    · obtain ⟨text, htext, hname⟩ := Option.bind_eq_some_iff.1 h
      rw [Json.text?_eq_some_iff.1 htext, ofName?_eq_some_iff.1 hname]
      exact .object
    · cases h
  · rintro (_ | _) <;>
      exact Option.bind_eq_some_iff.2 ⟨s.name, Json.text?_codes s.name, ofName?_eq_some_iff.2 rfl⟩

/-! ## Spans -/

/-- Both bounds are numbers of 64 bits. -/
def Span.IsBounded (s : Span) : Prop := s.start < UInt64.size ∧ s.stop < UInt64.size

instance (s : Span) : Decidable s.IsBounded :=
  inferInstanceAs (Decidable (s.start < UInt64.size ∧ s.stop < UInt64.size))

/-- The values of a span: an object or an array of its bounds. -/
inductive Span.Encodes (s : Span) : Json → Prop
  | object {start stop fields} (hstart : Json.IsNatural s.start start)
      (hstop : Json.IsNatural s.stop stop)
      (h : fields.Perm [(Json.codes "start", start), (Json.codes "end", stop)]) :
      s.Encodes (.object fields)
  | array {start stop} (hstart : Json.IsNatural s.start start)
      (hstop : Json.IsNatural s.stop stop) : s.Encodes (.array [start, stop])

theorem Span.field?_iff {fields : List (List ℕ × Json)} {start stop : Json} :
    (fields.length = 2 ∧ Json.field? "start" fields = some start ∧
      Json.field? "end" fields = some stop) ↔
      fields.Perm [(Json.codes "start", start), (Json.codes "end", stop)] := by
  have hiff := Json.forall_field?_iff [("start", start), ("end", stop)] fields
    (by simp only [List.map_cons, List.map_nil]; decide)
  simp only [List.forall_mem_cons, List.not_mem_nil, false_imp_iff, implies_true, and_true,
    List.map_cons, List.map_nil] at hiff
  rw [hiff]
  constructor
  · rintro ⟨hlength, others, hperm, -⟩
    have hothers := hperm.length_eq
    rw [hlength, List.length_append, List.length_cons, List.length_singleton] at hothers
    rwa [List.eq_nil_of_length_eq_zero (by omega : others.length = 0), List.append_nil] at hperm
  · intro hperm
    exact ⟨hperm.length_eq, [], hperm, fun _ hfield => absurd hfield List.not_mem_nil⟩

theorem Span.ofJson?_eq_some_iff {j : Json} {s : Span} :
    ofJson? j = some s ↔ s.Encodes j ∧ s.IsBounded := by
  constructor
  · intro h
    unfold ofJson? at h
    split at h
    · split_ifs at h with hlength
      simp only [Option.pure_def, Option.bind_eq_bind, Option.bind_eq_some_iff, Option.some.injEq,
        Json.natural?_eq_some_iff] at h
      obtain ⟨start, hs, a, ⟨hstart, ha⟩, stop, he, b, ⟨hstop, hb⟩, rfl⟩ := h
      exact ⟨.object hstart hstop (field?_iff.1 ⟨hlength, hs, he⟩), ha, hb⟩
    · simp only [Option.pure_def, Option.bind_eq_bind, Option.bind_eq_some_iff, Option.some.injEq,
        Json.natural?_eq_some_iff] at h
      obtain ⟨a, ⟨hstart, ha⟩, b, ⟨hstop, hb⟩, rfl⟩ := h
      exact ⟨.array hstart hstop, ha, hb⟩
    · cases h
  · rintro ⟨h, ha, hb⟩
    cases h with
    | object hstart hstop hperm =>
      obtain ⟨hlength, hs, he⟩ := field?_iff.2 hperm
      simp only [ofJson?, if_pos hlength, hs, he, Option.bind_eq_bind, Option.bind_some,
        Json.natural?_eq_some_iff.2 ⟨hstart, ha⟩, Json.natural?_eq_some_iff.2 ⟨hstop, hb⟩,
        Option.pure_def]
    | array hstart hstop =>
      simp only [ofJson?, Json.natural?_eq_some_iff.2 ⟨hstart, ha⟩,
        Json.natural?_eq_some_iff.2 ⟨hstop, hb⟩, Option.bind_eq_bind, Option.bind_some,
        Option.pure_def]

/-! ## Terms -/

/-- The values of a term: an object with its three fields among others, or an array. -/
inductive Term.Encodes (t : Term) : Json → Prop
  | object {sign span others fields} (hsign : t.sign.Encodes sign) (hspan : t.span.Encodes span)
      (hothers : ∀ field ∈ others, ∃ name ∉ ["sign", "text", "span"], field.1 = Json.codes name)
      (h : fields.Perm ((Json.codes "sign", sign) :: (Json.codes "text", .ofString t.text) ::
        (Json.codes "span", span) :: others)) : t.Encodes (.object fields)
  | array {sign span} (hsign : t.sign.Encodes sign) (hspan : t.span.Encodes span) :
      t.Encodes (.array [sign, .ofString t.text, span])

theorem Term.ofParts?_eq_some_iff {sign text span : Json} {t : Term} :
    ofParts? sign text span = some t ↔ t.sign.Encodes sign ∧ text = .ofString t.text ∧
      t.span.Encodes span ∧ t.span.IsBounded := by
  simp only [ofParts?, Option.pure_def, Option.bind_eq_bind, Option.bind_eq_some_iff,
    Option.some.injEq, Sign.ofJson?_eq_some_iff, Json.string?_eq_some_iff,
    Span.ofJson?_eq_some_iff]
  constructor
  · rintro ⟨s, hsign, text, htext, span, hspan, rfl⟩
    exact ⟨hsign, htext, hspan⟩
  · rintro ⟨hsign, htext, hspan⟩
    exact ⟨t.sign, hsign, t.text, htext, t.span, hspan, rfl⟩

theorem Term.field?_iff {fields : List (List ℕ × Json)} {sign text span : Json} :
    ((∀ field ∈ fields, (Json.text? field.1).isSome) ∧ Json.field? "sign" fields = some sign ∧
      Json.field? "text" fields = some text ∧ Json.field? "span" fields = some span) ↔
    ∃ others, (∀ field ∈ others, ∃ name ∉ ["sign", "text", "span"], field.1 = Json.codes name) ∧
      fields.Perm ((Json.codes "sign", sign) :: (Json.codes "text", text) ::
        (Json.codes "span", span) :: others) := by
  have hiff := Json.forall_field?_iff [("sign", sign), ("text", text), ("span", span)] fields
    (by simp only [List.map_cons, List.map_nil]; decide)
  simp only [List.forall_mem_cons, List.not_mem_nil, false_imp_iff, implies_true, and_true,
    List.map_cons, List.map_nil, List.cons_append, List.nil_append] at hiff
  rw [hiff]
  constructor
  · rintro ⟨hnames, others, hperm, hothers⟩
    refine ⟨others, fun field hfield => ?_, hperm⟩
    have hmem : field ∈ fields := hperm.mem_iff.2 (by simp [hfield])
    obtain ⟨name, hname⟩ := Option.isSome_iff_exists.1 (hnames field hmem)
    have hcodes := Json.text?_eq_some_iff.1 hname
    have hne := hothers field hfield
    simp only [hcodes, Json.codes_injective.ne_iff] at hne
    exact ⟨name, by simpa using hne, hcodes⟩
  · rintro ⟨others, hothers, hperm⟩
    refine ⟨fun field hfield => ?_, others, hperm, fun field hfield => ?_⟩
    · have hmem := hperm.mem_iff.1 hfield
      simp only [List.mem_cons] at hmem
      rcases hmem with rfl | rfl | rfl | hmem
      · simp
      · simp
      · simp
      · obtain ⟨name, -, hname⟩ := hothers field hmem
        simp [hname]
    · obtain ⟨name, hname, hcodes⟩ := hothers field hfield
      simp only [hcodes, Json.codes_injective.ne_iff]
      simpa using hname

theorem Term.ofJson?_eq_some_iff {j : Json} {t : Term} :
    ofJson? j = some t ↔ t.Encodes j ∧ t.span.IsBounded := by
  constructor
  · intro h
    unfold ofJson? at h
    split at h
    · split_ifs at h with hnames
      simp only [Option.bind_eq_bind, Option.bind_eq_some_iff, ofParts?_eq_some_iff] at h
      obtain ⟨sign, hs, text, ht, span, hp, hsign, rfl, hspan, hbounded⟩ := h
      obtain ⟨others, hothers, hperm⟩ := field?_iff.1 ⟨hnames, hs, ht, hp⟩
      exact ⟨.object hsign hspan hothers hperm, hbounded⟩
    · rw [ofParts?_eq_some_iff] at h
      obtain ⟨hsign, rfl, hspan, hbounded⟩ := h
      exact ⟨.array hsign hspan, hbounded⟩
    · cases h
  · rintro ⟨h, hbounded⟩
    cases h with
    | object hsign hspan hothers hperm =>
      obtain ⟨hnames, hs, ht, hp⟩ := field?_iff.2 ⟨_, hothers, hperm⟩
      simp only [ofJson?, if_pos hnames, hs, ht, hp, Option.bind_eq_bind, Option.bind_some]
      exact ofParts?_eq_some_iff.2 ⟨hsign, rfl, hspan, hbounded⟩
    | array hsign hspan => exact ofParts?_eq_some_iff.2 ⟨hsign, rfl, hspan, hbounded⟩

/-- The texts that are read as a term are those of its values. -/
theorem Term.read?_eq_some_iff {text : String} {t : Term} :
    read? text = some t ↔ ∃ j : Json, j.IsText text ∧ t.Encodes j ∧ t.span.IsBounded := by
  simp only [read?, Option.bind_eq_some_iff, Json.read?_eq_some_iff, ofJson?_eq_some_iff]

example : Term.read?
    "\x7b\"span\": [3, 1], \"text\": \"\\u0078\", \"n\": [], \"sign\": \"Negative\"\x7d" =
      some ⟨.negative, "x", ⟨3, 1⟩⟩ := by cbv

/-! ## Written terms -/

theorem Term.encodes_toJson (t : Term) : t.Encodes t.toJson :=
  .object .name (.object (Json.isNatural_ofNat _) (Json.isNatural_ofNat _) (.refl _))
    (fun _ hfield => absurd hfield List.not_mem_nil) (.refl _)

theorem Json.isProper_object (named : List (String × Json)) (h : ∀ p ∈ named, p.2.IsProper) :
    IsProper (.object (named.map fun p => (codes p.1, p.2))) := by
  refine .object (List.forall_mem_map.2 fun p _ n hn => isValidChar_of_mem_codes hn) ?_
  exact List.forall_mem_map.2 h

theorem Json.isProper_ofString (text : String) : (ofString text).IsProper :=
  .string fun _ => isValidChar_of_mem_codes

theorem Json.isProper_ofNat (n : ℕ) : (ofNat n).IsProper := .number (isNumber_ofNat n)

theorem Span.isProper_toJson (s : Span) : s.toJson.IsProper := by
  refine Json.isProper_object [("start", .ofNat s.start), ("end", .ofNat s.stop)] ?_
  simp [Json.isProper_ofNat]

theorem Term.isProper_toJson (t : Term) : t.toJson.IsProper := by
  refine Json.isProper_object [("sign", .ofString t.sign.name), ("text", .ofString t.text),
    ("span", t.span.toJson)] ?_
  simp [Json.isProper_ofString, Span.isProper_toJson]

theorem Term.isText_write (t : Term) : t.toJson.IsText t.write := t.isProper_toJson.isText_write

/-- **A term is read back from what is written for it**, and it is read from every text of one of
its values and from no other text. -/
theorem Term.read?_write {t : Term} (ht : t.span.IsBounded) :
    read? t.write = some t ∧
      (∀ text : String, read? text = some t ↔ ∃ j : Json, j.IsText text ∧ t.Encodes j) ∧
      ∀ (text : String) (u : Term), read? text = some u → read? u.write = some u := by
  have hwrite (u : Term) (hu : u.span.IsBounded) : read? u.write = some u :=
    read?_eq_some_iff.2 ⟨u.toJson, u.isText_write, u.encodes_toJson, hu⟩
  refine ⟨hwrite t ht, fun text => ?_, fun text u hu => ?_⟩
  · simp only [read?_eq_some_iff, ht, and_true]
  · obtain ⟨j, -, -, hbounded⟩ := read?_eq_some_iff.1 hu
    exact hwrite u hbounded

theorem Term.read?_write_escaped :
    (⟨UInt64.size - 1, 0⟩ : Span).IsBounded ∧
      read? (write ⟨.negative, "\"3x\\\n\x00", ⟨UInt64.size - 1, 0⟩⟩) =
        some ⟨.negative, "\"3x\\\n\x00", ⟨UInt64.size - 1, 0⟩⟩ :=
  ⟨by decide, (read?_write (t := ⟨.negative, _, ⟨UInt64.size - 1, 0⟩⟩) (by decide)).1⟩

end Fluxion
