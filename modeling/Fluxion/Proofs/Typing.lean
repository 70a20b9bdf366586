import Fluxion.Proofs.Lines
import Fluxion.Session

/-!
# Lines that are typed

* `mem_of_erase?`: backspaces only take characters away.
* `Draft.foldlM_ofClusters`: they take away whole clusters, if these are short.
* `exists_of_erase?_eq_none`: what precedes a backspace that cuts a character.
* `typed`: lines as they are typed, one after the other.
* `kept`: what is kept of a line after its backspaces.
* `Reading.ofBytes_encoded`: a text is read piece by piece.
* `Reading.ofBytes_typed`: what is read of lines that are typed.
-/

namespace Fluxion

/-! ## Backspaces -/

theorem dropBytes?_suffix {n : Nat} {cs ds : List Char} (h : dropBytes? n cs = some ds) :
    ds <:+ cs := by
  induction n, cs using dropBytes?.induct with
  | case1 cs =>
    rw [dropBytes?] at h
    exact Option.some.inj h ▸ List.suffix_rfl
  | case2 n => exact nomatch h
  | case3 n c cs hle ih =>
    rw [dropBytes?, if_pos hle] at h
    exact (ih h).trans (List.suffix_cons c cs)
  | case4 n c cs hle =>
    rw [dropBytes?, if_neg hle] at h
    exact nomatch h

theorem dropBytes?_append (cs ds : List Char) :
    dropBytes? (utf8Length cs) (cs ++ ds) = some ds := by
  induction cs with
  | nil => rw [utf8Length_nil, List.nil_append, dropBytes?]
  | cons c cs ih =>
    obtain ⟨n, hn⟩ := Nat.exists_eq_add_one_of_ne_zero c.utf8Size_pos.ne'
    have hsize : utf8Length (c :: cs) = n + utf8Length cs + 1 := by
      rw [utf8Length_cons, hn, Nat.add_right_comm]
    rw [hsize, List.cons_append, dropBytes?, if_pos (by omega), hn, Nat.add_sub_add_right,
      Nat.add_sub_cancel_left, ih]

theorem utf8Length_reverse (cs : List Char) : utf8Length cs.reverse = utf8Length cs := by
  induction cs with
  | nil => rfl
  | cons c cs ih => simp [ih, Nat.add_comm]

namespace Draft

variable {p : Char → Prop} {d e : Draft}

theorem forall_of_step (hd : ∀ c ∈ d.chars, p c) {cluster : List Char}
    (hcluster : ∀ c ∈ cluster, p c) (h : d.step cluster = some e) : ∀ c ∈ e.chars, p c := by
  unfold step at h
  split at h
  · split at h
    · exact Option.some.inj h ▸ hd
    · obtain ⟨chars, hchars, rfl⟩ := Option.map_eq_some_iff.mp h
      exact fun c hc => hd c ((dropBytes?_suffix hchars).subset hc)
  · obtain rfl := Option.some.inj h
    exact List.forall_mem_append.mpr ⟨fun c hc => hcluster c (List.mem_reverse.mp hc), hd⟩

theorem forall_of_foldlM {clusters : List (List Char)} (hd : ∀ c ∈ d.chars, p c)
    (hclusters : ∀ c ∈ clusters.flatten, p c) (h : clusters.foldlM step d = some e) :
    ∀ c ∈ e.chars, p c := by
  induction clusters generalizing d with
  | nil => exact Option.some.inj h ▸ hd
  | cons cluster clusters ih =>
    rw [List.flatten_cons, List.forall_mem_append] at hclusters
    rw [List.foldlM_cons] at h
    obtain ⟨next, hnext, h⟩ := Option.bind_eq_some_iff.mp h
    exact ih (forall_of_step hd hclusters.1 hnext) hclusters.2 h

/-- A draft of clusters, the last one first, with the sizes that they have. -/
def ofClusters (gs : List (List Char)) : Draft := ⟨gs.flatMap List.reverse, gs.map utf8Length⟩

/-- The clusters of a draft, the last one first, after another one was entered. -/
def enter (gs : List (List Char)) (cluster : List Char) : List (List Char) :=
  if cluster = [backspace] then gs.tail else cluster :: gs

/-- A backspace takes back the cluster before it. -/
theorem step_ofClusters {cluster : List Char} (h : utf8Length cluster < 256)
    (gs : List (List Char)) :
    (ofClusters gs).step cluster = some (ofClusters (enter gs cluster)) := by
  unfold step enter
  split_ifs
  · cases gs with
    | nil => rfl
    | cons g gs =>
      have hdrop : dropBytes? (utf8Length g) (g.reverse ++ gs.flatMap List.reverse) =
          some (gs.flatMap List.reverse) := by
        rw [← utf8Length_reverse, dropBytes?_append]
      simp [ofClusters, hdrop]
  · simp [ofClusters, size, Nat.mod_eq_of_lt h]

theorem foldlM_ofClusters {clusters : List (List Char)}
    (h : ∀ cluster ∈ clusters, utf8Length cluster < 256) (gs : List (List Char)) :
    clusters.foldlM step (ofClusters gs) = some (ofClusters (clusters.foldl enter gs)) := by
  induction clusters generalizing gs with
  | nil => rfl
  | cons cluster clusters ih =>
    obtain ⟨hcluster, hclusters⟩ := List.forall_mem_cons.mp h
    rw [List.foldlM_cons, step_ofClusters hcluster]
    exact ih hclusters _

theorem exists_of_foldlM_eq_none {clusters : List (List Char)} (h : clusters.foldlM step d = none) :
    ∃ before cluster after e, clusters = before ++ cluster :: after ∧
      before.foldlM step d = some e ∧ e.step cluster = none := by
  induction clusters generalizing d with
  | nil => exact nomatch h
  | cons cluster clusters ih =>
    cases hstep : d.step cluster with
    | none => exact ⟨[], cluster, clusters, d, rfl, rfl, hstep⟩
    | some next =>
      rw [List.foldlM_cons, hstep] at h
      obtain ⟨before, last, after, e, rfl, hbefore, hlast⟩ := ih h
      exact ⟨cluster :: before, last, after, e, rfl, by simpa [hstep] using hbefore, hlast⟩

end Draft

/-- A backspace cuts a character only after a cluster of 256 bytes. -/
theorem exists_of_erase?_eq_none {cs : List Char} (h : erase? cs = none) :
    ∃ before after, clusters cs = before ++ [backspace] :: after ∧
      ∃ cluster ∈ before, 256 ≤ utf8Length cluster := by
  obtain ⟨before, cluster, after, d, hclusters, hbefore, hstep⟩ :=
    Draft.exists_of_foldlM_eq_none (Option.map_eq_none_iff.mp h)
  have hcluster : cluster = [backspace] := by
    by_contra hne
    rw [Draft.step, if_neg hne] at hstep
    exact Option.some_ne_none _ hstep
  subst hcluster
  refine ⟨before, after, hclusters, ?_⟩
  -- after short clusters the sizes are right, and the backspace takes back a whole one
  by_contra! hshort
  have hdraft := Draft.foldlM_ofClusters hshort []
  obtain rfl := Option.some.inj (hbefore.symm.trans hdraft)
  rw [Draft.step_ofClusters (by decide)] at hstep
  exact Option.some_ne_none _ hstep

/-- Backspaces only take characters away. -/
theorem mem_of_erase? {cs ds : List Char} (h : erase? cs = some ds) : ∀ c ∈ ds, c ∈ cs := by
  obtain ⟨d, hd, rfl⟩ := Option.map_eq_some_iff.mp h
  have hclusters : ∀ c ∈ (clusters cs).flatten, c ∈ cs := by simp [flatten_clusters]
  intro c hc
  exact Draft.forall_of_foldlM (fun _ hnil => absurd hnil List.not_mem_nil) hclusters hd c
    (List.mem_reverse.mp hc)

/-- What is kept of a line after its backspaces. -/
def kept (line : String) : String := String.ofList ((erase? line.toList).getD [])

/-- A line without a line end in which no backspace cuts a character. -/
structure IsTypable (line : String) : Prop extends IsLineText line.toList where
  isSome : (erase? line.toList).isSome

instance (line : String) : Decidable (IsTypable line) :=
  decidable_of_iff ('\n' ∉ line.toList ∧ '\r' ∉ line.toList ∧ (erase? line.toList).isSome)
    ⟨fun h => ⟨⟨h.1, h.2.1⟩, h.2.2⟩, fun h => ⟨h.lf, h.cr, h.isSome⟩⟩

namespace IsTypable

variable {line : String}

theorem of_notMem (h : IsLineText line.toList) (hbackspace : backspace ∉ line.toList) :
    IsTypable line :=
  ⟨h, by rw [erase?_of_notMem hbackspace, Option.isSome_some]⟩

theorem erase?_eq (h : IsTypable line) : erase? line.toList = some (kept line).toList := by
  obtain ⟨cs, hcs⟩ := Option.isSome_iff_exists.mp h.isSome
  rw [kept, hcs, Option.getD_some, String.toList_ofList]

theorem isLineText_kept (h : IsTypable line) : IsLineText (kept line).toList :=
  ⟨fun hmem => h.lf (mem_of_erase? h.erase?_eq _ hmem),
    fun hmem => h.cr (mem_of_erase? h.erase?_eq _ hmem)⟩

end IsTypable

theorem kept_of_notMem {line : String} (h : backspace ∉ line.toList) : kept line = line := by
  rw [kept, erase?_of_notMem h, Option.getD_some, String.ofList_toList]

/-! ## Reading -/

/-- Lines as they are typed, each with its line end. -/
def typed (lines : List String) : String := String.join (lines.map (· ++ "\n"))

theorem toList_typed_cons (line : String) (lines : List String) :
    (typed (line :: lines)).toList = line.toList ++ '\n' :: (typed lines).toList := by
  simp [typed, String.join_cons]

theorem typed_append (lines more : List String) :
    typed (lines ++ more) = typed lines ++ typed more := by
  simp [typed, String.join_append]

theorem lines_typed {texts : List String} (h : ∀ text ∈ texts, IsLineText text.toList) :
    lines (typed texts).toList = texts.map String.toList := by
  induction texts with
  | nil => rfl
  | cons text texts ih =>
    obtain ⟨htext, htexts⟩ := List.forall_mem_cons.mp h
    rw [toList_typed_cons, htext.lines_line, ih htexts, List.map_cons]

namespace Reading

theorem ofBytes_encoded (cs : List Char) :
    ofBytes (encoded cs) = (pieces '\n' cs).map ofPiece := by
  rw [ofBytes, pieces_encoded, List.map_map]
  refine List.map_congr_left fun piece _ => ?_
  rw [Function.comp_apply, toByteArray_encoded, fromUTF8?_toUTF8]
  change ofPiece (String.ofList piece).toList = ofPiece piece
  rw [String.toList_ofList]

theorem cut_mem_ofBytes_iff {text : String} :
    cut ∈ ofBytes text.toUTF8.data.toList ↔ ∃ line ∈ lines text.toList, erase? line = none := by
  have hpiece (piece : List Char) : ofPiece piece = cut ↔ erase? (chomp piece) = none := by
    unfold ofPiece
    cases erase? (chomp piece) <;> simp
  rw [toList_toUTF8, ofBytes_encoded]
  simp [lines, hpiece]

theorem ofPiece_line {text : String} (h : IsTypable text) :
    ofPiece (text.toList ++ ['\n']) = .line (kept text) := by
  rw [ofPiece, h.chomp_concat, h.erase?_eq]
  change line (String.ofList _) = _
  rw [String.ofList_toList]

/-- What is read of lines that are typed is what is kept of them. -/
theorem ofBytes_typed {texts : List String} (h : ∀ text ∈ texts, IsTypable text) :
    ofBytes (typed texts).toUTF8.data.toList = texts.map fun text => line (kept text) := by
  rw [toList_toUTF8, ofBytes_encoded]
  induction texts with
  | nil => rfl
  | cons text texts ih =>
    obtain ⟨htext, htexts⟩ := List.forall_mem_cons.mp h
    rw [toList_typed_cons, pieces_line htext.lf, List.map_cons, ofPiece_line htext, ih htexts,
      List.map_cons]

end Reading

end Fluxion
