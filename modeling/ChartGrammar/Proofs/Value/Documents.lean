import ChartGrammar.Proofs.Value.Data
import ChartGrammar.Proofs.Value.Reading

/-! Documents of data. Data have one exactly if they can be written. Its text is that of the canonical form, written
without any sorting, and reading it gives the canonical form back; so two data have one text exactly if they agree. -/

namespace ChartGrammar

namespace Entries

/-- Entries whose keys all differ are the entries of the dictionary that is made from them. -/
theorem ofList_eq_self {es : Entries} (h : es.Pairwise fun e f => e.1.same f.1 = false) : ofList es = es := by
  have hfold (acc es : Entries) (h : (acc ++ es).Pairwise fun e f => e.1.same f.1 = false) :
      es.foldl (fun acc e => acc.insert e.1 e.2) acc = acc ++ es := by
    induction es generalizing acc with
    | nil => simp
    | cons e es ih =>
        have hnew : (acc.any fun f => f.1.same e.1) = false := by
          rw [List.any_eq_false]
          intro f hf
          simpa using (List.pairwise_append.mp h).2.2 f hf e List.mem_cons_self
        rw [List.foldl_cons, insert, hnew, if_neg Bool.false_ne_true, ih, List.append_assoc]
        · rfl
        · simpa using h
  exact hfold [] es h

end Entries

namespace Value

open JsonReader

variable {v w : Value} {xs : List Value} {es : Entries} {depth : Nat}

/-! ### Writing -/

mutual

/-- Whether every key of a value has a display, at any depth. -/
def keysLegible : Value → Bool
  | list xs => itemKeysLegible xs
  | tuple xs => itemKeysLegible xs
  | dict es => entryKeysLegible es
  | _ => true

/-- Whether every key of the items has a display. -/
def itemKeysLegible : List Value → Bool
  | [] => true
  | v :: vs => keysLegible v && itemKeysLegible vs

/-- Whether every key has a display, and every key of the values. -/
def entryKeysLegible : Entries → Bool
  | [] => true
  | (k, v) :: es => k.legible && keysLegible v && entryKeysLegible es

end

mutual

/-- The text of a value in canonical form at a depth of nesting, with the entries in the order in which they stand. -/
def spell (depth : Nat) : Value → String
  | null => "null"
  | bool b => if b then "true" else "false"
  | int n => (Number.whole n).text
  | text s => jsonText s
  | list xs => jsonBlock "[" "]" depth (spellItems (depth + 1) xs)
  | dict es => jsonBlock "\x7b" "\x7d" depth (spellEntries (depth + 1) es)
  | _ => ""

/-- The texts of the items. -/
def spellItems (depth : Nat) : List Value → List String
  | [] => []
  | v :: vs => spell depth v :: spellItems depth vs

/-- The texts of the entries. -/
def spellEntries (depth : Nat) : Entries → List String
  | [] => []
  | (k, v) :: es => (jsonText k.display ++ ": " ++ spell depth v) :: spellEntries depth es

end

theorem spellItems_eq_map : spellItems depth xs = xs.map (spell depth) := by
  induction xs with
  | nil => rfl
  | cons x xs ih => simp [spellItems, ih]

theorem spellEntries_eq_map :
    spellEntries depth es = es.map fun e => jsonText e.1.display ++ ": " ++ spell depth e.2 := by
  induction es with
  | nil => rfl
  | cons e es ih => simp [spellEntries, ih]

theorem itemKeysLegible_iff : itemKeysLegible xs = true ↔ ∀ x ∈ xs, x.keysLegible = true := by
  induction xs with
  | nil => simp [itemKeysLegible]
  | cons x xs ih => simp [itemKeysLegible, ih]

theorem entryKeysLegible_iff :
    entryKeysLegible es = true ↔ ∀ e ∈ es, e.1.legible = true ∧ e.2.keysLegible = true := by
  induction es with
  | nil => simp [entryKeysLegible]
  | cons e es ih => simp [entryKeysLegible, ih]

theorem plainItems_eq_map : plainItems xs = xs.map plain := by
  induction xs with
  | nil => rfl
  | cons x xs ih => simp [plainItems, ih]

theorem plainEntries_eq_map : plainEntries es = es.map fun e => (text e.1.display, e.2.plain) := by
  induction es with
  | nil => rfl
  | cons e es ih => simp [plainEntries, ih]

/-- Entries under pairwise different texts are the entries of the dictionary that is made from them. -/
theorem ofList_eq_self (htexts : ∀ e ∈ es, ∃ s, e.1 = text s) (hkeys : (es.map (·.1)).Nodup) :
    Entries.ofList es = es := by
  refine Entries.ofList_eq_self ?_
  rw [List.Nodup, List.pairwise_map] at hkeys
  refine hkeys.imp_of_mem fun {e f} he _ hne => ?_
  obtain ⟨s, hs⟩ := htexts e he
  rw [← Bool.not_eq_true, hs, same_text_iff, ← hs]
  exact fun heq => hne heq.symm

/-- A dictionary under pairwise different texts keeps its keys and their order in the plain form. -/
theorem plain_dict (htexts : ∀ e ∈ es, ∃ s, e.1 = text s) (hkeys : (es.map (·.1)).Nodup) :
    (dict es).plain = dict (es.map fun e => (e.1, e.2.plain)) := by
  have hsame : (es.map fun e => (text e.1.display, e.2.plain)) = es.map fun e => (e.1, e.2.plain) := by
    refine List.map_congr_left fun e he => ?_
    obtain ⟨s, hs⟩ := htexts e he
    rw [hs, display]
  rw [plain, plainEntries_eq_map, hsame, ofList_eq_self]
  · exact List.forall_mem_map.mpr htexts
  · rwa [List.map_map]

/-- A value has its plain form unless a key in it has no display. -/
theorem jsonable_eq : v.jsonable = if v.keysLegible then .ok v.plain else .error .tooLong := by
  have hitems {xs : List Value} (h : ∀ x ∈ xs, x.jsonable = if x.keysLegible then .ok x.plain else .error .tooLong) :
      jsonableItems xs = if itemKeysLegible xs then .ok (plainItems xs) else .error .tooLong := by
    induction xs with
    | nil => rfl
    | cons x xs ih =>
        rw [List.forall_mem_cons] at h
        rw [jsonableItems, h.1, ih h.2, itemKeysLegible, plainItems]
        cases x.keysLegible <;> cases itemKeysLegible xs <;> rfl
  induction v using Value.induction with
  | null | bool | int | float | text | unset | column | literal => rfl
  | list xs ih | tuple xs ih =>
      rw [jsonable, hitems ih, keysLegible, plain]
      cases itemKeysLegible xs <;> rfl
  | dict es ih =>
      have hentries : jsonableEntries es = if entryKeysLegible es then .ok (plainEntries es) else .error .tooLong := by
        induction es with
        | nil => rfl
        | cons e es ihes =>
            rw [List.forall_mem_cons] at ih
            rw [jsonableEntries, ih.1.2, ihes ih.2, entryKeysLegible, plainEntries, present]
            cases e.1.legible <;> cases e.2.keysLegible <;> cases entryKeysLegible es <;> rfl
      rw [jsonable, hentries, keysLegible, plain]
      cases entryKeysLegible es <;> rfl

theorem jsonItems_map {f : Value → Value} {g : Value → String} (h : ∀ x ∈ xs, jsonAt depth (f x) = .ok (g x)) :
    jsonItems depth (xs.map f) = .ok (xs.map g) := by
  induction xs with
  | nil => rfl
  | cons x xs ih =>
      rw [List.forall_mem_cons] at h
      rw [List.map_cons, jsonItems, h.1, ih h.2]
      rfl

theorem jsonEntries_map {f : Value → Value} {g : Value → String} (h : ∀ e ∈ es, jsonAt depth (f e.2) = .ok (g e.2)) :
    jsonEntries depth (es.map fun e => (e.1, f e.2)) = es.map fun e => (e.1, .ok (g e.2)) := by
  induction es with
  | nil => rfl
  | cons e es ih =>
      rw [List.forall_mem_cons] at h
      rw [List.map_cons, jsonEntries, h.1, ih h.2]
      rfl

/-- Items under texts are sorted by the displays of the keys. -/
theorem sortByKey_texts {α : Type} {items : List (Value × α)} (htexts : ∀ e ∈ items, ∃ s, e.1 = text s) :
    sortByKey items = .ok (items.mergeSort fun a b => decide (a.1.display ≤ b.1.display)) := by
  obtain ⟨texts, htexts⟩ : ∃ texts, withTextKeys? items = some texts := by
    induction items with
    | nil => exact ⟨[], rfl⟩
    | cons item items ih =>
        rw [List.forall_mem_cons] at htexts
        obtain ⟨⟨s, hs⟩, hrest⟩ := htexts
        obtain ⟨texts, hrest⟩ := ih hrest
        obtain ⟨k, a⟩ := item
        cases hs
        exact ⟨(s, a) :: texts, by rw [withTextKeys?, hrest]; rfl⟩
  rw [sortByKey, htexts, ← map_withTextKeys? htexts]
  refine congrArg Except.ok (List.map_mergeSort fun a _ b _ => ?_)
  rw [display, display, ← decide_not]
  rfl

theorem mapM_jsonEntry {lines : List (Value × String)} (htexts : ∀ e ∈ lines, ∃ s, e.1 = text s) :
    (lines.map fun e => (e.1, Except.ok e.2)).mapM jsonEntry =
      .ok (lines.map fun e => jsonText e.1.display ++ ": " ++ e.2) := by
  induction lines with
  | nil => rfl
  | cons line lines ih =>
      rw [List.forall_mem_cons] at htexts
      obtain ⟨⟨s, hs⟩, hrest⟩ := htexts
      obtain ⟨k, written⟩ := line
      cases hs
      rw [List.map_cons, List.mapM_cons, ih hrest]
      rfl

/-- If its values can be written, a dictionary under texts is written in the order of its keys. -/
theorem jsonAt_dict {lines : List (Value × String)}
    (hwritten : jsonEntries (depth + 1) es = lines.map fun e => (e.1, .ok e.2))
    (htexts : ∀ e ∈ lines, ∃ s, e.1 = text s) :
    jsonAt depth (dict es) = .ok (jsonBlock "\x7b" "\x7d" depth
      ((lines.mergeSort fun a b => decide (a.1.display ≤ b.1.display)).map
        fun e => jsonText e.1.display ++ ": " ++ e.2)) := by
  have htexts' : ∀ e ∈ lines.mergeSort fun a b => decide (a.1.display ≤ b.1.display), ∃ s, e.1 = text s :=
    fun e he => htexts e (List.mem_mergeSort.mp he)
  have hsort : sortByKey (lines.map fun e => (e.1, (Except.ok e.2 : Except Misuse String))) =
      .ok ((lines.mergeSort fun a b => decide (a.1.display ≤ b.1.display)).map fun e => (e.1, .ok e.2)) := by
    rw [sortByKey_texts fun e he => ?_]
    · refine congrArg Except.ok (Eq.symm ?_)
      exact List.map_mergeSort fun _ _ _ _ => rfl
    · obtain ⟨line, hline, rfl⟩ := List.mem_map.mp he
      exact htexts line hline
  rw [jsonAt, hwritten, hsort]
  change (List.mapM jsonEntry _ >>= fun written => pure (jsonBlock "\x7b" "\x7d" depth written)) = _
  rw [mapM_jsonEntry htexts']
  rfl

/-- The document of a value of data that can be written is the text of its canonical form. -/
theorem jsonAt_plain (h : v.isData = true) (hlegible : v.legible = true) (depth : Nat) :
    jsonAt depth v.plain = .ok (spell depth v.canonical) := by
  induction v using Value.induction generalizing depth with
  | null | bool | text => rfl
  | int n => exact if_pos hlegible
  | float | unset | column | literal => cases h
  | list xs ih | tuple xs ih =>
      rw [isData, areData_iff] at h
      rw [legible, areLegible_iff] at hlegible
      rw [plain, plainItems_eq_map, jsonAt,
        jsonItems_map fun x hx => ih x hx (h x hx) (hlegible x hx) (depth + 1), canonical, spell,
        canonicalItems_eq_map, spellItems_eq_map, List.map_map]
      rfl
  | dict es ih =>
      obtain ⟨hes, hkeys⟩ := entriesAreData_iff.mp h
      rw [legible, entriesLegible_iff] at hlegible
      have htexts : ∀ e ∈ es, ∃ s, e.1 = text s := fun e he => (hes e he).1
      have hwritten := jsonEntries_map (f := plain) (g := fun v => spell (depth + 1) v.canonical)
        fun e he => (ih e he).2 (hes e he).2 (hlegible e he).2 (depth + 1)
      have hlines : (es.map fun e => (e.1, Except.ok (spell (depth + 1) e.2.canonical))) =
          (es.map fun e => (e.1, spell (depth + 1) e.2.canonical)).map
            fun e => (e.1, (Except.ok e.2 : Except Misuse String)) := by
        rw [List.map_map]
        rfl
      rw [hlines] at hwritten
      rw [plain_dict htexts hkeys, jsonAt_dict hwritten (List.forall_mem_map.mpr htexts), canonical, spell, sortedByKey,
        canonicalEntries_eq_map, spellEntries_eq_map]
      refine congrArg (fun lines => Except.ok (jsonBlock "\x7b" "\x7d" depth lines)) ?_
      rw [← List.map_mergeSort (f := fun e : Value × Value => (e.1, spell (depth + 1) e.2.canonical))
          (r := fun a b => decide (a.1.display ≤ b.1.display)) fun _ _ _ _ => rfl,
        ← List.map_mergeSort (f := fun e : Value × Value => (e.1, e.2.canonical))
          (r := fun a b => decide (a.1.display ≤ b.1.display)) fun _ _ _ _ => rfl, List.map_map, List.map_map]
      rfl

/-- Items that are written are written one by one. -/
theorem exists_of_jsonItems {texts : List String} (h : jsonItems depth xs = .ok texts) :
    ∀ x ∈ xs, ∃ s, jsonAt depth x = .ok s := by
  induction xs generalizing texts with
  | nil => exact fun x hx => absurd hx List.not_mem_nil
  | cons x xs ih =>
      obtain ⟨s, hs, h⟩ := bind_eq_ok_iff.mp h
      obtain ⟨others, hothers, -⟩ := bind_eq_ok_iff.mp h
      exact List.forall_mem_cons.mpr ⟨⟨s, hs⟩, ih hothers⟩

theorem jsonEntries_eq_map : jsonEntries depth es = es.map fun e => (e.1, jsonAt depth e.2) := by
  induction es with
  | nil => rfl
  | cons e es ih => rw [jsonEntries, ih, List.map_cons]

/-- Of a dictionary that is written, each value is, in whatever order. -/
theorem exists_of_jsonAt_dict {s : String} (h : jsonAt depth (dict es) = .ok s) :
    ∀ e ∈ es, ∃ t, jsonAt (depth + 1) e.2 = .ok t := by
  obtain ⟨sorted, hsorted, h⟩ := bind_eq_ok_iff.mp h
  obtain ⟨lines, hlines, -⟩ := bind_eq_ok_iff.mp h
  intro e he
  have hmem : (e.1, jsonAt (depth + 1) e.2) ∈ sorted := by
    rw [(perm_sortByKey hsorted).mem_iff, jsonEntries_eq_map]
    exact List.mem_map_of_mem he
  obtain ⟨line, hline⟩ := exists_mapM_iff.mp ⟨lines, hlines⟩ _ hmem
  obtain ⟨key, -, hline⟩ := bind_eq_ok_iff.mp hline
  obtain ⟨t, ht, -⟩ := bind_eq_ok_iff.mp hline
  exact ⟨t, ht⟩

/-- Data have a document only if they can be written. -/
theorem legible_of_jsonAt_plain {s : String} (h : v.isData = true) (hwritten : jsonAt depth v.plain = .ok s) :
    v.legible = true := by
  induction v using Value.induction generalizing depth s with
  | null | bool | text => rfl
  | int n =>
      by_contra hlegible
      have hrefused : (int n).write = .error .tooLong := if_neg hlegible
      exact absurd (hrefused.symm.trans hwritten) nofun
  | float | unset | column | literal => cases h
  | list xs ih | tuple xs ih =>
      rw [isData, areData_iff] at h
      rw [plain, plainItems_eq_map] at hwritten
      obtain ⟨texts, htexts, -⟩ := bind_eq_ok_iff.mp hwritten
      rw [legible, areLegible_iff]
      intro x hx
      obtain ⟨t, ht⟩ := exists_of_jsonItems htexts x.plain (List.mem_map_of_mem hx)
      exact ih x hx (h x hx) ht
  | dict es ih =>
      obtain ⟨hes, hkeys⟩ := entriesAreData_iff.mp h
      rw [plain_dict (fun e he => (hes e he).1) hkeys] at hwritten
      rw [legible, entriesLegible_iff]
      intro e he
      obtain ⟨key, hkey⟩ := (hes e he).1
      obtain ⟨t, ht⟩ := exists_of_jsonAt_dict hwritten (e.1, e.2.plain) (List.mem_map_of_mem he)
      refine ⟨?_, (ih e he).2 (hes e he).2 ht⟩
      rw [hkey]
      rfl

/-! ### Reading back -/

theorem toList_jsonBlock_nil {opening closing : String} :
    (jsonBlock opening closing depth []).toList = opening.toList ++ closing.toList := by
  simp [jsonBlock]

/-- The text of a block, with its line breaks and the indentation of its items. -/
theorem toList_jsonBlock (opening closing : String) (depth : Nat) {texts : List String} (hne : texts ≠ []) :
    ∃ inner outer : List Char, (∀ c ∈ inner, isSpace c = true) ∧ (∀ c ∈ outer, isSpace c = true) ∧
      (jsonBlock opening closing depth texts).toList = opening.toList ++
        (inner ++ ((',' :: inner).intercalate (texts.map String.toList) ++ (outer ++ closing.toList))) := by
  have houter : ∀ c ∈ '\n' :: List.replicate (2 * depth) ' ', isSpace c = true := by
    rw [List.forall_mem_cons]
    refine ⟨rfl, fun c hc => ?_⟩
    rw [List.eq_of_mem_replicate hc]
    rfl
  refine ⟨'\n' :: List.replicate (2 * depth) ' ' ++ [' ', ' '], '\n' :: List.replicate (2 * depth) ' ', ?_, houter, ?_⟩
  · rw [List.forall_mem_append]
    exact ⟨houter, List.all_eq_true.mp rfl⟩
  · rw [jsonBlock, if_neg (by simpa using hne)]
    simp [String.toList_intercalate]

/-- A list is read back if each of its items is. -/
theorem readsAs_list (h : ∀ x ∈ xs, ReadsAs (spell (depth + 1) x).toList x) :
    ReadsAs (spell depth (list xs)).toList (list xs) := by
  intro rest fuel _ hfuel
  obtain ⟨fuel, rfl⟩ := Nat.exists_eq_add_of_le' (Nat.one_le_of_lt hfuel)
  rw [spell, spellItems_eq_map] at hfuel ⊢
  by_cases hne : xs = []
  · subst hne
    rw [List.map_nil, toList_jsonBlock_nil]
    simp only [String.reduceToList, List.cons_append, List.nil_append]
    rw [value_bracket, skip_cons rfl]
    rfl
  · have hall : List.Forall₂ ReadsAs ((xs.map (spell (depth + 1))).map String.toList) xs := by
      rw [List.map_map, List.forall₂_map_left_iff, List.forall₂_same]
      exact h
    have hne' : xs.map (spell (depth + 1)) ≠ [] := by simpa using hne
    obtain ⟨inner, outer, hinner, houter, htext⟩ := toList_jsonBlock "[" "]" depth hne'
    rw [htext] at hfuel ⊢
    simp only [String.reduceToList, List.cons_append, List.nil_append, List.append_assoc, List.length_cons,
      List.length_append] at hfuel ⊢
    exact value_list (items_intercalate hinner houter hall hne rest (by omega))

/-- A dictionary under pairwise different texts is read back if each of its values is. -/
theorem readsAs_dict (htexts : ∀ e ∈ es, ∃ s, e.1 = text s) (hkeys : (es.map (·.1)).Nodup)
    (h : ∀ e ∈ es, ReadsAs (spell (depth + 1) e.2).toList e.2) :
    ReadsAs (spell depth (dict es)).toList (dict es) := by
  intro rest fuel _ hfuel
  obtain ⟨fuel, rfl⟩ := Nat.exists_eq_add_of_le' (Nat.one_le_of_lt hfuel)
  rw [spell, spellEntries_eq_map] at hfuel ⊢
  by_cases hne : es = []
  · subst hne
    rw [List.map_nil, toList_jsonBlock_nil]
    simp only [String.reduceToList, List.cons_append, List.nil_append]
    rw [value_brace, skip_cons rfl]
    rfl
  · have hall : List.Forall₂ ReadsAsEntry
        ((es.map fun e => jsonText e.1.display ++ ": " ++ spell (depth + 1) e.2).map String.toList) es := by
      rw [List.map_map, List.forall₂_map_left_iff, List.forall₂_same]
      intro e he
      obtain ⟨s, hs⟩ := htexts e he
      exact ⟨s, (spell (depth + 1) e.2).toList, hs, by simp [hs, display], h e he⟩
    have hne' : (es.map fun e => jsonText e.1.display ++ ": " ++ spell (depth + 1) e.2) ≠ [] := by simpa using hne
    obtain ⟨inner, outer, hinner, houter, htext⟩ := toList_jsonBlock "\x7b" "\x7d" depth hne'
    rw [htext] at hfuel ⊢
    simp only [String.reduceToList, List.cons_append, List.nil_append, List.append_assoc, List.length_cons,
      List.length_append] at hfuel ⊢
    rw [value_dict (entries_intercalate hinner houter hall hne rest (by omega)), ofList_eq_self htexts hkeys]

/-- The text of the canonical form of data is read back as the canonical form. -/
theorem readsAs_canonical (h : v.isData = true) (depth : Nat) :
    ReadsAs (spell depth v.canonical).toList v.canonical := by
  induction v using Value.induction generalizing depth with
  | null => exact readsAs_null
  | bool b => exact readsAs_bool b
  | int n => exact readsAs_int n
  | text s => exact readsAs_text s
  | float | unset | column | literal => cases h
  | list xs ih | tuple xs ih =>
      rw [isData, areData_iff] at h
      rw [canonical, canonicalItems_eq_map]
      refine readsAs_list ?_
      rw [List.forall_mem_map]
      exact fun x hx => ih x hx (h x hx) (depth + 1)
  | dict es ih =>
      obtain ⟨hes, hkeys⟩ := entriesAreData_iff.mp h
      rw [canonical, canonicalEntries_eq_map]
      have hmem {e : Value × Value} (he : e ∈ sortedByKey (es.map fun e => (e.1, e.2.canonical))) :
          ∃ f ∈ es, e = (f.1, f.2.canonical) := by
        simpa [eq_comm] using (perm_sortedByKey _).mem_iff.mp he
      refine readsAs_dict (fun e he => ?_) ?_ (fun e he => ?_)
      · obtain ⟨f, hf, rfl⟩ := hmem he
        exact (hes f hf).1
      · rw [((perm_sortedByKey _).map _).nodup_iff, List.map_map]
        exact hkeys
      · obtain ⟨f, hf, rfl⟩ := hmem he
        exact (ih f hf).2 (hes f hf).2 (depth + 1)

/-- What is written of data and read again is their canonical form. -/
theorem ofJson?_json (h : v.isData = true) (hlegible : v.legible = true) :
    ∃ s, v.plain.json = .ok s ∧ ofJson? s = some v.canonical := by
  refine ⟨_, jsonAt_plain h hlegible 0, ?_⟩
  have hread := readsAs_canonical h 0 [] _ rfl (Nat.lt_succ_self _)
  rw [List.append_nil] at hread
  rw [ofJson?, hread]
  rfl

/-- Documents of data that can be written are alike exactly if the data agree. -/
theorem json_plain_eq_iff (hv : v.isData = true) (hw : w.isData = true) (hv' : v.legible = true)
    (hw' : w.legible = true) :
    ∃ s t, v.plain.json = .ok s ∧ w.plain.json = .ok t ∧ (s = t ↔ v.agrees w = true) := by
  obtain ⟨s, hs, hread⟩ := ofJson?_json hv hv'
  obtain ⟨t, ht, hread'⟩ := ofJson?_json hw hw'
  refine ⟨s, t, hs, ht, ?_⟩
  rw [agrees_iff hv hw]
  constructor
  · rintro rfl
    exact Option.some.inj (hread.symm.trans hread')
  · intro hcanonical
    have hboth : v.plain.json = w.plain.json := by
      rw [json, json, jsonAt_plain hv hv', jsonAt_plain hw hw', hcanonical]
    exact Except.ok.inj (hs.symm.trans (hboth.trans ht))

end Value

end ChartGrammar
