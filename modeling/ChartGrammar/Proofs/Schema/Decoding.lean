import ChartGrammar.Proofs.Schema.Definitions
import ChartGrammar.Proofs.Value.Display
import ChartGrammar.Proofs.Value.Sameness
import Mathlib.Data.List.Forall2
import Mathlib.Data.List.Nodup

/-! Which payloads are read as schemas. A payload is read exactly if its list of columns describes columns with names of
their own. The number of distinct values may stand in it as an integer or in a text; every other value is displayed in
some way that is no integer, and so is refused like everything else, by a fault that speaks of columns. -/

namespace ChartGrammar

/-- The values of a payload: null, truth values, integers of no more digits than are read, numbers of double precision and
texts, in lists and in dictionaries under texts. -/
inductive Value.IsJson : Value → Prop where
  | null : IsJson .null
  | bool (b : Bool) : IsJson (.bool b)
  | int {n : Int} (hshort : (Nat.toDigits 10 n.natAbs).length ≤ Text.maxDigits) : IsJson (.int n)
  | float (x : Binary64) : IsJson (.float x)
  | text (s : String) : IsJson (.text s)
  | list {items : List Value} (hitems : ∀ v ∈ items, IsJson v) : IsJson (.list items)
  | dict {entries : Entries} (hkeys : ∀ e ∈ entries, ∃ s, e.1 = .text s) (hvalues : ∀ e ∈ entries, IsJson e.2) :
      IsJson (.dict entries)

theorem Value.IsJson.legible {v : Value} (h : v.IsJson) : v.legible = true := by
  induction h with
  | null | bool | float | text => rfl
  | int hshort => rwa [Value.legible, Text.isWritable, decide_eq_true_iff]
  | list _ ih => rwa [Value.legible, Value.areLegible_iff]
  | dict hkeys _ ih =>
      rw [Value.legible, Value.entriesLegible_iff]
      intro e he
      obtain ⟨s, hs⟩ := hkeys e he
      exact ⟨by rw [hs]; rfl, ih e he⟩

/-- The faults that speak of the columns of a schema. -/
inductive ConstructionFault.OfColumns : ConstructionFault → Prop where
  | listMissing : OfColumns .columnListMissing
  | entryNotMapping (got : Value) : OfColumns (.columnEntryNotMapping got)
  | cardinalityNotInteger (got : Value) : OfColumns (.cardinalityNotInteger got)
  | nameBlank (got : Value) : OfColumns (.columnNameBlank got)
  | typeUnknown (column : String) (got : Value) : OfColumns (.columnTypeUnknown column got)
  | cardinalityNegative (column : String) (got : Value) : OfColumns (.cardinalityNegative column got)
  | duplicate (column : String) : OfColumns (.duplicateColumn column)

/-- A part of a dictionary of a payload is of a payload. -/
theorem Entries.isJson_field {entries : Entries} (h : (Value.dict entries).IsJson) (name : String) :
    (entries.field name).IsJson := by
  cases h with
  | dict _ hvalues =>
      cases hfield : entries.field? name with
      | none =>
          rw [field, hfield]
          exact .null
      | some v =>
          rw [field, hfield]
          obtain ⟨e, hfound, rfl⟩ := Option.map_eq_some_iff.mp hfield
          exact hvalues e (List.mem_of_find?_eq_some hfound)

namespace Schema

variable {s t : Schema} {c : Column} {raw : Value} {hint : Option Number}

/-- What stands in a payload for the number of distinct values. -/
inductive Counts : Value → Option Number → Prop where
  | null : Counts .null none
  | empty : Counts (.text "") none
  | int {n : Int} (hcounted : 0 ≤ n) : Counts (.int n) (some (.whole n))
  | text {s : String} {n : Int} (hread : Text.integer? s = some n) (hcounted : 0 ≤ n) :
      Counts (.text s) (some (.whole n))

/-- What stands in a payload for a column. -/
structure Describes (entry : Entries) (c : Column) : Prop where
  name : entry.field "name" = .text c.name
  visible : Text.blank c.name = false
  type : entry.field "type" = .text c.type.name
  counts : Counts (entry.field "cardinality") c.cardinality

/-! ### The number of distinct values -/

/-- What is neither null nor the empty text is read from its display. -/
theorem decodeCardinality_of_ne (hnull : raw ≠ .null) (hempty : raw ≠ .text "") : decodeCardinality raw =
    match Text.integer? raw.display with
    | some n => .ok (.int n)
    | none => .error (.about raw (.construction (.cardinalityNotInteger raw))) := by
  unfold decodeCardinality
  split
  · exact absurd rfl hnull
  · exact if_neg fun hsame => hempty (Value.same_text_right_iff.mp hsame)

theorem decodeCardinality_of_display {n : Int} (hnull : raw ≠ .null) (hempty : raw ≠ .text "")
    (hread : Text.integer? raw.display = some n) : decodeCardinality raw = .ok (.int n) := by
  rw [decodeCardinality_of_ne hnull hempty, hread]

/-- What is read of a value is null, or the integer that the value is or has as its text. -/
inductive Decodes : Value → Value → Prop where
  | null : Decodes .null .null
  | empty : Decodes (.text "") .null
  | int (n : Int) : Decodes (.int n) (.int n)
  | text {s : String} {n : Int} (hread : Text.integer? s = some n) : Decodes (.text s) (.int n)

theorem null_or_int_of_decodes {v : Value} (h : Decodes raw v) : v = .null ∨ ∃ n, v = .int n := by
  cases h with
  | null | empty => exact .inl rfl
  | int n | text => exact .inr ⟨_, rfl⟩

theorem legible_of_decodes {v : Value} (hraw : raw.IsJson) (h : Decodes raw v) : v.legible = true := by
  cases h with
  | null | empty => rfl
  | int n => exact hraw.legible
  | text hread => exact Value.legible_of_integer? hread

/-- Only integers and texts are displayed as integers. -/
theorem decodes_iff {v : Value} (hraw : raw.IsJson) : decodeCardinality raw = .ok v ↔ Decodes raw v := by
  constructor
  · intro h
    by_cases hnull : raw = .null
    · subst hnull
      cases h
      exact .null
    by_cases hempty : raw = .text ""
    · subst hempty
      cases h
      exact .empty
    rw [decodeCardinality_of_ne hnull hempty] at h
    split at h
    · next n hread =>
        cases h
        cases hraw with
        | text s => exact .text hread
        | int hshort =>
            have hback : Text.integer? (Value.int _).display = some _ := Text.integer?_text hshort
            rw [hback] at hread
            cases hread
            exact .int _
        | null | bool | float | list | dict =>
            -- No other value is displayed as an integer.
            obtain ⟨m, hm⟩ := Value.exists_int_of_integer?_written hread nofun
            cases hm
    · cases h
  · intro h
    cases h with
    | null | empty => rfl
    | int n =>
        cases hraw with
        | int hshort => exact decodeCardinality_of_display nofun nofun (Text.integer?_text hshort)
    | text hread =>
        refine decodeCardinality_of_display nofun ?_ hread
        intro hempty
        cases hempty
        cases hread

theorem readCardinality_int_iff {column : String} {n : Int} :
    readCardinality column (.int n) = .ok hint ↔ 0 ≤ n ∧ hint = some (.whole n) := by
  rw [readCardinality_eq_ok_iff]
  constructor
  · rintro (⟨hnull, -⟩ | ⟨m, hm, hcounted, rfl⟩)
    · cases hnull
    · cases hm
      exact ⟨Int.not_lt.mp fun hneg => Bool.false_ne_true (hcounted.symm.trans (Number.lt_whole_iff.mpr hneg)), rfl⟩
  · rintro ⟨hcounted, rfl⟩
    exact .inr ⟨_, rfl, Bool.eq_false_iff.mpr fun hneg => Int.not_lt.mpr hcounted (Number.lt_whole_iff.mp hneg), rfl⟩

/-- A value counts exactly if it is read and what is read of it is accepted. -/
theorem counts_iff (hraw : raw.IsJson) (column : String) :
    (∃ v, decodeCardinality raw = .ok v ∧ readCardinality column v = .ok hint) ↔ Counts raw hint := by
  constructor
  · rintro ⟨v, hv, hread⟩
    cases (decodes_iff hraw).mp hv with
    | null =>
        cases hread
        exact .null
    | empty =>
        cases hread
        exact .empty
    | int n =>
        obtain ⟨hcounted, rfl⟩ := readCardinality_int_iff.mp hread
        exact .int hcounted
    | text htext =>
        obtain ⟨hcounted, rfl⟩ := readCardinality_int_iff.mp hread
        exact .text htext hcounted
  · intro h
    cases h with
    | null => exact ⟨.null, (decodes_iff hraw).mpr .null, rfl⟩
    | empty => exact ⟨.null, (decodes_iff hraw).mpr .empty, rfl⟩
    | int hcounted => exact ⟨_, (decodes_iff hraw).mpr (.int _), readCardinality_int_iff.mpr ⟨hcounted, rfl⟩⟩
    | text htext hcounted =>
        exact ⟨_, (decodes_iff hraw).mpr (.text htext), readCardinality_int_iff.mpr ⟨hcounted, rfl⟩⟩

/-! ### One column -/

/-- An entry of a payload adds the column that it describes, if the name of the column is free. -/
theorem decodeColumn_dict_iff {entry : Entries} (hentry : (Value.dict entry).IsJson) :
    decodeColumn s (.dict entry) = .ok t ↔ ∃ c, Describes entry c ∧ c.name ∉ s.names ∧ t = ⟨s.columns ++ [c]⟩ := by
  have hraw := Entries.isJson_field hentry "cardinality"
  show (decodeCardinality (entry.field "cardinality") >>= fun cardinality =>
    s.define (entry.field "name") (entry.field "type") cardinality >>= fun defined => .ok defined.1) = _ ↔ _
  constructor
  · intro h
    obtain ⟨cardinality, hcardinality, h⟩ := bind_eq_ok_iff.mp h
    obtain ⟨⟨grown, c⟩, hdefine, h⟩ := bind_eq_ok_iff.mp h
    cases h
    obtain ⟨⟨hname, hvisible, hfree⟩, htype, hread, rfl⟩ := define_eq_ok_iff.mp hdefine
    exact ⟨c, ⟨hname, hvisible, htype, (counts_iff hraw c.name).mp ⟨cardinality, hcardinality, hread⟩⟩,
      find?_eq_none_iff.mp hfree, rfl⟩
  · rintro ⟨c, hdescribes, hfree, rfl⟩
    obtain ⟨cardinality, hcardinality, hread⟩ := (counts_iff hraw c.name).mpr hdescribes.counts
    have hdefine := define_eq_ok_iff.mpr
      ⟨⟨hdescribes.name, hdescribes.visible, find?_eq_none_iff.mpr hfree⟩, hdescribes.type, hread, rfl⟩
    exact bind_eq_ok_iff.mpr ⟨cardinality, hcardinality, bind_eq_ok_iff.mpr ⟨_, hdefine, rfl⟩⟩

/-- A definition with a count that was read fails by a fault that speaks of columns, if all of it can be written. -/
theorem ofColumns_of_define {name type v : Value} {fault : Fault} (hname : name.legible = true)
    (htype : type.legible = true) (hlegible : v.legible = true) (hv : v = .null ∨ ∃ n, v = .int n)
    (h : s.define name type v = .error fault) : ∃ f, fault = .construction f ∧ f.OfColumns := by
  unfold define at h
  split at h
  · split at h
    · cases h
      exact ⟨_, rfl, .nameBlank _⟩
    split at h
    · cases h
      exact ⟨_, rfl, .duplicate _⟩
    split at h
    · rw [Fault.about_of_legible htype] at h
      cases h
      exact ⟨_, rfl, .typeUnknown _ _⟩
    obtain hread | ⟨_, -, hpure⟩ := bind_eq_error_iff.mp h
    · obtain rfl | ⟨n, rfl⟩ := hv
      · cases hread
      · simp only [readCardinality, Value.number?, Fault.about_of_legible hlegible] at hread
        split at hread
        · cases hread
          exact ⟨_, rfl, .cardinalityNegative _ _⟩
        · cases hread
    · cases hpure
  · rw [Fault.about_of_legible hname] at h
    cases h
    exact ⟨_, rfl, .nameBlank _⟩

/-- Reading an entry of a payload fails by a fault that speaks of columns. -/
theorem ofColumns_of_decodeColumn {fault : Fault} (hraw : raw.IsJson) (h : decodeColumn s raw = .error fault) :
    ∃ f, fault = .construction f ∧ f.OfColumns := by
  unfold decodeColumn at h
  split at h
  · next entry =>
      have hfield := Entries.isJson_field hraw "cardinality"
      obtain hread | ⟨v, hv, h⟩ := bind_eq_error_iff.mp h
      · unfold decodeCardinality at hread
        split at hread
        · cases hread
        split at hread
        · cases hread
        split at hread
        · cases hread
        · rw [Fault.about_of_legible hfield.legible] at hread
          cases hread
          exact ⟨_, rfl, .cardinalityNotInteger _⟩
      · obtain hdefine | ⟨_, -, hpure⟩ := bind_eq_error_iff.mp h
        · have hdecodes := (decodes_iff hfield).mp hv
          exact ofColumns_of_define (Entries.isJson_field hraw "name").legible
            (Entries.isJson_field hraw "type").legible (legible_of_decodes hfield hdecodes)
            (null_or_int_of_decodes hdecodes) hdefine
        · cases hpure
  · rw [Fault.about_of_legible hraw.legible] at h
    cases h
    exact ⟨_, rfl, .entryNotMapping _⟩

/-! ### All columns -/

/-- The value is an entry of a payload that describes the column. -/
def IsEntryOf (raw : Value) (c : Column) : Prop :=
  ∃ entry, raw = .dict entry ∧ Describes entry c

theorem decodeColumn_iff (hraw : raw.IsJson) :
    decodeColumn s raw = .ok t ↔ ∃ c, IsEntryOf raw c ∧ c.name ∉ s.names ∧ t = ⟨s.columns ++ [c]⟩ := by
  cases raw with
  | dict entry =>
      rw [decodeColumn_dict_iff hraw]
      refine exists_congr fun c => and_congr_left' ⟨fun h => ⟨entry, rfl, h⟩, ?_⟩
      rintro ⟨other, hother, h⟩
      cases hother
      exact h
  | _ =>
      refine iff_of_false nofun ?_
      rintro ⟨c, ⟨entry, hentry, -⟩, -⟩
      cases hentry

theorem nodup_names_concat_iff (hs : s.names.Nodup) :
    (Schema.mk (s.columns ++ [c])).names.Nodup ↔ c.name ∉ s.names := by
  have hnames : (Schema.mk (s.columns ++ [c])).names = s.names ++ [c.name] := List.map_append
  rw [hnames, List.nodup_append_comm, List.singleton_append, List.nodup_cons]
  exact and_iff_left hs

/-- Entries of a payload add the columns that they describe, in order, if the names are distinct after that. -/
theorem foldlM_decodeColumn_iff {items : List Value} (hitems : ∀ v ∈ items, v.IsJson) (hs : s.names.Nodup) :
    items.foldlM decodeColumn s = .ok t ↔
      ∃ added, List.Forall₂ IsEntryOf items added ∧ t = ⟨s.columns ++ added⟩ ∧ t.names.Nodup := by
  induction items generalizing s with
  | nil =>
      constructor
      · intro h
        cases h
        exact ⟨[], .nil, by rw [List.append_nil], hs⟩
      · rintro ⟨added, hentries, rfl, -⟩
        cases hentries
        rw [List.append_nil]
        rfl
  | cons item items ih =>
      rw [List.forall_mem_cons] at hitems
      rw [List.foldlM_cons, bind_eq_ok_iff]
      constructor
      · rintro ⟨middle, hstep, hrest⟩
        obtain ⟨c, hc, hfree, rfl⟩ := (decodeColumn_iff hitems.1).mp hstep
        obtain ⟨added, hadded, ht, hdistinct⟩ := (ih hitems.2 ((nodup_names_concat_iff hs).mpr hfree)).mp hrest
        refine ⟨c :: added, .cons hc hadded, ?_, hdistinct⟩
        calc t = ⟨s.columns ++ [c] ++ added⟩ := ht
          _ = ⟨s.columns ++ c :: added⟩ := by rw [← List.append_cons]
      · rintro ⟨added, hentries, ht, hdistinct⟩
        cases hentries with
        | @cons _ c _ added hc hadded =>
            rw [List.append_cons] at ht
            have hfirst : (Schema.mk (s.columns ++ [c])).names.Nodup := by
              rw [ht] at hdistinct
              exact hdistinct.sublist ((List.sublist_append_left _ _).map Column.name)
            exact ⟨_, (decodeColumn_iff hitems.1).mpr ⟨c, hc, (nodup_names_concat_iff hs).mp hfirst, rfl⟩,
              (ih hitems.2 hfirst).mpr ⟨added, hadded, ht, hdistinct⟩⟩

theorem decode_of_list {payload : Entries} {items : List Value} (h : payload.field "columns" = .list items) :
    decode (.dict payload) = items.foldlM decodeColumn empty := by
  simp only [decode, Value.entriesOf, bind, Except.bind, h]

theorem decode_of_not_list {payload : Entries} (h : ∀ items, payload.field "columns" ≠ .list items) :
    decode (.dict payload) = .error (.construction .columnListMissing) := by
  unfold decode
  show Except.bind (.ok payload) _ = _
  cases hcolumns : payload.field "columns" with
  | list items => exact absurd hcolumns (h items)
  | _ =>
      simp only [Except.bind, hcolumns]
      rfl

/-- A payload is read as a schema exactly if it has a list of columns that describes the columns of the schema, one after
another, and these have distinct names. Otherwise it is refused by a fault that speaks of columns. -/
theorem decoded_iff_described (payload : Entries) (hpayload : (Value.dict payload).IsJson) :
    (∀ s, decode (.dict payload) = .ok s ↔ ∃ items, payload.field? "columns" = some (.list items) ∧
      List.Forall₂ IsEntryOf items s.columns ∧ s.names.Nodup) ∧
    ∀ fault, decode (.dict payload) = .error fault → ∃ f, fault = .construction f ∧ f.OfColumns := by
  have hcolumns := Entries.isJson_field hpayload "columns"
  have hfield {items : List Value} : payload.field "columns" = .list items ↔
      payload.field? "columns" = some (.list items) := by
    unfold Entries.field
    cases payload.field? "columns" <;> simp [Value.ofOption]
  simp only [← hfield]
  by_cases hlist : ∃ items, payload.field "columns" = .list items
  · obtain ⟨items, hlist⟩ := hlist
    rw [hlist] at hcolumns
    rw [decode_of_list hlist, hlist]
    cases hcolumns with
    | list hitems =>
        refine ⟨fun s => ?_, fun fault h => ?_⟩
        · rw [foldlM_decodeColumn_iff hitems Built.empty.sound.distinct]
          constructor
          · rintro ⟨added, hentries, rfl, hdistinct⟩
            exact ⟨items, rfl, hentries, hdistinct⟩
          · rintro ⟨others, heq, hentries, hdistinct⟩
            cases heq
            exact ⟨s.columns, hentries, rfl, hdistinct⟩
        · obtain ⟨before, item, after, middle, rfl, -, hfault⟩ := foldlM_eq_error_iff.mp h
          exact ofColumns_of_decodeColumn (hitems item (List.mem_append_right _ List.mem_cons_self)) hfault
  · rw [decode_of_not_list (not_exists.mp hlist)]
    refine ⟨fun s => iff_of_false nofun ?_, fun fault h => ?_⟩
    · rintro ⟨items, hitems, -⟩
      exact hlist ⟨items, hitems⟩
    · cases h
      exact ⟨_, rfl, .listMissing⟩

/-- Years that were counted in a text with blanks and an underscore are read; the same years twice are refused. -/
theorem decoded_iff_described_years :
    let year : Value := .dict [(.text "name", .text "Year"), (.text "type", .text "temporal"),
      (.text "cardinality", .text " +1_000 ")]
    let once : Entries := [(.text "version", .float .zero), (.text "columns", .list [year])]
    let twice : Entries := [(.text "columns", .list [year, year])]
    (Value.dict once).IsJson ∧ decode (.dict once) = .ok ⟨[⟨"Year", .temporal, some (.whole 1000)⟩]⟩ ∧
      (Value.dict twice).IsJson ∧ decode (.dict twice) = .error (.construction (.duplicateColumn "Year")) ∧
      (ConstructionFault.duplicateColumn "Year").OfColumns := by
  intro year once twice
  have hyear : year.IsJson := by
    refine .dict ?_ ?_
    · simp
    · simp only [List.forall_mem_cons]
      exact ⟨.text _, .text _, .text _, List.forall_mem_nil _⟩
  have honce : (Value.dict once).IsJson := by
    refine .dict ?_ ?_
    · simp [once]
    · simp only [once, List.forall_mem_cons]
      exact ⟨.float _, .list (List.forall_mem_singleton.mpr hyear), List.forall_mem_nil _⟩
  have htwice : (Value.dict twice).IsJson := by
    refine .dict ?_ ?_
    · simp [twice]
    · simp only [twice, List.forall_mem_singleton]
      exact .list (List.forall_mem_cons.mpr ⟨hyear, List.forall_mem_singleton.mpr hyear⟩)
  have hdescribes : IsEntryOf year ⟨"Year", .temporal, some (.whole 1000)⟩ :=
    ⟨_, rfl, rfl, by decide, rfl, .text (by rfl) (by decide)⟩
  have hrefused : decode (.dict twice) = .error (.construction (.duplicateColumn "Year")) := by rfl
  obtain ⟨f, hf, hcolumns⟩ := (decoded_iff_described twice htwice).2 _ hrefused
  cases hf
  exact ⟨honce, ((decoded_iff_described once honce).1 _).mpr ⟨[year], rfl, .cons hdescribes .nil, by decide⟩,
    htwice, hrefused, hcolumns⟩

end Schema

end ChartGrammar
