import ChartGrammar.Proofs.Registry.Completeness
import ChartGrammar.Proofs.Table.Reading
import ChartGrammar.Table.Directory

/-! Registries read from directories. The files whose names end in `.yml` are taken in ascending order of their names,
and each is decoded, parsed and registered before the next is looked at. So a registry is read exactly if no file is
refused, and then it has one table for each; and else the first file that is refused decides how the reading fails,
whatever comes after it. -/

namespace ChartGrammar

namespace TableFile

variable {directory : String} {f : TableFile} {t : Table} {payload : Entries} {registered : List Table} {e : Fault}

/-! ### One file -/

/-- The name is that of a table file. -/
def Named (f : TableFile) : Prop :=
  ∃ stem, f.name = stem ++ ".yml"

theorem isTable_iff : f.isTable = true ↔ f.Named := by
  rw [isTable, ← String.endsWith_toSlice, String.Slice.endsWith_string_iff, String.copy_toSlice]
  constructor
  · rintro ⟨stem, hstem⟩
    refine ⟨String.ofList stem, String.toList_inj.mp ?_⟩
    rw [String.toList_append, String.toList_ofList, hstem]
  · rintro ⟨stem, hstem⟩
    exact ⟨stem.toList, by rw [hstem, String.toList_append]⟩

/-- The content is a dictionary with the entries. Content that counts as false stands for no entries. -/
def Decodes (f : TableFile) (payload : Entries) : Prop :=
  f.content = .dict payload ∨ f.content.truthy = false ∧ payload = []

/-- The file holds the table. -/
def Holds (directory : String) (f : TableFile) (t : Table) : Prop :=
  ∃ payload, f.Decodes payload ∧ Table.parseEntries (joinPath directory f.name) payload = .ok t

theorem read_of_decodes (h : f.Decodes payload) :
    f.read directory = Table.parseEntries (joinPath directory f.name) payload := by
  rw [read]
  rcases h with hdict | ⟨hfalse, rfl⟩
  · rw [hdict]
    cases payload with
    | nil => rfl
    | cons entry payload => rfl
  · rw [hfalse]
    rfl

theorem read_of_not_decodes (h : ∀ payload, ¬f.Decodes payload) :
    f.read directory = .error (.inTable (joinPath directory f.name) .topNotMapping) := by
  have htruthy : f.content.truthy = true := by
    by_contra hfalse
    exact h [] (.inr ⟨Bool.eq_false_iff.mpr hfalse, rfl⟩)
  rw [read, if_pos htruthy]
  split
  next payload hdict => exact absurd (.inl hdict) (h payload)
  next => rfl

theorem read_eq_ok_iff : f.read directory = .ok t ↔ f.Holds directory t := by
  by_cases h : ∃ payload, f.Decodes payload
  · obtain ⟨payload, hdecodes⟩ := h
    constructor
    · intro hread
      exact ⟨payload, hdecodes, read_of_decodes hdecodes ▸ hread⟩
    · rintro ⟨payload', hdecodes', hparse⟩
      rw [read_of_decodes hdecodes', hparse]
  · rw [read_of_not_decodes (not_exists.mp h)]
    refine ⟨nofun, fun ⟨payload, hdecodes, _⟩ => absurd ⟨payload, hdecodes⟩ h⟩

/-- The fault for which a file is refused after some tables have been registered. -/
inductive Refused (directory : String) (registered : List Table) (f : TableFile) : Fault → Prop where
  /-- The content is neither a dictionary nor does it count as false. -/
  | notMapping (h : ∀ payload, ¬f.Decodes payload) :
    Refused directory registered f (.inTable (joinPath directory f.name) .topNotMapping)
  /-- The entries are not those of a table. -/
  | malformed {payload : Entries} {e : Fault} (h : f.Decodes payload)
      (hparse : Table.parseEntries (joinPath directory f.name) payload = .error e) :
    Refused directory registered f e
  /-- The grammar is that of a table registered before. -/
  | duplicate {t : Table} (h : f.Holds directory t) (htaken : ∃ u ∈ registered, u.grammar = t.grammar) :
    Refused directory registered f (.table (.duplicateGrammar t.grammar))
  /-- The grammar is new, but there are kinds that the table is not complete for. The first of them is named. -/
  | incomplete {t : Table} {fault : TableFault} (h : f.Holds directory t)
      (hnew : ∀ u ∈ registered, u.grammar ≠ t.grammar)
      (hgap : (Vocabulary.all : List Kind).findSome? t.incompleteness? = some fault) :
    Refused directory registered f (.table fault)

end TableFile

namespace Registry

open TableFile

variable {directory : String} {files others : List TableFile} {f : TableFile} {t : Table}
  {registered result : List Table} {e : Fault}

/-! ### Files one after the other -/

/-- The fault of a table is that its grammar is taken, or else the first thing that it lacks for a kind. -/
theorem tableFault?_eq_some_iff {fault : TableFault} : tableFault? registered t = some fault ↔
    (∃ u ∈ registered, u.grammar = t.grammar) ∧ fault = .duplicateGrammar t.grammar ∨
      (∀ u ∈ registered, u.grammar ≠ t.grammar) ∧
        (Vocabulary.all : List Kind).findSome? t.incompleteness? = some fault := by
  have htaken : (registered.any fun other => other.grammar == t.grammar) = true ↔
      ∃ u ∈ registered, u.grammar = t.grammar := by simp
  rw [tableFault?]
  by_cases h : ∃ u ∈ registered, u.grammar = t.grammar
  · rw [if_pos (htaken.mpr h)]
    constructor
    · intro hfault
      exact .inl ⟨h, (Option.some.inj hfault).symm⟩
    · rintro (⟨-, rfl⟩ | ⟨hnew, -⟩)
      · rfl
      · obtain ⟨u, hu, hsame⟩ := h
        exact absurd hsame (hnew u hu)
  · rw [if_neg (mt htaken.mp h)]
    have hnew : ∀ u ∈ registered, u.grammar ≠ t.grammar := fun u hu hsame => h ⟨u, hu, hsame⟩
    constructor
    · exact fun hgap => .inr ⟨hnew, hgap⟩
    · rintro (⟨hold, -⟩ | ⟨-, hgap⟩)
      · exact absurd hold h
      · exact hgap

theorem register_eq_error_iff : register registered t = .error e ↔
    ∃ fault, tableFault? registered t = some fault ∧ e = .table fault := by
  rw [register]
  cases tableFault? registered t with
  | none => simp
  | some fault => simp [eq_comm]

/-- A file that is refused is refused for its content, for what is read of it, or for the table. -/
theorem registerFile_eq_error_iff :
    registerFile directory registered f = .error e ↔ f.Refused directory registered e := by
  rw [registerFile, bind_eq_error_iff]
  constructor
  · rintro (hread | ⟨t, hread, hregister⟩)
    · by_cases h : ∃ payload, f.Decodes payload
      · obtain ⟨payload, hdecodes⟩ := h
        rw [read_of_decodes hdecodes] at hread
        exact .malformed hdecodes hread
      · have hnever : ∀ payload, ¬f.Decodes payload := not_exists.mp h
        rw [read_of_not_decodes hnever] at hread
        cases hread
        exact .notMapping hnever
    · have hholds : f.Holds directory t := read_eq_ok_iff.mp hread
      obtain ⟨fault, hfault, rfl⟩ := register_eq_error_iff.mp hregister
      rcases tableFault?_eq_some_iff.mp hfault with ⟨htaken, rfl⟩ | ⟨hnew, hgap⟩
      · exact .duplicate hholds htaken
      · exact .incomplete hholds hnew hgap
  · intro hrefused
    cases hrefused with
    | notMapping h => exact .inl (read_of_not_decodes h)
    | malformed hdecodes hparse => exact .inl ((read_of_decodes hdecodes).trans hparse)
    | @duplicate t hholds htaken =>
        have hfault := tableFault?_eq_some_iff.mpr (.inl ⟨htaken, rfl⟩)
        exact .inr ⟨t, read_eq_ok_iff.mpr hholds, register_eq_error_iff.mpr ⟨_, hfault, rfl⟩⟩
    | @incomplete t fault hholds hnew hgap =>
        have hfault := tableFault?_eq_some_iff.mpr (.inr ⟨hnew, hgap⟩)
        exact .inr ⟨t, read_eq_ok_iff.mpr hholds, register_eq_error_iff.mpr ⟨_, hfault, rfl⟩⟩

/-- The files hold the tables, one each, which are for different grammars and complete. -/
structure Loaded (directory : String) (files : List TableFile) (tables : List Table) : Prop where
  holds : List.Forall₂ (TableFile.Holds directory) files tables
  distinct : (tables.map Table.grammar).Nodup
  complete : ∀ t ∈ tables, t.Complete

/-- To register files is to register the tables that they hold. -/
theorem foldlM_registerFile_eq_ok_iff : files.foldlM (registerFile directory) registered = .ok result ↔
    ∃ tables, List.Forall₂ (TableFile.Holds directory) files tables ∧
      tables.foldlM register registered = .ok result := by
  induction files generalizing registered with
  | nil =>
      constructor
      · exact fun hfold => ⟨[], .nil, hfold⟩
      · rintro ⟨tables, hholds, hfold⟩
        cases hholds
        exact hfold
  | cons f files ih =>
      rw [List.foldlM_cons, bind_eq_ok_iff]
      constructor
      · rintro ⟨next, hfirst, hrest⟩
        obtain ⟨t, hread, hregister⟩ := bind_eq_ok_iff.mp hfirst
        obtain ⟨tables, hholds, hfold⟩ := ih.mp hrest
        refine ⟨t :: tables, .cons (read_eq_ok_iff.mp hread) hholds, ?_⟩
        rw [List.foldlM_cons]
        exact bind_eq_ok_iff.mpr ⟨next, hregister, hfold⟩
      · rintro ⟨tables, hholds, hfold⟩
        cases hholds with
        | @cons _ t _ tables hfirst hrest =>
            rw [List.foldlM_cons] at hfold
            obtain ⟨next, hregister, hfold⟩ := bind_eq_ok_iff.mp hfold
            refine ⟨next, ?_, ih.mpr ⟨tables, hrest, hfold⟩⟩
            exact bind_eq_ok_iff.mpr ⟨t, read_eq_ok_iff.mpr hfirst, hregister⟩

/-- Files are all registered exactly if they hold tables that can stand beside each other. -/
theorem foldlM_registerFile_iff_loaded :
    files.foldlM (registerFile directory) [] = .ok result ↔ Loaded directory files result := by
  have hnone : (([] : List Table).map Table.grammar).Nodup := List.nodup_nil
  rw [foldlM_registerFile_eq_ok_iff]
  constructor
  · rintro ⟨tables, hholds, hfold⟩
    obtain ⟨rfl, hdistinct, hcomplete⟩ := (foldlM_register_eq_ok_iff hnone).mp hfold
    exact ⟨hholds, hdistinct, fun t ht => t.complete_iff.mpr (hcomplete t ht)⟩
  · intro h
    refine ⟨result, h.holds, (foldlM_register_eq_ok_iff hnone).mpr ⟨rfl, h.distinct, fun t ht => ?_⟩⟩
    exact t.complete_iff.mp (h.complete t ht)

/-- Registering files fails with the refusal of the first one that is refused. -/
theorem foldlM_registerFile_eq_error_iff : files.foldlM (registerFile directory) [] = .error e ↔
    ∃ before f after tables, files = before ++ f :: after ∧ Loaded directory before tables ∧
      f.Refused directory tables e := by
  rw [foldlM_eq_error_iff]
  simp only [foldlM_registerFile_iff_loaded, registerFile_eq_error_iff]

/-! ### The files of a directory -/

theorem mem_tableFiles : f ∈ tableFiles files ↔ f ∈ files ∧ f.Named := by
  rw [tableFiles, List.mem_mergeSort, List.mem_filter, isTable_iff]

theorem tableFiles_pairwise (hnames : (files.map TableFile.name).Nodup) :
    (tableFiles files).Pairwise fun f g => f.name < g.name :=
  pairwise_lt_mergeSort (List.Sublist.nodup (List.filter_sublist.map _) hnames)

/-- The table files of a directory are the same whichever other files there are, and whatever the listing's order. -/
theorem tableFiles_congr (hnames : (files.map TableFile.name).Nodup) (hothers : (others.map TableFile.name).Nodup)
    (hmem : ∀ f : TableFile, f.Named → (f ∈ files ↔ f ∈ others)) : tableFiles files = tableFiles others := by
  refine eq_of_pairwise_lt (tableFiles_pairwise hnames) (tableFiles_pairwise hothers) fun f => ?_
  rw [mem_tableFiles, mem_tableFiles]
  exact and_congr_left (hmem f)

theorem ofDirectory_of_none (h : tableFiles files = []) :
    ofDirectory directory files = .error (.table (.noTableFiles directory)) := by
  rw [ofDirectory, h]

theorem ofDirectory_of_some (h : tableFiles files ≠ []) : ofDirectory directory files =
    ((tableFiles files).foldlM (registerFile directory) [] >>= ofRegistered) := by
  rw [ofDirectory]
  split
  next hnone => exact absurd hnone h
  next => rfl

theorem Loaded.ne_nil {tables : List Table} (h : Loaded directory files tables) (hfiles : files ≠ []) :
    tables ≠ [] := by
  rintro rfl
  cases h.holds
  exact hfiles rfl

/-- A registry is read from a directory exactly if there are table files and all are loaded. -/
theorem ofDirectory_eq_ok_iff {r : Registry} : ofDirectory directory files = .ok r ↔
    tableFiles files ≠ [] ∧ Loaded directory (tableFiles files) r.tables := by
  by_cases hnone : tableFiles files = []
  · rw [ofDirectory_of_none hnone]
    exact ⟨nofun, fun h => absurd hnone h.1⟩
  · rw [ofDirectory_of_some hnone, bind_eq_ok_iff]
    simp only [foldlM_registerFile_iff_loaded]
    constructor
    · rintro ⟨tables, hloaded, hregistry⟩
      rw [ofRegistered, if_neg (mt List.isEmpty_iff.mp (hloaded.ne_nil hnone))] at hregistry
      cases hregistry
      exact ⟨hnone, hloaded⟩
    · rintro ⟨-, hloaded⟩
      refine ⟨r.tables, hloaded, ?_⟩
      rw [ofRegistered, if_neg (mt List.isEmpty_iff.mp (hloaded.ne_nil hnone))]

/-- The reading of a directory fails if there are no table files, or for the first of them that is refused. -/
theorem ofDirectory_eq_error_iff : ofDirectory directory files = .error e ↔
    tableFiles files = [] ∧ e = .table (.noTableFiles directory) ∨
      ∃ before f after tables, tableFiles files = before ++ f :: after ∧ Loaded directory before tables ∧
        f.Refused directory tables e := by
  by_cases hnone : tableFiles files = []
  · rw [ofDirectory_of_none hnone, hnone]
    constructor
    · exact fun herror => .inl ⟨rfl, (Except.error.inj herror).symm⟩
    · rintro (⟨-, rfl⟩ | ⟨before, f, after, -, hsplit, -⟩)
      · rfl
      · cases before <;> cases hsplit
  · rw [ofDirectory_of_some hnone, bind_eq_error_iff, foldlM_registerFile_eq_error_iff]
    constructor
    · rintro (hrefused | ⟨tables, htables, herror⟩)
      · exact .inr hrefused
      · -- Where all files are registered, there is a table for each, so the registry is not empty.
        have hsome : tables ≠ [] := (foldlM_registerFile_iff_loaded.mp htables).ne_nil hnone
        rw [ofRegistered, if_neg (mt List.isEmpty_iff.mp hsome)] at herror
        cases herror
    · rintro (⟨h, -⟩ | hrefused)
      · exact absurd h hnone
      · exact .inl hrefused

/-- Of a directory whose files have different names, those whose names end in `.yml` are taken in the order of the
names. The reading succeeds exactly if there is one and they are all loaded, and the tables are then those that they
hold, one each. It fails exactly if there is none, or as the first of them that is refused has it, whatever comes later.
Other files and the order of the listing do not matter. -/
theorem loaded_or_first_refused (directory : String) (hnames : (files.map TableFile.name).Nodup) :
    ∃ fs : List TableFile, fs.Pairwise (fun f g => f.name < g.name) ∧ (∀ f, f ∈ fs ↔ f ∈ files ∧ f.Named) ∧
      (∀ r, ofDirectory directory files = .ok r ↔ fs ≠ [] ∧ Loaded directory fs r.tables) ∧
      (∀ e, ofDirectory directory files = .error e ↔ fs = [] ∧ e = .table (.noTableFiles directory) ∨
        ∃ before f after tables, fs = before ++ f :: after ∧ Loaded directory before tables ∧
          f.Refused directory tables e) ∧
      ∀ others : List TableFile, (others.map TableFile.name).Nodup →
        (∀ f : TableFile, f.Named → (f ∈ files ↔ f ∈ others)) →
        ofDirectory directory files = ofDirectory directory others := by
  refine ⟨tableFiles files, tableFiles_pairwise hnames, fun f => mem_tableFiles, fun r => ofDirectory_eq_ok_iff,
    fun e => ofDirectory_eq_error_iff, fun others hothers hmem => ?_⟩
  rw [ofDirectory, ofDirectory, tableFiles_congr hnames hothers hmem]

/-- Of three table files the second holds a list. The reading fails for it, though the third holds a table of the same
grammar as the first; and the file that is no table file is not looked at. -/
theorem loaded_or_first_refused_listFile :
    let payload : Entries := Table.smallPayload fun _ => []
    let files : List TableFile := [⟨"c.yml", .dict payload⟩, ⟨"notes.txt", .int 5⟩, ⟨"b.yml", .list [.int 1]⟩,
      ⟨"a.yml", .dict payload⟩]
    (files.map TableFile.name).Nodup ∧
      ofDirectory "tables" files = .error (.inTable "tables/b.yml" .topNotMapping) := by
  intro payload files
  have hnames : (files.map TableFile.name).Nodup := by decide
  obtain ⟨fs, hsorted, hmem, -, herror, -⟩ := loaded_or_first_refused "tables" hnames
  have hfs : fs = [⟨"a.yml", .dict payload⟩, ⟨"b.yml", .list [.int 1]⟩, ⟨"c.yml", .dict payload⟩] := by
    have hnotes : ¬TableFile.Named ⟨"notes.txt", .int 5⟩ := mt isTable_iff.mpr (by decide +kernel)
    refine eq_of_pairwise_lt hsorted (by decide +kernel) fun f => ?_
    rw [hmem]
    constructor
    · rintro ⟨hf, hnamed⟩
      simp only [files, List.mem_cons, List.not_mem_nil, or_false] at hf
      rcases hf with rfl | rfl | rfl | rfl
      · simp
      · exact absurd hnamed hnotes
      · simp
      · simp
    · intro hf
      simp only [List.mem_cons, List.not_mem_nil, or_false] at hf
      rcases hf with rfl | rfl | rfl
      · exact ⟨by simp [files], "a", rfl⟩
      · exact ⟨by simp [files], "b", rfl⟩
      · exact ⟨by simp [files], "c", rfl⟩
  obtain ⟨t, ht, hcomplete⟩ : ∃ t, Table.parseEntries "tables/a.yml" payload = .ok t ∧
      ∀ kind : Kind, t.incompleteness? kind = none :=
    ⟨_, rfl, fun kind => by cases kind <;> rfl⟩
  have hpath : joinPath "tables" "a.yml" = "tables/a.yml" ∧ joinPath "tables" "b.yml" = "tables/b.yml" := by decide +kernel
  have hloaded : Loaded "tables" [⟨"a.yml", .dict payload⟩] [t] := by
    refine ⟨.cons ⟨payload, .inl rfl, ?_⟩ .nil, List.nodup_singleton _, ?_⟩
    · rw [hpath.1]
      exact ht
    · exact List.forall_mem_singleton.mpr (t.complete_iff.mpr hcomplete)
  have hrefused : Refused "tables" [t] ⟨"b.yml", .list [.int 1]⟩ (.inTable "tables/b.yml" .topNotMapping) := by
    rw [← hpath.2]
    refine .notMapping ?_
    rintro entries (hdict | ⟨hfalse, -⟩)
    · cases hdict
    · cases hfalse
  exact ⟨hnames, (herror _).mpr (.inr ⟨_, _, _, [t], hfs, hloaded, hrefused⟩)⟩

end Registry

end ChartGrammar
