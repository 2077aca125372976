import ChartGrammar.Check
import ChartGrammar.Proofs.Table.Reading
import ChartGrammar.Proofs.Value.Documents

/-! How the reading of a table ends. Any payload either holds a table or has a fault that is reported with its place,
but for five forms of a field that are taken for what they are not, and for values that a message or the description
would have to show and that cannot be written: these are the slips. A table with a slip is not read. The check of a
directory reports every fault and passes on every slip, once the tables that the settings name have been loaded. -/

namespace ChartGrammar

/-! ### Forms that slip through -/

/-- The value is taken for pairs and has an element of another number of parts. -/
def Value.HasOddElement (v : Value) : Prop :=
  (∀ es, v ≠ .dict es) ∧ ∃ items, v.elements? = some items ∧
    ∃ item ∈ items, ∃ parts, item.elements? = some parts ∧ parts.length ≠ 2

/-- The row names the writer with a table of words, and the words are not pairs. -/
def Entries.MapsOddly (row : Entries) : Prop :=
  row.field "write" = .text "mapped" ∧ ∃ v, row.field? "values" = some v ∧ v.HasOddElement

/-- The value is taken for a word of a vocabulary somewhere in the rows of one kind, with common rows of style keys. -/
inductive KindRows.Names (common fields : Entries) : Value → Prop where
  | role {e : Value × Value} (he : e ∈ (fields.field "roles").entries) : Names common fields e.1
  | style {e : Value × Value} (he : e ∈ mergedStyles common (fields.field "styles").entries) : Names common fields e.1
  | cropping {e : Value × Value} (he : e ∈ mergedStyles common (fields.field "styles").entries)
      (hkey : (e.2.entries.field "cropping").isKey = true) : Names common fields (e.2.entries.field "cropping")
  | required {items : List Value} {v : Value} (hitems : (fields.field "requires").elements? = some items)
      (hv : v ∈ items) : Names common fields v
  | needed {e : Value × Value} (he : e ∈ (fields.field "requires_when").entries) : Names common fields e.1
  | condition {e : Value × Value} (he : e ∈ (fields.field "requires_when").entries) : Names common fields e.2

/-- The slips in the rows of one kind, with common rows of style keys. -/
inductive KindRows.Slip (common fields : Entries) : Misuse → Prop where
  /-- What is taken for a word cannot be written. -/
  | word {v : Value} (hv : Names common fields v) (h : v.legible = false) : Slip common fields .tooLong
  /-- The literal of a role is written by a table of words that are not pairs. -/
  | literal {e : Value × Value} (he : e ∈ (fields.field "roles").entries)
      (h : (e.2.entries.field "literal").entries.MapsOddly) : Slip common fields .wrongCount
  /-- A style key is written by a table of words that are not pairs. -/
  | words {e : Value × Value} (he : e ∈ mergedStyles common (fields.field "styles").entries)
      (hrewrite : e.2.entries.field? "rewrite" = none) (h : e.2.entries.MapsOddly) : Slip common fields .wrongCount
  /-- The cropping of a style key is a list or a dictionary. -/
  | cropping {e : Value × Value} (he : e ∈ mergedStyles common (fields.field "styles").entries)
      (h : (e.2.entries.field "cropping").isKey = false) : Slip common fields .unhashable
  /-- The fixed parameters that select the kind are no dictionary. -/
  | params {v : Value} (hwrite : (fields.field "select").entries.field "write" = .text "fixed")
      (hv : (fields.field "select").entries.field? "params" = some v) (h : ∀ es, v ≠ .dict es) :
      Slip common fields .missingAttribute
  /-- The roles that the kind needs are given by something that has no elements. -/
  | required (htruthy : (fields.field "requires").truthy = true) (h : (fields.field "requires").elements? = none) :
      Slip common fields .notIterable

/-- The slips in a payload: those in the rows of its kinds, and a kind or a description that cannot be written. -/
inductive Table.Slip (payload : Entries) : Misuse → Prop where
  | rows {e : Value × Value} {m : Misuse} (he : e ∈ (payload.field "kinds").entries)
      (h : KindRows.Slip (commonStyles payload) e.2.entries m) : Slip payload m
  | kind {e : Value × Value} (he : e ∈ (payload.field "kinds").entries) (h : e.1.legible = false) : Slip payload .tooLong
  | description (htruthy : (payload.field "description").truthy = true)
      (h : (payload.field "description").legible = false) : Slip payload .tooLong

/-- What counts as false has no elements. -/
theorem Value.eq_nil_of_not_truthy {v : Value} {items : List Value} (h : ¬v.truthy = true)
    (hitems : v.elements? = some items) : items = [] := by
  cases v with
  | list | tuple | dict =>
      cases hitems
      simpa [truthy] using h
  | text s =>
      cases hitems
      simpa [truthy] using h
  | _ => cases hitems

/-! ### Words and parameters -/

namespace Options

variable {v : Value} {es : Entries} {m : Misuse}

/-- A pair is misused for the number of its parts only. -/
theorem odd_of_readEntry {pair : Value} (h : readEntry es pair = .error (.misuse m)) :
    m = .wrongCount ∧ ∃ parts, pair.elements? = some parts ∧ parts.length ≠ 2 := by
  unfold readEntry at h
  split at h
  · cases h
  · split at h <;> cases h
  · next parts hnot hparts =>
      cases h
      refine ⟨rfl, parts, hparts, fun hlength => ?_⟩
      obtain ⟨key, value, rfl⟩ := List.length_eq_two.mp hlength
      exact hnot key value rfl

/-- A pair that is read has two parts. -/
theorem even_of_readEntry {pair : Value} {next : Entries} (h : readEntry es pair = .ok next) :
    ∀ parts, pair.elements? = some parts → parts.length = 2 := by
  intro parts hparts
  unfold readEntry at h
  rw [hparts] at h
  split at h
  · next hnone => cases hnone
  · next hsome => rw [Option.some.inj hsome]; rfl
  · cases h

theorem odd_of_foldlM_readEntry {items : List Value} (h : items.foldlM readEntry es = .error (.misuse m)) :
    m = .wrongCount ∧ ∃ item ∈ items, ∃ parts, item.elements? = some parts ∧ parts.length ≠ 2 := by
  induction items generalizing es with
  | nil => cases h
  | cons item items ih =>
      rw [List.foldlM_cons] at h
      cases hone : readEntry es item with
      | ok next =>
          rw [hone] at h
          obtain ⟨hm, other, hother, hodd⟩ := ih h
          exact ⟨hm, other, List.mem_cons_of_mem item hother, hodd⟩
      | error fault =>
          rw [hone] at h
          cases h
          obtain ⟨hm, hodd⟩ := odd_of_readEntry hone
          exact ⟨hm, item, List.mem_cons_self, hodd⟩

theorem even_of_foldlM_readEntry {items : List Value} {words : Entries} (h : items.foldlM readEntry es = .ok words) :
    ∀ item ∈ items, ∀ parts, item.elements? = some parts → parts.length = 2 := by
  induction items generalizing es with
  | nil => exact fun item hitem => absurd hitem List.not_mem_nil
  | cons item items ih =>
      rw [List.foldlM_cons] at h
      obtain ⟨next, hone, h⟩ := bind_eq_ok_iff.mp h
      rw [List.forall_mem_cons]
      exact ⟨even_of_readEntry hone, ih h⟩

/-- Words are misused only for an element that is no pair. -/
theorem odd_of_readWords (h : readWords v = .error (.misuse m)) : m = .wrongCount ∧ v.HasOddElement := by
  unfold readWords at h
  split at h
  · cases h
  · next hdict =>
      cases helements : v.elements? with
      | none => rw [helements] at h; cases h
      | some items =>
          rw [helements] at h
          obtain ⟨hm, hodd⟩ := odd_of_foldlM_readEntry h
          exact ⟨hm, fun es => hdict es, items, helements, hodd⟩

/-- Words that are read have no element that is no pair. -/
theorem not_odd_of_readWords {words : Entries} (h : readWords v = .ok words) : ¬ v.HasOddElement := by
  rintro ⟨hdict, items, helements, item, hitem, parts, hparts, hodd⟩
  unfold readWords at h
  split at h
  · exact hdict _ rfl
  · rw [helements] at h
    exact hodd (even_of_foldlM_readEntry h item hitem parts hparts)

end Options

/-! ### Rows -/

open Options

variable {slips : Misuse → Prop} {location field : String} {row : Entries}

/-- A writer of a column is made or refused. -/
theorem reads_columnWriter : Reads slips (writerAt ColumnWriter location field row) :=
  reads_writerAt fun _ _ _ hmake => absurd hmake ColumnWriter.make?_ne_misuse

/-- A writer of a value is made, refused, or misused by its words. -/
theorem reads_styleWriter (h : row.MapsOddly → slips .wrongCount) :
    Reads slips (writerAt StyleWriter location "write" row) := by
  refine reads_writerAt fun name m hname hmake => ?_
  obtain ⟨rfl, options, hcheck, hwords⟩ := StyleWriter.make?_eq_misuse hmake
  obtain ⟨hoptions, hneeded⟩ := check_eq_ok hcheck
  cases hoptions
  rw [field_writerOptions (by decide)] at hwords
  have hvalues := hneeded "values" (by decide)
  rw [field?_writerOptions (by decide)] at hvalues
  obtain ⟨v, hv⟩ := Option.isSome_iff_exists.mp hvalues
  rw [Entries.field, hv] at hwords
  obtain ⟨rfl, hodd⟩ := odd_of_readWords hwords
  exact h ⟨hname, v, hv, hodd⟩

/-- A writer that was made has no words that are not pairs. -/
theorem not_mapsOddly_of_writerAt {w : StyleWriter} (h : writerAt StyleWriter location "write" row = .ok w) :
    ¬ row.MapsOddly := by
  rintro ⟨hname, v, hv, hodd⟩
  obtain ⟨name, hname', hmake⟩ := writerAt_eq_ok_iff.mp h
  rw [hname] at hname'
  cases hname'
  obtain ⟨options, hcheck, hmake⟩ := bind_eq_ok_iff.mp (Option.some.inj hmake)
  obtain ⟨words, hwords, -⟩ := bind_eq_ok_iff.mp hmake
  cases (check_eq_ok hcheck).1
  rw [field_writerOptions (by decide), Entries.field, hv] at hwords
  exact not_odd_of_readWords hwords hodd

theorem RoleRow.reads_parse {raw : Value} (h : (raw.entries.field "literal").entries.MapsOddly → slips .wrongCount) :
    Reads slips (parse location raw) := by
  refine reads_mappingAt.bind fun es hes => ?_
  rw [entries_of_mappingAt hes]
  split
  · exact .fault _
  · refine Reads.bind ?_ fun column? _ => Reads.bind ?_ fun literal? _ => .ok _
    · unfold parseWriter
      split
      · exact .ok none
      · exact reads_mappingAt.bind fun row _ => reads_columnWriter.bind fun w _ => .ok _
    · unfold parseWriter
      split
      · exact .ok none
      · refine reads_mappingAt.bind fun row hrow => (reads_styleWriter fun hodd => h ?_).bind fun w _ => .ok _
        rwa [entries_of_mappingAt hrow] at hodd

theorem StyleRow.reads_parse {raw : Value} (hcropping : (raw.entries.field "cropping").isKey = false → slips .unhashable)
    (hillegible : (raw.entries.field "cropping").isKey = true → (raw.entries.field "cropping").legible = false →
      slips .tooLong)
    (hwords : raw.entries.field? "rewrite" = none → raw.entries.MapsOddly → slips .wrongCount) :
    Reads slips (parse location raw) := by
  refine reads_mappingAt.bind fun es hes => ?_
  rw [entries_of_mappingAt hes]
  refine Reads.bind ?_ fun cropping _ => ?_
  · unfold parseCropping
    split
    · exact .ok _
    · exact .ok _
    · exact .ok _
    · split
      · next hkey => exact .about _ (hillegible hkey)
      · next hkey => exact .slip (hcropping (Bool.eq_false_iff.mpr hkey))
  · dsimp only
    split
    · have harranger : Reads slips (writerAt Arranger location "rewrite" raw.entries) :=
        reads_writerAt fun _ _ _ hmake => absurd hmake Arranger.make?_ne_misuse
      exact (harranger.map _).bind fun _ _ => .ok _
    · next hrewrite =>
        rw [Option.isSome_iff_ne_none, not_not] at hrewrite
        exact ((reads_styleWriter (hwords hrewrite)).map _).bind fun _ _ => .ok _

/-- A cropping that was read can be a key, and it can be written. -/
theorem StyleRow.named_of_parseCropping {raw : Value} {cropping : Option Cropping}
    (h : parseCropping location raw = .ok cropping) : raw.isKey = true ∧ raw.legible = true := by
  unfold parseCropping at h
  split at h
  · exact ⟨rfl, rfl⟩
  · exact ⟨rfl, rfl⟩
  · exact ⟨rfl, rfl⟩
  · split at h <;> cases h

theorem FacetRow.reads_parse {raw : Value} : Reads slips (parse location raw) := by
  unfold parse
  split
  · exact .ok none
  · refine reads_mappingAt.bind fun row _ => Reads.bind ?_ fun _ _ => .ok _
    exact reads_writerAt fun _ _ _ hmake => absurd hmake FacetWriter.make?_ne_misuse

namespace KindRows

variable {common fields : Entries}

theorem reads_parseRoles : Reads (Slip common fields) (parseRoles location (fields.field "roles")) := by
  refine reads_mappingAt.bind fun es hes => Reads.mapM fun e he => ?_
  rw [entries_of_mappingAt hes] at he
  exact (reads_wordAt fun h => .word (.role he) h).bind fun role _ =>
    (RoleRow.reads_parse fun h => .literal he h).bind fun _ _ => .ok _

theorem reads_parseStyles :
    Reads (Slip common fields) (parseStyles location (mergedStyles common (fields.field "styles").entries)) := by
  refine Reads.bind (Reads.mapM fun e he => ?_) fun parsed _ => .ok _
  refine (reads_wordAt fun h => .word (.style he) h).bind fun key _ => ?_
  split
  · exact .ok none
  · exact (StyleRow.reads_parse (fun h => .cropping he h) (fun hkey h => .word (.cropping he hkey) h)
      fun hrewrite h => .words he hrewrite h).bind fun _ _ => .ok _

theorem reads_parseRequired : Reads (Slip common fields) (parseRequired location (fields.field "requires")) := by
  unfold parseRequired
  split
  · next htruthy =>
      split
      · next items hitems => exact Reads.mapM fun v hv => reads_wordAt fun h => .word (.required hitems hv) h
      · next hnone => exact .slip (.required htruthy hnone)
  · exact .ok []

theorem reads_parseConditional :
    Reads (Slip common fields) (parseConditional location (fields.field "requires_when")) := by
  refine reads_mappingAt.bind fun es hes => Reads.mapM fun e he => ?_
  rw [entries_of_mappingAt hes] at he
  exact (reads_wordAt fun h => .word (.needed he) h).bind fun _ _ =>
    (reads_wordAt fun h => .word (.condition he) h).bind fun _ _ => .ok _

/-- Each entry names a role that is needed, and the role whose binding makes it so. -/
theorem conditional_of_parseConditional {raw : Value} {pairs : List (Role × Role)}
    (h : parseConditional location raw = .ok pairs) {e : Value × Value} (he : e ∈ raw.entries) :
    ∃ needed condition, wordAt Role location e.1 = .ok needed ∧ wordAt Role location e.2 = .ok condition := by
  obtain ⟨es, hes, h⟩ := bind_eq_ok_iff.mp h
  rw [← entries_of_mappingAt hes] at he
  obtain ⟨pair, hpair⟩ := exists_mapM_iff.mp ⟨pairs, h⟩ e he
  obtain ⟨needed, hneeded, hpair⟩ := bind_eq_ok_iff.mp hpair
  obtain ⟨condition, hcondition, -⟩ := bind_eq_ok_iff.mp hpair
  exact ⟨needed, condition, hneeded, hcondition⟩

/-- The choice of a kind is made, refused, or misused by its parameters. -/
theorem reads_selector :
    Reads (Slip common fields) (writerAt SelectorWriter location "write" (fields.field "select").entries) := by
  refine reads_writerAt fun name m hname hmake => ?_
  obtain ⟨rfl, options, hcheck, hparams⟩ := SelectorWriter.make?_eq_misuse hmake
  obtain ⟨hoptions, hneeded⟩ := check_eq_ok hcheck
  cases hoptions
  rw [field_writerOptions (by decide)] at hparams
  have hthere := hneeded "params" (by decide)
  rw [field?_writerOptions (by decide)] at hthere
  obtain ⟨v, hv⟩ := Option.isSome_iff_exists.mp hthere
  rw [Entries.field, hv] at hparams
  unfold readParams at hparams
  split at hparams
  · cases hparams
  · next hdict =>
      cases hparams
      exact .params hname hv fun es => hdict es

/-- The rows of a kind are read, have a fault, or slip. -/
theorem reads_parse {slips : Misuse → Prop} {source : String} {name raw : Value}
    (hname : name.legible = false → slips .tooLong) (hrows : ∀ m, Slip common raw.entries m → slips m) :
    Reads slips (parse source common name raw) := by
  refine (reads_wordAt hname).bind fun kind _ => ?_
  suffices h : Reads (Slip common raw.entries) _ from h.mono hrows
  refine reads_mappingAt.bind fun fields hfields => ?_
  rw [entries_of_mappingAt hfields]
  refine reads_parseRoles.bind fun roles _ => reads_mappingAt.bind fun own hown => ?_
  rw [entries_of_mappingAt hown]
  refine reads_parseStyles.bind fun styles _ => reads_mappingAt.bind fun select hselect => ?_
  rw [entries_of_mappingAt hselect]
  split
  · exact .fault _
  · exact reads_selector.bind fun _ _ => reads_parseRequired.bind fun _ _ => reads_parseConditional.bind fun _ _ =>
      FacetRow.reads_parse.bind fun _ _ => .ok _

/-- The words in rows that were read can be written. -/
theorem legible_of_names {source : String} {rows : KindRows} {v : Value} (h : ReadFrom source common fields rows)
    (hv : Names common fields v) : v.legible = true := by
  cases hv with
  | role he =>
      obtain ⟨⟨role, hrole⟩, -⟩ := role_of_parseRoles h.roles he
      exact legible_of_wordAt hrole
  | style he =>
      obtain ⟨⟨key, hkey⟩, -⟩ := style_of_parseStyles h.styles he
      exact legible_of_wordAt hkey
  | @cropping e he hkey =>
      by_cases hnull : e.2 = .null
      · rw [hnull]
        rfl
      · obtain ⟨place, r, hr⟩ := (style_of_parseStyles h.styles he).2 hnull
        exact (StyleRow.named_of_parseCropping (StyleRow.of_parse hr).1).2
  | required hitems hv =>
      have hrequired := h.required
      rw [parseRequired, hitems] at hrequired
      split at hrequired
      · obtain ⟨role, hrole⟩ := exists_mapM_iff.mp ⟨_, hrequired⟩ _ hv
        exact legible_of_wordAt hrole
      · next hfalsy =>
          rw [Value.eq_nil_of_not_truthy hfalsy hitems] at hv
          cases hv
  | needed he =>
      obtain ⟨_, _, hneeded, -⟩ := conditional_of_parseConditional h.conditional he
      exact legible_of_wordAt hneeded
  | condition he =>
      obtain ⟨_, _, -, hcondition⟩ := conditional_of_parseConditional h.conditional he
      exact legible_of_wordAt hcondition

/-- The rows of a kind that were read have no slip. -/
theorem not_slip_of_readFrom {source : String} {rows : KindRows} {m : Misuse}
    (h : ReadFrom source common fields rows) : ¬ Slip common fields m := by
  intro hslip
  cases hslip with
  | word hv hillegible =>
      rw [legible_of_names h hv] at hillegible
      cases hillegible
  | @literal e he hodd =>
      obtain ⟨-, place, r, hr⟩ := role_of_parseRoles h.roles he
      obtain ⟨hnull, -⟩ | ⟨row, w, hrow, -, hw⟩ := RoleRow.of_parseWriter (RoleRow.of_parse hr).2.1
      · rw [hnull] at hodd
        cases hodd.1
      · rw [hrow] at hodd
        exact not_mapsOddly_of_writerAt hw hodd
  | @words e he hrewrite hodd =>
      obtain ⟨place, r, hr⟩ := (style_of_parseStyles h.styles he).2 fun hnull => by
        rw [hnull] at hodd
        cases hodd.1
      obtain ⟨w, hw⟩ := (StyleRow.of_parse hr).2 hrewrite
      exact not_mapsOddly_of_writerAt hw hodd
  | @cropping e he hkey =>
      obtain ⟨place, r, hr⟩ := (style_of_parseStyles h.styles he).2 fun hnull => by
        rw [hnull] at hkey
        cases hkey
      rw [(StyleRow.named_of_parseCropping (StyleRow.of_parse hr).1).1] at hkey
      cases hkey
  | @params v hwrite hv hdict =>
      obtain ⟨name, hname, hmake⟩ := writerAt_eq_ok_iff.mp h.selector
      rw [hwrite] at hname
      cases hname
      obtain ⟨options, hcheck, hmake⟩ := bind_eq_ok_iff.mp (Option.some.inj hmake)
      obtain ⟨words, hwords, -⟩ := bind_eq_ok_iff.mp hmake
      cases (check_eq_ok hcheck).1
      rw [field_writerOptions (by decide), Entries.field, hv] at hwords
      exact hdict words (dict_of_readParams hwords)
  | required htruthy hnone =>
      have hrequired := h.required
      rw [parseRequired, htruthy, hnone] at hrequired
      cases hrequired

end KindRows

/-! ### Payloads and directories -/

namespace Table

variable {source : String} {payload : Entries} {m : Misuse}

theorem reads_parseDescription : Reads (Slip payload) (parseDescription (payload.field "description")) := by
  unfold parseDescription
  split
  · next htruthy =>
      unfold Value.present
      split
      · exact .ok _
      · next hillegible => exact .slip (.description htruthy (by simpa using hillegible))
  · exact .ok _

theorem reads_parseEntries : Reads (Slip payload) (parseEntries source payload) := by
  refine Reads.bind ?_ fun grammar _ => ?_
  · unfold parseGrammar
    split
    · split
      · exact .fault _
      · exact .ok _
    · exact .fault _
  · split
    · next kinds hkinds =>
        refine reads_mappingAt.bind fun defaults hdefaults => reads_mappingAt.bind fun common hcommon => ?_
        refine (Reads.mapM fun e he => ?_).bind fun _ _ => reads_parseDescription.bind fun _ _ => .ok _
        have he : e ∈ (payload.field "kinds").entries := by rwa [hkinds]
        rw [entries_of_mappingAt hcommon, entries_of_mappingAt hdefaults]
        exact KindRows.reads_parse (fun h => .kind he h) fun m hm => .rows he hm
    · exact .fault _

/-- A payload of which a table was read has no slip. -/
theorem not_slip_of_parse {t : Table} (h : parse source (.dict payload) = .ok t) : ¬ Slip payload m := by
  obtain ⟨hkinds, hdescription⟩ := of_parseEntries h
  intro hslip
  cases hslip with
  | rows he hslip =>
      obtain ⟨rows, hrows⟩ := exists_mapM_iff.mp ⟨t.kinds, hkinds⟩ _ he
      exact KindRows.not_slip_of_readFrom (KindRows.readFrom_of_parse hrows) hslip
  | kind he hillegible =>
      obtain ⟨rows, hrows⟩ := exists_mapM_iff.mp ⟨t.kinds, hkinds⟩ _ he
      rw [legible_of_wordAt (KindRows.named_and_readFrom_of_parse hrows).1] at hillegible
      cases hillegible
  | description htruthy hillegible =>
      rw [parseDescription, htruthy, Value.present, hillegible] at hdescription
      cases hdescription

end Table

namespace Registry

variable {directory : String} {files : List TableFile}

theorem reads_register {registered : List Table} {t : Table} : Reads slips (register registered t) := by
  unfold register
  split
  · exact .fault _
  · exact .ok _

theorem reads_read {f : TableFile} : Reads (Table.Slip f.content.entries) (f.read directory) := by
  unfold TableFile.read
  split
  · split
    · next payload hcontent =>
        rw [hcontent]
        exact Table.reads_parseEntries
    · exact .fault _
  · -- Nothing is read where there is nothing that counts: not even the grammar's name.
    exact .fault _

/-- The tables of a directory are read, have a fault, or one of the files slips. -/
theorem reads_ofDirectory :
    Reads (fun m => ∃ f ∈ tableFiles files, Table.Slip f.content.entries m) (ofDirectory directory files) := by
  unfold ofDirectory
  split
  · exact .fault _
  · refine (Reads.foldlM (fun f hf registered => ?_) []).bind fun registered _ => ?_
    · exact (reads_read.mono fun m hm => ⟨f, hf, hm⟩).bind fun t _ => reads_register
    · unfold ofRegistered
      split
      · exact .fault _
      · exact .ok _

end Registry

namespace Check

/-- The report of a fault can always be printed. -/
theorem exists_printed (message : String) :
    ∃ text, printed [(.text "ok", .bool false), (.text "error", .text message)] = .ok text := by
  let lines : List (Value × String) := [(.text "ok", "false"), (.text "error", Value.jsonText message)]
  have hwritten : Value.jsonEntries 1 [(.text "ok", .bool false), (.text "error", .text message)] =
      lines.map fun e => (e.1, .ok e.2) := rfl
  have hjson := Value.jsonAt_dict hwritten (by simp [lines])
  exact ⟨_, bind_eq_ok_iff.mpr ⟨_, congrArg Fault.ofMisuse hjson, rfl⟩⟩

/-- A program that comes to the tables of a directory reports on them. -/
theorem script_eq_report {env : Environment} {contents : String → List TableFile} {words : List String}
    {configured : Registry} {directory : Option String} {level path : String}
    (hconfigured : load env contents none = .ok configured) (hwords : parse words = some (.check directory level))
    (hlevel : readLevel level = .ok ()) (hplace : Check.location env directory = .ok (.directory path)) :
    script env contents words = report (Registry.ofDirectory path (contents path)) := by
  have hrun : run env contents words = report (Registry.ofDirectory path (contents path)) := by
    rw [run, hwords]
    show Fault.ofMisuse (readLevel level) >>= (fun _ => report (load env contents directory)) = _
    rw [hlevel, load, hplace]
    rfl
  rw [script, hconfigured, ← hrun]
  rfl

/-- A payload is read as a table or has a fault, unless it slips, and then no table is read of it. The program ends with
any fault in the tables that the settings name, and reports nothing. Once those are loaded, it reports the fault of a
directory with exit status one, unless a file of the directory slips. -/
theorem reported_unless_slipped (source : String) (payload : Entries) (env : Environment)
    (contents : String → List TableFile) (words : List String) :
    Reads (Table.Slip payload) (Table.parse source (.dict payload)) ∧
    ((∃ m, Table.Slip payload m) → ∀ t, Table.parse source (.dict payload) ≠ .ok t) ∧
    (∀ fault, load env contents none = .error fault → script env contents words = .error fault) ∧
    ∀ configured directory level path, load env contents none = .ok configured →
      parse words = some (.check directory level) → readLevel level = .ok () →
      Check.location env directory = .ok (.directory path) →
      (∃ r, Registry.ofDirectory path (contents path) = .ok r) ∨
      (∃ fault text, Registry.ofDirectory path (contents path) = .error (.table fault) ∧
        printed [(.text "ok", .bool false), (.text "error", .text fault.message)] = .ok text ∧
        script env contents words = .ok ⟨1, text⟩) ∨
      ∃ m, script env contents words = .error (.misuse m) ∧
        ∃ f ∈ Registry.tableFiles (contents path), Table.Slip f.content.entries m := by
  refine ⟨Table.reads_parseEntries, ?_, ?_, ?_⟩
  · rintro ⟨m, hslip⟩ t ht
    exact Table.not_slip_of_parse ht hslip
  · intro fault hfault
    rw [script, hfault]
    rfl
  · intro configured directory level path hconfigured hwords hlevel hplace
    rw [script_eq_report hconfigured hwords hlevel hplace]
    have hends : Reads (fun m => ∃ f ∈ Registry.tableFiles (contents path), Table.Slip f.content.entries m)
        (Registry.ofDirectory path (contents path)) := Registry.reads_ofDirectory
    cases hload : Registry.ofDirectory path (contents path) with
    | ok r => exact .inl ⟨r, rfl⟩
    | error fault =>
        rw [hload] at hends
        cases hends with
        | fault fault =>
            obtain ⟨text, htext⟩ := exists_printed fault.message
            exact .inr (.inl ⟨fault, text, rfl, htext, by rw [report, htext]; rfl⟩)
        | slip hslip => exact .inr (.inr ⟨_, rfl, hslip⟩)

/-- An empty table file. -/
def emptyFile : TableFile :=
  ⟨"a.yml", .dict []⟩

theorem tableFiles_emptyFile : Registry.tableFiles [emptyFile] = [emptyFile] := by
  have htable : emptyFile.isTable = true := by decide +kernel
  rw [Registry.tableFiles, List.filter_cons_of_pos htable, List.filter_nil, List.mergeSort_singleton]

/-- Of a directory whose one file holds no entries, the check reports the fault. Where the settings name the directory,
the program ends without a report. -/
theorem reported_for_empty_file :
    (∃ text, script {} (fun _ => [emptyFile]) ["--tables-dir", "tables"] = .ok ⟨1, text⟩) ∧
    ∃ fault, script { bindings := [(Settings.tablesVariable, "tables")] } (fun _ => [emptyFile]) [] = .error fault := by
  have hload (path : String) :
      Registry.ofDirectory path [emptyFile] = .error (.inTable (joinPath path "a.yml") .grammarMissing) := by
    rw [Registry.ofDirectory, tableFiles_emptyFile]
    rfl
  constructor
  · obtain ⟨r, hr⟩ | ⟨fault, text, -, -, hscript⟩ | ⟨m, -, f, hf, hslip⟩ :=
      (reported_unless_slipped "a.yml" [] {} (fun _ => [emptyFile]) ["--tables-dir", "tables"]).2.2.2 .shipped
        (some "tables") "WARNING" (normalizePath "tables") rfl (by decide +kernel) rfl rfl
    · rw [hload] at hr
      cases hr
    · exact ⟨text, hscript⟩
    · rw [tableFiles_emptyFile, List.mem_singleton] at hf
      subst hf
      cases hslip with
      | rows he | kind he => cases he
      | description htruthy => cases htruthy
  · refine ⟨_, (reported_unless_slipped "a.yml" [] _ (fun _ => [emptyFile]) []).2.2.1
      (.inTable (joinPath "tables" "a.yml") .grammarMissing) ?_⟩
    have hplace : Check.location { bindings := [(Settings.tablesVariable, "tables")] } none =
        .ok (.directory "tables") := rfl
    rw [load, hplace]
    exact hload "tables"

/-- A kind's row of a style key with a list as its cropping. -/
def croppedByList : Entries :=
  [(.text "grammar", .text "mini"),
    (.text "kinds", .dict [(.text "bar", .dict [(.text "styles", .dict [(.text "axisLimitX", .dict
      [(.text "write", .text "pair"), (.text "param", .text "xlim"), (.text "cropping", .list [])])])])])]

/-- A payload may be neither read as a table nor reported to have a fault. -/
theorem not_read_or_reported : ¬ ∀ (source : String) (payload : Entries),
    (∃ t, Table.parse source (.dict payload) = .ok t) ∨
    ∃ fault, Table.parse source (.dict payload) = .error (.table fault) := by
  intro h
  have hslips : Table.parse "<memory>" (.dict croppedByList) = .error (.misuse .unhashable) := by
    rfl
  obtain ⟨t, ht⟩ | ⟨fault, hfault⟩ := h "<memory>" croppedByList
  · rw [hslips] at ht
    cases ht
  · rw [hslips] at hfault
    cases hfault

end Check

end ChartGrammar
