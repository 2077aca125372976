import ChartGrammar.Proofs.Value.Sameness
import ChartGrammar.Table.Parse

/-! The reading of tables, part by part. For each part of a payload it is said of which values in the payload a row
that was read is made, and how the reading can end: with a result, with a fault in the table, or with a misuse that
the writers' options bring about. -/

namespace ChartGrammar

/-! ### Ends of a reading -/

/-- The outcome is a result, a fault in a table, or one of some misuses. -/
inductive Reads (slips : Misuse → Prop) {α : Type} : Except Fault α → Prop where
  | ok (a : α) : Reads slips (.ok a)
  | fault (f : TableFault) : Reads slips (.error (.table f))
  | slip {m : Misuse} (h : slips m) : Reads slips (.error (.misuse m))

namespace Reads

variable {slips others : Misuse → Prop} {α β : Type} {outcome : Except Fault α} {items : List α}

theorem mono (h : Reads slips outcome) (hothers : ∀ m, slips m → others m) : Reads others outcome := by
  cases h with
  | ok a => exact .ok a
  | fault f => exact .fault f
  | slip h => exact .slip (hothers _ h)

theorem bind {next : α → Except Fault β} (h : Reads slips outcome)
    (hnext : ∀ a, outcome = .ok a → Reads slips (next a)) : Reads slips (outcome >>= next) := by
  cases h with
  | ok a => exact hnext a rfl
  | fault f => exact .fault f
  | slip h => exact .slip h

theorem map (h : Reads slips outcome) (f : α → β) : Reads slips (f <$> outcome) := by
  cases h with
  | ok a => exact .ok (f a)
  | fault f => exact .fault f
  | slip h => exact .slip h

/-- A fault whose message shows a value is reported, unless the value cannot be written. -/
theorem about {v : Value} (f : TableFault) (h : v.legible = false → slips .tooLong) :
    Reads slips (.error (.about v (.table f)) : Except Fault α) := by
  cases hlegible : v.legible with
  | true =>
      rw [Fault.about_of_legible hlegible]
      exact .fault f
  | false =>
      rw [Fault.about_of_not_legible hlegible]
      exact .slip (h hlegible)

theorem mapM {f : α → Except Fault β} (h : ∀ a ∈ items, Reads slips (f a)) : Reads slips (items.mapM f) := by
  induction items with
  | nil => exact .ok []
  | cons a items ih =>
      rw [List.forall_mem_cons] at h
      rw [List.mapM_cons]
      exact h.1.bind fun b _ => (ih h.2).bind fun bs _ => .ok (b :: bs)

theorem foldlM {step : β → α → Except Fault β} (h : ∀ a ∈ items, ∀ b, Reads slips (step b a)) (start : β) :
    Reads slips (items.foldlM step start) := by
  induction items generalizing start with
  | nil => exact .ok start
  | cons a items ih =>
      rw [List.forall_mem_cons] at h
      rw [List.foldlM_cons]
      exact (h.1 start).bind fun b _ => ih h.2 b

end Reads

/-! ### Entries and words -/

/-- The entries of a dictionary; any other value has none. -/
def Value.entries : Value → Entries
  | .dict es => es
  | _ => []

variable {slips : Misuse → Prop} {location field : String} {v : Value} {es row : Entries}

theorem entries_of_mappingAt (h : mappingAt location v = .ok es) : es = v.entries := by
  cases v <;> first | exact (Except.ok.inj h).symm | cases h

theorem reads_mappingAt : Reads slips (mappingAt location v) := by
  cases v with
  | null => exact .ok []
  | dict es => exact .ok es
  | _ => exact .fault _

theorem reads_wordAt {α : Type} [Vocabulary α] (h : v.legible = false → slips .tooLong) :
    Reads slips (wordAt α location v) := by
  unfold wordAt
  split
  · exact .ok _
  · exact .about _ h

/-- A word of a vocabulary can be written. -/
theorem legible_of_wordAt {α : Type} [Vocabulary α] {a : α} (h : wordAt α location v = .ok a) : v.legible = true := by
  unfold wordAt at h
  split at h
  · next hword =>
      cases v with
      | text => rfl
      | _ => cases hword
  · cases h

/-! ### Writers -/

/-- The options of a writer are the fields of its row, the reserved ones apart. -/
theorem field?_writerOptions {name : String} (h : name ∉ reservedFields) :
    (writerOptions row).field? name = row.field? name := by
  have hfind : (writerOptions row).find? (fun e => e.1.same (.text name)) = row.find? fun e => e.1.same (.text name) := by
    unfold writerOptions
    rw [List.find?_filter]
    congr 1
    funext e
    cases hname : e.1.same (.text name) with
    | false => simp
    | true =>
        rw [Value.same_text_right_iff] at hname
        rw [hname]
        simpa using h
  simp only [Entries.field?, Entries.get?, hfind]

theorem field_writerOptions {name : String} (h : name ∉ reservedFields) :
    (writerOptions row).field name = row.field name := by
  rw [Entries.field, field?_writerOptions h, Entries.field]

theorem writerAt_eq_ok_iff {W : Type} [WriterFamily W] {w : W} : writerAt W location field row = .ok w ↔
    ∃ name, row.field field = .text name ∧ WriterFamily.make? name (.dict (writerOptions row)) = some (.ok w) := by
  unfold writerAt
  cases row.field field with
  | text name =>
      simp only [makeWriter, Value.text.injEq, exists_eq_left']
      cases (WriterFamily.make? name (.dict (writerOptions row)) : Option (Except OptionFault W)) with
      | none => simp
      | some outcome =>
          cases outcome with
          | ok w => simp
          | error fault => cases fault <;> simp
  | _ => simp

/-- A writer is made, refused with a fault, or misused by its options. -/
theorem reads_writerAt {W : Type} [WriterFamily W] (h : ∀ name m, row.field field = .text name →
      (WriterFamily.make? name (.dict (writerOptions row)) : Option (Except OptionFault W)) = some (.error (.misuse m)) →
        slips m) : Reads slips (writerAt W location field row) := by
  unfold writerAt
  cases hfield : row.field field with
  | text name =>
      simp only [makeWriter]
      cases hmake : (WriterFamily.make? name (.dict (writerOptions row)) : Option (Except OptionFault W)) with
      | none => exact .fault _
      | some outcome =>
          cases outcome with
          | ok w => exact .ok w
          | error fault =>
              cases fault with
              | unfit => exact .fault _
              | misuse m => exact .slip (h name m hfield hmake)
  | _ => exact .fault _

namespace Options

theorem check_eq_ok {required optional : List String} {options : Value} (h : check required optional options = .ok es) :
    options = .dict es ∧ ∀ name ∈ required, (es.field? name).isSome = true := by
  unfold check at h
  split at h
  · dsimp only at h
    split at h
    · next hknown =>
        cases h
        rw [Bool.and_eq_true] at hknown
        exact ⟨rfl, List.all_eq_true.mp hknown.2⟩
    · cases h
  · cases h

theorem check_ne_misuse {required optional : List String} {options : Value} {m : Misuse} :
    check required optional options ≠ .error (.misuse m) := by
  unfold check
  split
  · dsimp only
    split <;> exact fun h => nomatch h
  · exact fun h => nomatch h

/-- A writer is misused only by what is made of its options, once they have been checked. -/
theorem exists_of_check_bind {W : Type} {required optional : List String} {options : Value}
    {make : Entries → Except OptionFault W} {m : Misuse}
    (h : (check required optional options >>= make) = .error (.misuse m)) :
    ∃ es, check required optional options = .ok es ∧ make es = .error (.misuse m) := by
  cases hcheck : check required optional options with
  | ok es => exact ⟨es, rfl, by rwa [hcheck] at h⟩
  | error fault =>
      rw [hcheck] at h
      cases h
      exact absurd hcheck check_ne_misuse

theorem dict_of_readParams {v : Value} (h : readParams v = .ok es) : v = .dict es := by
  cases v <;> cases h
  rfl

end Options

open Options

theorem ColumnWriter.make?_ne_misuse {name : String} {options : Value} {m : Misuse} :
    (WriterFamily.make? name options : Option (Except OptionFault ColumnWriter)) ≠ some (.error (.misuse m)) := by
  intro h
  simp only [WriterFamily.make?] at h
  split at h
  case h_10 => cases h
  all_goals
    obtain ⟨es, -, hmake⟩ := exists_of_check_bind (Option.some.inj h)
    cases hmake

theorem FacetWriter.make?_ne_misuse {name : String} {options : Value} {m : Misuse} :
    (WriterFamily.make? name options : Option (Except OptionFault FacetWriter)) ≠ some (.error (.misuse m)) := by
  intro h
  simp only [WriterFamily.make?] at h
  split at h
  case h_3 => cases h
  all_goals
    obtain ⟨es, -, hmake⟩ := exists_of_check_bind (Option.some.inj h)
    cases hmake

theorem Arranger.make?_ne_misuse {name : String} {options : Value} {m : Misuse} :
    (WriterFamily.make? name options : Option (Except OptionFault Arranger)) ≠ some (.error (.misuse m)) := by
  intro h
  simp only [WriterFamily.make?] at h
  split at h
  case h_2 => cases h
  obtain ⟨es, -, hmake⟩ := exists_of_check_bind (Option.some.inj h)
  cases hmake

/-- Of the writers of values, only a table of words is made of something that can be out of shape. -/
theorem StyleWriter.make?_eq_misuse {name : String} {options : Value} {m : Misuse}
    (h : (WriterFamily.make? name options : Option (Except OptionFault StyleWriter)) = some (.error (.misuse m))) :
    name = "mapped" ∧ ∃ es, check ["param", "values"] [] options = .ok es ∧
      readWords (es.field "values") = .error (.misuse m) := by
  simp only [WriterFamily.make?] at h
  split at h
  case h_8 => cases h
  all_goals obtain ⟨es, hcheck, hmake⟩ := exists_of_check_bind (Option.some.inj h)
  case h_4 =>
    refine ⟨rfl, es, hcheck, ?_⟩
    cases hwords : readWords (es.field "values") with
    | ok words =>
        rw [hwords] at hmake
        cases hmake
    | error fault =>
        rw [hwords] at hmake
        cases hmake
        rfl
  all_goals cases hmake

/-- Of the writers of a chart's kind, only fixed parameters are made of something that can be out of shape. -/
theorem SelectorWriter.make?_eq_misuse {name : String} {options : Value} {m : Misuse}
    (h : (WriterFamily.make? name options : Option (Except OptionFault SelectorWriter)) = some (.error (.misuse m))) :
    name = "fixed" ∧ ∃ es, check ["params"] [] options = .ok es ∧
      readParams (es.field "params") = .error (.misuse m) := by
  simp only [WriterFamily.make?] at h
  split at h
  case h_3 => cases h
  all_goals obtain ⟨es, hcheck, hmake⟩ := exists_of_check_bind (Option.some.inj h)
  case h_1 =>
    refine ⟨rfl, es, hcheck, ?_⟩
    cases hparams : readParams (es.field "params") with
    | ok words =>
        rw [hparams] at hmake
        cases hmake
    | error fault =>
        rw [hparams] at hmake
        cases hmake
        rfl
  cases hmake

/-! ### Rows -/

namespace RoleRow

variable {raw : Value} {r : RoleRow}

/-- A row that was read for a role has the two writers of its fields, and folds its column into what the first of
them names. -/
theorem of_parse (h : parse location raw = .ok r) :
    parseWriter ColumnWriter (location ++ ".column") (raw.entries.field "column") = .ok r.column? ∧
    parseWriter StyleWriter (location ++ ".literal") (raw.entries.field "literal") = .ok r.literal? ∧
    r.consumedInto = consumption (raw.entries.field "column") := by
  obtain ⟨es, hes, h⟩ := bind_eq_ok_iff.mp h
  rw [← entries_of_mappingAt hes]
  split at h
  · cases h
  · next hcolumn hliteral =>
      obtain ⟨column?, hcolumn?, h⟩ := bind_eq_ok_iff.mp h
      obtain ⟨literal?, hliteral?, h⟩ := bind_eq_ok_iff.mp h
      cases h
      exact ⟨hcolumn?, hliteral?, rfl⟩

/-- Nothing stands for no writer, and a dictionary for the writer that it names. -/
theorem of_parseWriter {W : Type} [WriterFamily W] {w? : Option W} (h : parseWriter W location raw = .ok w?) :
    (raw = .null ∧ w? = none) ∨ ∃ es w, raw = .dict es ∧ w? = some w ∧ writerAt W location "write" es = .ok w := by
  cases raw with
  | null =>
      cases h
      exact .inl ⟨rfl, rfl⟩
  | dict es =>
      obtain ⟨fields, hfields, h⟩ := bind_eq_ok_iff.mp h
      cases hfields
      obtain ⟨w, hw, h⟩ := bind_eq_ok_iff.mp h
      cases h
      exact .inr ⟨es, w, rfl, rfl, hw⟩
  | _ => cases h

/-- A row that was read folds its column into the parameter that its writer names. -/
theorem consumedInto_of_parse {into : Value} (h : parse location raw = .ok r)
    (hcolumn : r.column? = some (.consumed into)) : r.consumedInto = into := by
  obtain ⟨hwriter, -, hinto⟩ := of_parse h
  rw [hcolumn] at hwriter
  obtain ⟨-, hnone⟩ | ⟨es, w, hes, hw, hwriter⟩ := of_parseWriter hwriter
  · cases hnone
  cases hw
  obtain ⟨name, hname, hmake⟩ := writerAt_eq_ok_iff.mp hwriter
  have hconsumed : name = "consumed" ∧ into = Entries.field es "into" := by
    simp only [WriterFamily.make?] at hmake
    split at hmake
    case h_6 =>
      obtain ⟨options, hoptions, hmake⟩ := bind_eq_ok_iff.mp (Option.some.inj hmake)
      cases hmake
      cases (check_eq_ok hoptions).1
      exact ⟨rfl, field_writerOptions (by decide)⟩
    case h_10 => cases hmake
    case h_3 | h_4 | h_5 | h_7 | h_8 | h_9 | h_1 | h_2 =>
      obtain ⟨options, -, hmake⟩ := bind_eq_ok_iff.mp (Option.some.inj hmake)
      cases hmake
  rw [hinto, hes, consumption, hname, hconsumed.1, hconsumed.2]
  exact if_pos (Value.same_text_right_iff.mpr rfl)

end RoleRow

/-- A row that was read for a style key has the cropping of its field, and writes with the writer that it names
unless it says how it is arranged. -/
theorem StyleRow.of_parse {raw : Value} {r : StyleRow} (h : parse location raw = .ok r) :
    parseCropping location (raw.entries.field "cropping") = .ok r.cropping ∧
    (raw.entries.field? "rewrite" = none → ∃ w, writerAt StyleWriter location "write" raw.entries = .ok w) := by
  obtain ⟨es, hes, h⟩ := bind_eq_ok_iff.mp h
  rw [← entries_of_mappingAt hes]
  obtain ⟨cropping, hcropping, h⟩ := bind_eq_ok_iff.mp h
  dsimp only at h
  split at h
  · next hrewrite =>
      obtain ⟨realization, -, h⟩ := bind_eq_ok_iff.mp h
      cases h
      exact ⟨hcropping, fun hnone => by rw [hnone] at hrewrite; cases hrewrite⟩
  · obtain ⟨realization, hrealization, h⟩ := bind_eq_ok_iff.mp h
    cases h
    obtain ⟨w, hw, -⟩ := map_eq_ok_iff.mp hrealization
    exact ⟨hcropping, fun _ => ⟨w, hw⟩⟩

namespace KindRows

/-- The rows are those that the fields of a kind's rows in a payload hold, with common rows of style keys. -/
structure ReadFrom (source : String) (common fields : Entries) (rows : KindRows) : Prop where
  roles : parseRoles (source ++ ": kinds." ++ rows.kind.name ++ ".roles") (fields.field "roles") = .ok rows.roles
  styles : parseStyles (source ++ ": kinds." ++ rows.kind.name ++ ".styles")
    (mergedStyles common (fields.field "styles").entries) = .ok rows.styles
  selector : writerAt SelectorWriter (source ++ ": kinds." ++ rows.kind.name ++ ".select") "write"
    (fields.field "select").entries = .ok rows.selector
  required : parseRequired (source ++ ": kinds." ++ rows.kind.name ++ ".requires") (fields.field "requires")
    = .ok rows.required
  conditional : parseConditional (source ++ ": kinds." ++ rows.kind.name ++ ".requires_when")
    (fields.field "requires_when") = .ok rows.conditional

/-- The rows of a kind are those of the fields that stand under the kind's name. -/
theorem named_and_readFrom_of_parse {source : String} {common : Entries} {name raw : Value} {rows : KindRows}
    (h : parse source common name raw = .ok rows) :
    wordAt Kind (source ++ ": kinds") name = .ok rows.kind ∧ ReadFrom source common raw.entries rows := by
  obtain ⟨kind, hkind, h⟩ := bind_eq_ok_iff.mp h
  obtain ⟨fields, hfields, h⟩ := bind_eq_ok_iff.mp h
  rw [← entries_of_mappingAt hfields]
  obtain ⟨roles, hroles, h⟩ := bind_eq_ok_iff.mp h
  obtain ⟨own, hown, h⟩ := bind_eq_ok_iff.mp h
  rw [entries_of_mappingAt hown] at h
  obtain ⟨styles, hstyles, h⟩ := bind_eq_ok_iff.mp h
  obtain ⟨select, hselect, h⟩ := bind_eq_ok_iff.mp h
  rw [entries_of_mappingAt hselect] at h
  split at h
  · cases h
  obtain ⟨selector, hselector, h⟩ := bind_eq_ok_iff.mp h
  obtain ⟨required, hrequired, h⟩ := bind_eq_ok_iff.mp h
  obtain ⟨conditional, hconditional, h⟩ := bind_eq_ok_iff.mp h
  obtain ⟨facet?, -, h⟩ := bind_eq_ok_iff.mp h
  cases h
  exact ⟨hkind, hroles, hstyles, hselector, hrequired, hconditional⟩

theorem readFrom_of_parse {source : String} {common : Entries} {name raw : Value} {rows : KindRows}
    (h : parse source common name raw = .ok rows) : ReadFrom source common raw.entries rows :=
  (named_and_readFrom_of_parse h).2

/-- Each row of a role was read from an entry of the payload. -/
theorem exists_of_parseRoles {raw : Value} {roles : List (Role × RoleRow)}
    (h : parseRoles location raw = .ok roles) {role : Role} {r : RoleRow} (hr : (role, r) ∈ roles) :
    ∃ e ∈ raw.entries, RoleRow.parse (location ++ "." ++ role.name) e.2 = .ok r := by
  obtain ⟨es, hes, h⟩ := bind_eq_ok_iff.mp h
  rw [← entries_of_mappingAt hes]
  obtain ⟨e, he, hone⟩ := exists_of_mem_mapM h (role, r) hr
  obtain ⟨role', -, hone⟩ := bind_eq_ok_iff.mp hone
  obtain ⟨r', hr', hone⟩ := bind_eq_ok_iff.mp hone
  cases hone
  exact ⟨e, he, hr'⟩

/-- Each entry of the payload is read as the row of a role, under the name of the role. -/
theorem role_of_parseRoles {raw : Value} {roles : List (Role × RoleRow)} (h : parseRoles location raw = .ok roles)
    {e : Value × Value} (he : e ∈ raw.entries) :
    (∃ role, wordAt Role location e.1 = .ok role) ∧ ∃ place r, RoleRow.parse place e.2 = .ok r := by
  obtain ⟨es, hes, h⟩ := bind_eq_ok_iff.mp h
  rw [← entries_of_mappingAt hes] at he
  obtain ⟨row, hrow⟩ := exists_mapM_iff.mp ⟨roles, h⟩ e he
  obtain ⟨role, hrole, hrow⟩ := bind_eq_ok_iff.mp hrow
  obtain ⟨r, hr, -⟩ := bind_eq_ok_iff.mp hrow
  exact ⟨⟨role, hrole⟩, _, r, hr⟩

/-- Each entry stands under the name of a style key, and is read as the key's row unless it is null. -/
theorem style_of_parseStyles {rows : Entries} {styles : List (StyleKey × StyleRow)}
    (h : parseStyles location rows = .ok styles) {e : Value × Value} (he : e ∈ rows) :
    (∃ key, wordAt StyleKey location e.1 = .ok key) ∧
      (e.2 ≠ .null → ∃ place r, StyleRow.parse place e.2 = .ok r) := by
  obtain ⟨parsed, hparsed, -⟩ := bind_eq_ok_iff.mp h
  obtain ⟨row, hrow⟩ := exists_mapM_iff.mp ⟨parsed, hparsed⟩ e he
  obtain ⟨key, hkey, hrow⟩ := bind_eq_ok_iff.mp hrow
  refine ⟨⟨key, hkey⟩, fun hnull => ?_⟩
  split at hrow
  · next hnone => exact absurd hnone hnull
  · obtain ⟨r, hr, -⟩ := bind_eq_ok_iff.mp hrow
    exact ⟨_, r, hr⟩

end KindRows

namespace Table

/-- The rows of style keys that a payload holds for every kind. -/
def commonStyles (payload : Entries) : Entries :=
  ((payload.field "defaults").entries.field "styles").entries

/-- The rows of a table that was read are those of the payload's kinds, and its description is the payload's. -/
theorem of_parseEntries {source : String} {payload : Entries} {t : Table} (h : parseEntries source payload = .ok t) :
    (payload.field "kinds").entries.mapM (fun e => KindRows.parse source (commonStyles payload) e.1 e.2)
      = .ok t.kinds ∧ parseDescription (payload.field "description") = .ok t.description := by
  obtain ⟨grammar, -, h⟩ := bind_eq_ok_iff.mp h
  split at h
  · next kinds hkinds =>
      rw [hkinds]
      obtain ⟨defaults, hdefaults, h⟩ := bind_eq_ok_iff.mp h
      obtain ⟨common, hcommon, h⟩ := bind_eq_ok_iff.mp h
      obtain ⟨rows, hrows, h⟩ := bind_eq_ok_iff.mp h
      obtain ⟨description, hdescription, h⟩ := bind_eq_ok_iff.mp h
      cases h
      rw [entries_of_mappingAt hcommon, entries_of_mappingAt hdefaults] at hrows
      exact ⟨hrows, hdescription⟩
  · cases h

theorem kinds_of_parseEntries {source : String} {payload : Entries} {t : Table}
    (h : parseEntries source payload = .ok t) :
    (payload.field "kinds").entries.mapM (fun e => KindRows.parse source (commonStyles payload) e.1 e.2)
      = .ok t.kinds :=
  (of_parseEntries h).1

/-- The table was read from some payload. -/
def IsRead (t : Table) : Prop :=
  ∃ source payload, parse source payload = .ok t

/-- A row of a table that was read folds its column into the parameter that its writer names. -/
theorem IsRead.consumedInto {t : Table} (ht : t.IsRead) {kind : Kind} {role : Role} {r : RoleRow} {into : Value}
    (hr : t.role? kind role = some r) (hcolumn : r.column? = some (.consumed into)) : r.consumedInto = into := by
  obtain ⟨source, payload, hparse⟩ := ht
  cases payload with
  | dict payload =>
      obtain ⟨rows, hrows, hr⟩ := Option.bind_eq_some_iff.mp hr
      obtain ⟨e, -, hkind⟩ := exists_of_mem_mapM (kinds_of_parseEntries hparse) rows (List.mem_of_find?_eq_some hrows)
      obtain ⟨e, -, hrole⟩ :=
        KindRows.exists_of_parseRoles (KindRows.readFrom_of_parse hkind).roles (mem_of_lookup hr)
      exact RoleRow.consumedInto_of_parse hrole hcolumn
  | _ => cases hparse

/-- A small payload: each kind is selected by a mark and takes a title and labels, and has the given rows for roles. -/
def smallPayload (roles : Kind → Entries) : Entries :=
  let scalar (param : String) : Value := .dict [(.text "write", .text "scalar"), (.text "param", .text param)]
  let styles : Entries :=
    [(.text "title", scalar "title"), (.text "xLabel", scalar "x_title"), (.text "yLabel", scalar "y_title")]
  let fields (kind : Kind) : Entries :=
    [(.text "select", .dict [(.text "write", .text "fixed"), (.text "params", .dict [(.text "mark", .text kind.name)])]),
      (.text "roles", .dict (roles kind))]
  [(.text "grammar", .text "mini"), (.text "defaults", .dict [(.text "styles", .dict styles)]),
    (.text "kinds", .dict ((Vocabulary.all : List Kind).map fun kind => (.text kind.name, .dict (fields kind))))]

end Table

end ChartGrammar
