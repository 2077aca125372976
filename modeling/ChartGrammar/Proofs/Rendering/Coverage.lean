import ChartGrammar.Proofs.Rendering.Usable

/-! Coverage and rendering read the tables by different ways and agree. The report tries each writer of a style value on
one sample, while a rendering hands it whatever the chart holds; but whether a writer writes anything does not depend on
the value as long as its words suffice for the key. -/

namespace ChartGrammar

/-! ### Entries of a document -/

/-- What stands under a key, if the value is a dictionary. -/
def Value.entry? (v : Value) (key : String) : Option Value :=
  match v with
  | .dict es => Entries.field? es key
  | _ => none

/-- What stands under a path of keys, in dictionaries within dictionaries. -/
def Value.at? (v : Value) : List String → Option Value
  | [] => some v
  | key :: path => (v.entry? key).bind fun inner => inner.at? path

theorem Entries.field?_map {α : Type} (items : List α) (name : α → String) (value : α → Value) (key : String) :
    field? (items.map fun a => (.text (name a), value a)) key = (items.find? fun a => name a == key).map value := by
  have hsame : (fun a => Value.same (.text (name a)) (.text key)) = fun a => name a == key := by
    funext a
    rw [Bool.eq_iff_iff, Value.same_text_iff, beq_iff_eq, Value.text.injEq, eq_comm]
  rw [field?, get?, List.find?_map, Option.map_map]
  exact congrArg (fun p => (items.find? p).map value) hsame

theorem Value.at?_dict_map {α : Type} (items : List α) (name : α → String) (value : α → Value) (key : String)
    (path : List String) : (dict (items.map fun a => (.text (name a), value a))).at? (key :: path) =
      ((items.find? fun a => name a == key).map value).bind fun v => v.at? path := by
  rw [at?, entry?, Entries.field?_map]

/-! ### Writers that write nothing -/

/-- The values of a closed shape: the words of a vocabulary, or the truth values. -/
def Shape.values? : Shape → Option (List Value)
  | word choices => some (choices.map .text)
  | flag => some [.bool true, .bool false]
  | _ => none

theorem Shape.mem_values {shape : Shape} {values : List Value} {v u : Value} (hvalues : shape.values? = some values)
    (h : shape.normalize? v = some u) : u ∈ values := by
  cases shape with
  | word choices =>
      cases hvalues
      cases v with
      | text s =>
          rw [normalize?] at h
          split at h
          next hs =>
            cases h
            exact List.mem_map_of_mem (List.contains_iff_mem.mp hs)
          · cases h
      | _ => cases h
  | flag =>
      cases hvalues
      cases v with
      | bool b =>
          cases h
          cases b <;> simp
      | _ => cases h
  | _ => cases hvalues

/-- Whether a row of words belongs to a key of a closed shape and has a word for each of its values. -/
def StyleRow.wordsSuffice (key : StyleKey) (row : StyleRow) : Bool :=
  match row.realization with
  | .written (.mapped _ words) => key.shape.values?.any fun values => values.all fun v => (words.get? v).isSome
  | _ => true

/-- The words of a writer have one for a value. -/
def StyleWriter.HasWord (w : StyleWriter) (v : Value) : Prop :=
  ∀ param words, w = .mapped param words → ∃ word, words.get? v = some word

/-- Only the writer that never writes anything writes nothing for a value that its words suffice for. -/
theorem StyleWriter.run_eq_nil_iff {w : StyleWriter} {v : Value} (hword : w.HasWord v) :
    w.run v = .ok [] ↔ w = .nothing := by
  cases w with
  | nothing => exact iff_of_true rfl rfl
  | scalar param => simp [run]
  | legendPosition param hidden shown => simp [run]
  | pair param =>
      rw [run, bind_eq_ok_iff]
      simp [pure, Except.pure]
  | template param pattern =>
      rw [run, bind_eq_ok_iff]
      simp [pure, Except.pure]
  | nested param field =>
      rw [run]
      split <;> simp
  | mapped param words =>
      obtain ⟨word, hget⟩ := hword param words rfl
      rw [run, bind_eq_ok_iff, Entries.lookup, hget]
      cases v.isKey <;> simp [pure, Except.pure]

theorem StyleRow.hasWord {key : StyleKey} {row : StyleRow} {w : StyleWriter} (h : row.wordsSuffice key = true)
    (hw : row.realization = .written w) {v u : Value} (hv : key.shape.normalize? v = some u) : w.HasWord u := by
  rintro param words rfl
  rw [wordsSuffice, hw] at h
  obtain ⟨values, hvalues, hall⟩ := (Option.any_eq_true _ _).mp h
  exact Option.isSome_iff_exists.mp (List.all_eq_true.mp hall u (Shape.mem_values hvalues hv))

namespace KindCoverage

variable {rows : KindRows} {cover : KindCoverage} {k : StyleKey}

theorem mem_unsupportedKeys_iff {entries : List (StyleKey × StyleRow)} {keys : List StyleKey}
    (h : unsupportedKeys entries = .ok keys) :
    k ∈ keys ↔ ∃ row, (k, row) ∈ entries ∧ isUnsupported k row = .ok true := by
  obtain ⟨kept, hkept, h⟩ := bind_eq_ok_iff.mp h
  cases h
  simp [mem_filterM_iff hkept]

theorem mem_rows_iff {row : StyleRow} : (k, row) ∈ ((Vocabulary.all : List StyleKey).filterMap fun k =>
    (rows.style? k).map fun row => (k, row)) ↔ rows.style? k = some row := by
  simp [List.mem_filterMap, Vocabulary.mem_all]

/-- What the coverage of a kind says, in terms of the rows. -/
structure Describes (cover : KindCoverage) (rows : KindRows) : Prop where
  kind : cover.kind = rows.kind
  styles : ∀ k, k ∈ cover.styles ↔ ∃ row, rows.style? k = some row
  unsupported : ∀ k, k ∈ cover.unsupported ↔ ∃ row, rows.style? k = some row ∧ isUnsupported k row = .ok true
  structural : ∀ k : StyleKey, k.name ∈ cover.structural ↔
    ∃ row, rows.style? k = some row ∧ row.realization.isStructural = true
  facet : cover.facet = rows.facet?.isSome

theorem describes_of_ofRows (h : ofRows rows = .ok cover) : cover.Describes rows := by
  obtain ⟨unsupported, hunsupported, h⟩ := bind_eq_ok_iff.mp h
  cases h
  have hrole (k : StyleKey) (role : Role) : role.name ≠ k.name := by
    intro heq
    have hnone := Rendering.ofName?_role role
    rw [heq, show (Vocabulary.ofName? k.name : Option StyleKey) = some k from LawfulVocabulary.ofName?_name k] at hnone
    cases hnone
  constructor
  case kind => rfl
  case facet => rfl
  case styles =>
    intro k
    rw [List.mem_map]
    simp only [Prod.exists, mem_rows_iff]
    simp
  case unsupported =>
    intro k
    rw [mem_unsupportedKeys_iff hunsupported]
    simp only [mem_rows_iff]
  case structural =>
    intro k
    rw [List.mem_mergeSort, List.mem_append, List.mem_map, List.mem_map]
    constructor
    · rintro (⟨⟨l, row⟩, hmem, hname⟩ | ⟨e, -, hname⟩)
      · obtain ⟨hmem, hstructural⟩ := List.mem_filter.mp hmem
        cases Vocabulary.name_injective (α := StyleKey) hname
        exact ⟨row, mem_rows_iff.mp hmem, hstructural⟩
      · exact absurd hname (hrole k e.1)
    · rintro ⟨row, hrow, hstructural⟩
      exact .inl ⟨(k, row), List.mem_filter.mpr ⟨mem_rows_iff.mpr hrow, hstructural⟩, rfl⟩

theorem at?_styles (cover : KindCoverage) :
    cover.toValue.at? ["style_keys"] = some (.texts (cover.styles.map StyleKey.name)) :=
  rfl

theorem at?_unsupported (cover : KindCoverage) :
    cover.toValue.at? ["unsupported_style_keys"] = some (.texts (cover.unsupported.map StyleKey.name)) :=
  rfl

theorem at?_structural (cover : KindCoverage) :
    cover.toValue.at? ["structural"] = some (.texts cover.structural) :=
  rfl

theorem at?_facet (cover : KindCoverage) : cover.toValue.at? ["facet"] = some (.bool cover.facet) :=
  rfl

end KindCoverage

theorem TableCoverage.at?_kinds (c : TableCoverage) (path : List String) : c.toValue.at? ("kinds" :: path) =
    (Value.dict (c.kinds.map fun k => (.text k.kind.name, k.toValue))).at? path :=
  rfl

namespace Registry

/-- What a report says about a kind in a grammar. -/
def kindCoverage? (report : List TableCoverage) (grammar : String) (kind : Kind) : Option KindCoverage :=
  (report.find? fun t => t.grammar == grammar).bind fun t => t.kinds.find? fun k => k.kind == kind

variable {r : Registry} {report : List TableCoverage} {t : Table} {kind : Kind} {rows : KindRows}

theorem find?_eq_some_of_unique {α : Type} {p : α → Bool} {items : List α} {a : α} (ha : a ∈ items) (hp : p a = true)
    (hunique : ∀ b ∈ items, p b = true → b = a) : items.find? p = some a := by
  obtain ⟨b, hb⟩ : ∃ b, items.find? p = some b := Option.isSome_iff_exists.mp (List.find?_isSome.mpr ⟨a, ha, hp⟩)
  rw [hb, hunique b (List.mem_of_find?_eq_some hb) (List.find?_some hb)]

/-- The coverage of a table holds that of the rows for each kind that it has rows for, and nothing else. -/
theorem mem_kinds_iff {entry : TableCoverage} (h : TableCoverage.ofTable t = .ok entry) :
    entry.grammar = t.grammar ∧ ∀ cover, cover ∈ entry.kinds ↔
      ∃ kind rows, t.kind? kind = some rows ∧ KindCoverage.ofRows rows = .ok cover := by
  obtain ⟨kinds, hkinds, h⟩ := bind_eq_ok_iff.mp h
  cases h
  refine ⟨rfl, fun cover => ?_⟩
  rw [mem_mapM_iff hkinds]
  constructor
  · rintro ⟨kind, -, hcover⟩
    split at hcover
    next rows hrows => exact ⟨kind, rows, hrows, hcover⟩
    · cases hcover
  · rintro ⟨kind, rows, hrows, hcover⟩
    exact ⟨kind, Vocabulary.mem_all kind, by rw [hrows]; exact hcover⟩

theorem exists_ofRows {entry : TableCoverage} (h : TableCoverage.ofTable t = .ok entry)
    (hrows : t.kind? kind = some rows) : ∃ cover, KindCoverage.ofRows rows = .ok cover := by
  obtain ⟨kinds, hkinds, -⟩ := bind_eq_ok_iff.mp h
  have hkind := exists_mapM_iff.mp ⟨kinds, hkinds⟩ kind (Vocabulary.mem_all kind)
  rwa [hrows] at hkind

/-- The coverage of one kind in a report is that of the rows of the grammar's table. -/
theorem exists_kindCoverage? (hr : Fit r.tables) (hreport : r.coverage = .ok report) (ht : t ∈ r.tables)
    (hrows : t.kind? kind = some rows) :
    ∃ cover, kindCoverage? report t.grammar kind = some cover ∧ cover.Describes rows := by
  obtain ⟨entry, hentry⟩ := exists_mapM_iff.mp ⟨report, hreport⟩ t (mem_sorted.mpr ht)
  obtain ⟨hgrammar, hkinds⟩ := mem_kinds_iff hentry
  obtain ⟨cover, hcover⟩ := exists_ofRows hentry hrows
  have hkind {kind' : Kind} {rows' : KindRows} (h : t.kind? kind' = some rows') : rows'.kind = kind' := by
    simpa using List.find?_some h
  have hfirst : report.find? (fun t' => t'.grammar == t.grammar) = some entry := by
    refine find?_eq_some_of_unique ((mem_mapM_iff hreport).mpr ⟨t, mem_sorted.mpr ht, hentry⟩)
      (beq_iff_eq.mpr hgrammar) fun other hother hname => ?_
    obtain ⟨u, hu, hu'⟩ := (mem_mapM_iff hreport).mp hother
    have hut : u = t := hr.eq_of_grammar (mem_sorted.mp hu) ht ((mem_kinds_iff hu').1.symm.trans (beq_iff_eq.mp hname))
    rw [hut, hentry] at hu'
    exact (Except.ok.inj hu').symm
  have hsecond : entry.kinds.find? (fun k => k.kind == kind) = some cover := by
    have hdescribes := KindCoverage.describes_of_ofRows hcover
    refine find?_eq_some_of_unique ((hkinds cover).mpr ⟨kind, rows, hrows, hcover⟩)
      (beq_iff_eq.mpr (hdescribes.kind.trans (hkind hrows))) fun other hother hname => ?_
    obtain ⟨kind', rows', hrows', hother'⟩ := (hkinds other).mp hother
    have hkind' : kind' = kind := by
      rw [← hkind hrows', ← (KindCoverage.describes_of_ofRows hother').kind]
      exact beq_iff_eq.mp hname
    subst hkind'
    cases Option.some.inj (hrows.symm.trans hrows')
    exact Except.ok.inj (hother'.symm.trans hcover)
  exact ⟨cover, by rw [kindCoverage?, hfirst, Option.bind_some, hsecond], KindCoverage.describes_of_ofRows hcover⟩

/-- The document says about a kind in a grammar what the report does. -/
theorem at?_of_kindCoverage? {cover : KindCoverage} {grammar : String}
    (h : kindCoverage? report grammar kind = some cover) (path : List String) :
    (Value.dict (report.map fun c => (.text c.grammar, c.toValue))).at? (grammar :: "kinds" :: kind.name :: path) =
      cover.toValue.at? path := by
  obtain ⟨entry, hentry, hcover⟩ := Option.bind_eq_some_iff.mp h
  have hkinds : (entry.kinds.find? fun k => k.kind.name == kind.name) = some cover := by
    rw [← hcover]
    congr 1
    funext k
    rw [Bool.eq_iff_iff, beq_iff_eq, beq_iff_eq]
    exact ⟨fun hname => Vocabulary.name_injective (α := Kind) hname, congrArg Kind.name⟩
  rw [Value.at?_dict_map, hentry, Option.map_some, Option.bind_some, entry.at?_kinds, Value.at?_dict_map, hkinds,
    Option.map_some, Option.bind_some]

/-- What the document of the coverage says about one kind is what the rows of the grammar's table say. -/
theorem exists_at?_coverageValue (hr : Fit r.tables) {document : Value} (h : r.coverageValue = .ok document)
    (ht : t ∈ r.tables) (hrows : t.kind? kind = some rows) :
    ∃ cover : KindCoverage, cover.Describes rows ∧
      ∀ path, document.at? (t.grammar :: "kinds" :: kind.name :: path) = cover.toValue.at? path := by
  obtain ⟨report, hreport, h⟩ := bind_eq_ok_iff.mp h
  cases h
  obtain ⟨cover, hcover, hdescribes⟩ := exists_kindCoverage? hr hreport ht hrows
  exact ⟨cover, hdescribes, at?_of_kindCoverage? hcover⟩

end Registry

namespace Rendering

open Document

variable {r : Registry} {t : Table} {grammar : String} {rows : KindRows} {row : StyleRow} {k : StyleKey}
  {v : Value} {strict : Bool} {c : Chart} {out : Rendering}

/-! ### Verdicts do not depend on the value -/

theorem mem_verdict_unknown {row? : Option StyleRow} : .unknownToGrammar ∈ verdict row? v ↔ row? = none := by
  cases row? with
  | none => simp [verdict]
  | some row => simp [unknown_notMem_verdict]

theorem mem_verdict_explained {row? : Option StyleRow} :
    .explained ∈ verdict row? v ↔ ∃ row, row? = some row ∧ row.realization.isStructural = true := by
  cases row? with
  | none => simp [verdict]
  | some row =>
      cases hrealization : row.realization with
      | arranged arranger => simp [verdict, hrealization, Realization.isStructural]
      | written w =>
          simp only [verdict, hrealization, Option.some.injEq, exists_eq_left', Realization.isStructural]
          split <;> simp

/-- Where the words of a row suffice for the value and for the sample, the value is found unsupported exactly if the
sample is. -/
theorem mem_verdict_unsupported {row? : Option StyleRow}
    (hwords : ∀ row w, row? = some row → row.realization = .written w → w.HasWord v ∧ w.HasWord k.sample) :
    .unsupported ∈ verdict row? v ↔ ∃ row, row? = some row ∧ KindCoverage.isUnsupported k row = .ok true := by
  cases row? with
  | none => simp [verdict]
  | some row =>
      cases hrealization : row.realization with
      | arranged arranger => simp [verdict, hrealization, KindCoverage.isUnsupported]
      | written w =>
          obtain ⟨hvalue, hsample⟩ := hwords row w rfl hrealization
          have hverdict : .unsupported ∈ verdict (some row) v ↔ w.run v = .ok [] := by
            simp only [verdict, hrealization]
            split <;> simp_all
          have hprobe : KindCoverage.isUnsupported k row = .ok true ↔ w.run k.sample = .ok [] := by
            simp only [KindCoverage.isUnsupported, hrealization]
            cases w.run k.sample <;> simp
          simp only [hverdict, Option.some.injEq, exists_eq_left', hprobe, StyleWriter.run_eq_nil_iff hvalue,
            StyleWriter.run_eq_nil_iff hsample]

/-! ### Facets -/

theorem rowsFor_ne_facetNotSupported {g : String} {kind : Kind} :
    rowsFor r c grammar ≠ .error (.rendering (.facetNotSupported g kind)) := by
  intro h
  unfold rowsFor Registry.table at h
  split at h
  next t htable =>
    simp only [bind, Except.bind] at h
    split at h
    · cases h
    split at h <;> cases h
  · cases h

/-- A chart that is refused for its facet has rows in the grammar, and none for the facet is among them. -/
theorem exists_rows_of_facetNotSupported {g : String} {kind : Kind}
    (h : ofChart r c grammar strict = .error (.rendering (.facetNotSupported g kind))) :
    ∃ t ∈ r.tables, t.grammar = grammar ∧ ∃ rows, t.kind? c.kind = some rows ∧ rows.facet? = none := by
  cases hrows : rowsFor r c grammar with
  | error fault =>
      rw [ofChart_of_error hrows] at h
      cases h
      exact absurd hrows rowsFor_ne_facetNotSupported
  | ok rows =>
      obtain ⟨t, ht, hgrammar, hkind⟩ := exists_table_of_rowsFor hrows
      refine ⟨t, ht, hgrammar, rows, hkind, ?_⟩
      rw [ofChart, hrows] at h
      simp only [bind, Except.bind] at h
      split at h
      next fault hrun =>
        cases h
        exact facet?_eq_none_of_run hrun
      · cases h

/-! ### The report and the renderings -/

/-- A finding of a code about a style key. -/
def Reports (out : Rendering) (code : Code) (k : StyleKey) : Prop :=
  ∃ f ∈ out.diagnostics, f.code = code ∧ f.key = .text k.name

theorem reports_iff {code : Code} (hcode : code ∈ Code.ofStyles) (hcropping : code ≠ .croppingSemantics) :
    out.Reports code k ↔ code ∈ out.verdicts k := by
  have hkey (f : Diagnostic) (hf : f.code = code) : f.styleKey? = some k ↔ f.key = .text k.name := by
    rw [Diagnostic.styleKey?, hf, if_pos hcode]
    exact Vocabulary.ofValue?_eq_some_iff
  unfold Reports verdicts about
  simp only [List.mem_filter, List.mem_map, beq_iff_eq, bne_iff_ne, ne_eq]
  constructor
  · rintro ⟨f, hf, hf', hname⟩
    exact ⟨⟨f, ⟨hf, (hkey f hf').mpr hname⟩, hf'⟩, hcropping⟩
  · rintro ⟨⟨f, ⟨hf, hname⟩, hf'⟩, -⟩
    exact ⟨f, hf, hf', (hkey f hf').mp hname⟩

/-- The document of a coverage tells what a rendering finds about each style key that is set: the lists that it holds
for the grammar and the kind name the keys that are known, those that are unsupported and those that are explained. -/
structure Foretold (report : Value) (c : Chart) (out : Rendering) : Prop where
  unknown : ∃ names, report.at? [out.grammar, "kinds", c.kind.name, "style_keys"] = some (.texts names) ∧
    ∀ k v, c.style? k = some v → (out.Reports .unknownToGrammar k ↔ k.name ∉ names)
  unsupported : ∃ names, report.at? [out.grammar, "kinds", c.kind.name, "unsupported_style_keys"] = some (.texts names) ∧
    ∀ k v, c.style? k = some v → (out.Reports .unsupported k ↔ k.name ∈ names)
  explained : ∃ names, report.at? [out.grammar, "kinds", c.kind.name, "structural"] = some (.texts names) ∧
    ∀ k v, c.style? k = some v → (out.Reports .explained k ↔ k.name ∈ names)

theorem mem_names_iff {keys : List StyleKey} : k.name ∈ keys.map StyleKey.name ↔ k ∈ keys :=
  List.mem_map_of_injective fun _ _ => Vocabulary.name_injective

theorem Taken.verdicts {d : Document} (h : Taken r c t rows strict d) (hset : c.style? k = some v) :
    Rendering.verdicts ⟨t.grammar, c.kind, d.entries, d.findings⟩ k = verdict (rows.style? k) v := by
  obtain ⟨first, crop, hsplit, hspec⟩ := h.about_set hset
  rw [Rendering.verdicts, hsplit, hspec.filter_codes, h.style?]

theorem Taken.foretold {d : Document} (h : Taken r c t rows strict d) {cover : KindCoverage} {report : Value}
    (hcover : cover.Describes rows)
    (hreport : ∀ path, report.at? (t.grammar :: "kinds" :: c.kind.name :: path) = cover.toValue.at? path)
    (hnormal : ∀ k v, c.style? k = some v → k.shape.normalize? v = some v)
    (hwords : ∀ k row, rows.style? k = some row → row.wordsSuffice k = true) :
    Foretold report c ⟨t.grammar, c.kind, d.entries, d.findings⟩ := by
  constructor
  case unknown =>
    refine ⟨_, (hreport _).trans cover.at?_styles, fun k v hset => ?_⟩
    rw [reports_iff (by decide) (by decide), h.verdicts hset, mem_verdict_unknown, mem_names_iff, hcover.styles]
    simp [Option.eq_none_iff_forall_ne_some]
  case unsupported =>
    refine ⟨_, (hreport _).trans cover.at?_unsupported, fun k v hset => ?_⟩
    rw [reports_iff (by decide) (by decide), h.verdicts hset, mem_names_iff, hcover.unsupported]
    refine mem_verdict_unsupported fun row w hrow hw => ?_
    exact ⟨StyleRow.hasWord (hwords k row hrow) hw (hnormal k v hset),
      StyleRow.hasWord (hwords k row hrow) hw (Registry.normalize?_sample k)⟩
  case explained =>
    refine ⟨_, (hreport _).trans cover.at?_structural, fun k v hset => ?_⟩
    rw [reports_iff (by decide) (by decide), h.verdicts hset, mem_verdict_explained, hcover.structural]

/-- The coverage report agrees with rendering. Take tables that make a registry whose coverage is reported, and in which
each row of words belongs to a style key of a closed shape and has a word for each of its values. Then for a chart that
can be reached, what a rendering finds about a style key that is set is told by the report: the key is unknown exactly if
it is not among those covered, unsupported exactly if it is listed so, and explained exactly if it is listed as
structural. And a chart is refused for its facet only if the report says that there is none. -/
theorem coverage_foretells {tables : List Table} (hr : Registry.ofTables tables = .ok r)
    (hwords : ∀ t ∈ tables, ∀ kind k row, t.style? kind k = some row → row.wordsSuffice k = true)
    {report : Value} (hreport : r.coverageValue = .ok report) {desk : Desk} (hdesk : desk.Reachable)
    (grammar : String) (strict : Bool) :
    (∀ out, ofChart r desk.chart grammar strict = .ok out → out.grammar = grammar ∧ Foretold report desk.chart out) ∧
    ∀ g kind, ofChart r desk.chart grammar strict = .error (.rendering (.facetNotSupported g kind)) →
      report.at? [grammar, "kinds", desk.chart.kind.name, "facet"] = some (.bool false) := by
  have hfit := Registry.fit_of_ofTables hr
  rw [← Registry.tables_of_ofTables hr] at hwords
  refine ⟨fun out hout => ?_, fun g kind hrefused => ?_⟩
  · obtain ⟨rows, d, hrows, hrun, rfl⟩ := ofChart_eq_ok_iff.mp hout
    obtain ⟨t, ht, rfl, hkind⟩ := exists_table_of_rowsFor hrows
    obtain ⟨cover, hdescribes, hat⟩ := Registry.exists_at?_coverageValue hfit hreport ht hkind
    have htaken : Taken r desk.chart t rows strict d := ⟨hfit, ht, hkind, hdesk.code_eq, hrun⟩
    refine ⟨rfl, htaken.foretold hdescribes hat (fun k v hset => ?_) fun k row hrow => ?_⟩
    · exact Chart.normalizeStyle_eq_ok_iff.mp (hdesk.sound.style k v hset)
    · exact hwords t ht desk.chart.kind k row (by rw [htaken.style?, hrow])
  · obtain ⟨t, ht, rfl, rows, hkind, hnone⟩ := exists_rows_of_facetNotSupported hrefused
    obtain ⟨cover, hdescribes, hat⟩ := Registry.exists_at?_coverageValue hfit hreport ht hkind
    rw [hat, cover.at?_facet, hdescribes.facet, hnone]
    rfl

theorem wordsSuffice_shipped (g : Shipped.Grammar) (kind : Kind) :
    (g.rows kind).styles.all (fun e => e.2.wordsSuffice e.1) = true := by
  cases g <;> cases kind <;> decide +kernel

/-- What the library's tables cover foretells what is found about a bar chart with a style key of each sort. -/
theorem coverage_foretells_styledBars : ∃ report out, Registry.shipped.coverageValue = .ok report ∧
    ofChart .shipped Desk.styledBars.chart "imperative" false = .ok out ∧
    Foretold report Desk.styledBars.chart out := by
  have hreach := Desk.reachable_styledBars
  have htable (t : Table) (ht : t ∈ [Shipped.Imperative.table, Shipped.Layered.table]) :
      ∃ g : Shipped.Grammar, t = g.table := by
    rcases List.mem_pair.mp ht with rfl | rfl
    · exact ⟨.imperative, rfl⟩
    · exact ⟨.layered, rfl⟩
  obtain ⟨report, hreport⟩ : ∃ report, Registry.shipped.coverageValue = .ok report := by
    have hfit := Registry.fit_of_ofTables Registry.ofTables_shipped
    refine (Registry.usableForShort_of_takesAny hfit fun t ht kind rows hrows => ?_).report
    obtain ⟨g, rfl⟩ := htable t ht
    cases Option.some.inj (hrows.symm.trans (g.kind?_table kind))
    exact Shipped.takesAny_rows g kind
  have hwords (t : Table) (ht : t ∈ [Shipped.Imperative.table, Shipped.Layered.table]) (kind : Kind) (k : StyleKey)
      (row : StyleRow) (hrow : t.style? kind k = some row) : row.wordsSuffice k = true := by
    obtain ⟨g, rfl⟩ := htable t ht
    rw [Table.style?, g.kind?_table, Option.bind_some] at hrow
    exact List.all_eq_true.mp (wordsSuffice_shipped g kind) (k, row) (mem_of_lookup hrow)
  obtain ⟨out, hout⟩ : ∃ out, ofChart .shipped Desk.styledBars.chart "imperative" false = .ok out :=
    Shipped.ok_of_complete (g := .imperative) hreach (by decide) (fun h => by cases h.2.1) (.inl rfl)
  exact ⟨report, out, hreport, hout,
    ((coverage_foretells Registry.ofTables_shipped hwords hreport hreach "imperative" false).1 out hout).2⟩

end Rendering

end ChartGrammar
