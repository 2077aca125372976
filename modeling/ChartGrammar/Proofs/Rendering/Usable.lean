import ChartGrammar.Coverage
import ChartGrammar.Proofs.Registry.Completeness
import ChartGrammar.Proofs.Shipped.Refusals
import ChartGrammar.Proofs.Table.Reading

/-! Whether tables can be used. A rendering ends with a result, is refused with a fault, or trips over a row; and where a
chart trips over a row it is never rendered. Rows that take whatever comes to their place are tripped over by no chart,
unless something in it or in them is too long to be written, and what they cover can be reported. -/

namespace ChartGrammar

namespace Rendering

variable {r : Registry} {c : Chart} {s : Schema} {grammar : String} {rows : KindRows} {fault : Fault} {m : Misuse}
  {t : Table} {strict : Bool} {out : Rendering}

/-- The rendering is given or refused for a reason. -/
def Settled (outcome : Except Fault Rendering) : Prop :=
  (∃ out, outcome = .ok out) ∨ ∃ reason, outcome = .error (.rendering reason)

/-- A rendering is given, refused for a reason, or the chart trips over a row. -/
theorem settled_or_tripped (hr : Registry.Fit r.tables) (c : Chart) (grammar : String) (strict : Bool) :
    Settled (ofChart r c grammar strict) ∨ ∃ m, ofChart r c grammar strict = .error (.misuse m) ∧
      ∃ t ∈ r.tables, t.grammar = grammar ∧ ∃ rows, t.kind? c.kind = some rows ∧ Trips r c grammar rows m := by
  obtain ⟨t, ht, hgrammar, rows, hkind, hrows⟩ | ⟨reason, hreason⟩ := rowsFor_of_fit hr c grammar
  · rw [ofChart_of_rowsFor hrows]
    cases hrun : Document.empty.run grammar strict (steps r c grammar rows) with
    | ok d => exact .inl (.inl ⟨_, rfl⟩)
    | error fault =>
        obtain ⟨reason, rfl⟩ | ⟨m, rfl, htrips⟩ := blames_of_run hrun
        · exact .inl (.inr ⟨reason, rfl⟩)
        · exact .inr ⟨m, rfl, t, ht, hgrammar, rows, hkind, htrips⟩
  · exact .inl (.inr ⟨reason, ofChart_of_error hreason⟩)

/-- A chart that trips over a row is not rendered. -/
theorem not_rendered_of_trips (hr : Registry.Fit r.tables) (ht : t ∈ r.tables) (hkind : t.kind? c.kind = some rows)
    (hfindings : ∀ f ∈ c.diagnostics, f.code ≠ .conflict) (htrips : Trips r c t.grammar rows m) :
    ofChart r c t.grammar strict ≠ .ok out := by
  intro hout
  obtain ⟨rows', d, hrows', hrun, -⟩ := ofChart_eq_ok_iff.mp hout
  obtain rfl : rows = rows' := by
    rcases rowsFor_of_kind (hr.table ht) hkind with hok | ⟨role, because, herror⟩
    · exact Except.ok.inj (hok.symm.trans hrows')
    · rw [herror] at hrows'
      cases hrows'
  exact run_ne_ok_of_trips hfindings htrips hrun

theorem exists_reason_of_refusal? (h : refusal? c grammar rows = some fault) : ∃ reason, fault = .rendering reason := by
  rcases Option.or_eq_some_iff.mp h with hbinding | ⟨-, hfacet⟩
  · obtain ⟨b, -, hb⟩ := List.exists_of_findSome?_eq_some hbinding
    unfold refusedBinding? at hb
    split at hb <;> cases hb
    exact ⟨_, rfl⟩
  · unfold refusedFacet? at hfacet
    split at hfacet <;> cases hfacet
    exact ⟨_, rfl⟩

/-- A sound chart is settled by rows that take whatever comes to their place, conflicts refused or not, unless something
is too long to be written. -/
theorem settled_or_tooLong_of_takesAny (hc : c.Sound s) (hrows : rowsFor r c grammar = .ok rows)
    (htakes : rows.takesAny = true) (strict : Bool) :
    Settled (ofChart r c grammar strict) ∨ ofChart r c grammar strict = .error (.misuse .tooLong) := by
  have hlenient : Settled (ofChart r c grammar false) ∨ ofChart r c grammar false = .error (.misuse .tooLong) := by
    obtain hlong | hfails : FailsForLength (ofChart r c grammar false) ∨
        FailsFor (ofChart r c grammar false) (refusal? c grammar rows) := failsFor_ofChart hc hrows htakes
    · exact .inr hlong
    refine .inl ?_
    cases hrefusal : refusal? c grammar rows with
    | none =>
        rw [hrefusal] at hfails
        exact .inl hfails
    | some fault =>
        rw [hrefusal] at hfails
        obtain ⟨reason, rfl⟩ := exists_reason_of_refusal? hrefusal
        exact .inr ⟨reason, hfails⟩
  cases strict with
  | false => exact hlenient
  | true =>
      cases hclash : Document.firstClash? grammar .empty (steps r c grammar rows) with
      | none => rwa [(ofChart_of_no_clash hrows hclash).1]
      | some e => exact .inl (.inr ⟨_, (ofChart_of_clash hrows hclash).1⟩)

/-- What takes everything settles a chart whatever the length of its values, if what it shows is short and no finding is
too long. -/
theorem settled_of_takesAny (hc : c.Sound s) (hrows : rowsFor r c grammar = .ok rows) (htakes : rows.takesAny = true)
    (hshort : ShowsShort c rows) (htold : ¬HasUntold r c grammar rows) (strict : Bool) :
    Settled (ofChart r c grammar strict) := by
  refine (settled_or_tooLong_of_takesAny hc hrows htakes strict).resolve_right fun hlong => htold ?_
  exact hasUntold_of_trips hc htakes hshort (trips_of_ofChart hrows hlong)

end Rendering

/-! ### Coverage -/

namespace KindCoverage

/-- A row is tried on the sample of its key exactly if its writer takes the sample. -/
theorem exists_isUnsupported_iff {key : StyleKey} {row : StyleRow} : (∃ b, isUnsupported key row = .ok b) ↔
    ∀ w, row.realization = .written w → ∃ params, w.run key.sample = .ok params := by
  unfold isUnsupported
  cases row.realization with
  | arranged arranger => simp
  | written w =>
      simp only [Realization.written.injEq, forall_eq']
      cases w.run key.sample <;> simp

theorem exists_ofRows_iff {rows : KindRows} : (∃ coverage, ofRows rows = .ok coverage) ↔
    ∀ key row w, rows.style? key = some row → row.realization = .written w → ∃ params, w.run key.sample = .ok params := by
  unfold ofRows
  rw [exists_bind_pure_iff, unsupportedKeys, exists_bind_pure_iff, exists_filterM_iff]
  simp only [exists_isUnsupported_iff]
  constructor
  · intro h key row w hrow
    refine h (key, row) (List.mem_filterMap.mpr ⟨key, Vocabulary.mem_all key, ?_⟩) w
    rw [hrow]
    rfl
  · intro h e he w
    obtain ⟨key, -, hkey⟩ := List.mem_filterMap.mp he
    obtain ⟨row, hrow, rfl⟩ := Option.map_eq_some_iff.mp hkey
    exact h key row w hrow

end KindCoverage

namespace Registry

variable {r : Registry} {tables : List Table}

/-- What the grammars cover is reported exactly if every row takes the sample of its key. -/
theorem exists_coverageValue_iff (hr : Fit r.tables) : (∃ report, r.coverageValue = .ok report) ↔
    ∀ t ∈ r.tables, ∀ kind rows key row w, t.kind? kind = some rows → rows.style? key = some row →
      row.realization = .written w → ∃ params, w.run key.sample = .ok params := by
  unfold coverageValue coverage
  rw [exists_bind_pure_iff, exists_mapM_iff]
  simp only [mem_sorted]
  refine forall₂_congr fun t ht => ?_
  unfold TableCoverage.ofTable
  rw [exists_bind_pure_iff, exists_mapM_iff]
  constructor
  · intro h kind rows key row w hrows
    have hkind := h kind (Vocabulary.mem_all kind)
    rw [hrows] at hkind
    exact KindCoverage.exists_ofRows_iff.mp hkind key row w
  · intro h kind _
    obtain ⟨rows, hrows, -⟩ := (fit_iff.mp hr).2.2 t ht kind
    rw [hrows]
    exact KindCoverage.exists_ofRows_iff.mpr fun key row w => h kind rows key row w hrows

/-- What the grammars cover can be reported, and every chart that can be reached is rendered in whatever grammar or
refused for a reason, conflicts refused or not. -/
def Usable (r : Registry) : Prop :=
  (∃ report, r.coverageValue = .ok report) ∧
  ∀ desk : Desk, desk.Reachable → ∀ grammar strict, Rendering.Settled (Rendering.ofChart r desk.chart grammar strict)

/-- A registry is usable as far as what there is to show can be written. -/
structure UsableForShort (r : Registry) : Prop where
  report : ∃ report, r.coverageValue = .ok report
  /-- Renderings are given or refused for a reason, or something is too long. -/
  rendering : ∀ desk : Desk, desk.Reachable → ∀ grammar strict,
    Rendering.Settled (Rendering.ofChart r desk.chart grammar strict) ∨
      Rendering.ofChart r desk.chart grammar strict = .error (.misuse .tooLong)
  /-- Where nothing is too long, neither in the rows nor in the chart, there is no more to it than that. -/
  short : (∀ t ∈ r.tables, ∀ kind rows, t.kind? kind = some rows → rows.isLegible = true) →
    ∀ desk : Desk, desk.Reachable → desk.chart.Legible → ∀ grammar strict,
      Rendering.Settled (Rendering.ofChart r desk.chart grammar strict)

/-- The samples are in normal form. -/
theorem normalize?_sample (key : StyleKey) : key.shape.normalize? key.sample = some key.sample := by
  cases key <;> rfl

theorem legible_sample (key : StyleKey) : key.sample.legible = true := by
  cases key <;> rfl

/-- Tables whose rows take whatever can come to their place make a registry that is usable as far as what there is to
show can be written. -/
theorem usableForShort_of_takesAny (hr : Fit r.tables)
    (htakes : ∀ t ∈ r.tables, ∀ kind rows, t.kind? kind = some rows → rows.takesAny = true) : r.UsableForShort where
  report := by
    refine (exists_coverageValue_iff hr).mpr fun t ht kind rows key row w hrows hrow hw => ?_
    have hkey : row.takesAny key = true :=
      Rendering.takesAny_of_style? (htakes t ht kind rows hrows) hrow
    rw [StyleRow.takesAny, hw, Bool.and_eq_true] at hkey
    exact (StyleWriter.yields_run hkey.1 (normalize?_sample key)).exists_ok (legible_sample key)
  rendering desk hdesk grammar strict := by
    obtain ⟨t, ht, -, rows, hkind, hrows⟩ | ⟨reason, hreason⟩ := Rendering.rowsFor_of_fit hr desk.chart grammar
    · exact Rendering.settled_or_tooLong_of_takesAny hdesk.sound hrows (htakes t ht desk.chart.kind rows hkind) strict
    · exact .inl (.inr ⟨reason, Rendering.ofChart_of_error hreason⟩)
  short hlegible desk hdesk hshort grammar strict := by
    obtain ⟨t, ht, -, rows, hkind, hrows⟩ | ⟨reason, hreason⟩ := Rendering.rowsFor_of_fit hr desk.chart grammar
    · have hrowsLegible := hlegible t ht desk.chart.kind rows hkind
      exact Rendering.settled_of_takesAny hdesk.sound hrows (htakes t ht desk.chart.kind rows hkind)
        (Rendering.showsShort_of_legible hshort hrowsLegible)
        (Rendering.not_hasUntold_of_legible hshort hrowsLegible) strict
    · exact .inr ⟨reason, Rendering.ofChart_of_error hreason⟩

/-- Tables that make a registry are usable if their rows take whatever can come to their place, as far as what there is to
show can be written. Otherwise what they cover is reported as long as each row takes the sample of its key, and no longer;
and a chart that can be reached is rendered, refused for a reason, or trips over a row of the grammar's table, in which
case it is never rendered. Of an attribute that is not charted nothing is said here. -/
theorem usable_or_tripped (hr : ofTables tables = .ok r) :
    ((∀ t ∈ tables, ∀ kind rows, t.kind? kind = some rows → rows.takesAny = true) → r.UsableForShort) ∧
    ((∀ t ∈ tables, ∀ kind rows key row w, t.kind? kind = some rows → rows.style? key = some row →
      row.realization = .written w → ∃ params, w.run key.sample = .ok params) → ∃ report, r.coverageValue = .ok report) ∧
    (∀ t ∈ tables, ∀ kind rows key row w m, t.kind? kind = some rows → rows.style? key = some row →
      row.realization = .written w → w.run key.sample = .error m → m ≠ .uncharted →
        ∀ report, r.coverageValue ≠ .ok report) ∧
    ∀ desk : Desk, desk.Reachable → ∀ strict,
      (∀ grammar, Rendering.Settled (Rendering.ofChart r desk.chart grammar strict) ∨
        ∃ m, Rendering.ofChart r desk.chart grammar strict = .error (.misuse m) ∧
          ∃ t ∈ tables, t.grammar = grammar ∧ ∃ rows, t.kind? desk.chart.kind = some rows ∧
            Rendering.Trips r desk.chart grammar rows m) ∧
      ∀ t ∈ tables, ∀ rows m, t.kind? desk.chart.kind = some rows →
        Rendering.Trips r desk.chart t.grammar rows m → m ≠ .uncharted →
          ∀ out, Rendering.ofChart r desk.chart t.grammar strict ≠ .ok out := by
  have hfit := fit_of_ofTables hr
  rw [← tables_of_ofTables hr]
  refine ⟨usableForShort_of_takesAny hfit, (exists_coverageValue_iff hfit).mpr, ?_, fun desk hdesk strict => ⟨?_, ?_⟩⟩
  · intro t ht kind rows key row w m hrows hrow hw hrun _ report hreport
    obtain ⟨params, hok⟩ :=
      (exists_coverageValue_iff hfit).mp ⟨report, hreport⟩ t ht kind rows key row w hrows hrow hw
    cases hok.symm.trans hrun
  · exact fun grammar => Rendering.settled_or_tripped hfit desk.chart grammar strict
  · intro t ht rows m hkind htrips _ out
    exact Rendering.not_rendered_of_trips hfit ht hkind hdesk.no_conflict htrips

/-- The tables that the library holds are usable, whatever the length of what they are given. -/
theorem usable_or_tripped_shipped :
    ofTables [Shipped.Imperative.table, Shipped.Layered.table] = .ok shipped ∧ shipped.Usable := by
  have hrows {t : Table} (ht : t ∈ [Shipped.Imperative.table, Shipped.Layered.table]) {kind : Kind} {rows : KindRows}
      (hkind : t.kind? kind = some rows) : ∃ g : Shipped.Grammar, t.grammar = g.name ∧ rows = g.rows kind := by
    obtain ⟨g, rfl⟩ : ∃ g : Shipped.Grammar, t = g.table := by
      rcases List.mem_pair.mp ht with rfl | rfl
      · exact ⟨.imperative, rfl⟩
      · exact ⟨.layered, rfl⟩
    exact ⟨g, by cases g <;> rfl, Option.some.inj (hkind.symm.trans (g.kind?_table kind))⟩
  have htakes : ∀ t ∈ [Shipped.Imperative.table, Shipped.Layered.table], ∀ kind rows, t.kind? kind = some rows →
      rows.takesAny = true := by
    intro t ht kind rows hkind
    obtain ⟨g, -, rfl⟩ := hrows ht hkind
    exact Shipped.takesAny_rows g kind
  have hshort : shipped.UsableForShort := (usable_or_tripped ofTables_shipped).1 htakes
  refine ⟨ofTables_shipped, hshort.report, fun desk hdesk grammar strict => ?_⟩
  obtain ⟨t, ht, rfl, rows, hkind, hrowsFor⟩ | ⟨reason, hreason⟩ :=
    Rendering.rowsFor_of_fit (fit_of_ofTables ofTables_shipped) desk.chart grammar
  · obtain ⟨g, hgrammar, rfl⟩ := hrows ht hkind
    rw [hgrammar] at hrowsFor ⊢
    exact Rendering.settled_of_takesAny hdesk.sound hrowsFor (Shipped.takesAny_rows g _)
      (Rendering.showsShort_of_isBrief hdesk.sound (Shipped.isBrief_rows g _))
      (Shipped.not_hasUntold hdesk.sound hrowsFor hdesk.no_conflict) strict
  · exact .inr ⟨reason, Rendering.ofChart_of_error hreason⟩

end Registry

/-- Rows for boxes that are written as a formula against a role that there is not. -/
def Table.boxesByColour : Entries :=
  smallPayload fun
    | .boxplot => [(.text "y", .dict [(.text "column", .dict
        [(.text "write", .text "formula"), (.text "param", .text "formula"), (.text "rhs", .text "colour")])])]
    | _ => []

/-- Boxes of one numeric column. -/
def Desk.incomeBoxes : Desk :=
  (Desk.mk .empty { kind := .boxplot, facetLimit := 12 }).run [
    .define (.text "Income") (.text "numeric") .null,
    .bind (.text "y") (.text "Income")]

theorem Desk.reachable_incomeBoxes : Desk.incomeBoxes.Reachable :=
  Desk.reachable_new .boxplot _

namespace Registry

/-- Tables may be read and make a registry, and a chart that trips over one of their rows is reached all the same. -/
theorem not_usable_boxesByColour : ¬∀ (payloads : List Entries) (tables : List Table) (r : Registry),
    payloads.mapM (fun payload => Table.parse "<memory>" (.dict payload)) = .ok tables →
    ofTables tables = .ok r → r.Usable := by
  intro h
  obtain ⟨t, r, ht, hr, hout⟩ : ∃ t r, [Table.boxesByColour].mapM (fun payload => Table.parse "<memory>" (.dict payload))
      = .ok [t] ∧ ofTables [t] = .ok r ∧
      Rendering.ofChart r Desk.incomeBoxes.chart "mini" false = .error (.misuse .notMember) :=
    ⟨_, _, rfl, rfl, rfl⟩
  have hsettled := (h [Table.boxesByColour] [t] r ht hr).2 Desk.incomeBoxes Desk.reachable_incomeBoxes "mini" false
  rw [hout] at hsettled
  rcases hsettled with ⟨out, hok⟩ | ⟨reason, herror⟩
  · cases hok
  · cases herror

end Registry

end ChartGrammar
