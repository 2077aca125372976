import ChartGrammar.Proofs.Rendering.Strictness
import ChartGrammar.Proofs.Rendering.StyleKeys

/-! What the tables of other grammars do to a rendering. All but the warnings about cropping is looked up in the table
of the grammar itself, so more tables can only add such warnings and change their texts; and what is read of the
other tables is read in the order of their names, so the order of registration does nothing at all. -/

namespace ChartGrammar

/-- The finding warns of grammars that crop differently. -/
def Diagnostic.warnsOfCropping (f : Diagnostic) : Bool :=
  f.code == .croppingSemantics

namespace Rendering

open Document

/-- The rendering without its warnings about cropping. -/
def withoutCropping (out : Rendering) : Rendering :=
  { out with diagnostics := out.diagnostics.filter fun f => !f.warnsOfCropping }

variable {r wider : Registry} {c : Chart} {grammar : String} {rows : KindRows} {strict : Bool} {d : Document}
  {kind : Kind} {k : StyleKey} {cropping : Cropping} {f : Diagnostic}

/-! ### Warnings about cropping left out -/

/-- Conflicts and columns that are dropped are no matter of cropping. -/
theorem reportedOnly_warnsOfCropping (steps : List Step) : ReportedOnly Diagnostic.warnsOfCropping steps := by
  intro s _ hreport
  cases s with
  | write param value origin => exact fun _ => rfl
  | report f => cases hreport
  | carried role column into => exact fun _ => rfl
  | fail fault => trivial

theorem filter_croppingSteps (r : Registry) (kind : Kind) (grammar : String) (k : StyleKey) (cropping : Cropping) :
    (croppingSteps r kind grammar k cropping).filter (fun s => !s.reports Diagnostic.warnsOfCropping) = [] := by
  dsimp only [croppingSteps]
  split <;> rfl

/-- Without warnings about cropping, the steps are the same over all registries. -/
theorem filter_steps (r wider : Registry) (c : Chart) (grammar : String) (rows : KindRows) :
    (steps r c grammar rows).filter (fun s => !s.reports Diagnostic.warnsOfCropping) =
      (steps wider c grammar rows).filter fun s => !s.reports Diagnostic.warnsOfCropping := by
  have hstyles (e : StyleKey × Value) :
      (styleSteps r c grammar rows e).filter (fun s => !s.reports Diagnostic.warnsOfCropping) =
        (styleSteps wider c grammar rows e).filter fun s => !s.reports Diagnostic.warnsOfCropping := by
    unfold styleSteps
    cases rows.style? e.1 with
    | none => rfl
    | some row =>
        cases hcropping : row.cropping with
        | none => simp only [hcropping]
        | some cropping => simp only [hcropping, List.filter_append, filter_croppingSteps]
  simp only [steps, List.filter_append, List.filter_flatMap, hstyles]

theorem rowsFor_of_table (h : r.table grammar = wider.table grammar) :
    rowsFor r c grammar = rowsFor wider c grammar := by
  rw [rowsFor, rowsFor, h]

/-- Registries with one table for the grammar render alike, warnings about cropping apart. -/
theorem withoutCropping_ofChart (h : r.table grammar = wider.table grammar) :
    withoutCropping <$> ofChart r c grammar strict = withoutCropping <$> ofChart wider c grammar strict := by
  have hrows := rowsFor_of_table (c := c) h
  cases hfound : rowsFor r c grammar with
  | error fault => rw [ofChart_of_error hfound, ofChart_of_error (hrows ▸ hfound)]
  | ok rows =>
      have hdocument (outcome : Except Fault Document) :
          withoutCropping <$> (fun d : Document => Rendering.mk grammar c.kind d.entries d.findings) <$> outcome =
            (fun d : Document => Rendering.mk grammar c.kind d.entries d.findings) <$>
              Document.without Diagnostic.warnsOfCropping <$> outcome := by
        cases outcome <;> rfl
      rw [ofChart_of_rowsFor hfound, ofChart_of_rowsFor (hrows ▸ hfound), hdocument, hdocument,
        run_without (reportedOnly_warnsOfCropping _), run_without (reportedOnly_warnsOfCropping _),
        filter_steps r wider]

/-! ### Warnings about cropping kept -/

/-- Where some way of cropping differs, it also does among more tables. -/
theorem exists_report_croppingSteps (hsub : r.tables ⊆ wider.tables)
    (hf : .report f ∈ croppingSteps r kind grammar k cropping) :
    ∃ g, .report g ∈ croppingSteps wider kind grammar k cropping ∧ g.code = f.code ∧ g.key = f.key := by
  dsimp only [croppingSteps] at hf ⊢
  split at hf
  · exact absurd hf List.not_mem_nil
  next hdiffers =>
    have hwider : ¬((wider.croppings kind k).all fun m => m.2 == cropping) = true := by
      rw [List.all_eq_true] at hdiffers ⊢
      refine mt (fun hall => ?_) hdiffers
      rintro ⟨grammar, other⟩ hmem
      obtain ⟨t, ht, hrow⟩ := Registry.mem_croppings_iff.mp hmem
      exact hall _ (Registry.mem_croppings_iff.mpr ⟨t, hsub ht, hrow⟩)
    cases List.mem_singleton.mp hf
    rw [if_neg hwider]
    exact ⟨_, List.mem_cons_self, rfl, rfl⟩

/-- What is reported is also reported among more tables, perhaps in other words. -/
theorem exists_report_styleSteps (hsub : r.tables ⊆ wider.tables) {e : StyleKey × Value}
    (hf : .report f ∈ styleSteps r c grammar rows e) :
    ∃ g, .report g ∈ styleSteps wider c grammar rows e ∧ g.code = f.code ∧ g.key = f.key := by
  unfold styleSteps at hf ⊢
  cases hrow : rows.style? e.1 with
  | none =>
      rw [hrow] at hf
      exact ⟨f, hf, rfl, rfl⟩
  | some row =>
      simp only [hrow] at hf ⊢
      rcases List.mem_append.mp hf with hf | hf
      · exact ⟨f, List.mem_append_left _ hf, rfl, rfl⟩
      cases hcropping : row.cropping with
      | none =>
          rw [hcropping] at hf
          exact absurd hf List.not_mem_nil
      | some cropping =>
          rw [hcropping] at hf
          obtain ⟨g, hg, hsame⟩ := exists_report_croppingSteps hsub hf
          exact ⟨g, List.mem_append_right _ hg, hsame⟩

theorem exists_report_steps (hsub : r.tables ⊆ wider.tables) (hf : .report f ∈ steps r c grammar rows) :
    ∃ g, .report g ∈ steps wider c grammar rows ∧ g.code = f.code ∧ g.key = f.key := by
  unfold steps at hf ⊢
  rcases List.mem_append.mp hf with hf | hf
  · rcases List.mem_append.mp hf with hf | hf
    · rcases List.mem_append.mp hf with hf | hf
      · exact ⟨f, List.mem_append_left _ (List.mem_append_left _ (List.mem_append_left _ hf)), rfl, rfl⟩
      · obtain ⟨e, he, hf⟩ := List.mem_flatMap.mp hf
        obtain ⟨g, hg, hsame⟩ := exists_report_styleSteps hsub hf
        have hstyles := List.mem_flatMap.mpr ⟨e, he, hg⟩
        exact ⟨g, List.mem_append_left _ (List.mem_append_left _ (List.mem_append_right _ hstyles)), hsame⟩
    · exact ⟨f, List.mem_append_left _ (List.mem_append_right _ hf), rfl, rfl⟩
  · exact ⟨f, List.mem_append_right _ hf, rfl, rfl⟩

/-- A warning about cropping is found exactly if a step reports it. -/
theorem mem_findings_iff (htaken : Document.empty.run grammar strict (steps r c grammar rows) = .ok d)
    (hf : f.warnsOfCropping = true) : f ∈ d.findings ↔ .report f ∈ steps r c grammar rows := by
  have hreports := filter_run_reports (reportedOnly_warnsOfCropping (steps r c grammar rows)) htaken
  have hmem : f ∈ d.findings ↔ f ∈ d.findings.filter Diagnostic.warnsOfCropping := by
    rw [List.mem_filter, and_iff_left hf]
  have hnone : (Document.empty.findings.filter Diagnostic.warnsOfCropping) = [] := rfl
  rw [hmem, hreports, hnone, List.nil_append, List.mem_filter, and_iff_left hf, Step.mem_filterMap_report?]

/-- A key whose cropping is warned of is also warned of among more tables. -/
theorem exists_warning_of_subset (hsub : r.tables ⊆ wider.tables) (h : r.table grammar = wider.table grammar)
    {out wide : Rendering} (hout : ofChart r c grammar strict = .ok out)
    (hwide : ofChart wider c grammar strict = .ok wide) (hf : f ∈ out.diagnostics)
    (hcropping : f.warnsOfCropping = true) :
    ∃ g ∈ wide.diagnostics, g.warnsOfCropping = true ∧ g.key = f.key := by
  obtain ⟨rows, d, hrows, hrun, rfl⟩ := ofChart_eq_ok_iff.mp hout
  obtain ⟨rows', e, hrows', hrun', rfl⟩ := ofChart_eq_ok_iff.mp hwide
  rw [rowsFor_of_table h, hrows', Except.ok.injEq] at hrows
  subst hrows
  obtain ⟨g, hg, hcode, hkey⟩ := exists_report_steps hsub ((mem_findings_iff hrun hcropping).mp hf)
  have hwarns : g.warnsOfCropping = true := by rwa [Diagnostic.warnsOfCropping, hcode]
  exact ⟨g, (mem_findings_iff hrun' hwarns).mpr hg, hwarns, hkey⟩

/-! ### The order of tables -/

theorem table_eq_of_perm (hr : Registry.Fit r.tables) (hwider : Registry.Fit wider.tables)
    (hperm : r.tables.Perm wider.tables) (grammar : String) : r.table grammar = wider.table grammar := by
  have hgrammars : r.grammars = wider.grammars := by
    rw [Registry.grammars, Registry.sorted_eq_of_perm hr hperm, Registry.grammars]
  have htable : r.table? grammar = wider.table? grammar := by
    ext t
    rw [Registry.table?_eq_some_iff hr, Registry.table?_eq_some_iff hwider, hperm.mem_iff]
  rw [Registry.table, Registry.table, htable, hgrammars]

/-- Nothing but the tables' names orders what a rendering reads. -/
theorem ofChart_eq_of_perm (hr : Registry.Fit r.tables) (hwider : Registry.Fit wider.tables)
    (hperm : r.tables.Perm wider.tables) (c : Chart) (grammar : String) (strict : Bool) :
    ofChart r c grammar strict = ofChart wider c grammar strict := by
  have hcroppings : r.croppings = wider.croppings := by
    funext kind k
    rw [Registry.croppings, Registry.croppings, Registry.sorted_eq_of_perm hr hperm]
  have hsteps : steps r = steps wider := by
    funext c grammar rows
    unfold steps styleSteps croppingSteps
    rw [hcroppings]
  rw [ofChart, ofChart, rowsFor_of_table (table_eq_of_perm hr hwider hperm grammar), hsteps]

/-! ### Other grammars -/

/-- Over a wider registry the rendering of a chart is the same, but for more warnings about cropping, or other texts
of them. -/
structure Unmoved (r wider : Registry) (c : Chart) (grammar : String) (strict : Bool) : Prop where
  /-- Both fail with one fault, or both give the same but for warnings about cropping. -/
  same : withoutCropping <$> ofChart r c grammar strict = withoutCropping <$> ofChart wider c grammar strict
  /-- A key whose cropping is warned of stays warned of. -/
  warned : ∀ out wide, ofChart r c grammar strict = .ok out → ofChart wider c grammar strict = .ok wide →
    ∀ f ∈ out.diagnostics, f.code = .croppingSemantics →
      ∃ g ∈ wide.diagnostics, g.code = .croppingSemantics ∧ g.key = f.key

/-- Tables of other grammars leave a rendering as it is, warnings about cropping apart, and the order of the tables
leaves everything as it is. -/
theorem unmoved_by_other_grammars {tables further all : List Table} (hr : Registry.ofTables tables = .ok r)
    (hwider : Registry.ofTables all = .ok wider) (hall : all.Perm (tables ++ further)) (c : Chart) :
    (∀ t ∈ tables, ∀ strict, Unmoved r wider c t.grammar strict) ∧
      (further = [] → (∀ grammar strict, ofChart r c grammar strict = ofChart wider c grammar strict) ∧
        r.coverage = wider.coverage ∧ r.coverageValue = wider.coverageValue) := by
  have hfit := Registry.fit_of_ofTables hr
  have hfit' := Registry.fit_of_ofTables hwider
  rw [← Registry.tables_of_ofTables hr, ← Registry.tables_of_ofTables hwider] at hall
  rw [← Registry.tables_of_ofTables hr]
  constructor
  · intro t ht strict
    have hsub : r.tables ⊆ wider.tables := fun u hu => hall.mem_iff.mpr (List.mem_append_left _ hu)
    have htable := Registry.table_of_subset hfit hfit' hsub ht
    refine ⟨withoutCropping_ofChart htable, fun out wide hout hwide f hf hcode => ?_⟩
    obtain ⟨g, hg, hwarns, hkey⟩ := exists_warning_of_subset hsub htable hout hwide hf (beq_iff_eq.mpr hcode)
    exact ⟨g, hg, beq_iff_eq.mp hwarns, hkey⟩
  · rintro rfl
    rw [List.append_nil] at hall
    have hcoverage : r.coverage = wider.coverage := by
      rw [Registry.coverage, Registry.sorted_eq_of_perm hfit hall.symm, Registry.coverage]
    refine ⟨ofChart_eq_of_perm hfit hfit' hall.symm c, hcoverage, ?_⟩
    rw [Registry.coverageValue, hcoverage, Registry.coverageValue]

/-- The grammars of the library render bars with axis limits alike whether or not a third grammar is registered before
them, which crops as one of them does. -/
theorem unmoved_by_other_grammars_styledBars :
    let mosaic : Table := { Shipped.Layered.table with grammar := "mosaic" }
    ∃ wider, Registry.ofTables [mosaic, Shipped.Layered.table, Shipped.Imperative.table] = .ok wider ∧
      Unmoved .shipped wider Desk.styledBars.chart "imperative" false ∧
      (∃ out, ofChart .shipped Desk.styledBars.chart "imperative" false = .ok out) ∧
      ∃ turned, Registry.ofTables [Shipped.Layered.table, Shipped.Imperative.table] = .ok turned ∧
        Registry.shipped.coverage = turned.coverage := by
  intro mosaic
  have hwider : Registry.ofTables [mosaic, Shipped.Layered.table, Shipped.Imperative.table] =
      .ok ⟨[mosaic, Shipped.Layered.table, Shipped.Imperative.table]⟩ := rfl
  have hturned : Registry.ofTables [Shipped.Layered.table, Shipped.Imperative.table] =
      .ok ⟨[Shipped.Layered.table, Shipped.Imperative.table]⟩ := rfl
  have hmore : [mosaic, Shipped.Layered.table, Shipped.Imperative.table].Perm
      ([Shipped.Imperative.table, Shipped.Layered.table] ++ [mosaic]) :=
    List.reverse_perm [Shipped.Imperative.table, Shipped.Layered.table, mosaic]
  have hothers := unmoved_by_other_grammars Registry.ofTables_shipped hwider hmore Desk.styledBars.chart
  have hswapped : [Shipped.Layered.table, Shipped.Imperative.table].Perm
      ([Shipped.Imperative.table, Shipped.Layered.table] ++ []) := List.Perm.swap ..
  have horder := unmoved_by_other_grammars Registry.ofTables_shipped hturned hswapped Desk.styledBars.chart
  refine ⟨_, hwider, hothers.1 _ List.mem_cons_self false, ?_, _, hturned, (horder.2 rfl).2.1⟩
  exact Shipped.ok_of_complete (g := .imperative) Desk.reachable_styledBars (by decide)
    (fun h => nomatch h.2.1) (.inl rfl)

end Rendering

end ChartGrammar
