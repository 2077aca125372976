import ChartGrammar.Proofs.Chart.History
import ChartGrammar.Proofs.Rendering.Insertion
import ChartGrammar.Proofs.Rendering.Strictness
import ChartGrammar.Proofs.Rendering.StyleKeys
import ChartGrammar.Proofs.Table.Reading

/-! What one more style key does to a rendering. No step but those for the key itself looks at its value, so the steps of
the two charts are the same but for the steps that the key puts in among them. As long as nothing else is written
under the names that its row writes to, the rendering gains what the row makes of the value and the findings about the
key, and nothing else changes. -/

namespace ChartGrammar

/-! ### Steps that do not look at style keys -/

section

variable (c : Chart) (f : StyleKey → Option Value)

theorem Chart.groupingAmong_style (exclude : Option String) (items : List Value) :
    groupingAmong { c with style? := f } exclude items = c.groupingAmong exclude items := by
  induction items with
  | nil => rfl
  | cons role rest ih =>
      rw [groupingAmong, groupingAmong, ih]
      rfl

theorem Chart.grouping_style (roles : Value) (exclude : Option String) :
    grouping { c with style? := f } roles exclude = c.grouping roles exclude := by
  unfold grouping
  split
  · exact c.groupingAmong_style f exclude _
  · rfl

theorem SelectorWriter.run_style (w : SelectorWriter) : w.run { c with style? := f } = w.run c := by
  cases w <;> rfl

theorem ColumnWriter.run_style (w : ColumnWriter) (name : Value) : w.run name { c with style? := f } = w.run name c := by
  cases w with
  | countedOrLabels | groupedVector =>
      simp only [ColumnWriter.run, Chart.grouping_style]
      rfl
  | column | vector | formula | consumed | palette | factorCodes | overlay => rfl

theorem Arranger.run_style (a : Arranger) (v : Value) : a.run v { c with style? := f } = a.run v c := by
  cases a
  simp only [Arranger.run, Chart.grouping_style]
  rfl

namespace Rendering

variable (r : Registry) (grammar : String) (rows : KindRows)

theorem kindSteps_style : kindSteps { c with style? := f } grammar rows = kindSteps c grammar rows := by
  simp only [kindSteps, SelectorWriter.run_style]

theorem bindingSteps_style : bindingSteps { c with style? := f } grammar rows = bindingSteps c grammar rows := by
  funext b
  simp only [bindingSteps, columnSteps, ColumnWriter.run_style]

theorem carriedSteps_style : carriedSteps { c with style? := f } rows = carriedSteps c rows := by
  funext b
  simp only [carriedSteps, ColumnWriter.run_style]

theorem styleSteps_style : styleSteps r { c with style? := f } grammar rows = styleSteps r c grammar rows := by
  funext e
  simp only [styleSteps, styleRowSteps, Arranger.run_style]

theorem styleOutcome_style : styleOutcome { c with style? := f } rows = styleOutcome c rows := by
  funext e
  simp only [styleOutcome]
  cases rows.style? e.1 with
  | none => rfl
  | some row =>
      dsimp only
      cases row.realization with
      | arranged a => simp only [Realization.outcome, Arranger.run_style]
      | written w => rfl

end Rendering

end

/-! ### The steps that a style key puts in -/

/-- The style key and the one that it excludes, if there is one, are not set. -/
structure Chart.Free (c : Chart) (k : StyleKey) : Prop where
  unset : c.style? k = none
  partner : ∀ other, k.exclusive? = some other → c.style? other = none

/-- A free key is set beside the others: it stands among them in its place, and they stay as they are. -/
theorem Chart.Free.styles_withStyle {c : Chart} {k : StyleKey} (h : c.Free k) (v : Value) :
    ∃ before after, c.styles = before ++ after ∧ (c.withStyle k v).styles = before ++ (k, v) :: after := by
  have hnodup : (Vocabulary.all : List StyleKey).Nodup := by decide
  obtain ⟨first, later, hall⟩ := List.append_of_mem (Vocabulary.mem_all k)
  rw [hall, List.nodup_middle, List.nodup_cons] at hnodup
  have hother (other : StyleKey) (hne : other ≠ k) : (c.withStyle k v).style? other = c.style? other := by
    rw [style?_withStyle, if_neg hne]
    split
    · next hexclusive => exact (h.partner other hexclusive).symm
    · rfl
  let entry (c : Chart) (k : StyleKey) : Option (StyleKey × Value) := (c.style? k).map fun v => (k, v)
  have hentries (keys : List StyleKey) (hkeys : ∀ other ∈ keys, other ≠ k) :
      keys.filterMap (entry (c.withStyle k v)) = keys.filterMap (entry c) :=
    List.filterMap_congr fun other hmem => by
      show ((c.withStyle k v).style? other).map _ = (c.style? other).map _
      rw [hother other (hkeys other hmem)]
  have hunset : entry c k = none := by
    show (c.style? k).map _ = none
    rw [h.unset]
    rfl
  have hset : entry (c.withStyle k v) k = some (k, v) := by
    show ((c.withStyle k v).style? k).map _ = _
    rw [style?_withStyle, if_pos rfl]
    rfl
  refine ⟨first.filterMap (entry c), later.filterMap (entry c), ?_, ?_⟩
  · show (Vocabulary.all : List StyleKey).filterMap (entry c) = _
    rw [hall, List.filterMap_append, List.filterMap_cons_none hunset]
  · show (Vocabulary.all : List StyleKey).filterMap (entry (c.withStyle k v)) = _
    have hfirst (other : StyleKey) (hmem : other ∈ first) : other ≠ k := by
      rintro rfl
      exact hnodup.1 (List.mem_append_left _ hmem)
    have hlater (other : StyleKey) (hmem : other ∈ later) : other ≠ k := by
      rintro rfl
      exact hnodup.1 (List.mem_append_right _ hmem)
    rw [hall, List.filterMap_append, List.filterMap_cons_some hset, hentries first hfirst, hentries later hlater]

namespace Rendering

open Document

variable {r : Registry} {c : Chart} {grammar : String} {strict : Bool} {rows : KindRows} {k : StyleKey} {u : Value}
  {params : Entries}

/-- A check on a column would warn of what is bound to its role, and once the bindings are dealt with no step does. -/
theorem not_checks_afterChecks (hdiagnostics : ∀ f ∈ c.diagnostics, f.code ≠ .unsupported) :
    ∀ s ∈ c.styles.flatMap (styleSteps r c grammar rows) ++ facetSteps c grammar rows ++ c.diagnostics.map .report,
      ¬s.Checks := by
  intro s hs hchecks
  cases s with
  | carried role column into =>
      have hnever : (droppedWarning grammar role column into).unsupportedAt role = false :=
        silent_afterChecks (name_styleKey_ne role) hdiagnostics _ hs grammar
      rw [unsupportedAt_droppedWarning] at hnever
      cases hnever
  | write | report | fail => exact hchecks

/-- A free key that is set puts its own steps in among the others, after the columns are checked on. -/
theorem exists_steps_withStyle (r : Registry) (grammar : String) (rows : KindRows) (u : Value) (hfree : c.Free k)
    (hdiagnostics : ∀ f ∈ c.diagnostics, f.code ≠ .unsupported) :
    ∃ first later, steps r c grammar rows = first ++ later ∧
      steps r (c.withStyle k u) grammar rows = first ++ styleSteps r c grammar rows (k, u) ++ later ∧
      ∀ s ∈ later, ¬s.Checks := by
  obtain ⟨before, after, hstyles, hnext⟩ := hfree.styles_withStyle u
  refine ⟨kindSteps c grammar rows ++ c.bindings.flatMap (bindingSteps c grammar rows)
      ++ c.bindings.flatMap (carriedSteps c rows) ++ before.flatMap (styleSteps r c grammar rows),
    after.flatMap (styleSteps r c grammar rows) ++ facetSteps c grammar rows ++ c.diagnostics.map .report,
    ?_, ?_, fun s hs hchecks => ?_⟩
  · simp only [steps, hstyles, List.flatMap_append, List.append_assoc]
  · have hkind : kindSteps (c.withStyle k u) grammar rows = kindSteps c grammar rows := kindSteps_style ..
    have hbindings : bindingSteps (c.withStyle k u) grammar rows = bindingSteps c grammar rows :=
      bindingSteps_style ..
    have hcarried : carriedSteps (c.withStyle k u) rows = carriedSteps c rows := carriedSteps_style ..
    have hkeys : styleSteps r (c.withStyle k u) grammar rows = styleSteps r c grammar rows := styleSteps_style ..
    have hbound : (c.withStyle k u).bindings = c.bindings := rfl
    have hfacet : facetSteps (c.withStyle k u) grammar rows = facetSteps c grammar rows := rfl
    have hsaid : (c.withStyle k u).diagnostics = c.diagnostics := rfl
    simp only [steps, hkind, hbindings, hcarried, hkeys, hbound, hfacet, hsaid, hnext, List.flatMap_append,
      List.flatMap_cons, List.append_assoc]
  · have hmem : s ∈ c.styles.flatMap (styleSteps r c grammar rows) ++ facetSteps c grammar rows
        ++ c.diagnostics.map .report := by
      rw [hstyles, List.flatMap_append]
      simp only [List.mem_append] at hs ⊢
      tauto
    exact not_checks_afterChecks hdiagnostics s hmem hchecks

/-- The steps write some parameters and then report. -/
def WritesAndReports (params : Entries) (origin : Origin) (steps : List Step) : Prop :=
  ∃ findings : List Diagnostic, steps = Step.writes params origin ++ findings.map .report

theorem WritesAndReports.append {origin : Origin} {steps : List Step} (h : WritesAndReports params origin steps)
    (findings : List Diagnostic) : WritesAndReports params origin (steps ++ findings.map .report) := by
  obtain ⟨first, rfl⟩ := h
  exact ⟨first ++ findings, by rw [List.map_append, List.append_assoc]⟩

theorem writesAndReports_styleRowSteps {row : StyleRow} (h : row.realization.outcome c u = .ok params) :
    WritesAndReports params (.style k) (styleRowSteps c grammar row k u) := by
  unfold styleRowSteps
  cases hrealization : row.realization with
  | arranged a =>
      rw [hrealization, Realization.outcome] at h
      obtain ⟨arrangement, harranged, rfl⟩ := map_eq_ok_iff.mp h
      simp only [harranged]
      exact ⟨[_], rfl⟩
  | written w =>
      rw [hrealization, Realization.outcome] at h
      simp only [h, attempt]
      split
      · next hempty =>
          rw [List.isEmpty_iff.mp hempty]
          exact ⟨[_], rfl⟩
      · exact ⟨[], (List.append_nil _).symm⟩

/-- The steps for a style key write what its row makes of the value, and then report. -/
theorem styleSteps_eq (h : styleOutcome c rows (k, u) = .ok params) : styleSteps r c grammar rows (k, u) =
    Step.writes params (.style k) ++ (styleReports r c grammar rows (k, u)).map .report := by
  have hshape : WritesAndReports params (.style k) (styleSteps r c grammar rows (k, u)) := by
    unfold styleOutcome at h
    unfold styleSteps
    cases hrow : rows.style? k with
    | none =>
        simp only [hrow] at h
        cases h
        exact ⟨[_], rfl⟩
    | some row =>
        simp only [hrow] at h ⊢
        have hwrites : WritesAndReports params (.style k) (styleRowSteps c grammar row k u) :=
          writesAndReports_styleRowSteps h
        cases row.cropping with
        | none => exact hwrites.append []
        | some cropping =>
            dsimp only [croppingSteps]
            split
            · exact hwrites.append []
            · exact hwrites.append [_]
  obtain ⟨findings, hsteps⟩ := hshape
  have hreports : styleReports r c grammar rows (k, u) = findings := by
    rw [styleReports, hsteps, List.filterMap_append, report?_writes, List.nil_append, List.filterMap_map]
    exact List.filterMap_some
  rw [hreports, hsteps]

/-! ### One key more -/

/-- What a grammar's row for a style key makes of the value that is set; nothing, if there is no row. -/
def styleParams (r : Registry) (c : Chart) (grammar : String) (k : StyleKey) : Except Misuse Entries :=
  match (r.table? grammar).bind fun t => t.style? c.kind k, c.style? k with
  | some row, some v => row.realization.outcome c v
  | _, _ => .ok []

/-- The rendering comes to the write: nothing fails before it. -/
def Reaches (r : Registry) (c : Chart) (grammar : String) (strict : Bool) (w : Parameter) : Prop :=
  ∃ rows, rowsFor r c grammar = .ok rows ∧ Document.empty.Reaches grammar strict (steps r c grammar rows) w

/-- A rendering comes to no write but those of its rows. -/
theorem mem_writes_of_reaches (hquiet : ∀ f ∈ c.diagnostics, f.code ≠ .conflict) {w : Parameter}
    (h : Reaches r c grammar strict w) : ∃ rows, rowsFor r c grammar = .ok rows ∧ w ∈ writes c rows := by
  obtain ⟨rows, hrows, done, rest, d, hsteps, -⟩ := h
  have hholds : Holds (steps r c grammar rows) (writes c rows) := holds_steps hquiet
  refine ⟨rows, hrows, ?_⟩
  rw [← hholds.writes, hsteps]
  exact List.mem_filterMap.mpr ⟨_, List.mem_append_right _ List.mem_cons_self, rfl⟩

/-- The second rendering has some new parameters, in one place, and some findings about a style key. All else is as it is
in the first. -/
structure AddsOnly (k : StyleKey) (params : Entries) (out next : Rendering) : Prop where
  grammar : next.grammar = out.grammar
  kind : next.kind = out.kind
  parameters : ∃ before after, out.parameters = before ++ after ∧ next.parameters = before ++ params ++ after
  new : ∀ e ∈ out.parameters, ∀ a ∈ params, e.1.same a.1 = false
  diagnostics : next.diagnostics.filter (fun f => f.styleKey? != some k) = out.diagnostics

/-- No finding is about a style key that is not set. -/
theorem Taken.filter_unset {t : Table} {d : Document} (h : Taken r c t rows strict d) (hunset : c.style? k = none) :
    d.findings.filter (fun f => f.styleKey? != some k) = d.findings := by
  have hnone := List.filter_eq_nil_iff.mp (h.about_unset hunset)
  refine List.filter_eq_self.mpr fun f hf => ?_
  simpa using hnone f hf

theorem Taken.addsOnly {t : Table} {d e : Document} (h : Taken r c t rows strict d) (hunset : c.style? k = none)
    (hparams : styleOutcome c rows (k, u) = .ok params)
    (hinserts : Inserts (params.writes (.style k)) (styleReports r c t.grammar rows (k, u)) d e)
    (hnew : ∀ p ∈ d.parameters, ∀ a ∈ params, p.name.same a.1 = false) :
    AddsOnly k params ⟨t.grammar, c.kind, d.entries, d.findings⟩ ⟨t.grammar, c.kind, e.entries, e.findings⟩ where
  grammar := rfl
  kind := rfl
  parameters := by
    obtain ⟨before, after, hd, he⟩ := hinserts.parameters
    let entry (p : Parameter) : Value × Value := (p.name, p.value)
    have hwrites : (params.writes (.style k)).map entry = params := by
      rw [Entries.writes, List.map_map]
      exact List.map_id params
    refine ⟨before.map entry, after.map entry, ?_, ?_⟩
    · show d.parameters.map entry = _
      rw [hd, List.map_append]
    · show e.parameters.map entry = _
      rw [he, List.map_append, List.map_append, hwrites]
  new := by
    intro p hp
    obtain ⟨q, hq, rfl⟩ := List.mem_map.mp hp
    exact hnew q hq
  diagnostics := by
    obtain ⟨first, later, hd, he⟩ := hinserts.findings
    have hfail : ∀ fault, .fail fault ∉ styleSteps r c t.grammar rows (k, u) := by
      intro fault hfault
      rw [styleSteps_eq hparams, List.mem_append] at hfault
      obtain hfault | hfault := hfault
      · obtain ⟨_, -, hwrite⟩ := List.mem_map.mp hfault
        cases hwrite
      · obtain ⟨_, -, hreport⟩ := List.mem_map.mp hfault
        cases hreport
    have hdropped : (styleReports r c t.grammar rows (k, u)).filter (fun f => f.styleKey? != some k) = [] := by
      obtain ⟨verdict, crop, hsplit, hspec⟩ := Rendering.exists_reportsFor h.fit h.mem h.kind hfail
      refine List.filter_eq_nil_iff.mpr fun f hf => ?_
      rw [hsplit] at hf
      rw [hspec.styleKey? hf]
      simp
    show e.findings.filter _ = d.findings
    rw [he, List.filter_append, List.filter_append, hdropped, List.append_nil, ← List.filter_append, ← hd,
      h.filter_unset hunset]

/-- The rows for a chart do not depend on its style keys. -/
theorem rowsFor_withStyle : rowsFor r (c.withStyle k u) grammar = rowsFor r c grammar := rfl

/-- The rows of the grammar's table decide what is made of a value that is set. -/
theorem styleOutcome_of_styleParams (hr : Registry.Fit r.tables) (hrows : rowsFor r c grammar = .ok rows)
    (hparams : styleParams r (c.withStyle k u) grammar k = .ok params) : styleOutcome c rows (k, u) = .ok params := by
  obtain ⟨t, ht, hgrammar, hkind⟩ := exists_table_of_rowsFor hrows
  have hstyle : (r.table? grammar).bind (fun t => t.style? c.kind k) = rows.style? k := by
    rw [(Registry.table?_eq_some_iff hr).mpr ⟨ht, hgrammar⟩, Option.bind_some, Table.style?, hkind, Option.bind_some]
  have hvalue : (c.withStyle k u).style? k = some u := by rw [Chart.style?_withStyle, if_pos rfl]
  have houtcome : styleOutcome (c.withStyle k u) rows (k, u) = .ok params := by
    unfold styleParams at hparams
    unfold styleOutcome
    rw [show (c.withStyle k u).kind = c.kind from rfl, hstyle, hvalue] at hparams
    cases hrow : rows.style? k with
    | none =>
        rw [hrow] at hparams
        exact hparams
    | some row =>
        rw [hrow] at hparams
        exact hparams
  have hsame : styleOutcome (c.withStyle k u) rows = styleOutcome c rows := styleOutcome_style ..
  rwa [hsame] at houtcome

/-- Clearing a key that is not set changes nothing. -/
theorem withoutStyle_of_unset (hunset : c.style? k = none) : c.withoutStyle k = c := by
  have hstyle : (c.withoutStyle k).style? = c.style? := by
    funext other
    rw [Chart.style?_withoutStyle]
    split
    · next hother => rw [hother, hunset]
    · rfl
  show { c with style? := (c.withoutStyle k).style? } = c
  rw [hstyle]

/-- The steps of a rendering are taken from its rows. -/
theorem taken_of_run (hr : Registry.Fit r.tables) (hdiagnostics : ∀ f ∈ c.diagnostics, f.code = .facetCardinality)
    (hrows : rowsFor r c grammar = .ok rows) {d : Document}
    (hrun : Document.empty.run grammar strict (steps r c grammar rows) = .ok d) :
    ∃ t, t.grammar = grammar ∧ Taken r c t rows strict d := by
  obtain ⟨t, ht, rfl, hkind⟩ := exists_table_of_rowsFor hrows
  exact ⟨t, rfl, hr, ht, hkind, hdiagnostics, hrun⟩

/-- The rendering of a chart beside that of the chart with a free style key set. -/
theorem withStyle_beside (hr : Registry.Fit r.tables) (hdiagnostics : ∀ f ∈ c.diagnostics, f.code = .facetCardinality)
    (hfree : c.Free k) (hparams : styleParams r (c.withStyle k u) grammar k = .ok params) (hdistinct : params.Distinct)
    (hapart : ∀ w, Reaches r c grammar strict w → ∀ a ∈ params, w.name.same a.1 = false) :
    ((∀ a ∈ params, a.1.isKey = true) →
      SideBySide (AddsOnly k params) (ofChart r c grammar strict) (ofChart r (c.withStyle k u) grammar strict)) ∧
    ((∃ a ∈ params, a.1.isKey = false) →
      (∃ fault, ofChart r c grammar strict = .error fault ∧
        ofChart r (c.withStyle k u) grammar strict = .error fault) ∨
      ofChart r (c.withStyle k u) grammar strict = .error (.misuse .unhashable)) := by
  cases hrows : rowsFor r c grammar with
  | error fault =>
      rw [ofChart_of_error hrows, ofChart_of_error (rowsFor_withStyle.trans hrows)]
      exact ⟨fun _ => .error fault, fun _ => .inl ⟨fault, rfl, rfl⟩⟩
  | ok rows =>
      have houtcome := styleOutcome_of_styleParams hr hrows hparams
      have hunreported (f : Diagnostic) (hf : f ∈ c.diagnostics) : f.code ≠ .unsupported := by
        rw [hdiagnostics f hf]
        decide
      obtain ⟨first, later, hplain, hinserted, hchecks⟩ :=
        exists_steps_withStyle r grammar rows u hfree hunreported
      have hreached : ∀ w, Document.empty.Reaches grammar strict (first ++ later) w → ∀ a ∈ params,
          w.name.same a.1 = false := by
        rw [← hplain]
        exact fun w hw => hapart w ⟨rows, hrows, hw⟩
      have hrun := run_inserted (.style k) (styleReports r c grammar rows (k, u)) hdistinct hreached hchecks
      dsimp only at hrun
      rw [← styleSteps_eq houtcome, ← hplain, ← hinserted] at hrun
      rw [ofChart_of_rowsFor hrows, ofChart_of_rowsFor (rowsFor_withStyle.trans hrows)]
      constructor
      · intro hkeys
        refine (hrun.1 hkeys).map fun d e hd hinserts => ?_
        obtain ⟨t, rfl, htaken⟩ := taken_of_run hr hdiagnostics hrows hd
        refine htaken.addsOnly hfree.unset houtcome hinserts fun p hp => ?_
        obtain ⟨w, hw, hname⟩ := exists_reaches_of_run hd hp
        rw [← hname]
        exact hapart w ⟨rows, hrows, hw⟩
      · intro hkeys
        obtain ⟨fault, hd, he⟩ | he := hrun.2 hkeys
        · rw [hd, he]
          exact .inl ⟨fault, rfl, rfl⟩
        · rw [he]
          exact .inr rfl

/-- A style key is local. Suppose that neither the key nor the one that it excludes is set on a chart, and that the key
is then set. What its row makes of the value is all that is new in the rendering, provided that these parameters have
different names and that the rendering of the chart comes to no write under any of them: both renderings fail with one
fault, or the second has the parameters and the findings about the key besides those of the first, which stay in order.
Only where a name cannot be one does the second fail for that. -/
theorem style_key_is_local {tables : List Table} (hr : Registry.ofTables tables = .ok r) {desk : Desk}
    (hdesk : desk.Reachable) (hfree : desk.chart.Free k) {v : Value} {next : Chart}
    (hset : desk.chart.setStyle (.text k.name) v = .ok next) (hparams : styleParams r next grammar k = .ok params)
    (hdistinct : params.Distinct)
    (hapart : ∀ w, Reaches r desk.chart grammar strict w → ∀ a ∈ params, w.name.same a.1 = false) :
    ((∀ a ∈ params, a.1.isKey = true) →
      SideBySide (AddsOnly k params) (ofChart r desk.chart grammar strict) (ofChart r next grammar strict)) ∧
    ((∃ a ∈ params, a.1.isKey = false) →
      (∃ fault, ofChart r desk.chart grammar strict = .error fault ∧ ofChart r next grammar strict = .error fault) ∨
        ofChart r next grammar strict = .error (.misuse .unhashable)) := by
  have hfit := Registry.fit_of_ofTables hr
  cases Chart.styleCase desk.chart (.text k.name) v with
  | unknown hkey _ => exact absurd rfl (hkey k)
  | invalid _ _ _ hresult => cases hset.symm.trans hresult
  | @cleared q hkey _ hresult =>
      cases Call.text_name_inj.mp hkey
      cases Except.ok.inj (hset.symm.trans hresult)
      rw [withoutStyle_of_unset hfree.unset] at hparams ⊢
      obtain rfl : params = [] := by
        simpa [styleParams, hfree.unset] using hparams.symm
      refine ⟨fun _ => ?_, fun hkeys => ?_⟩
      · cases hout : ofChart r desk.chart grammar strict with
        | error fault => exact .error fault
        | ok out =>
            obtain ⟨rows, d, hrows, hrun, rfl⟩ := ofChart_eq_ok_iff.mp hout
            obtain ⟨t, -, htaken⟩ := taken_of_run hfit hdesk.code_eq hrows hrun
            refine .ok ⟨rfl, rfl, ⟨d.entries, [], (List.append_nil _).symm, ?_⟩, ?_, htaken.filter_unset hfree.unset⟩
            · rw [List.append_nil, List.append_nil]
            · exact fun _ _ _ ha => absurd ha List.not_mem_nil
      · obtain ⟨a, ha, -⟩ := hkeys
        exact absurd ha List.not_mem_nil
  | @set q u hkey _ hresult =>
      cases Call.text_name_inj.mp hkey
      cases Except.ok.inj (hset.symm.trans hresult)
      exact withStyle_beside hfit hdesk.code_eq hfree hparams hdistinct hapart

/-- Limits along the axis of bars add themselves and the warning that another grammar crops otherwise. -/
theorem style_key_is_local_styledBars : ∃ next out wide,
    Desk.styledBars.chart.setStyle (.text StyleKey.axisLimitX.name) (.list [.int 0, .int 10]) = .ok next ∧
      ofChart .shipped Desk.styledBars.chart "imperative" false = .ok out ∧
      ofChart .shipped next "imperative" false = .ok wide ∧
      AddsOnly .axisLimitX [(.text "xlim", .tuple [.int 0, .int 10])] out wide := by
  have hreach := Desk.reachable_styledBars
  obtain ⟨out, hout⟩ : ∃ out, ofChart .shipped Desk.styledBars.chart "imperative" false = .ok out :=
    Shipped.ok_of_complete (g := .imperative) hreach (by decide) (fun h => nomatch h.2.1) (.inl rfl)
  have hfree : Desk.styledBars.chart.Free .axisLimitX := ⟨rfl, nofun⟩
  obtain ⟨next, hset, hparams⟩ : ∃ next,
      Desk.styledBars.chart.setStyle (.text StyleKey.axisLimitX.name) (.list [.int 0, .int 10]) = .ok next ∧
        styleParams .shipped next "imperative" .axisLimitX = .ok [(.text "xlim", .tuple [.int 0, .int 10])] :=
    ⟨_, rfl, rfl⟩
  obtain ⟨rows, hrows, hnames⟩ : ∃ rows, rowsFor .shipped Desk.styledBars.chart "imperative" = .ok rows ∧
      ∀ w ∈ writes Desk.styledBars.chart rows, w.name.same (.text "xlim") = false :=
    ⟨_, rfl, by decide⟩
  have hapart : ∀ w, Reaches .shipped Desk.styledBars.chart "imperative" false w →
      ∀ a ∈ [(Value.text "xlim", Value.tuple [.int 0, .int 10])], w.name.same a.1 = false := by
    intro w hw a ha
    cases List.mem_singleton.mp ha
    obtain ⟨rows', hrows', hmem⟩ := mem_writes_of_reaches hreach.no_conflict hw
    cases Except.ok.inj (hrows'.symm.trans hrows)
    exact hnames w hmem
  have hbeside := (style_key_is_local Registry.ofTables_shipped hreach hfree hset hparams (by decide) hapart).1
    (by decide)
  rw [hout] at hbeside
  generalize hnext : ofChart .shipped next "imperative" false = rendered at hbeside
  cases hbeside with
  | ok hadds => exact ⟨next, out, _, hset, hout, hnext, hadds⟩

end Rendering

/-- Rows that give a list for the name that titles are written under. -/
def Table.listedTitle : Entries :=
  let scalar (param : Value) : Value := .dict [(.text "write", .text "scalar"), (.text "param", param)]
  let styles : Entries := [(.text "title", scalar (.list [.text "main"])), (.text "xLabel", scalar (.text "x_title")),
    (.text "yLabel", scalar (.text "y_title"))]
  (smallPayload fun _ => []).insert (.text "defaults") (.dict [(.text "styles", .dict styles)])

/-- Bars in panels, one for each level of a column. -/
def Desk.panelledBars : Desk :=
  (Desk.mk .empty { kind := .bar, facetLimit := 12 }).run [
    .define (.text "Region") (.text "categorical") .null,
    .setFacet (.text "Region")]

theorem Desk.reachable_panelledBars : Desk.panelledBars.Reachable :=
  Desk.reachable_new .bar _

namespace Rendering

/-- A table with such a row may be read and makes a registry. Panels are refused in its grammar; but once a title is
given, the rendering trips over the list before it comes to the panels. -/
theorem style_key_not_local_panelledBars : ¬∀ (payload : Entries) (t : Table) (r : Registry) (desk : Desk)
    (k : StyleKey) (v : Value) (next : Chart) (params : Entries) (grammar : String) (strict : Bool),
    Table.parse "<memory>" (.dict payload) = .ok t → Registry.ofTables [t] = .ok r → desk.Reachable →
    desk.chart.Free k → desk.chart.setStyle (.text k.name) v = .ok next →
    styleParams r next grammar k = .ok params → params.Distinct →
    (∀ w, Reaches r desk.chart grammar strict w → ∀ a ∈ params, w.name.same a.1 = false) →
    SideBySide (AddsOnly k params) (ofChart r desk.chart grammar strict) (ofChart r next grammar strict) := by
  intro h
  obtain ⟨t, r, next, rows, ht, hr, hset, hparams, hplain, htitled, hrows, hnames⟩ : ∃ t r next rows,
      Table.parse "<memory>" (.dict Table.listedTitle) = .ok t ∧ Registry.ofTables [t] = .ok r ∧
      Desk.panelledBars.chart.setStyle (.text StyleKey.title.name) (.text "T") = .ok next ∧
      styleParams r next "mini" .title = .ok [(.list [.text "main"], .text "T")] ∧
      ofChart r Desk.panelledBars.chart "mini" false = .error (.rendering (.facetNotSupported "mini" .bar)) ∧
      ofChart r next "mini" false = .error (.misuse .unhashable) ∧
      rowsFor r Desk.panelledBars.chart "mini" = .ok rows ∧
      ∀ w ∈ writes Desk.panelledBars.chart rows, w.name.same (.list [.text "main"]) = false :=
    ⟨_, _, _, _, rfl, rfl, rfl, rfl, rfl, rfl, rfl, by decide⟩
  have hreach := Desk.reachable_panelledBars
  have hbeside := h Table.listedTitle t r Desk.panelledBars .title (.text "T") next _ "mini" false ht hr hreach
    ⟨rfl, nofun⟩ hset hparams (by decide) fun w hw a ha => by
      cases List.mem_singleton.mp ha
      obtain ⟨rows', hrows', hmem⟩ := mem_writes_of_reaches hreach.no_conflict hw
      cases Except.ok.inj (hrows'.symm.trans hrows)
      exact hnames w hmem
  rw [hplain, htitled] at hbeside
  cases hbeside

end Rendering

end ChartGrammar
