import ChartGrammar.Proofs.Chart.Soundness
import ChartGrammar.Proofs.Writer.Heredity
import ChartGrammar.Rendering.Basic

/-! What a rendering writes. The writes are listed straight from the rows of the table, in canonical order:
the kind, the bindings, the style keys, the facet. The steps of the rendering hold exactly these writes in this
order, and between them no finding and no fault that could be taken for a conflict. A table of regular values
writes regular parameters only. -/

namespace ChartGrammar

/-- A fault that reports a conflict. -/
def Fault.IsConflict : Fault → Prop
  | .rendering (.conflict ..) => True
  | _ => False

namespace Step

/-- The write that a step is, if it is one. -/
def write? : Step → Option Parameter
  | .write param value origin => some ⟨param, value, origin⟩
  | _ => none

/-- A step that makes no conflict known, neither by a finding nor by a fault. -/
def Quiet : Step → Prop
  | .report finding => finding.code ≠ .conflict
  | .fail fault => ¬fault.IsConflict
  | _ => True

end Step

/-- The writes of some parameters. -/
def Entries.writes (params : Entries) (origin : Origin) : List Parameter :=
  params.map fun e => ⟨e.1, e.2, origin⟩

/-- The parameters that a style value is realized by. -/
def Realization.outcome (c : Chart) (value : Value) : Realization → Except Misuse Entries
  | arranged arranger => Arrangement.fragments <$> arranger.run value c
  | written w => w.run value

namespace Rendering

/-- The writes that a writer's parameters make. A writer that is misused makes none. -/
def written (outcome : Except Misuse Entries) (origin : Origin) : List Parameter :=
  match outcome with
  | .ok params => params.writes origin
  | .error _ => []

/-- The writes for the chart's kind. -/
def kindWrites (c : Chart) (rows : KindRows) : List Parameter :=
  (rows.selector.run c).writes .kind

/-- What the writer for a binding makes of its source; nothing where there is no writer. -/
def bindingOutcome (c : Chart) (rows : KindRows) (b : Binding) : Except Misuse Entries :=
  match rows.role? b.role, b.source with
  | some row, .column name => row.column?.elim (.ok []) fun w => w.run (.text name) c
  | some row, .literal value => row.literal?.elim (.ok []) fun w => w.run value
  | none, _ => .ok []

/-- The ways in which rows deal with a binding, each with the steps for it and the outcome of its writer. -/
inductive BindingCase (c : Chart) (grammar : String) (rows : KindRows) (b : Binding) : Prop
  /-- No writer takes what is bound. -/
  | refused
      (hsteps : bindingSteps c grammar rows b =
        [.fail (.rendering (.unsupportedBinding grammar c.kind b.role b.source))])
      (houtcome : bindingOutcome c rows b = .ok [])
  | column {row : RoleRow} {w : ColumnWriter} {name : String} (hrow : rows.role? b.role = some row)
      (hw : row.column? = some w) (hsource : b.source = .column name)
      (hsteps : bindingSteps c grammar rows b = columnSteps c row w b.role name)
      (houtcome : bindingOutcome c rows b = w.run (.text name) c)
  | literal {row : RoleRow} {w : StyleWriter} {value : Value} (hrow : rows.role? b.role = some row)
      (hw : row.literal? = some w) (hsource : b.source = .literal value)
      (hsteps : bindingSteps c grammar rows b = literalSteps grammar w b.role value)
      (houtcome : bindingOutcome c rows b = w.run value)

theorem bindingCase (c : Chart) (grammar : String) (rows : KindRows) (b : Binding) :
    BindingCase c grammar rows b := by
  obtain ⟨role, source⟩ := b
  cases hrow : rows.role? role with
  | none => exact .refused (by simp only [bindingSteps, hrow]) (by simp only [bindingOutcome, hrow])
  | some row =>
      cases source with
      | column name =>
          cases hw : row.column? with
          | none =>
              exact .refused (by simp only [bindingSteps, hrow, hw])
                (by simp only [bindingOutcome, hrow, hw, Option.elim_none])
          | some w =>
              exact .column hrow hw rfl (by simp only [bindingSteps, hrow, hw])
                (by simp only [bindingOutcome, hrow, hw, Option.elim_some])
      | literal value =>
          cases hw : row.literal? with
          | none =>
              exact .refused (by simp only [bindingSteps, hrow, hw])
                (by simp only [bindingOutcome, hrow, hw, Option.elim_none])
          | some w =>
              exact .literal hrow hw rfl (by simp only [bindingSteps, hrow, hw])
                (by simp only [bindingOutcome, hrow, hw, Option.elim_some])

/-- The writes for a binding. -/
def bindingWrites (c : Chart) (rows : KindRows) (b : Binding) : List Parameter :=
  written (bindingOutcome c rows b) (.role b.role)

/-- What the writer or the arranger for a style key makes of its value; nothing where there is no row. -/
def styleOutcome (c : Chart) (rows : KindRows) (e : StyleKey × Value) : Except Misuse Entries :=
  match rows.style? e.1 with
  | some row => row.realization.outcome c e.2
  | none => .ok []

/-- The writes for a style key and its value. -/
def styleWrites (c : Chart) (rows : KindRows) (e : StyleKey × Value) : List Parameter :=
  written (styleOutcome c rows e) (.style e.1)

theorem bindingWrites_column {c : Chart} {rows : KindRows} {r : Role} {row : RoleRow} {w : ColumnWriter}
    (hrow : rows.role? r = some row) (hw : row.column? = some w) (name : String) :
    bindingWrites c rows ⟨r, .column name⟩ = written (w.run (.text name) c) (.role r) := by
  simp only [bindingWrites, bindingOutcome, hrow, hw, Option.elim_some]

theorem bindingWrites_literal {c : Chart} {rows : KindRows} {r : Role} {row : RoleRow} {w : StyleWriter}
    (hrow : rows.role? r = some row) (hw : row.literal? = some w) (v : Value) :
    bindingWrites c rows ⟨r, .literal v⟩ = written (w.run v) (.role r) := by
  simp only [bindingWrites, bindingOutcome, hrow, hw, Option.elim_some]

theorem styleWrites_of_row {c : Chart} {rows : KindRows} {k : StyleKey} {row : StyleRow}
    (hrow : rows.style? k = some row) (v : Value) :
    styleWrites c rows (k, v) = written (row.realization.outcome c v) (.style k) := by
  rw [styleWrites, styleOutcome, hrow]

/-- The writes for the facet. -/
def facetWrites (c : Chart) (rows : KindRows) : List Parameter :=
  match c.facet?, rows.facet? with
  | some name, some row => (row.writer.run (.text name)).writes .facet
  | _, _ => []

/-- All writes of a rendering in canonical order. -/
def writes (c : Chart) (rows : KindRows) : List Parameter :=
  kindWrites c rows ++ c.bindings.flatMap (bindingWrites c rows) ++ c.styles.flatMap (styleWrites c rows)
    ++ facetWrites c rows

/-! ### Steps that hold writes -/

/-- The writes among some steps are these, and no step makes a conflict known by itself. -/
structure Holds (steps : List Step) (ws : List Parameter) : Prop where
  writes : steps.filterMap Step.write? = ws
  quiet : ∀ s ∈ steps, s.Quiet

theorem Holds.nil : Holds [] [] :=
  ⟨rfl, fun _ hs => absurd hs List.not_mem_nil⟩

/-- A step that writes nothing, by itself. -/
theorem Holds.single {s : Step} (hwrite : s.write? = none) (hquiet : s.Quiet) : Holds [s] [] := by
  refine ⟨by simp [hwrite], ?_⟩
  intro other hother
  rw [List.mem_singleton.mp hother]
  exact hquiet

theorem Holds.fail {fault : Fault} (h : ¬fault.IsConflict) : Holds [.fail fault] [] :=
  .single rfl h

theorem Holds.reports {findings : List Diagnostic} (h : ∀ f ∈ findings, f.code ≠ .conflict) :
    Holds (findings.map .report) [] := by
  constructor
  · rw [List.filterMap_map, List.filterMap_eq_nil_iff]
    exact fun _ _ => rfl
  · intro s hs
    obtain ⟨f, hf, rfl⟩ := List.mem_map.mp hs
    exact h f hf

theorem Holds.finding {severity : Severity} {code : Code} {message : Value} {key : String}
    (h : code ≠ .conflict) : Holds [.report (finding severity code message key)] [] :=
  .single rfl h

theorem Holds.ofWrites (params : Entries) (origin : Origin) :
    Holds (Step.writes params origin) (params.writes origin) := by
  constructor
  · rw [Step.writes, List.filterMap_map, Entries.writes, ← List.filterMap_eq_map]
    rfl
  · intro s hs
    obtain ⟨e, -, rfl⟩ := List.mem_map.mp hs
    trivial

theorem Holds.append {first second : List Step} {us vs : List Parameter} (hu : Holds first us)
    (hv : Holds second vs) : Holds (first ++ second) (us ++ vs) := by
  refine ⟨by rw [List.filterMap_append, hu.writes, hv.writes], ?_⟩
  intro s hs
  rcases List.mem_append.mp hs with hs | hs
  · exact hu.quiet s hs
  · exact hv.quiet s hs

/-- Steps without writes add none. -/
theorem Holds.append_nil {first second : List Step} {us : List Parameter} (hu : Holds first us)
    (hv : Holds second []) : Holds (first ++ second) us := by
  have happend := hu.append hv
  rwa [List.append_nil] at happend

theorem Holds.flatMap {α : Type} {steps : α → List Step} {ws : α → List Parameter} (items : List α)
    (h : ∀ a, Holds (steps a) (ws a)) : Holds (items.flatMap steps) (items.flatMap ws) := by
  induction items with
  | nil => exact .nil
  | cons a items ih =>
      rw [List.flatMap_cons, List.flatMap_cons]
      exact (h a).append ih

/-! ### The steps of a rendering -/

variable {c : Chart} {grammar : String} {rows : KindRows} {r : Registry}

theorem holds_kindSteps : Holds (kindSteps c grammar rows) (kindWrites c rows) := by
  refine (Holds.ofWrites _ _).append_nil ?_
  split
  · exact .finding (by decide)
  · exact .nil

/-- Steps that only report something, after something that may be misused. -/
theorem Holds.attempt {α : Type} {outcome : Except Misuse α} {steps : α → List Step} (h : ∀ a, Holds (steps a) []) :
    Holds (Rendering.attempt outcome steps) [] := by
  cases outcome with
  | ok a => exact h a
  | error m => exact .fail id

theorem holds_explainColumn (note : Value) (text column key : String) :
    Holds (explainColumn note text column key) [] :=
  .attempt fun _ => .finding (by decide)

theorem holds_columnSteps (row : RoleRow) (w : ColumnWriter) (role : Role) (name : String) :
    Holds (columnSteps c row w role name) (written (w.run (.text name) c) (.role role)) := by
  unfold columnSteps attempt written
  cases w.run (.text name) c with
  | error m => exact .fail id
  | ok params =>
      refine (Holds.ofWrites params _).append_nil ?_
      split
      · exact holds_explainColumn ..
      · exact .nil

theorem holds_literalSteps (w : StyleWriter) (role : Role) (value : Value) :
    Holds (literalSteps grammar w role value) (written (w.run value) (.role role)) := by
  unfold literalSteps written
  cases w.run value with
  | error m => exact .fail id
  | ok params =>
      rw [Rendering.attempt]
      split
      · next hempty =>
          rw [List.isEmpty_iff.mp hempty]
          exact .attempt fun _ => .finding (by decide)
      · exact .ofWrites params _

theorem holds_bindingSteps (b : Binding) : Holds (bindingSteps c grammar rows b) (bindingWrites c rows b) := by
  rw [bindingWrites]
  cases bindingCase c grammar rows b with
  | refused hsteps houtcome =>
      rw [hsteps, houtcome]
      exact .fail id
  | @column row w name _ _ _ hsteps houtcome =>
      rw [hsteps, houtcome]
      exact holds_columnSteps row w b.role name
  | @literal row w value _ _ _ hsteps houtcome =>
      rw [hsteps, houtcome]
      exact holds_literalSteps w b.role value

theorem holds_carriedSteps (b : Binding) : Holds (carriedSteps c rows b) [] := by
  unfold carriedSteps
  repeat' split
  all_goals first | exact .nil | exact .single rfl trivial

theorem holds_styleRowSteps (row : StyleRow) (key : StyleKey) (value : Value) :
    Holds (styleRowSteps c grammar row key value) (written (row.realization.outcome c value) (.style key)) := by
  unfold styleRowSteps Realization.outcome attempt written
  cases row.realization with
  | arranged arranger =>
      dsimp only
      cases arranger.run value c with
      | error m => exact .fail id
      | ok arrangement => exact (Holds.ofWrites arrangement.fragments _).append_nil (.finding (by decide))
  | written w =>
      dsimp only
      cases w.run value with
      | error m => exact .fail id
      | ok params =>
          dsimp only
          split
          · next hempty =>
              rw [List.isEmpty_iff.mp hempty]
              exact .finding (by decide)
          · exact .ofWrites params _

theorem holds_croppingSteps (kind : Kind) (key : StyleKey) (cropping : Cropping) :
    Holds (croppingSteps r kind grammar key cropping) [] := by
  unfold croppingSteps
  dsimp only
  split
  · exact .nil
  · exact .finding (by decide)

theorem holds_styleSteps (e : StyleKey × Value) :
    Holds (styleSteps r c grammar rows e) (styleWrites c rows e) := by
  unfold styleSteps styleWrites styleOutcome
  cases rows.style? e.1 with
  | none => exact .finding (by decide)
  | some row =>
      refine (holds_styleRowSteps row e.1 e.2).append_nil ?_
      cases row.cropping with
      | none => exact .nil
      | some cropping => exact holds_croppingSteps ..

theorem holds_facetSteps : Holds (facetSteps c grammar rows) (facetWrites c rows) := by
  unfold facetSteps facetWrites
  cases c.facet? with
  | none => exact .nil
  | some name =>
      cases rows.facet? with
      | none => exact .fail id
      | some row =>
          refine (Holds.ofWrites _ _).append_nil ?_
          split
          · exact holds_explainColumn ..
          · exact .nil

/-- The steps of a rendering hold the writes of the rows in canonical order, and report no conflict if none was
found while the chart was built. -/
theorem holds_steps (h : ∀ f ∈ c.diagnostics, f.code ≠ .conflict) :
    Holds (steps r c grammar rows) (writes c rows) := by
  have hbindings : Holds (c.bindings.flatMap (bindingSteps c grammar rows))
      (c.bindings.flatMap (bindingWrites c rows)) := Holds.flatMap _ holds_bindingSteps
  have hcarried : Holds (c.bindings.flatMap (carriedSteps c rows)) [] := by
    have hnone : Holds (c.bindings.flatMap (carriedSteps c rows)) (c.bindings.flatMap fun _ => []) :=
      Holds.flatMap _ holds_carriedSteps
    rwa [List.flatMap_eq_nil_iff.mpr fun _ _ => rfl] at hnone
  have hstyles : Holds (c.styles.flatMap (styleSteps r c grammar rows))
      (c.styles.flatMap (styleWrites c rows)) := Holds.flatMap _ holds_styleSteps
  exact ((((holds_kindSteps.append hbindings).append_nil hcarried).append hstyles).append
    holds_facetSteps).append_nil (.reports h)

end Rendering

/-! ### What the writes pass on -/

section

variable {P : Value → Prop} {rows : KindRows}

theorem Entries.All.writes {params : Entries} (h : params.All P) (origin : Origin) :
    ∀ w ∈ params.writes origin, P w.name ∧ P w.value := by
  intro w hw
  obtain ⟨e, he, rfl⟩ := List.mem_map.mp hw
  exact h e he

theorem KindRows.of_role? {role : Role} {row : RoleRow} (h : ∀ v ∈ rows.values, P v)
    (hrow : rows.role? role = some row) : ∀ v ∈ row.values, P v := by
  intro v hv
  refine h v ?_
  simp only [values, List.mem_append, List.mem_flatMap]
  exact .inl (.inl (.inr ⟨(role, row), mem_of_lookup hrow, hv⟩))

theorem KindRows.of_style? {key : StyleKey} {row : StyleRow} (h : ∀ v ∈ rows.values, P v)
    (hrow : rows.style? key = some row) : ∀ v ∈ row.realization.values, P v := by
  intro v hv
  refine h v ?_
  simp only [values, List.mem_append, List.mem_flatMap]
  exact .inl (.inr ⟨(key, row), mem_of_lookup hrow, hv⟩)

theorem KindRows.of_facet? {row : FacetRow} (h : ∀ v ∈ rows.values, P v) (hrow : rows.facet? = some row) :
    ∀ v ∈ row.writer.values, P v := by
  intro v hv
  refine h v ?_
  simp only [values, List.mem_append]
  exact .inr (by rwa [hrow])

theorem Realization.inherits_outcome (hP : Value.Hereditary P) {c : Chart} {value : Value} {realization : Realization}
    {params : Entries} (h : ∀ v ∈ realization.values, P v) (hvalue : P value)
    (hrun : realization.outcome c value = .ok params) : params.All P := by
  cases realization with
  | written w => exact StyleWriter.inherits_run hP h hvalue hrun
  | arranged arranger =>
      cases harranged : arranger.run value c with
      | error m =>
          rw [outcome, harranged] at hrun
          cases hrun
      | ok arrangement =>
          rw [outcome, harranged] at hrun
          cases hrun
          exact Arranger.inherits_run hP h harranged

namespace Rendering

variable {c : Chart}

theorem inherits_written {outcome : Except Misuse Entries} (h : ∀ params, outcome = .ok params → params.All P)
    (origin : Origin) : ∀ w ∈ written outcome origin, P w.name ∧ P w.value := by
  intro w hw
  unfold written at hw
  split at hw
  · exact (h _ rfl).writes origin w hw
  · exact absurd hw List.not_mem_nil

variable (hP : Value.Hereditary P) (h : ∀ v ∈ rows.values, P v)

include hP h

theorem inherits_bindingWrites {b : Binding} (hliteral : ∀ v, b.source = .literal v → P v) :
    ∀ w ∈ bindingWrites c rows b, P w.name ∧ P w.value := by
  refine inherits_written (fun params hrun => ?_) _
  unfold bindingOutcome at hrun
  split at hrun
  · next row name hrow _ =>
      have hvalues := KindRows.of_role? h hrow
      cases hw : row.column? with
      | none =>
          rw [hw] at hrun
          cases hrun
          exact Entries.all_nil
      | some w =>
          rw [hw] at hrun
          refine ColumnWriter.inherits_run hP (fun v hv => hvalues v ?_) hrun
          rw [RoleRow.values, hw]
          exact List.mem_append_left _ hv
  · next row value hrow hsource =>
      have hvalues := KindRows.of_role? h hrow
      cases hw : row.literal? with
      | none =>
          rw [hw] at hrun
          cases hrun
          exact Entries.all_nil
      | some w =>
          rw [hw] at hrun
          refine StyleWriter.inherits_run hP (fun v hv => hvalues v ?_) (hliteral value hsource) hrun
          rw [RoleRow.values, hw]
          exact List.mem_append_right _ hv
  · cases hrun
    exact Entries.all_nil

theorem inherits_styleWrites {e : StyleKey × Value} (hvalue : P e.2) :
    ∀ w ∈ styleWrites c rows e, P w.name ∧ P w.value := by
  refine inherits_written (fun params hrun => ?_) _
  unfold styleOutcome at hrun
  split at hrun
  · next row hrow => exact Realization.inherits_outcome hP (KindRows.of_style? h hrow) hvalue hrun
  · cases hrun
    exact Entries.all_nil

theorem inherits_kindWrites : ∀ w ∈ kindWrites c rows, P w.name ∧ P w.value := by
  refine (SelectorWriter.inherits_run hP (fun v hv => h v ?_) c).writes .kind
  simp only [KindRows.values, List.mem_append]
  exact .inl (.inl (.inl hv))

theorem inherits_facetWrites : ∀ w ∈ facetWrites c rows, P w.name ∧ P w.value := by
  unfold facetWrites
  split
  · next name row _ hrow => exact (FacetWriter.inherits_run hP (KindRows.of_facet? h hrow) name).writes .facet
  · exact fun w hw => absurd hw List.not_mem_nil

/-- All that is written has the property, if what is bound and set on the chart has it. -/
theorem inherits_writes (hliteral : ∀ role v, c.source? role = some (.literal v) → P v)
    (hstyle : ∀ key v, c.style? key = some v → P v) : ∀ w ∈ writes c rows, P w.name ∧ P w.value := by
  intro w hw
  simp only [writes, List.mem_append, List.mem_flatMap] at hw
  rcases hw with ((hw | ⟨b, hb, hw⟩) | ⟨e, he, hw⟩) | hw
  · exact inherits_kindWrites hP h w hw
  · refine inherits_bindingWrites hP h (fun v hsource => hliteral b.role v ?_) w hw
    rw [← hsource]
    exact Chart.mem_bindings.mp hb
  · exact inherits_styleWrites hP h (hstyle e.1 e.2 (Chart.mem_styles.mp he)) w hw
  · exact inherits_facetWrites hP h w hw

end Rendering

end

/-- The name and the value are regular. -/
def Parameter.Regular (p : Parameter) : Prop :=
  p.name.regular = true ∧ p.value.regular = true

namespace Rendering

variable {s : Schema} {c : Chart} {rows : KindRows}

/-- Everything that a sound chart writes through regular rows is regular. -/
theorem regular_writes (hc : c.Sound s) (h : ∀ v ∈ rows.values, v.regular = true) :
    ∀ w ∈ writes c rows, w.Regular := by
  refine inherits_writes Value.hereditary_regular h (fun role v hbound => ?_) fun key v hset => ?_
  · obtain ⟨shape, -, hnormal⟩ := hc.literal hbound
    exact Shape.regular_of_normalize? hnormal
  · exact Shape.regular_of_normalize? (Chart.normalizeStyle_eq_ok_iff.mp (hc.style key v hset))

end Rendering

end ChartGrammar
