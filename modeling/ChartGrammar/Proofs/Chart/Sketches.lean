import ChartGrammar.Chart.Sketch
import ChartGrammar.Proofs.Chart.Calls

/-! Calls on a schema and on a sketch that are changed in place. Each operation makes all its checks before its first
change, so a call that is refused leaves everything as it was, although nothing is ever undone; and a call that is
accepted makes of the sketch what it makes of the chart that the sketch amounts to. -/

namespace ChartGrammar

namespace Work

variable {σ τ α β ρ ρ' : Type} {s : σ} {work : Work σ α} {outcome : Except Fault ρ} {R : ρ → α → σ → Prop}

theorem run_bind_of_ok {a : α} {t : σ} (h : work.run s = .ok a t) (next : α → Work σ β) :
    (work >>= next).run s = (next a).run t := by
  show EStateM.bind work next s = _
  unfold EStateM.run at h
  rw [EStateM.bind, h]
  rfl

theorem run_bind_of_error {fault : Fault} {t : σ} (h : work.run s = .error fault t) (next : α → Work σ β) :
    (work >>= next).run s = .error fault t := by
  show EStateM.bind work next s = _
  unfold EStateM.run at h
  rw [EStateM.bind, h]

theorem run_get_bind (next : σ → Work σ β) (s : σ) : (get >>= next).run s = (next s).run s := rfl

theorem run_check_bind (b : β) (next : β → Work σ α) (s : σ) :
    (Work.check (.ok b) >>= next).run s = (next b).run s := rfl

/-- `Mirrors R s outcome result`: work from `s` that gave `result` did what the outcome says. A success is related to
the outcome by `R`; a failure is for the same fault, and the state is still `s`. -/
inductive Mirrors (R : ρ → α → σ → Prop) (s : σ) : Except Fault ρ → EStateM.Result Fault σ α → Prop where
  | ok {r : ρ} {a : α} {t : σ} (h : R r a t) : Mirrors R s (.ok r) (.ok a t)
  | error (fault : Fault) : Mirrors R s (.error fault) (.error fault s)

/-- A check that comes first on both sides. -/
theorem Mirrors.check {checked : Except Fault β} {f : β → Except Fault ρ} {next : β → Work σ α}
    (h : ∀ b, checked = .ok b → Mirrors R s (f b) ((next b).run s)) :
    Mirrors R s (checked >>= f) ((Work.check checked >>= next).run s) := by
  cases hchecked : checked with
  | error fault => exact .error fault
  | ok b => exact h b hchecked

/-- Something made of the results in the end. -/
theorem Mirrors.map (h : Mirrors R s outcome (work.run s)) {R' : ρ' → β → σ → Prop} {f : ρ → ρ'} {g : α → β}
    (hmade : ∀ r a t, R r a t → R' (f r) (g a) t) :
    Mirrors R' s (outcome >>= fun r => pure (f r)) ((work >>= fun a => pure (g a)).run s) := by
  cases hresult : work.run s with
  | ok a t =>
      rw [hresult] at h
      rw [run_bind_of_ok hresult]
      cases h with
      | ok h => exact .ok (hmade _ _ _ h)
  | error fault t =>
      rw [hresult] at h
      rw [run_bind_of_error hresult]
      cases h
      exact .error fault

/-- The same on a part of a larger state. -/
theorem Mirrors.on {part : τ → σ} {replace : σ → τ → τ} {t : τ} (h : Mirrors R (part t) outcome (work.run (part t)))
    {R' : ρ → α → τ → Prop} (hback : replace (part t) t = t) (hlarge : ∀ r a s, R r a s → R' r a (replace s t)) :
    Mirrors R' t outcome ((Work.on part replace work).run t) := by
  show Mirrors R' t _ (Work.on part replace work t)
  unfold EStateM.run at h
  unfold Work.on
  generalize work (part t) = result at h ⊢
  cases h with
  | ok h => exact .ok (hlarge _ _ _ h)
  | error fault =>
      dsimp only
      rw [hback]
      exact .error fault

end Work

open Work

theorem Schema.addColumn_mirrors (s : Schema) (name type cardinality : Value) :
    Mirrors (fun r column t => r = (t, column)) s (s.define name type cardinality)
      ((Schema.addColumn name type cardinality).run s) := by
  unfold addColumn
  rw [run_get_bind]
  cases s.define name type cardinality with
  | error fault => exact .error fault
  | ok r => exact .ok rfl

namespace Sketch

/-! ### Single changes -/

theorem chart_bound (k : Sketch) (role : Role) (source : Source) :
    chart { k with bound := Ordered.put role source k.bound } = k.chart.withSource role source := by
  unfold chart Chart.withSource
  simp only [Ordered.lookup_put]

theorem chart_unstyled (k : Sketch) (key : StyleKey) :
    chart { k with styled := Ordered.drop key k.styled } = k.chart.withoutStyle key := by
  unfold chart Chart.withoutStyle
  simp only [Ordered.lookup_drop]

/-- Dropping the key that excludes another, if there is one, and then putting that one is setting it. -/
theorem run_putStyle (k : Sketch) (key : StyleKey) (v : Value) :
    ∃ t, (putStyle key v).run k = .ok () t ∧ t.chart = k.chart.withStyle key v := by
  unfold putStyle
  cases hexclusive : key.exclusive? with
  | none =>
      refine ⟨_, rfl, ?_⟩
      unfold chart Chart.withStyle
      simp [Ordered.lookup_put, hexclusive]
  | some other =>
      refine ⟨_, rfl, ?_⟩
      unfold chart Chart.withStyle
      simp [Ordered.lookup_put, Ordered.lookup_drop, hexclusive, eq_comm]

theorem chart_faceted (k : Sketch) (column : Column) :
    chart { k with
      facet? := some column.name
      findings := k.findings ++ (k.chart.facetFinding? column).toList } = k.chart.withFacet column := rfl

/-! ### Operations -/

/-- The finding about the column comes before the facet, but after the last check. -/
theorem setFacet_mirrors (k : Sketch) (s : Schema) (reference : Value) :
    Mirrors (fun column a t => a = column ∧ t.chart = k.chart.withFacet column) k (k.chart.readFacet s reference)
      ((setFacet s reference).run k) := by
  have hrole : k.chart.readRole (.text Role.facet.name) = .ok .facet :=
    Chart.readRole_eq_ok_iff.mpr ⟨rfl, by cases k.chart.kind <;> rfl⟩
  unfold setFacet
  rw [run_get_bind]
  dsimp only
  rw [hrole, run_check_bind]
  cases hread : k.chart.readFacet s reference with
  | error fault => exact .error fault
  | ok column =>
      rw [run_check_bind]
      have hfaceted := chart_faceted k column
      cases hfinding : k.chart.facetFinding? column with
      | none =>
          rw [hfinding, Option.toList_none, List.append_nil] at hfaceted
          refine .ok ?_
          exact ⟨rfl, hfaceted⟩
      | some finding =>
          rw [hfinding] at hfaceted
          refine .ok ?_
          exact ⟨rfl, hfaceted⟩

theorem bindFacet_mirrors (k : Sketch) (s : Schema) (source : Value) :
    Mirrors (fun r b t => r = (t.chart, b)) k (k.chart.bindFacet s source) ((bindFacet s source).run k) := by
  have hmade (column a : Column) (t : Sketch) (h : a = column ∧ t.chart = k.chart.withFacet column) :
      (k.chart.withFacet column, Binding.mk .facet (.column column.name)) = (t.chart, ⟨.facet, .column a.name⟩) := by
    rw [h.1, h.2]
  unfold Chart.bindFacet bindFacet
  cases source with
  | text name => exact (setFacet_mirrors k s (.text name)).map hmade
  | column name => exact (setFacet_mirrors k s (.column name)).map hmade
  | null | bool | int | float | list | tuple | dict | unset | literal => exact .error _

theorem bindFree_mirrors (k : Sketch) (s : Schema) (role : Role) (source : Value) :
    Mirrors (fun r b t => r = (t.chart, b)) k (k.chart.bindFree s role source) ((bindFree s role source).run k) := by
  unfold Chart.bindFree bindFree
  rw [run_get_bind]
  dsimp only
  split
  · exact .error _
  · exact Mirrors.check fun bound _ => .ok (by rw [chart_bound])

theorem bind_mirrors (k : Sketch) (s : Schema) (role source : Value) :
    Mirrors (fun r b t => r = (t.chart, b)) k (k.chart.bind s role source) ((bind s role source).run k) := by
  unfold Chart.bind bind
  rw [run_get_bind]
  refine Mirrors.check fun r _ => ?_
  split
  · exact bindFacet_mirrors k s source
  · exact bindFree_mirrors k s r source

/-- The key that excludes the one to be set is dropped after the last check. -/
theorem setStyle_mirrors (k : Sketch) (key value : Value) :
    Mirrors (fun c _ t => t.chart = c) k (k.chart.setStyle key value) ((setStyle key value).run k) := by
  have hput (q : StyleKey) (v : Value) : Mirrors (fun c _ t => t.chart = c) k
      (Chart.normalizeStyle q v >>= fun u => pure (k.chart.withStyle q u))
      ((Work.check (Chart.normalizeStyle q v) >>= putStyle q).run k) := by
    refine Mirrors.check fun u _ => ?_
    obtain ⟨t, hrun, hchart⟩ := run_putStyle k q u
    rw [hrun]
    exact .ok hchart
  unfold Chart.setStyle setStyle
  refine Mirrors.check fun q _ => ?_
  cases value with
  | unset => exact .ok (chart_unstyled k q)
  | null | bool | int | float | text | list | tuple | dict | column | literal => exact hput q _

end Sketch

/-- A schema and a sketch over it, both changed in place. -/
structure Easel where
  schema : Schema
  sketch : Sketch

namespace Easel

/-- The desk that an easel amounts to. -/
def desk (e : Easel) : Desk :=
  ⟨e.schema, e.sketch.chart⟩

/-- Works on the schema. -/
def onSchema {α : Type} (work : Work Schema α) : Work Easel α :=
  Work.on schema (fun s e => { e with schema := s }) work

/-- Works on the sketch, in view of the schema. -/
def onSketch {α : Type} (work : Schema → Work Sketch α) : Work Easel α := do
  let e ← get
  Work.on sketch (fun k e => { e with sketch := k }) (work e.schema)

/-- Makes a call. -/
def perform : Call → Work Easel Unit
  | .define name type cardinality => do let _ ← onSchema (Schema.addColumn name type cardinality)
  | .bind role source => do let _ ← onSketch fun s => Sketch.bind s role source
  | .setFacet reference => do let _ ← onSketch fun s => Sketch.setFacet s reference
  | .setStyle key value => do let _ ← onSketch fun _ => Sketch.setStyle key value
  | .clearStyle key => do let _ ← onSketch fun _ => Sketch.clearStyle key

theorem onSchema_mirrors {α ρ : Type} {R : ρ → α → Schema → Prop} {outcome : Except Fault ρ} (e : Easel)
    {work : Work Schema α} (h : Mirrors R e.schema outcome (work.run e.schema)) :
    Mirrors (fun r a t => R r a t.schema ∧ t.sketch = e.sketch) e outcome ((onSchema work).run e) :=
  h.on rfl fun _ _ _ hr => ⟨hr, rfl⟩

theorem onSketch_mirrors {α ρ : Type} {R : ρ → α → Sketch → Prop} {outcome : Except Fault ρ} (e : Easel)
    {work : Schema → Work Sketch α} (h : Mirrors R e.sketch outcome ((work e.schema).run e.sketch)) :
    Mirrors (fun r a t => R r a t.sketch ∧ t.schema = e.schema) e outcome ((onSketch work).run e) := by
  unfold onSketch
  rw [run_get_bind]
  exact h.on rfl fun _ _ _ hr => ⟨hr, rfl⟩

/-- A call does to the easel what it does to the desk, and if it is refused, the easel is as it was. -/
theorem perform_mirrors (e : Easel) (c : Call) :
    Mirrors (fun k _ t => t.desk = k) e (e.desk.call c) ((perform c).run e) := by
  -- The desk after a change of the chart alone.
  have hdesk (t : Easel) (c : Chart) (h : t.sketch.chart = c ∧ t.schema = e.schema) :
      t.desk = { e.desk with chart := c } := by
    rw [desk, h.1, h.2]
    rfl
  cases c with
  | define name type cardinality =>
      have hadd := onSchema_mirrors e (Schema.addColumn_mirrors e.schema name type cardinality)
      refine hadd.map fun r column t hr => ?_
      rw [hr.1, desk, hr.2]
      rfl
  | bind role source =>
      exact (onSketch_mirrors e (Sketch.bind_mirrors e.sketch e.schema role source)).map fun r b t hr =>
        hdesk t r.1 ⟨by rw [hr.1], hr.2⟩
  | setFacet reference =>
      have hcall : e.desk.call (.setFacet reference) = (e.sketch.chart.readFacet e.schema reference >>= fun column =>
          pure { e.desk with chart := e.sketch.chart.withFacet column }) := by
        show ((e.sketch.chart.withFacet <$> e.sketch.chart.readFacet e.schema reference) >>= _) = _
        cases e.sketch.chart.readFacet e.schema reference <;> rfl
      rw [hcall]
      exact (onSketch_mirrors e (Sketch.setFacet_mirrors e.sketch e.schema reference)).map fun column a t hr =>
        hdesk t _ ⟨hr.1.2, hr.2⟩
  | setStyle key value =>
      exact (onSketch_mirrors e (Sketch.setStyle_mirrors e.sketch key value)).map fun c _ t => hdesk t c
  | clearStyle key =>
      exact (onSketch_mirrors e (Sketch.setStyle_mirrors e.sketch key .unset)).map fun c _ t => hdesk t c

/-- A call that is refused, for whatever fault, leaves the schema and the sketch just as they were. -/
theorem unchanged_by_refused_call (e : Easel) (c : Call) {fault : Fault} {next : Easel}
    (h : (perform c).run e = .error fault next) : next = e ∧ e.desk.call c = .error fault := by
  have hmirrors := perform_mirrors e c
  rw [h] at hmirrors
  generalize e.desk.call c = outcome at hmirrors ⊢
  cases hmirrors
  exact ⟨rfl, rfl⟩

/-- A histogram whose bin width is set. -/
def binned : Easel :=
  ⟨.empty, { kind := .histogram, facetLimit := 12, styled := [(.binWidth, .int 2)] }⟩

/-- A number of bins that is refused does not clear the bin width, which it would exclude. -/
theorem unchanged_by_refused_call_binned :
    ∃ fault next, (perform (.setStyle (.text "binCount") (.int 0))).run binned = .error fault next ∧
      next = binned ∧ next.sketch.chart.style? .binWidth = some (.int 2) := by
  have hrefused : (perform (.setStyle (.text "binCount") (.int 0))).run binned =
      .error (.construction (.invalidStyleValue .binCount (.int 0))) binned := rfl
  obtain ⟨hsame, -⟩ := unchanged_by_refused_call binned _ hrefused
  exact ⟨_, binned, hrefused, hsame, rfl⟩

end Easel

end ChartGrammar
