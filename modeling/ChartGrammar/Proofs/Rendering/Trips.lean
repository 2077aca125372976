import ChartGrammar.Proofs.Rendering.Refusals
import ChartGrammar.Proofs.Rendering.Findings
import ChartGrammar.Proofs.Rendering.Strictness

/-! What a chart trips over. Apart from the reasons to refuse it, a rendering fails where a row and the chart do not go
together: a writer can make nothing of what comes to its place, a note cannot be filled in, a name to write under is no
key, or a finding would have to show something that is too long to be written. Where a chart trips over a row it is never
rendered. -/

namespace ChartGrammar

/-! ### Refusals of single steps -/

namespace Step

/-- The fault that a step fails with, whatever was written before. Only what has to be told depends on that. -/
def refusal? : Step → Option Fault
  | .write param _ _ => if param.isKey then none else some (.misuse .unhashable)
  | .report _ => none
  | .carried _ _ into => if into.isKey then none else some (.misuse .unhashable)
  | .fail fault => some fault

variable {fault : Fault}

theorem refusal?_write_eq_some_iff {param value : Value} {origin : Origin} :
    (write param value origin).refusal? = some fault ↔ param.isKey = false ∧ .misuse .unhashable = fault := by
  rw [refusal?]
  cases param.isKey <;> simp

theorem refusal?_carried_eq_some_iff {role : Role} {column : String} {into : Value} :
    (carried role column into).refusal? = some fault ↔ into.isKey = false ∧ .misuse .unhashable = fault := by
  rw [refusal?]
  cases into.isKey <;> simp

end Step

namespace Document

variable {grammar : String} {strict : Bool} {d e : Document} {s : Step} {steps : List Step} {fault : Fault}

theorem step_of_refusal? (h : s.refusal? = some fault) : d.step grammar strict s = .error fault := by
  cases s with
  | write param value origin =>
      obtain ⟨hkeyless, rfl⟩ := Step.refusal?_write_eq_some_iff.mp h
      rw [step, write, hkeyless]
      rfl
  | report finding => cases h
  | carried role column into =>
      obtain ⟨hkeyless, rfl⟩ := Step.refusal?_carried_eq_some_iff.mp h
      rw [step, hkeyless]
      rfl
  | fail fault' =>
      cases h
      rfl

/-- A step that has to tell of something too long to be written: of a conflict, or of a parameter that does not carry a
column. -/
def Untold (d : Document) : Step → Prop
  | .write param value _ => param.isKey = true ∧ ∃ previous, d.find? param = some previous ∧
      previous.value.same value = false ∧ isTellable param value previous = false
  | .carried _ column into => into.isKey = true ∧ d.carries into column = false ∧ into.legible = false
  | _ => False

theorem step_of_untold (h : d.Untold s) : d.step grammar strict s = .error (.misuse .tooLong) := by
  cases s with
  | write param value origin =>
      obtain ⟨hkey, previous, hfind, hvalue, hlong⟩ := h
      simp only [step, write, hkey, hfind, hvalue, hlong, Bool.not_true, Bool.not_false, Bool.false_eq_true, ↓reduceIte]
  | carried role column into =>
      obtain ⟨hkey, hdropped, hlong⟩ := h
      simp only [step, hkey, hdropped, hlong, Bool.not_true, Bool.not_false, Bool.false_eq_true, ↓reduceIte]
  | report | fail => exact h.elim

/-- A step that fails where conflicts are let pass is refused, or it has to tell of something too long. -/
theorem refusal?_of_step (h : d.step grammar false s = .error fault) :
    s.refusal? = some fault ∨ d.Untold s ∧ fault = .misuse .tooLong := by
  cases s with
  | write param value origin =>
      cases writeCase h with
      | unhashable hkeyless => exact .inl (Step.refusal?_write_eq_some_iff.mpr ⟨hkeyless, rfl⟩)
      | untold hkey hfind hvalue hlong => exact .inr ⟨⟨hkey, _, hfind, hvalue, hlong⟩, rfl⟩
      | refused _ _ _ _ hstrict => cases hstrict
  | report finding => cases h
  | carried role column into =>
      cases carriedCase h with
      | unhashable hkeyless => exact .inl (Step.refusal?_carried_eq_some_iff.mpr ⟨hkeyless, rfl⟩)
      | untold hkey hdropped hlong => exact .inr ⟨⟨hkey, hdropped, hlong⟩, rfl⟩
  | fail fault' =>
      cases h
      exact .inl rfl

/-- Steps that are taken to their end are refused nowhere. -/
theorem not_refused_of_run (h : d.run grammar strict steps = .ok e) : ∀ s ∈ steps, s.refusal? = none := by
  induction steps generalizing d with
  | nil => exact fun s hs => absurd hs List.not_mem_nil
  | cons s steps ih =>
      rw [run_cons] at h
      obtain ⟨next, hstep, hrest⟩ := bind_eq_ok_iff.mp h
      refine List.forall_mem_cons.mpr ⟨?_, ih hrest⟩
      cases hrefusal : s.refusal? with
      | none => rfl
      | some fault =>
          rw [step_of_refusal? hrefusal] at hstep
          cases hstep

end Document

/-! ### What a chart trips over -/

namespace Rendering

/-- A step is reached that has to tell of something too long to be written. -/
def HasUntold (r : Registry) (c : Chart) (grammar : String) (rows : KindRows) : Prop :=
  ∃ done s rest d, steps r c grammar rows = done ++ s :: rest ∧ Document.empty.run grammar false done = .ok d ∧
    d.Untold s

/-- Some part of a chart is more than a row for its kind can take. -/
inductive Trips (r : Registry) (c : Chart) (grammar : String) (rows : KindRows) : Misuse → Prop where
  /-- The writer for a role makes nothing of what is bound to it. -/
  | binding {b : Binding} {m : Misuse} (hb : b ∈ c.bindings) (h : bindingOutcome c rows b = .error m) :
      Trips r c grammar rows m
  /-- The note on a column cannot be filled in. -/
  | note {role : Role} {name : String} {row : RoleRow} {w : ColumnWriter} {params : Entries} {m : Misuse}
      (hbound : c.source? role = some (.column name)) (hrow : rows.role? role = some row) (hw : row.column? = some w)
      (hrun : w.run (.text name) c = .ok params) (hstructural : row.structural = true)
      (h : Template.apply (noteOr row.note "Binding \x7bcolumn!r\x7d restructures the output.") "column" (.text name)
        = .error m) : Trips r c grammar rows m
  /-- The parameter into which a column is folded cannot be one. -/
  | folded {role : Role} {name : String} {row : RoleRow} {w : ColumnWriter}
      (hbound : c.source? role = some (.column name)) (hrow : rows.role? role = some row) (hw : row.column? = some w)
      (hnone : w.run (.text name) c = .ok []) (h : row.consumedInto.isKey = false) :
      Trips r c grammar rows .unhashable
  /-- Nothing is written for a literal, and it is too long for that to be told. -/
  | literal {role : Role} {v : Value} {row : RoleRow} {w : StyleWriter} (hbound : c.source? role = some (.literal v))
      (hrow : rows.role? role = some row) (hw : row.literal? = some w) (hrun : w.run v = .ok [])
      (h : v.legible = false) : Trips r c grammar rows .tooLong
  /-- The writer or the arranger for a style key makes nothing of its value. -/
  | style {e : StyleKey × Value} {m : Misuse} (he : e ∈ c.styles) (h : styleOutcome c rows e = .error m) :
      Trips r c grammar rows m
  /-- The note on the facet cannot be filled in. -/
  | facetNote {name : String} {row : FacetRow} {m : Misuse} (hfacet : c.facet? = some name)
      (hrow : rows.facet? = some row) (hstructural : row.structural = true)
      (h : Template.apply (noteOr row.note "Faceting by \x7bcolumn!r\x7d restructures the output.") "column"
        (.text name) = .error m) : Trips r c grammar rows m
  /-- A parameter is written under something that cannot be a name. -/
  | name {w : Parameter} (hw : w ∈ writes c rows) (h : w.name.isKey = false) : Trips r c grammar rows .unhashable
  /-- A conflict, or a column that is not carried, cannot be told of. -/
  | untold (h : HasUntold r c grammar rows) : Trips r c grammar rows .tooLong

variable {r : Registry} {c : Chart} {grammar : String} {rows : KindRows} {fault : Fault} {m : Misuse}

/-- The steps that a rendering consists of. -/
inductive Accounted (r : Registry) (c : Chart) (grammar : String) (rows : KindRows) : Step → Prop where
  | write {w : Parameter} (hw : w ∈ writes c rows) : Accounted r c grammar rows (.write w.name w.value w.origin)
  | report (f : Diagnostic) : Accounted r c grammar rows (.report f)
  /-- A column for which nothing is written is checked on where its row folds it. -/
  | carried {role : Role} {name : String} {row : RoleRow} {w : ColumnWriter}
      (hbound : c.source? role = some (.column name)) (hrow : rows.role? role = some row) (hw : row.column? = some w)
      (hnone : w.run (.text name) c = .ok []) : Accounted r c grammar rows (.carried role name row.consumedInto)
  | unsupported (b : Binding) :
      Accounted r c grammar rows (.fail (.rendering (.unsupportedBinding grammar c.kind b.role b.source)))
  | unfaceted (h : rows.facet? = none) :
      Accounted r c grammar rows (.fail (.rendering (.facetNotSupported grammar c.kind)))
  | misuse {m : Misuse} (h : Trips r c grammar rows m) : Accounted r c grammar rows (.fail (.misuse m))

/-- The fault is a reason to refuse the rendering, or what the chart trips over. -/
def Blames (r : Registry) (c : Chart) (grammar : String) (rows : KindRows) (fault : Fault) : Prop :=
  (∃ reason, fault = .rendering reason) ∨ ∃ m, fault = .misuse m ∧ Trips r c grammar rows m

/-- What a step is refused for is to blame on the rows. -/
theorem Accounted.blames {s : Step} (h : Accounted r c grammar rows s) (hrefusal : s.refusal? = some fault) :
    Blames r c grammar rows fault := by
  cases h with
  | write hw =>
      obtain ⟨hkeyless, rfl⟩ := Step.refusal?_write_eq_some_iff.mp hrefusal
      exact .inr ⟨_, rfl, .name hw hkeyless⟩
  | report f => cases hrefusal
  | carried hbound hrow hw hnone =>
      obtain ⟨hkeyless, rfl⟩ := Step.refusal?_carried_eq_some_iff.mp hrefusal
      exact .inr ⟨_, rfl, .folded hbound hrow hw hnone hkeyless⟩
  | unsupported | unfaceted =>
      cases hrefusal
      exact .inl ⟨_, rfl⟩
  | misuse h =>
      cases hrefusal
      exact .inr ⟨_, rfl, h⟩

/-- Each of the steps is one that a rendering consists of. -/
def AllAccounted (r : Registry) (c : Chart) (grammar : String) (rows : KindRows) (steps : List Step) : Prop :=
  ∀ s ∈ steps, Accounted r c grammar rows s

namespace AllAccounted

theorem nil : AllAccounted r c grammar rows [] :=
  fun _ hs => absurd hs List.not_mem_nil

theorem single {s : Step} (h : Accounted r c grammar rows s) : AllAccounted r c grammar rows [s] :=
  List.forall_mem_singleton.mpr h

theorem report (f : Diagnostic) : AllAccounted r c grammar rows [.report f] :=
  single (.report f)

theorem reports (findings : List Diagnostic) : AllAccounted r c grammar rows (findings.map .report) := by
  intro s hs
  obtain ⟨f, -, rfl⟩ := List.mem_map.mp hs
  exact .report f

theorem ofWrites {params : Entries} {origin : Origin} (h : ∀ w ∈ params.writes origin, w ∈ writes c rows) :
    AllAccounted r c grammar rows (Step.writes params origin) := by
  intro s hs
  obtain ⟨e, he, rfl⟩ := List.mem_map.mp hs
  exact .write (h ⟨e.1, e.2, origin⟩ (List.mem_map.mpr ⟨e, he, rfl⟩))

theorem append {first second : List Step} (hfirst : AllAccounted r c grammar rows first)
    (hsecond : AllAccounted r c grammar rows second) : AllAccounted r c grammar rows (first ++ second) :=
  List.forall_mem_append.mpr ⟨hfirst, hsecond⟩

theorem flatMap {α : Type} {steps : α → List Step} {items : List α}
    (h : ∀ a ∈ items, AllAccounted r c grammar rows (steps a)) :
    AllAccounted r c grammar rows (items.flatMap steps) := by
  intro s hs
  obtain ⟨a, ha, hs⟩ := List.mem_flatMap.mp hs
  exact h a ha s hs

theorem attempt {α : Type} {outcome : Except Misuse α} {steps : α → List Step}
    (herror : ∀ m, outcome = .error m → Trips r c grammar rows m)
    (hok : ∀ a, outcome = .ok a → AllAccounted r c grammar rows (steps a)) :
    AllAccounted r c grammar rows (Rendering.attempt outcome steps) := by
  cases houtcome : outcome with
  | ok a => exact hok a houtcome
  | error m => exact single (.misuse (herror m houtcome))

end AllAccounted

/-! ### The steps of a rendering -/

theorem written_of_ok {outcome : Except Misuse Entries} {params : Entries} {origin : Origin} (h : outcome = .ok params) :
    written outcome origin = params.writes origin := by
  rw [h, written]

theorem accounted_kindSteps : AllAccounted r c grammar rows (kindSteps c grammar rows) := by
  refine (AllAccounted.ofWrites fun w hw => ?_).append ?_
  · simp only [writes, List.mem_append]
    exact .inl (.inl (.inl hw))
  · split
    · exact .report _
    · exact .nil

theorem accounted_bindingSteps {b : Binding} (hb : b ∈ c.bindings) :
    AllAccounted r c grammar rows (bindingSteps c grammar rows b) := by
  have hwrites {params : Entries} (h : bindingOutcome c rows b = .ok params) :
      AllAccounted r c grammar rows (Step.writes params (.role b.role)) := by
    refine .ofWrites fun w hw => ?_
    rw [← written_of_ok h] at hw
    simp only [writes, List.mem_append]
    exact .inl (.inl (.inr (List.mem_flatMap.mpr ⟨b, hb, hw⟩)))
  cases bindingCase c grammar rows b with
  | refused hsteps =>
      rw [hsteps]
      exact .single (.unsupported b)
  | @column row w name hrow hw hsource hsteps houtcome =>
      rw [hsteps]
      refine .attempt (fun m hm => .binding hb (houtcome.trans hm)) fun params hparams => ?_
      refine (hwrites (houtcome.trans hparams)).append ?_
      split
      · next hstructural =>
          have hbound : c.source? b.role = some (.column name) := hsource ▸ Chart.mem_bindings.mp hb
          exact .attempt (fun m hm => .note hbound hrow hw hparams hstructural hm) fun _ _ => .report _
      · exact .nil
  | @literal row w v hrow hw hsource hsteps houtcome =>
      rw [hsteps]
      refine .attempt (fun m hm => .binding hb (houtcome.trans hm)) fun params hparams => ?_
      dsimp only
      split
      · next hempty =>
          rw [List.isEmpty_iff.mp hempty] at hparams
          have hbound : c.source? b.role = some (.literal v) := hsource ▸ Chart.mem_bindings.mp hb
          refine .attempt (fun m hm => ?_) fun _ _ => .report _
          obtain ⟨s, hok⟩ | ⟨hlong, herror⟩ := v.yields_write
          · cases hok.symm.trans hm
          · cases herror.symm.trans hm
            exact .literal hbound hrow hw hparams hlong
      · exact hwrites (houtcome.trans hparams)

theorem accounted_carriedSteps {b : Binding} (hb : b ∈ c.bindings) :
    AllAccounted r c grammar rows (carriedSteps c rows b) := by
  obtain ⟨role, source⟩ := b
  unfold carriedSteps
  split
  · next row name hrow hsource =>
      cases hsource
      split
      · exact .nil
      · next w hw _ =>
          split
          · next hnone => exact .single (.carried (Chart.mem_bindings.mp hb) hrow hw hnone)
          · exact .nil
      · exact .nil
  · exact .nil

theorem accounted_styleSteps {e : StyleKey × Value} (he : e ∈ c.styles) :
    AllAccounted r c grammar rows (styleSteps r c grammar rows e) := by
  have hwrites {params : Entries} (h : styleOutcome c rows e = .ok params) :
      ∀ w ∈ params.writes (.style e.1), w ∈ writes c rows := by
    intro w hw
    rw [← written_of_ok h] at hw
    simp only [writes, List.mem_append]
    exact .inl (.inr (List.mem_flatMap.mpr ⟨e, he, hw⟩))
  unfold styleSteps
  cases hrow : rows.style? e.1 with
  | none => exact .report _
  | some row =>
      have houtcome : styleOutcome c rows e = row.realization.outcome c e.2 := by rw [styleOutcome, hrow]
      refine AllAccounted.append ?_ ?_
      · unfold styleRowSteps
        cases hrealization : row.realization with
        | arranged arranger =>
            rw [hrealization, Realization.outcome] at houtcome
            refine AllAccounted.attempt (fun m hm => .style he ?_) fun arrangement harranged => ?_
            · rw [houtcome, hm]
              rfl
            · refine (AllAccounted.ofWrites (hwrites ?_)).append (.report _)
              rw [houtcome, harranged]
              rfl
        | written w =>
            rw [hrealization, Realization.outcome] at houtcome
            refine AllAccounted.attempt (fun m hm => .style he (houtcome.trans hm)) fun params hparams => ?_
            dsimp only
            split
            · exact .report _
            · exact .ofWrites (hwrites (houtcome.trans hparams))
      · cases row.cropping with
        | none => exact .nil
        | some cropping =>
            dsimp only [croppingSteps]
            split
            · exact .nil
            · exact .report _

theorem accounted_facetSteps : AllAccounted r c grammar rows (facetSteps c grammar rows) := by
  unfold facetSteps
  cases hfacet : c.facet? with
  | none => exact .nil
  | some name =>
      cases hrow : rows.facet? with
      | none => exact .single (.unfaceted hrow)
      | some row =>
          refine (AllAccounted.ofWrites fun w hw => ?_).append ?_
          · simp only [writes, facetWrites, hfacet, hrow, List.mem_append]
            exact .inr hw
          · split
            · next hstructural => exact .attempt (fun m hm => .facetNote hfacet hrow hstructural hm) fun _ _ => .report _
            · exact .nil

/-- These are all the steps of a rendering. -/
theorem accounted_steps : AllAccounted r c grammar rows (steps r c grammar rows) := by
  have hbindings : AllAccounted r c grammar rows (c.bindings.flatMap (bindingSteps c grammar rows)) :=
    .flatMap fun _ hb => accounted_bindingSteps hb
  have hcarried : AllAccounted r c grammar rows (c.bindings.flatMap (carriedSteps c rows)) :=
    .flatMap fun _ hb => accounted_carriedSteps hb
  have hstyles : AllAccounted r c grammar rows (c.styles.flatMap (styleSteps r c grammar rows)) :=
    .flatMap fun _ he => accounted_styleSteps he
  exact ((((accounted_kindSteps.append hbindings).append hcarried).append hstyles).append accounted_facetSteps).append
    (.reports _)

/-! ### Where a chart trips, it is not rendered -/

theorem fail_mem_attempt {α : Type} {outcome : Except Misuse α} {next : α → List Step} (h : outcome = .error m) :
    .fail (.misuse m) ∈ attempt outcome next := by
  rw [h]
  exact List.mem_cons_self

theorem fail_mem_bindingSteps {b : Binding} (h : bindingOutcome c rows b = .error m) :
    .fail (.misuse m) ∈ bindingSteps c grammar rows b := by
  cases bindingCase c grammar rows b with
  | refused _ houtcome => cases houtcome.symm.trans h
  | column _ _ _ hsteps houtcome =>
      rw [hsteps]
      exact fail_mem_attempt (houtcome.symm.trans h)
  | literal _ _ _ hsteps houtcome =>
      rw [hsteps]
      exact fail_mem_attempt (houtcome.symm.trans h)

theorem fail_mem_styleSteps {e : StyleKey × Value} (h : styleOutcome c rows e = .error m) :
    .fail (.misuse m) ∈ styleSteps r c grammar rows e := by
  unfold styleOutcome at h
  unfold styleSteps
  cases hrow : rows.style? e.1 with
  | none =>
      simp only [hrow] at h
      cases h
  | some row =>
      simp only [hrow] at h
      refine List.mem_append_left _ ?_
      unfold styleRowSteps
      cases hrealization : row.realization with
      | written w =>
          rw [hrealization] at h
          exact fail_mem_attempt h
      | arranged arranger =>
          rw [hrealization, Realization.outcome] at h
          refine fail_mem_attempt ?_
          cases harranged : arranger.run e.2 c with
          | ok arrangement => rw [harranged] at h; cases h
          | error m' => rw [harranged] at h; cases h; rfl

/-- The steps are refused for whatever the chart trips over, or one of them has to tell of something too long. -/
theorem exists_refused_of_trips (hfindings : ∀ f ∈ c.diagnostics, f.code ≠ .conflict)
    (h : Trips r c grammar rows m) :
    (∃ s ∈ steps r c grammar rows, s.refusal? = some (.misuse m)) ∨ HasUntold r c grammar rows := by
  have hbinding {b : Binding} {s : Step} (hb : b ∈ c.bindings) (hs : s ∈ bindingSteps c grammar rows b) :
      s ∈ steps r c grammar rows := by
    simp only [steps, List.mem_append]
    exact .inl (.inl (.inl (.inl (.inr (List.mem_flatMap.mpr ⟨b, hb, hs⟩)))))
  cases h with
  | binding hb h => exact .inl ⟨_, hbinding hb (fail_mem_bindingSteps h), rfl⟩
  | @note role name row w params _ hbound hrow hw hrun hstructural h =>
      have hb : (⟨role, .column name⟩ : Binding) ∈ c.bindings := Chart.mem_bindings.mpr hbound
      refine .inl ⟨.fail (.misuse m), hbinding hb ?_, rfl⟩
      simp only [bindingSteps, hrow, hw, columnSteps, hrun, hstructural]
      exact List.mem_append_right _ (fail_mem_attempt h)
  | @folded role name row w hbound hrow hw hnone hkey =>
      have hnull : row.consumedInto ≠ .null := fun hnull => by
        rw [hnull] at hkey
        cases hkey
      have hb : (⟨role, .column name⟩ : Binding) ∈ c.bindings := Chart.mem_bindings.mpr hbound
      refine .inl ⟨.carried role name row.consumedInto, ?_, Step.refusal?_carried_eq_some_iff.mpr ⟨hkey, rfl⟩⟩
      simp only [steps, List.mem_append]
      exact .inl (.inl (.inl (.inr (List.mem_flatMap.mpr ⟨_, hb, carried_mem_carriedSteps hrow hw hnone hnull⟩))))
  | @literal role v row w hbound hrow hw hrun hlong =>
      have hb : (⟨role, .literal v⟩ : Binding) ∈ c.bindings := Chart.mem_bindings.mpr hbound
      refine .inl ⟨.fail (.misuse .tooLong), hbinding hb ?_, rfl⟩
      simp only [bindingSteps, hrow, hw, literalSteps, hrun]
      show .fail (.misuse .tooLong) ∈ attempt v.write _
      refine fail_mem_attempt ?_
      rw [Value.write, hlong]
      rfl
  | @style e _ he h =>
      refine .inl ⟨.fail (.misuse m), ?_, rfl⟩
      simp only [steps, List.mem_append]
      exact .inl (.inl (.inr (List.mem_flatMap.mpr ⟨e, he, fail_mem_styleSteps h⟩)))
  | @facetNote name row _ hfacet hrow hstructural h =>
      refine .inl ⟨.fail (.misuse m), ?_, rfl⟩
      simp only [steps, facetSteps, hfacet, hrow, hstructural, List.mem_append]
      exact .inl (.inr (.inr (fail_mem_attempt h)))
  | @name w hw hkey =>
      have hholds : Holds (steps r c grammar rows) (writes c rows) := holds_steps hfindings
      rw [← hholds.writes] at hw
      obtain ⟨s, hs, hwrite⟩ := List.mem_filterMap.mp hw
      refine .inl ⟨s, hs, ?_⟩
      cases s with
      | write param value origin =>
          cases hwrite
          exact Step.refusal?_write_eq_some_iff.mpr ⟨hkey, rfl⟩
      | report | carried | fail => cases hwrite
  | untold h => exact .inr h

/-! ### The outcome of the steps -/

variable {strict : Bool}

/-- Where the steps fail, one of them is refused, or has to tell of something too long, or there is a conflict. -/
theorem exists_refused_of_run (h : Document.empty.run grammar strict (steps r c grammar rows) = .error fault) :
    (∃ s, Accounted r c grammar rows s ∧ s.refusal? = some fault) ∨
      HasUntold r c grammar rows ∧ fault = .misuse .tooLong ∨ fault.IsConflict := by
  have hlenient (h : Document.empty.run grammar false (steps r c grammar rows) = .error fault) :
      (∃ s, Accounted r c grammar rows s ∧ s.refusal? = some fault) ∨
        HasUntold r c grammar rows ∧ fault = .misuse .tooLong := by
    obtain ⟨done, s, rest, d, hsplit, hdone, hstep⟩ := foldlM_eq_error_iff.mp h
    obtain hrefusal | ⟨huntold, hfault⟩ := Document.refusal?_of_step hstep
    · refine .inl ⟨s, accounted_steps s ?_, hrefusal⟩
      rw [hsplit]
      exact List.mem_append_right _ List.mem_cons_self
    · exact .inr ⟨⟨done, s, rest, d, hsplit, hdone, huntold⟩, hfault⟩
  cases strict with
  | false => exact (hlenient h).imp_right .inl
  | true =>
      rw [Document.run_true] at h
      split at h
      · cases h
        exact .inr (.inr trivial)
      · exact (hlenient h).imp_right .inl

/-- Steps that fail are refused for a reason, or the chart trips over a row. -/
theorem blames_of_run (h : Document.empty.run grammar strict (steps r c grammar rows) = .error fault) :
    Blames r c grammar rows fault := by
  obtain ⟨s, hs, hrefusal⟩ | ⟨huntold, rfl⟩ | hconflict := exists_refused_of_run h
  · exact hs.blames hrefusal
  · exact .inr ⟨.tooLong, rfl, .untold huntold⟩
  · cases fault with
    | rendering reason => exact .inl ⟨reason, rfl⟩
    | _ => exact hconflict.elim

/-- Steps that fail for the facet do so for want of a row for it. -/
theorem facet?_eq_none_of_run {g : String} {kind : Kind} (h : Document.empty.run grammar strict
    (steps r c grammar rows) = .error (.rendering (.facetNotSupported g kind))) : rows.facet? = none := by
  obtain ⟨s, hs, hrefusal⟩ | ⟨-, hmisuse⟩ | hconflict := exists_refused_of_run h
  · cases hs with
    | unfaceted hnone => exact hnone
    | report | unsupported | misuse => cases hrefusal
    | write => cases (Step.refusal?_write_eq_some_iff.mp hrefusal).2
    | carried => cases (Step.refusal?_carried_eq_some_iff.mp hrefusal).2
  · cases hmisuse
  · exact hconflict.elim

/-- A rendering that is misused trips over one of the rows for the chart. -/
theorem trips_of_ofChart (hrows : rowsFor r c grammar = .ok rows) (h : ofChart r c grammar strict = .error (.misuse m)) :
    Trips r c grammar rows m := by
  rw [ofChart_of_rowsFor hrows] at h
  cases hrun : Document.empty.run grammar strict (steps r c grammar rows) with
  | ok d =>
      rw [hrun] at h
      cases h
  | error fault =>
      rw [hrun] at h
      cases h
      obtain ⟨reason, hreason⟩ | ⟨m', hm', htrips⟩ := blames_of_run hrun
      · cases hreason
      · cases hm'
        exact htrips

/-- Where a chart trips over a row, its steps are not taken to their end. -/
theorem run_ne_ok_of_trips (hfindings : ∀ f ∈ c.diagnostics, f.code ≠ .conflict) (htrips : Trips r c grammar rows m)
    {d : Document} : Document.empty.run grammar strict (steps r c grammar rows) ≠ .ok d := by
  intro hrun
  obtain ⟨s, hs, hrefusal⟩ | ⟨done, s, rest, d', hsplit, hdone, huntold⟩ := exists_refused_of_trips hfindings htrips
  · rw [Document.not_refused_of_run hrun s hs] at hrefusal
    cases hrefusal
  -- What the strict steps lead to, the lenient ones lead to as well.
  have hlenient : Document.empty.run grammar false (steps r c grammar rows) = .ok d := by
    cases strict with
    | false => exact hrun
    | true =>
        rw [Document.run_true] at hrun
        split at hrun
        · cases hrun
        · exact hrun
  rw [hsplit, Document.run_append, hdone] at hlenient
  obtain ⟨next, hstep, -⟩ := bind_eq_ok_iff.mp ((Document.run_cons ..).symm.trans hlenient)
  rw [Document.step_of_untold huntold] at hstep
  cases hstep

end Rendering

end ChartGrammar
