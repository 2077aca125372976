import ChartGrammar.Proofs.Rendering.Conflicts

/-! Findings of one sort. A step is silent on a sort of findings if it adds none of them to any document; steps that
are silent leave these findings as they were. Steps that check on columns add the warnings of those that are not
carried, and leave the parameters alone. -/

namespace ChartGrammar

/-- The step adds no finding of the sort. -/
def Step.Silent (p : Diagnostic → Bool) : Step → Prop
  | .write param value origin => ∀ previous, p (Document.conflictWarning param value origin previous) = false
  | .report finding => p finding = false
  | .carried role column into => ∀ grammar, p (Document.droppedWarning grammar role column into) = false
  | .fail _ => True

/-- The step checks on a column. -/
def Step.Checks : Step → Prop
  | .carried .. => True
  | _ => False

namespace Document

variable {p : Diagnostic → Bool} {grammar : String} {strict : Bool} {d e : Document} {steps : List Step}

theorem filter_report {finding : Diagnostic} (h : p finding = false) :
    (d.report finding).findings.filter p = d.findings.filter p := by
  show (d.findings ++ [finding]).filter p = _
  rw [List.filter_append, List.filter_singleton, h]
  exact List.append_nil _

theorem filter_step {s : Step} (hsilent : s.Silent p) (htaken : d.step grammar strict s = .ok e) :
    e.findings.filter p = d.findings.filter p := by
  cases s with
  | write param value origin =>
      cases writeCase htaken with
      | new | repeated => rfl
      | override => exact filter_report (hsilent _)
  | report finding =>
      cases htaken
      exact filter_report hsilent
  | carried role column into =>
      cases carriedCase htaken with
      | found => rfl
      | dropped => exact filter_report (hsilent grammar)
  | fail fault => cases htaken

theorem filter_run (hsilent : ∀ s ∈ steps, s.Silent p) (htaken : d.run grammar strict steps = .ok e) :
    e.findings.filter p = d.findings.filter p := by
  induction steps generalizing d with
  | nil =>
      cases htaken
      rfl
  | cons s steps ih =>
      rw [List.forall_mem_cons] at hsilent
      rw [run_cons] at htaken
      obtain ⟨next, hstep, hrest⟩ := bind_eq_ok_iff.mp htaken
      rw [ih hsilent.2 hrest, filter_step hsilent.1 hstep]

/-- The warning of a step that checks on a column, if the column is not carried. -/
def dropped? (grammar : String) (d : Document) : Step → Option Diagnostic
  | .carried role column into =>
    if d.carries into column then none else some (droppedWarning grammar role column into)
  | _ => none

/-- Steps that check on columns warn of those that the document does not carry, and do nothing else. -/
theorem run_of_checks (hchecks : ∀ s ∈ steps, s.Checks) (htaken : d.run grammar strict steps = .ok e) :
    e.parameters = d.parameters ∧ e.findings = d.findings ++ steps.filterMap (dropped? grammar d) := by
  induction steps generalizing d with
  | nil =>
      cases htaken
      exact ⟨rfl, (List.append_nil _).symm⟩
  | cons s steps ih =>
      rw [List.forall_mem_cons] at hchecks
      rw [run_cons] at htaken
      obtain ⟨next, hstep, hrest⟩ := bind_eq_ok_iff.mp htaken
      obtain ⟨hparameters, hfindings⟩ := ih hchecks.2 hrest
      cases s with
      | carried role column into =>
          rw [List.filterMap_cons, dropped?]
          cases carriedCase hstep with
          | found _ hcarried =>
              rw [hcarried]
              exact ⟨hparameters, hfindings⟩
          | dropped _ hdropped =>
              -- The warning leaves the parameters as they are, so the rest is carried or not as before.
              have hsame : dropped? grammar (d.report (droppedWarning grammar role column into)) =
                  dropped? grammar d := rfl
              rw [hsame] at hfindings
              rw [hdropped, hfindings]
              exact ⟨hparameters, List.append_assoc _ _ _⟩
      | write | report | fail => exact hchecks.1.elim

end Document

/-! ### The steps of a rendering -/

/-- The finding tells that what is bound to the role is not expressed. -/
def Diagnostic.unsupportedAt (r : Role) (f : Diagnostic) : Bool :=
  f.code == .unsupported && f.key.same (.text r.name)

namespace Rendering

open Document

variable {p : Diagnostic → Bool} {r : Role} {c : Chart} {rows : KindRows} {grammar : String} {registry : Registry}
  {s : Schema}

theorem not_unsupportedAt_of_code {f : Diagnostic} (h : f.code ≠ .unsupported) : f.unsupportedAt r = false := by
  rw [Diagnostic.unsupportedAt, beq_false_of_ne h, Bool.false_and]

theorem not_unsupportedAt_of_key {f : Diagnostic} {name : String} (hkey : f.key = .text name) (h : name ≠ r.name) :
    f.unsupportedAt r = false := by
  rw [Diagnostic.unsupportedAt, hkey, Bool.and_eq_false_iff, ← Bool.not_eq_true (Value.same _ _),
    Value.same_text_iff, Value.text.injEq]
  exact .inr fun heq => h heq.symm

theorem unsupportedAt_droppedWarning (grammar : String) (r : Role) (column : String) (into : Value) :
    (droppedWarning grammar r column into).unsupportedAt r = true := by
  rw [Diagnostic.unsupportedAt, Bool.and_eq_true]
  exact ⟨rfl, Value.same_text_iff.mpr rfl⟩

/-- None of the steps adds a finding of the sort. -/
def SilentOn (p : Diagnostic → Bool) (steps : List Step) : Prop :=
  ∀ s ∈ steps, s.Silent p

/-- Steps that are silent on a sort report nothing of it. -/
theorem SilentOn.not_report {steps : List Step} (h : SilentOn p steps) {f : Diagnostic} (hf : p f = true) :
    .report f ∉ steps :=
  fun hmem => absurd hf (Bool.eq_false_iff.mp (h _ hmem))

theorem SilentOn.nil : SilentOn p [] :=
  fun _ hs => absurd hs List.not_mem_nil

theorem SilentOn.fail (fault : Fault) : SilentOn p [.fail fault] :=
  List.forall_mem_singleton.mpr trivial

theorem SilentOn.report {f : Diagnostic} (h : p f = false) : SilentOn p [.report f] :=
  List.forall_mem_singleton.mpr h

theorem SilentOn.reports {findings : List Diagnostic} (h : ∀ f ∈ findings, p f = false) :
    SilentOn p (findings.map .report) := by
  intro s hs
  obtain ⟨f, hf, rfl⟩ := List.mem_map.mp hs
  exact h f hf

theorem SilentOn.append {first second : List Step} (hfirst : SilentOn p first) (hsecond : SilentOn p second) :
    SilentOn p (first ++ second) :=
  List.forall_mem_append.mpr ⟨hfirst, hsecond⟩

theorem SilentOn.flatMap {α : Type} {steps : α → List Step} {items : List α}
    (h : ∀ a ∈ items, SilentOn p (steps a)) : SilentOn p (items.flatMap steps) := by
  intro s hs
  obtain ⟨a, ha, hs⟩ := List.mem_flatMap.mp hs
  exact h a ha s hs

theorem SilentOn.attempt {α : Type} {outcome : Except Misuse α} {steps : α → List Step}
    (h : ∀ a, SilentOn p (steps a)) : SilentOn p (Rendering.attempt outcome steps) := by
  cases outcome with
  | ok a => exact h a
  | error m => exact .fail _

theorem silent_explainColumn {key : String} (h : ∀ message, p (finding .info .explained message key) = false)
    (note : Value) (text column : String) : SilentOn p (explainColumn note text column key) :=
  .attempt fun _ => .report (h _)

theorem checks_carriedSteps (b : Binding) : ∀ s ∈ carriedSteps c rows b, s.Checks := by
  unfold carriedSteps
  repeat' split
  all_goals first | exact List.forall_mem_singleton.mpr trivial | exact fun _ hs => absurd hs List.not_mem_nil

theorem silent_carriedSteps (h : ∀ grammar role column into, p (droppedWarning grammar role column into) = false)
    (b : Binding) : SilentOn p (carriedSteps c rows b) := by
  intro s hs
  cases s with
  | carried role column into => exact fun grammar => h grammar role column into
  | write | report | fail => exact (checks_carriedSteps b _ hs).elim

section

/-! Conflicts are of another sort here. -/

variable (hconflict : ∀ f : Diagnostic, f.code = .conflict → p f = false)

include hconflict

theorem SilentOn.writes (params : Entries) (origin : Origin) : SilentOn p (Step.writes params origin) := by
  intro s hs
  obtain ⟨e, -, rfl⟩ := List.mem_map.mp hs
  exact fun previous => hconflict _ rfl

theorem silent_kindSteps (hkind : ∀ message, p (finding .info .explained message Origin.kind.name) = false) :
    SilentOn p (kindSteps c grammar rows) := by
  refine (SilentOn.writes hconflict _ _).append ?_
  split
  · exact .report (hkind _)
  · exact .nil

theorem silent_bindingSteps {b : Binding}
    (hcolumn : ∀ message, p (finding .info .explained message b.role.name) = false)
    (hliteral : ∀ v, b.source = .literal v → ∀ message, p (finding .warning .unsupported message b.role.name) = false) :
    SilentOn p (bindingSteps c grammar rows b) := by
  cases bindingCase c grammar rows b with
  | refused hsteps =>
      rw [hsteps]
      exact .fail _
  | column _ _ _ hsteps =>
      rw [hsteps]
      refine .attempt fun params => (SilentOn.writes hconflict _ _).append ?_
      split
      · exact silent_explainColumn hcolumn _ _ _
      · exact .nil
  | literal _ _ hsource hsteps =>
      rw [hsteps]
      refine .attempt fun params => ?_
      split
      · exact .attempt fun _ => .report (hliteral _ hsource _)
      · exact .writes hconflict _ _

/-- Whatever is found of a style key, it is not about the number of panels. -/
theorem silent_styleSteps {e : StyleKey × Value}
    (h : ∀ severity code message, code ≠ .facetCardinality → p (finding severity code message e.1.name) = false) :
    SilentOn p (styleSteps registry c grammar rows e) := by
  unfold styleSteps
  cases rows.style? e.1 with
  | none => exact .report (h _ _ _ nofun)
  | some row =>
      refine SilentOn.append ?_ ?_
      · unfold styleRowSteps
        cases row.realization with
        | arranged arranger =>
            exact .attempt fun _ => (SilentOn.writes hconflict _ _).append (.report (h _ _ _ nofun))
        | written w =>
            refine .attempt fun params => ?_
            split
            · exact .report (h _ _ _ nofun)
            · exact .writes hconflict _ _
      · cases row.cropping with
        | none => exact .nil
        | some cropping =>
            dsimp only [croppingSteps]
            split
            · exact .nil
            · exact .report (h _ _ _ nofun)

theorem silent_facetSteps (hfacet : ∀ message, p (finding .info .explained message Origin.facet.name) = false) :
    SilentOn p (facetSteps c grammar rows) := by
  unfold facetSteps
  cases c.facet? with
  | none => exact .nil
  | some name =>
      cases rows.facet? with
      | none => exact .fail _
      | some row =>
          refine (SilentOn.writes hconflict _ _).append ?_
          split
          · exact silent_explainColumn hfacet _ _ _
          · exact .nil

end

/-- The steps up to where columns are checked on. -/
def openingSteps (c : Chart) (grammar : String) (rows : KindRows) : List Step :=
  kindSteps c grammar rows ++ c.bindings.flatMap (bindingSteps c grammar rows)

/-- After the columns are checked on, nothing more is found of what is bound to a role that shares its name with no style
key. -/
theorem silent_afterChecks (hnames : ∀ k : StyleKey, k.name ≠ r.name)
    (hdiagnostics : ∀ f ∈ c.diagnostics, f.code ≠ .unsupported) :
    SilentOn (Diagnostic.unsupportedAt r) (c.styles.flatMap (styleSteps registry c grammar rows)
      ++ facetSteps c grammar rows ++ c.diagnostics.map .report) := by
  have hconflict (f : Diagnostic) (h : f.code = .conflict) : f.unsupportedAt r = false :=
    not_unsupportedAt_of_code (by rw [h]; decide)
  have hfacet (message : Value) : (finding .info .explained message Origin.facet.name).unsupportedAt r = false :=
    not_unsupportedAt_of_code (show Code.explained ≠ .unsupported by decide)
  refine (SilentOn.append ?_ (silent_facetSteps hconflict hfacet)).append (.reports fun f hf => ?_)
  · refine SilentOn.flatMap fun e _ => silent_styleSteps hconflict fun _ _ _ _ => ?_
    exact not_unsupportedAt_of_key rfl (hnames e.1)
  · exact not_unsupportedAt_of_code (hdiagnostics f hf)

/-- A rendering that is completed has warned, after its opening steps, of each column that is not carried by then. -/
theorem exists_opening_of_run {strict : Bool} {e : Document}
    (hrun : Document.empty.run grammar strict (steps registry c grammar rows) = .ok e) :
    ∃ d checked : Document, Document.empty.run grammar strict (openingSteps c grammar rows) = .ok d ∧
      checked.findings = d.findings ++ (c.bindings.flatMap (carriedSteps c rows)).filterMap (dropped? grammar d) ∧
      checked.run grammar strict (c.styles.flatMap (styleSteps registry c grammar rows) ++ facetSteps c grammar rows
        ++ c.diagnostics.map .report) = .ok e := by
  have hsteps : steps registry c grammar rows = openingSteps c grammar rows ++ c.bindings.flatMap (carriedSteps c rows)
      ++ (c.styles.flatMap (styleSteps registry c grammar rows) ++ facetSteps c grammar rows
        ++ c.diagnostics.map .report) := by
    simp only [steps, openingSteps, List.append_assoc]
  rw [hsteps, run_append, run_append] at hrun
  obtain ⟨checked, hrun, hrest⟩ := bind_eq_ok_iff.mp hrun
  obtain ⟨d, hopening, hchecked⟩ := bind_eq_ok_iff.mp hrun
  have hchecks : ∀ s ∈ c.bindings.flatMap (carriedSteps c rows), s.Checks := by
    intro s hs
    obtain ⟨b, -, hs⟩ := List.mem_flatMap.mp hs
    exact checks_carriedSteps b s hs
  exact ⟨d, checked, hopening, (run_of_checks hchecks hchecked).2, hrest⟩

theorem exists_dropped_iff {d : Document} {steps : List Step} :
    (∃ f ∈ steps.filterMap (dropped? grammar d), f.unsupportedAt r = true) ↔
      ∃ column into, Step.carried r column into ∈ steps ∧ d.carries into column = false := by
  constructor
  · rintro ⟨f, hf, hat⟩
    obtain ⟨step, hstep, hdropped⟩ := List.mem_filterMap.mp hf
    cases step with
    | carried role column into =>
        rw [dropped?] at hdropped
        split at hdropped
        · cases hdropped
        · next hcarried =>
            cases hdropped
            -- The warning is keyed by the name of its role, and no other role has that name.
            have hrole : role = r := by
              by_contra hne
              rw [not_unsupportedAt_of_key rfl fun hname => hne (Vocabulary.name_injective hname)] at hat
              cases hat
            subst hrole
            exact ⟨column, into, hstep, Bool.eq_false_iff.mpr hcarried⟩
    | write | report | fail => cases hdropped
  · rintro ⟨column, into, hstep, hcarried⟩
    refine ⟨droppedWarning grammar r column into, List.mem_filterMap.mpr ⟨_, hstep, ?_⟩,
      unsupportedAt_droppedWarning ..⟩
    rw [dropped?, hcarried]
    rfl

/-- Where a role takes columns only and shares its name with no style key, what is bound to it is found not to be
expressed exactly if a check on its column fails after all bindings are written. -/
theorem exists_unsupportedAt_iff (hcolumns : ∀ source, c.source? r = some source → ∃ name, source = .column name)
    (hnames : ∀ k : StyleKey, k.name ≠ r.name) (hdiagnostics : ∀ f ∈ c.diagnostics, f.code ≠ .unsupported)
    {e : Document} (hrun : Document.empty.run grammar false (steps registry c grammar rows) = .ok e) :
    ∃ d, Document.empty.run grammar false (openingSteps c grammar rows) = .ok d ∧
      ((∃ f ∈ e.findings, f.unsupportedAt r = true) ↔ ∃ column into,
        Step.carried r column into ∈ c.bindings.flatMap (carriedSteps c rows) ∧ d.carries into column = false) := by
  obtain ⟨d, checked, hopening, hfindings, hrest⟩ := exists_opening_of_run hrun
  have hcode {f : Diagnostic} (h : f.code ≠ .unsupported) : f.unsupportedAt r = false := not_unsupportedAt_of_code h
  have hconflict (f : Diagnostic) (h : f.code = .conflict) : f.unsupportedAt r = false := hcode (by rw [h]; decide)
  have hexplained (key : String) (message : Value) : (finding .info .explained message key).unsupportedAt r = false :=
    hcode (show Code.explained ≠ .unsupported by decide)
  have hbefore : SilentOn (Diagnostic.unsupportedAt r) (openingSteps c grammar rows) := by
    refine (silent_kindSteps hconflict (hexplained _)).append (SilentOn.flatMap fun b hb => ?_)
    refine silent_bindingSteps hconflict (hexplained _) fun v hv message => not_unsupportedAt_of_key rfl fun hname => ?_
    -- A literal at the role itself is ruled out.
    have hrole : b.role = r := Vocabulary.name_injective hname
    obtain ⟨name, hcolumn⟩ := hcolumns b.source (hrole ▸ Chart.mem_bindings.mp hb)
    rw [hv] at hcolumn
    cases hcolumn
  have hafter : SilentOn (Diagnostic.unsupportedAt r) (c.styles.flatMap (styleSteps registry c grammar rows)
      ++ facetSteps c grammar rows ++ c.diagnostics.map .report) := silent_afterChecks hnames hdiagnostics
  have hnone : d.findings.filter (Diagnostic.unsupportedAt r) = [] := filter_run hbefore hopening
  have hfilter : e.findings.filter (Diagnostic.unsupportedAt r) =
      ((c.bindings.flatMap (carriedSteps c rows)).filterMap (dropped? grammar d)).filter
        (Diagnostic.unsupportedAt r) := by
    rw [filter_run hafter hrest, hfindings, List.filter_append, hnone, List.nil_append]
  -- What the checks warn of is all that is found of this sort: the steps around them are silent on it.
  refine ⟨d, hopening, ?_⟩
  rw [← exists_dropped_iff]
  refine exists_congr fun f => ?_
  rw [← List.mem_filter, hfilter, List.mem_filter]

theorem of_mem_carriedSteps {b : Binding} {column : String} {into : Value}
    (h : Step.carried r column into ∈ carriedSteps c rows b) :
    b = ⟨r, .column column⟩ ∧ into ≠ .null ∧ ∃ row, rows.role? r = some row ∧ row.consumedInto = into := by
  obtain ⟨role, source⟩ := b
  unfold carriedSteps at h
  split at h
  · next row name hrow hsource =>
      split at h
      · exact absurd h List.not_mem_nil
      · next hnull =>
          split at h
          · cases List.mem_singleton.mp h
            cases hsource
            exact ⟨rfl, hnull, row, hrow, rfl⟩
          · exact absurd h List.not_mem_nil
      · exact absurd h List.not_mem_nil
  · exact absurd h List.not_mem_nil

/-- A column for which nothing is written is checked on, if its row folds it into some parameter. -/
theorem carried_mem_carriedSteps {row : RoleRow} {w : ColumnWriter} {name : String} (hrow : rows.role? r = some row)
    (hw : row.column? = some w) (hnone : w.run (.text name) c = .ok []) (hnull : row.consumedInto ≠ .null) :
    .carried r name row.consumedInto ∈ carriedSteps c rows ⟨r, .column name⟩ := by
  simp only [carriedSteps, hrow]
  split
  · next hinto => exact absurd hinto hnull
  · next w' hw' _ =>
      rw [hw] at hw'
      cases hw'
      simp only [hnone]
      exact List.mem_singleton_self _
  · next hw' _ =>
      rw [hw] at hw'
      cases hw'

/-- What the kind and the bindings of a chart write. -/
def openingWrites (c : Chart) (rows : KindRows) : List Parameter :=
  kindWrites c rows ++ c.bindings.flatMap (bindingWrites c rows)

theorem records_openingSteps (hregular : ∀ w ∈ writes c rows, w.Regular) {d : Document}
    (hrun : Document.empty.run grammar false (openingSteps c grammar rows) = .ok d) :
    Records (openingWrites c rows) d := by
  have hholds : Holds (openingSteps c grammar rows) (openingWrites c rows) :=
    holds_kindSteps.append (Holds.flatMap _ holds_bindingSteps)
  have hopening : ∀ w ∈ (openingSteps c grammar rows).filterMap Step.write?, w.Regular := by
    intro w hw
    rw [hholds.writes] at hw
    exact hregular w (List.mem_append_left _ (List.mem_append_left _ hw))
  have hrecords := records_run records_empty hholds.quiet hopening hrun
  rwa [List.nil_append, hholds.writes] at hrecords

end Rendering

end ChartGrammar
