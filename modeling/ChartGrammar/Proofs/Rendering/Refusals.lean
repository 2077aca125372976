import ChartGrammar.Proofs.Rendering.Writes
import ChartGrammar.Proofs.Writer.Taking

/-! What a rendering is refused for. Rows that take whatever comes to their place are misused only for something that
is too long to be written. Otherwise nothing fails but a binding for which there is no writer, and a facet for which
there is no row; the first of these is what the rendering is refused for, and without one it is given. -/

namespace ChartGrammar

/-- An outcome that fails for a fault if there is one, and otherwise succeeds. -/
def FailsFor {α : Type} (outcome : Except Fault α) : Option Fault → Prop
  | some fault => outcome = .error fault
  | none => ∃ a, outcome = .ok a

/-- An outcome that fails for something that is too long to be written. -/
def FailsForLength {α : Type} (outcome : Except Fault α) : Prop :=
  outcome = .error (.misuse .tooLong)

namespace Step

/-- The fault of a step that fails whatever the document is, and not for something too long. -/
def fault? : Step → Option Fault
  | .fail (.misuse .tooLong) => none
  | .fail fault => some fault
  | _ => none

/-- The name that a step looks at can be a key. -/
def Keyed : Step → Prop
  | .write param _ _ => param.isKey = true
  | .carried _ _ into => into.isKey = true
  | _ => True

theorem fault?_fail {fault : Fault} (h : fault ≠ .misuse .tooLong) : fault? (.fail fault) = some fault := by
  unfold fault?
  split
  · next heq =>
      cases heq
      exact absurd rfl h
  · next heq =>
      cases heq
      rfl
  · next hother => exact absurd rfl (hother fault)

end Step

namespace Document

variable {grammar : String} {d : Document} {steps : List Step}

/-- A step on a name that can be a key fails only if it fails whatever the document is, or for something too long. -/
theorem failsFor_step {s : Step} (hkeyed : s.Keyed) :
    FailsForLength (d.step grammar false s) ∨ FailsFor (d.step grammar false s) s.fault? := by
  cases s with
  | write param value origin =>
      have hkey : param.isKey = true := hkeyed
      cases houtcome : d.step grammar false (.write param value origin) with
      | ok next => exact .inr ⟨next, rfl⟩
      | error fault =>
          cases writeCase houtcome with
          | unhashable hkeyless => cases hkey.symm.trans hkeyless
          | untold => exact .inl rfl
          | refused _ _ _ _ hstrict => cases hstrict
  | report finding => exact .inr ⟨_, rfl⟩
  | carried role column into =>
      have hkey : into.isKey = true := hkeyed
      cases houtcome : d.step grammar false (.carried role column into) with
      | ok next => exact .inr ⟨next, rfl⟩
      | error fault =>
          cases carriedCase houtcome with
          | unhashable hkeyless => cases hkey.symm.trans hkeyless
          | untold => exact .inl rfl
  | fail fault =>
      by_cases hlong : fault = .misuse .tooLong
      · exact .inl (congrArg Except.error hlong)
      · rw [Step.fault?_fail hlong]
        exact .inr rfl

/-- Steps on names that can be keys fail for the first one among them that fails whatever the document is, or for
something too long. -/
theorem failsFor_run (hkeyed : ∀ s ∈ steps, s.Keyed) :
    FailsForLength (d.run grammar false steps) ∨ FailsFor (d.run grammar false steps) (steps.findSome? Step.fault?) := by
  induction steps generalizing d with
  | nil => exact .inr ⟨d, rfl⟩
  | cons s steps ih =>
      rw [List.forall_mem_cons] at hkeyed
      rw [List.findSome?_cons, run_cons]
      obtain hlong | hstep : FailsForLength (d.step grammar false s) ∨ FailsFor (d.step grammar false s) s.fault? :=
        failsFor_step hkeyed.1
      · rw [show d.step grammar false s = _ from hlong]
        exact .inl rfl
      cases hfault : s.fault? with
      | some fault =>
          rw [hfault] at hstep
          rw [show d.step grammar false s = .error fault from hstep]
          exact .inr rfl
      | none =>
          rw [hfault] at hstep
          obtain ⟨next, hnext⟩ := hstep
          rw [hnext]
          exact ih hkeyed.2

end Document

/-! ### Rows that take whatever comes to their place -/

/-- Whether a role's row takes every source that suits the role. -/
def RoleRow.takesAny (role : Role) (row : RoleRow) : Bool :=
  row.column?.all ColumnWriter.takesAny
    && row.literal?.all (fun w => role.literalShape?.all w.takes)
    && (!row.structural
      || Template.takesAny (Rendering.noteOr row.note "Binding \x7bcolumn!r\x7d restructures the output.") "column")
    && row.params.all Value.isKey && row.consumedInto.isKey

/-- Whether a style key's row takes every value that the key can be set to. -/
def StyleRow.takesAny (key : StyleKey) (row : StyleRow) : Bool :=
  row.realization.takes key.shape && row.realization.params.all Value.isKey

/-- Whether the facet's row takes every column. -/
def FacetRow.takesAny (row : FacetRow) : Bool :=
  (!row.structural
    || Template.takesAny (Rendering.noteOr row.note "Faceting by \x7bcolumn!r\x7d restructures the output.") "column")
    && row.writer.params.all Value.isKey

/-- Whether the rows of a kind take whatever can come to their place. -/
def KindRows.takesAny (rows : KindRows) : Bool :=
  rows.selector.params.all Value.isKey && rows.roles.all (fun e => e.2.takesAny e.1)
    && rows.styles.all (fun e => e.2.takesAny e.1) && rows.facet?.all FacetRow.takesAny

/-- Whether a role's row has a writer for a source. -/
def RoleRow.handles (row : RoleRow) : Source → Bool
  | .column _ => row.column?.isSome
  | .literal _ => row.literal?.isSome

namespace Rendering

/-- The fault of a binding for which there is no writer. -/
def refusedBinding? (c : Chart) (grammar : String) (rows : KindRows) (b : Binding) : Option Fault :=
  if (rows.role? b.role).any (·.handles b.source) then none
  else some (.rendering (.unsupportedBinding grammar c.kind b.role b.source))

/-- The fault of a facet for which there is no row. -/
def refusedFacet? (c : Chart) (grammar : String) (rows : KindRows) : Option Fault :=
  if c.facet?.isSome && rows.facet?.isNone then some (.rendering (.facetNotSupported grammar c.kind)) else none

/-- What a rendering by rows is refused for: the first binding without a writer, or else the facet. -/
def refusal? (c : Chart) (grammar : String) (rows : KindRows) : Option Fault :=
  (c.bindings.findSome? (refusedBinding? c grammar rows)).or (refusedFacet? c grammar rows)

/-! ### Steps that are refused -/

/-- The steps look at names that can be keys, and the first that fails whatever the document is, other than for
something too long, has this fault. -/
structure Meets (steps : List Step) (fault? : Option Fault) : Prop where
  fault : steps.findSome? Step.fault? = fault?
  keyed : ∀ s ∈ steps, s.Keyed

theorem Meets.nil : Meets [] none :=
  ⟨rfl, fun _ hs => absurd hs List.not_mem_nil⟩

theorem Meets.single {s : Step} (hkeyed : s.Keyed) : Meets [s] s.fault? := by
  refine ⟨?_, fun t ht => List.mem_singleton.mp ht ▸ hkeyed⟩
  rw [List.findSome?_cons]
  cases s.fault? <;> rfl

theorem Meets.report (finding : Diagnostic) : Meets [.report finding] none :=
  .single (s := .report finding) trivial

theorem Meets.reports (findings : List Diagnostic) : Meets (findings.map .report) none := by
  constructor
  · rw [List.findSome?_map]
    exact List.findSome?_eq_none_iff.mpr fun _ _ => rfl
  · intro s hs
    obtain ⟨f, -, rfl⟩ := List.mem_map.mp hs
    trivial

theorem Meets.ofWrites {params : Entries} (hkeys : ∀ e ∈ params, e.1.isKey = true) (origin : Origin) :
    Meets (Step.writes params origin) none := by
  constructor
  · rw [Step.writes, List.findSome?_map]
    exact List.findSome?_eq_none_iff.mpr fun _ _ => rfl
  · intro s hs
    obtain ⟨e, he, rfl⟩ := List.mem_map.mp hs
    exact hkeys e he

/-- Steps after something that is misused only if it is too long. -/
theorem Meets.attempt {α : Type} {outcome : Except Misuse α} {steps : α → List Step}
    (hlong : ∀ m, outcome = .error m → m = .tooLong) (h : ∀ a, outcome = .ok a → Meets (steps a) none) :
    Meets (Rendering.attempt outcome steps) none := by
  cases houtcome : outcome with
  | ok a => exact h a houtcome
  | error m =>
      rw [Rendering.attempt, hlong m houtcome]
      exact .single (s := .fail (.misuse .tooLong)) trivial

theorem Meets.append {first second : List Step} {x y : Option Fault} (hx : Meets first x) (hy : Meets second y) :
    Meets (first ++ second) (x.or y) := by
  refine ⟨by rw [List.findSome?_append, hx.fault, hy.fault], ?_⟩
  rw [List.forall_mem_append]
  exact ⟨hx.keyed, hy.keyed⟩

theorem Meets.flatMap {α : Type} {steps : α → List Step} {fault? : α → Option Fault} {items : List α}
    (h : ∀ a ∈ items, Meets (steps a) (fault? a)) : Meets (items.flatMap steps) (items.findSome? fault?) := by
  induction items with
  | nil => exact .nil
  | cons a items ih =>
      rw [List.forall_mem_cons] at h
      rw [List.flatMap_cons, List.findSome?_cons]
      have happend := h.1.append (ih h.2)
      cases hfault : fault? a <;> rwa [hfault] at happend

theorem Meets.flatMap_none {α : Type} {steps : α → List Step} {items : List α}
    (h : ∀ a ∈ items, Meets (steps a) none) : Meets (items.flatMap steps) none := by
  have hall : Meets (items.flatMap steps) (items.findSome? fun _ => none) := .flatMap h
  rwa [List.findSome?_eq_none_iff.mpr fun _ _ => rfl] at hall

/-! ### The steps of a rendering -/

variable {s : Schema} {c : Chart} {grammar : String} {rows : KindRows} {r : Registry}

theorem keys_of_atMostOne {params : Entries} {names : List Value} (h : params.AtMostOne names)
    (hnames : names.all Value.isKey = true) : ∀ e ∈ params, e.1.isKey = true := by
  rcases h with rfl | ⟨name, hname, value, rfl⟩
  · exact fun _ he => absurd he List.not_mem_nil
  · exact List.forall_mem_singleton.mpr (List.all_eq_true.mp hnames name hname)

theorem takesAny_of_role? {role : Role} {row : RoleRow} (htakes : rows.takesAny = true)
    (hrow : rows.role? role = some row) : row.takesAny role = true := by
  simp only [KindRows.takesAny, Bool.and_eq_true] at htakes
  exact List.all_eq_true.mp htakes.1.1.2 (role, row) (mem_of_lookup hrow)

theorem takesAny_of_style? {key : StyleKey} {row : StyleRow} (htakes : rows.takesAny = true)
    (hrow : rows.style? key = some row) : row.takesAny key = true := by
  simp only [KindRows.takesAny, Bool.and_eq_true] at htakes
  exact List.all_eq_true.mp htakes.1.2 (key, row) (mem_of_lookup hrow)

theorem meets_kindSteps (htakes : rows.takesAny = true) : Meets (kindSteps c grammar rows) none := by
  simp only [KindRows.takesAny, Bool.and_eq_true] at htakes
  have hkeys : ∀ e ∈ rows.selector.run c, e.1.isKey = true := by
    intro e he
    refine List.all_eq_true.mp htakes.1.1.1 e.1 ?_
    rw [← rows.selector.map_fst_run c]
    exact List.mem_map_of_mem he
  refine (Meets.ofWrites hkeys .kind).append (y := none) ?_
  split
  · exact .report _
  · exact .nil

theorem meets_explainColumn {note : Value} {text : String} (h : Template.takesAny (noteOr note text) "column" = true)
    (column key : String) : Meets (explainColumn note text column key) none := by
  have hyields := Template.yields_apply Template.names_column h (.text column)
  exact .attempt (fun _ => hyields.eq_tooLong) fun _ _ => .report _

theorem meets_columnSteps {role : Role} {row : RoleRow} {w : ColumnWriter} (htakes : row.takesAny role = true)
    (hw : row.column? = some w) (name : String) : Meets (columnSteps c row w role name) none := by
  simp only [RoleRow.takesAny, RoleRow.params, hw, Option.all_some, Option.elim_some, List.all_append,
    Bool.and_eq_true, Bool.or_eq_true, Bool.not_eq_eq_eq_not, Bool.not_true] at htakes
  obtain ⟨⟨⟨⟨hwriter, -⟩, hnote⟩, hparams, -⟩, -⟩ := htakes
  obtain ⟨params, hrun⟩ := ColumnWriter.run_of_takesAny hwriter name c
  rw [columnSteps, hrun]
  refine (Meets.ofWrites (keys_of_atMostOne (ColumnWriter.atMostOne_run hrun) hparams) _).append (y := none) ?_
  split
  · next hstructural =>
      rw [hstructural] at hnote
      exact meets_explainColumn (hnote.resolve_left Bool.noConfusion) name role.name
  · exact .nil

theorem meets_literalSteps {role : Role} {row : RoleRow} {w : StyleWriter} (htakes : row.takesAny role = true)
    (hw : row.literal? = some w) {shape : Shape} {v : Value} (hshape : role.literalShape? = some shape)
    (hv : shape.normalize? v = some v) : Meets (literalSteps grammar w role v) none := by
  simp only [RoleRow.takesAny, RoleRow.params, hw, hshape, Option.all_some, Option.elim_some, List.all_append,
    Bool.and_eq_true] at htakes
  obtain ⟨⟨⟨⟨-, hwriter⟩, -⟩, -, hparams⟩, -⟩ := htakes
  refine .attempt (fun _ => (StyleWriter.yields_run hwriter hv).eq_tooLong) fun params hrun => ?_
  split
  · exact .attempt (fun _ => v.yields_write.eq_tooLong) fun _ _ => .report _
  · exact .ofWrites (keys_of_atMostOne (StyleWriter.atMostOne_run hrun) hparams) _

/-- A binding is refused exactly if there is no writer for its source. -/
theorem meets_bindingSteps (hc : c.Sound s) (htakes : rows.takesAny = true) {b : Binding} (hb : b ∈ c.bindings) :
    Meets (bindingSteps c grammar rows b) (refusedBinding? c grammar rows b) := by
  have hrefused (reason : RenderingFault) : Meets [.fail (.rendering reason)] (some (.rendering reason)) :=
    .single (s := .fail (.rendering reason)) trivial
  unfold bindingSteps refusedBinding?
  cases hrow : rows.role? b.role with
  | none => exact hrefused _
  | some row =>
      have hrowTakes := takesAny_of_role? htakes hrow
      cases hsource : b.source with
      | column name =>
          cases hw : row.column? with
          | none =>
              simp only [hw, Option.any_some, RoleRow.handles, Option.isSome_none, Bool.false_eq_true, ↓reduceIte]
              exact hrefused _
          | some w =>
              simp only [hw, Option.any_some, RoleRow.handles, Option.isSome_some, ↓reduceIte]
              exact meets_columnSteps hrowTakes hw name
      | literal v =>
          cases hw : row.literal? with
          | none =>
              simp only [hw, Option.any_some, RoleRow.handles, Option.isSome_none, Bool.false_eq_true, ↓reduceIte]
              exact hrefused _
          | some w =>
              simp only [hw, Option.any_some, RoleRow.handles, Option.isSome_some, ↓reduceIte]
              have hbound := Chart.mem_bindings.mp hb
              rw [hsource] at hbound
              obtain ⟨shape, hshape, hnormal⟩ := hc.literal hbound
              exact meets_literalSteps hrowTakes hw hshape hnormal

theorem meets_carriedSteps (htakes : rows.takesAny = true) (b : Binding) : Meets (carriedSteps c rows b) none := by
  unfold carriedSteps
  split
  · next row name hrow _ =>
      have hinto : row.consumedInto.isKey = true := by
        have hrowTakes := takesAny_of_role? htakes hrow
        simp only [RoleRow.takesAny, Bool.and_eq_true] at hrowTakes
        exact hrowTakes.2
      split
      · exact .nil
      · split
        · exact .single (s := .carried b.role name row.consumedInto) hinto
        · exact .nil
      · exact .nil
  · exact .nil

theorem meets_styleRowSteps {key : StyleKey} {row : StyleRow} (htakes : row.takesAny key = true) {v : Value}
    (hv : key.shape.normalize? v = some v) : Meets (styleRowSteps c grammar row key v) none := by
  rw [StyleRow.takesAny, Bool.and_eq_true] at htakes
  obtain ⟨hrealized, hparams⟩ := htakes
  unfold styleRowSteps
  cases hrealization : row.realization with
  | arranged arranger =>
      rw [hrealization] at hrealized hparams
      refine .attempt (fun _ => (Arranger.yields_run hrealized v c).eq_tooLong) fun arrangement hrun => ?_
      have hkeys : ∀ e ∈ arrangement.fragments, e.1.isKey = true := by
        intro e he
        refine List.all_eq_true.mp hparams e.1 ?_
        exact (Arranger.sublist_run hrun).subset (List.mem_map_of_mem he)
      exact (Meets.ofWrites hkeys _).append (y := none) (.report _)
  | written w =>
      rw [hrealization] at hrealized hparams
      refine .attempt (fun _ => (StyleWriter.yields_run hrealized hv).eq_tooLong) fun params hrun => ?_
      split
      · exact .report _
      · exact .ofWrites (keys_of_atMostOne (StyleWriter.atMostOne_run hrun) hparams) _

theorem meets_styleSteps (hc : c.Sound s) (htakes : rows.takesAny = true) {e : StyleKey × Value} (he : e ∈ c.styles) :
    Meets (styleSteps r c grammar rows e) none := by
  have hnormal := Chart.normalizeStyle_eq_ok_iff.mp (hc.style e.1 e.2 (Chart.mem_styles.mp he))
  unfold styleSteps
  cases hrow : rows.style? e.1 with
  | none => exact .report _
  | some row =>
      refine (meets_styleRowSteps (takesAny_of_style? htakes hrow) hnormal).append (y := none) ?_
      cases row.cropping with
      | none => exact .nil
      | some cropping =>
          dsimp only [croppingSteps]
          split
          · exact .nil
          · exact .report _

theorem meets_facetSteps (htakes : rows.takesAny = true) :
    Meets (facetSteps c grammar rows) (refusedFacet? c grammar rows) := by
  unfold facetSteps refusedFacet?
  cases c.facet? with
  | none => exact .nil
  | some name =>
      cases hrow : rows.facet? with
      | none => exact .single (s := .fail (.rendering _)) trivial
      | some row =>
          simp only [KindRows.takesAny, hrow, Option.all_some, FacetRow.takesAny, Bool.and_eq_true, Bool.or_eq_true,
            Bool.not_eq_eq_eq_not, Bool.not_true] at htakes
          obtain ⟨-, hnote, hparams⟩ := htakes
          have hkeys := keys_of_atMostOne (row.writer.atMostOne_run (.text name)) hparams
          refine (Meets.ofWrites hkeys _).append (y := none) ?_
          split
          · next hstructural =>
              rw [hstructural] at hnote
              exact meets_explainColumn (hnote.resolve_left Bool.noConfusion) name _
          · exact .nil

/-- The steps of a rendering fail for the first binding without a writer, or else for the facet. -/
theorem meets_steps (hc : c.Sound s) (htakes : rows.takesAny = true) :
    Meets (steps r c grammar rows) (refusal? c grammar rows) := by
  have hkind : Meets (kindSteps c grammar rows) none := meets_kindSteps htakes
  have hbindings : Meets (c.bindings.flatMap (bindingSteps c grammar rows))
      (c.bindings.findSome? (refusedBinding? c grammar rows)) :=
    .flatMap fun _ hb => meets_bindingSteps hc htakes hb
  have hcarried : Meets (c.bindings.flatMap (carriedSteps c rows)) none :=
    .flatMap_none fun b _ => meets_carriedSteps htakes b
  have hstyles : Meets (c.styles.flatMap (styleSteps r c grammar rows)) none :=
    .flatMap_none fun _ he => meets_styleSteps hc htakes he
  have hfacet : Meets (facetSteps c grammar rows) (refusedFacet? c grammar rows) := meets_facetSteps htakes
  have hall := ((((hkind.append hbindings).append hcarried).append hstyles).append hfacet).append
    (.reports c.diagnostics)
  simp only [Option.none_or, Option.or_none] at hall
  exact hall

/-- A sound chart is rendered by rows that take whatever comes to their place, unless a binding has no writer or
the facet has no row, or something is too long to be written. -/
theorem failsFor_ofChart (hc : c.Sound s) (hrows : rowsFor r c grammar = .ok rows) (htakes : rows.takesAny = true) :
    FailsForLength (ofChart r c grammar false) ∨ FailsFor (ofChart r c grammar false) (refusal? c grammar rows) := by
  have hmeets : Meets (steps r c grammar rows) (refusal? c grammar rows) := meets_steps hc htakes
  have hbuilt : ofChart r c grammar false = (Document.empty.run grammar false (steps r c grammar rows) >>= fun d =>
      .ok ⟨grammar, c.kind, d.entries, d.findings⟩) := by
    rw [ofChart, hrows]
    rfl
  rw [hbuilt]
  obtain hlong | hrun : FailsForLength (Document.empty.run grammar false (steps r c grammar rows)) ∨
      FailsFor (Document.empty.run grammar false (steps r c grammar rows)) _ := Document.failsFor_run hmeets.keyed
  · rw [show Document.empty.run grammar false (steps r c grammar rows) = _ from hlong]
    exact .inl rfl
  rw [hmeets.fault] at hrun
  cases hrefusal : refusal? c grammar rows with
  | some fault =>
      rw [hrefusal] at hrun
      rw [show Document.empty.run grammar false (steps r c grammar rows) = .error fault from hrun]
      exact .inr rfl
  | none =>
      rw [hrefusal] at hrun
      obtain ⟨d, hd⟩ := hrun
      rw [hd]
      exact .inr ⟨_, rfl⟩

theorem refusal?_eq_none_of_ok (hc : c.Sound s) (hrows : rowsFor r c grammar = .ok rows) (htakes : rows.takesAny = true)
    {out : Rendering} (h : ofChart r c grammar false = .ok out) : refusal? c grammar rows = none := by
  have hfails : FailsForLength (ofChart r c grammar false) ∨ FailsFor (ofChart r c grammar false) _ :=
    failsFor_ofChart hc hrows htakes
  rw [h] at hfails
  cases hrefusal : refusal? c grammar rows with
  | none => rfl
  | some fault =>
      rw [hrefusal] at hfails
      rcases hfails with hlong | hfault
      · cases hlong
      · cases hfault

theorem handles_of_ok (hc : c.Sound s) (hrows : rowsFor r c grammar = .ok rows) (htakes : rows.takesAny = true)
    {out : Rendering} (h : ofChart r c grammar false = .ok out) {role : Role} {source : Source}
    (hsource : c.source? role = some source) : ∃ row, rows.role? role = some row ∧ row.handles source = true := by
  have hnone := refusal?_eq_none_of_ok hc hrows htakes h
  rw [refusal?, Option.or_eq_none_iff, List.findSome?_eq_none_iff] at hnone
  have hbinding := hnone.1 ⟨role, source⟩ (Chart.mem_bindings.mpr hsource)
  rw [refusedBinding?, ite_eq_left_iff, Bool.not_eq_true] at hbinding
  have hany : (rows.role? role).any (·.handles source) = true := by
    by_contra hother
    cases hbinding (Bool.eq_false_iff.mpr hother)
  exact (Option.any_eq_true _ _).mp hany

theorem facet?_of_ok (hc : c.Sound s) (hrows : rowsFor r c grammar = .ok rows) (htakes : rows.takesAny = true)
    {out : Rendering} (h : ofChart r c grammar false = .ok out) {name : String} (hfacet : c.facet? = some name) :
    ∃ row, rows.facet? = some row := by
  have hnone := refusal?_eq_none_of_ok hc hrows htakes h
  rw [refusal?, Option.or_eq_none_iff, refusedFacet?, hfacet] at hnone
  cases hrow : rows.facet? with
  | some row => exact ⟨row, rfl⟩
  | none =>
      rw [hrow] at hnone
      cases hnone.2

end Rendering

end ChartGrammar
