import ChartGrammar.Proofs.Rendering.Lengths
import ChartGrammar.Proofs.Shipped.Conflicts

/-! What the grammars that the library holds refuse. A chart that calls lead to is rendered unless it lacks a role
that the grammar needs, binds a column where the imperative grammar has a writer for literals only, or is faceted
where the grammar has no facets; and what it is refused for is the first of these. -/

namespace ChartGrammar

namespace Shipped

/-- The roles that a grammar needs on a kind. -/
def Grammar.needs : Grammar → Kind → List Role
  | _, .bar => [.x]
  | _, .pie => [.x]
  | _, .histogram => [.x]
  | imperative, .boxplot => [.y, .group]
  | layered, .boxplot => [.y]
  | _, .line => [.x, .y]
  | _, .scatter => [.x, .y]

/-- Every role that the grammar needs is bound. -/
def Complete (g : Grammar) (c : Chart) : Prop :=
  ∀ r ∈ g.needs c.kind, (c.source? r).isSome = true

instance (g : Grammar) (c : Chart) : Decidable (Complete g c) :=
  inferInstanceAs (Decidable (∀ r ∈ g.needs c.kind, (c.source? r).isSome = true))

/-- The grammar has a writer for every binding: imperative lines take no column as their colour. -/
def Expressible (g : Grammar) (c : Chart) : Prop :=
  ¬(g = .imperative ∧ c.kind = .line ∧ ∃ name, c.source? .outline = some (.column name))

/-- The grammar facets the chart if that is asked for: pies and imperative scatters are not faceted. -/
def Facetable (g : Grammar) (c : Chart) : Prop :=
  c.facet? = none ∨ c.kind ≠ .pie ∧ ¬(g = .imperative ∧ c.kind = .scatter)

variable {s : Schema} {c : Chart} {g : Grammar} {k : Desk}

open Rendering

/-! ### What the tables hold -/

theorem takesAny_rows (g : Grammar) (k : Kind) : (g.rows k).takesAny = true := by
  cases g <;> cases k <;> decide +kernel

/-- What is required, and what a required role requires, is what is needed. -/
theorem missingRole?_rows : missingRole? c (g.rows c.kind) = none ↔ Complete g c := by
  rw [missingRole?_eq_none_iff, Complete]
  cases g <;> cases c.kind <;>
    simp [Grammar.rows, Grammar.needs, Imperative.bar, Imperative.pie, Imperative.histogram, Imperative.boxplot,
      Imperative.line, Imperative.scatter, Layered.bar, Layered.pie, Layered.histogram, Layered.boxplot, Layered.line,
      Layered.scatter, Chart.hasRole]
  exact .inl

theorem mem_needs (k : Kind) (r : Role) :
    (r ∈ (g.rows k).required ∨ ∃ e ∈ (g.rows k).conditional, e.1 = r) → r ∈ g.needs k ∧ r ≠ .facet := by
  revert k r
  cases g <;> decide

theorem handles_column (k : Kind) (r : Role) : r ∈ k.roles → r ≠ .facet →
    ¬(g = .imperative ∧ k = .line ∧ r = .outline) → ((g.rows k).role? r).any (·.column?.isSome) = true := by
  revert k r
  cases g <;> decide

theorem handles_literal (k : Kind) (r : Role) : r ∈ k.roles → r ∈ [Role.fill, .outline, .size, .shape] →
    ((g.rows k).role? r).any (·.literal?.isSome) = true := by
  revert k r
  cases g <;> decide

theorem needs_columns (k : Kind) (r : Role) : r ∈ g.needs k → r ∉ [Role.fill, .outline, .size, .shape] := by
  revert k r
  cases g <;> decide

theorem Complete.exists_column (h : Complete g c) (hc : c.Sound s) {r : Role} (hr : r ∈ g.needs c.kind) :
    ∃ name, c.source? r = some (.column name) := by
  obtain ⟨source, hsource⟩ := Option.isSome_iff_exists.mp (h r hr)
  obtain ⟨name, rfl⟩ := hc.exists_column (needs_columns c.kind r hr) hsource
  exact ⟨name, hsource⟩

/-! ### Which parts of a chart are refused -/

/-- A binding of a sound chart is refused only where the imperative grammar would colour lines by a column. -/
theorem refusedBinding?_eq_some {b : Binding} (hc : c.Sound s) (hb : b ∈ c.bindings) {fault : Fault}
    (h : refusedBinding? c g.name (g.rows c.kind) b = some fault) : (g = .imperative ∧ c.kind = .line ∧
      ∃ name, b = ⟨.outline, .column name⟩) := by
  obtain ⟨role, source⟩ := b
  obtain ⟨hrole, hfacet, hfits⟩ := hc.source role source (Chart.mem_bindings.mp hb)
  unfold refusedBinding? at h
  split at h
  · cases h
  · next hnone =>
      cases hfits with
      | @column name =>
          by_contra hother
          refine hnone (handles_column c.kind role hrole hfacet ?_)
          rintro ⟨hg, hkind, rfl⟩
          exact hother ⟨hg, hkind, name, rfl⟩
      | literal hliteral => exact absurd (handles_literal c.kind role hrole hliteral) hnone

theorem refusedBinding?_outline (hkind : c.kind = .line) (name : String) :
    refusedBinding? c Grammar.imperative.name (Grammar.imperative.rows c.kind) ⟨.outline, .column name⟩ =
      some (.rendering (.unsupportedBinding Grammar.imperative.name c.kind .outline (.column name))) := by
  rw [refusedBinding?, hkind]
  rfl

theorem refusal?_of_not_expressible (hc : c.Sound s) (h : ¬Expressible g c) :
    ∃ name, refusal? c g.name (g.rows c.kind) =
      some (.rendering (.unsupportedBinding g.name c.kind .outline (.column name))) := by
  rw [Expressible, not_not] at h
  obtain ⟨rfl, hkind, name, hsource⟩ := h
  have hb : (⟨.outline, .column name⟩ : Binding) ∈ c.bindings := Chart.mem_bindings.mpr hsource
  refine ⟨name, ?_⟩
  rw [refusal?]
  cases hfound : c.bindings.findSome? (refusedBinding? c Grammar.imperative.name (Grammar.imperative.rows c.kind)) with
  | none =>
      have hnone := List.findSome?_eq_none_iff.mp hfound _ hb
      rw [refusedBinding?_outline hkind] at hnone
      cases hnone
  | some fault =>
      -- Whatever is refused first is this binding, since no other one is refused.
      obtain ⟨b, hmem, hfault⟩ := List.exists_of_findSome?_eq_some hfound
      obtain ⟨-, -, other, rfl⟩ := refusedBinding?_eq_some hc hmem hfault
      have hother := Chart.mem_bindings.mp hmem
      rw [hsource] at hother
      cases hother
      rw [refusedBinding?_outline hkind] at hfault
      rw [← hfault, Option.some_or]

/-- Where every binding has a writer, the rendering is refused for nothing but the facet. -/
theorem refusal?_of_expressible (hc : c.Sound s) (h : Expressible g c) :
    refusal? c g.name (g.rows c.kind) = refusedFacet? c g.name (g.rows c.kind) := by
  have hnone : c.bindings.findSome? (refusedBinding? c g.name (g.rows c.kind)) = none := by
    rw [List.findSome?_eq_none_iff]
    intro b hb
    rw [Option.eq_none_iff_forall_ne_some]
    intro fault hfault
    obtain ⟨hg, hkind, name, rfl⟩ := refusedBinding?_eq_some hc hb hfault
    exact h ⟨hg, hkind, name, Chart.mem_bindings.mp hb⟩
  rw [refusal?, hnone, Option.none_or]

theorem isNone_facet? (g : Grammar) (k : Kind) :
    (g.rows k).facet?.isNone = true ↔ k = .pie ∨ g = .imperative ∧ k = .scatter := by
  cases g <;> cases k <;> decide

theorem refusedFacet?_of_facetable (h : Facetable g c) : refusedFacet? c g.name (g.rows c.kind) = none := by
  have hfaced : (c.facet?.isSome && (g.rows c.kind).facet?.isNone) = false := by
    rw [Bool.and_eq_false_iff, ← Bool.not_eq_true (g.rows c.kind).facet?.isNone, isNone_facet?]
    rcases h with hnone | ⟨hpie, hscatter⟩
    · exact .inl (by rw [hnone]; rfl)
    · exact .inr (not_or.mpr ⟨hpie, hscatter⟩)
  rw [refusedFacet?, hfaced]
  rfl

theorem refusedFacet?_of_not_facetable (h : ¬Facetable g c) :
    refusedFacet? c g.name (g.rows c.kind) = some (.rendering (.facetNotSupported g.name c.kind)) := by
  have hfaced : (c.facet?.isSome && (g.rows c.kind).facet?.isNone) = true := by
    rw [Facetable, not_or, not_and_or, not_not, not_not] at h
    rw [Bool.and_eq_true, isNone_facet?]
    exact ⟨Option.isSome_iff_ne_none.mpr h.1, h.2⟩
  rw [refusedFacet?, hfaced]
  rfl

/-! ### Nothing is too long to be told -/

theorem isBrief_rows (g : Grammar) (k : Kind) : (g.rows k).isBrief = true := by
  cases g <;> cases k <;> decide +kernel

theorem legible_rows (g : Grammar) (k : Kind) : ∀ v ∈ (g.rows k).values, v.legible = true := by
  cases g <;> cases k <;> decide +kernel

/-- Only the keys for bins share a parameter that integers are written to. -/
theorem isShort_rivals (g : Grammar) (k : Kind) : ∀ e ∈ g.rivals k,
    e = (.style .binWidth, .style .binCount) ∨ e.1.isShort = true ∧ e.2.isShort = true := by
  cases g <;> cases k <;> decide

theorem isShort_of_clashing (hc : c.Sound s) (hregular : ∀ w ∈ Rendering.writes c (g.rows c.kind), w.Regular)
    {o o' : Origin}
    (h : Clashing c (g.rows c.kind) o o') : o.isShort = true ∧ o'.isShort = true := by
  have hof (o : Origin) : ∀ w ∈ writesOf c (g.rows c.kind) o, w.Regular :=
    fun w hw => hregular w (mem_writes_iff.mpr ⟨o, hw⟩)
  obtain ⟨u, hu, w, hw, hname, -⟩ := id h
  rcases onlyRivals_rows g c.kind o o' ⟨u.name, name_mem_paramsOf hu, w.name, name_mem_paramsOf hw, hname⟩ with
    rfl | hmem | hmem
  · exact absurd h (not_disagree_self (hof o) (oncePerName_writesOf (writesOnce_rows g c.kind) o))
  · obtain heq | hshort := isShort_rivals g c.kind _ hmem
    · cases heq
      exact absurd h (not_clashing_bins hc)
    · exact hshort
  · obtain heq | hshort := isShort_rivals g c.kind _ hmem
    · cases heq
      exact absurd (h.symm (hof _) (hof _)) (not_clashing_bins hc)
    · exact hshort.symm

/-- No rendering tells of something too long. -/
theorem not_hasUntold (hc : c.Sound s) (hrows : rowsFor .shipped c g.name = .ok (g.rows c.kind))
    (hfindings : ∀ f ∈ c.diagnostics, f.code ≠ .conflict) : ¬HasUntold .shipped c g.name (g.rows c.kind) := by
  intro h
  have hregular := regular_writes hc (regular_rowsFor regular_shipped hrows)
  obtain ⟨o, o', u, hu, w, hw, hname, hvalue, hlong⟩ | ⟨role, row, hrow, hlong⟩ :=
    exists_of_hasUntold hregular hfindings h
  · obtain ⟨ho, ho'⟩ := isShort_of_clashing hc hregular ⟨u, hu, w, hw, hname, hvalue⟩
    rw [(legible_writesOf hc (legible_rows g c.kind) ho u hu).2, (legible_writesOf hc (legible_rows g c.kind) ho' w hw).1,
      (legible_writesOf hc (legible_rows g c.kind) ho' w hw).2] at hlong
    cases hlong
  · have hbrief := isBrief_of_role? (isBrief_rows g c.kind) hrow
    rw [RoleRow.isBrief, hlong, Bool.and_false] at hbrief
    cases hbrief

/-! ### The outcome -/

theorem failsFor_of_complete (hk : k.Reachable) (hcomplete : Complete g k.chart) :
    FailsFor (ofChart .shipped k.chart g.name false) (refusal? k.chart g.name (g.rows k.chart.kind)) := by
  have hrows := rowsFor_name_eq_ok_iff.mpr ⟨missingRole?_rows.mpr hcomplete, rfl⟩
  refine (failsFor_ofChart hk.sound hrows (takesAny_rows g k.chart.kind)).resolve_left fun hlong => ?_
  have htrips : Trips .shipped k.chart g.name (g.rows k.chart.kind) .tooLong := trips_of_ofChart hrows hlong
  refine not_hasUntold hk.sound hrows hk.no_conflict ?_
  exact hasUntold_of_trips hk.sound (takesAny_rows g k.chart.kind)
    (showsShort_of_isBrief hk.sound (isBrief_rows g k.chart.kind)) htrips

theorem ok_of_complete (hk : k.Reachable) (hcomplete : Complete g k.chart) (hexpressible : Expressible g k.chart)
    (hfacetable : Facetable g k.chart) : ∃ out, ofChart .shipped k.chart g.name false = .ok out := by
  have hfails := failsFor_of_complete hk hcomplete
  rwa [refusal?_of_expressible hk.sound hexpressible, refusedFacet?_of_facetable hfacetable] at hfails

theorem error_of_not_complete (h : ¬Complete g c) : ∃ role because, role ∈ g.needs c.kind ∧ c.source? role = none ∧
    ofChart .shipped c g.name false = .error (.rendering (.missingBinding g.name c.kind role because)) := by
  rw [← missingRole?_rows] at h
  obtain ⟨⟨role, because⟩, hmissing⟩ := Option.ne_none_iff_exists'.mp h
  obtain ⟨hunbound, hneeded⟩ := of_missingRole? hmissing
  obtain ⟨hmem, hfacet⟩ := mem_needs c.kind role hneeded
  have hsource : c.source? role = none := by
    cases role <;> first | exact Option.isNone_iff_eq_none.mp (Option.isSome_eq_false_iff.mp hunbound) | contradiction
  refine ⟨role, because, hmem, hsource, ofChart_of_error ?_⟩
  rw [rowsFor_name, hmissing]

theorem error_of_not_expressible (hk : k.Reachable) (hcomplete : Complete g k.chart) (h : ¬Expressible g k.chart) :
    ∃ name, ofChart .shipped k.chart g.name false =
      .error (.rendering (.unsupportedBinding g.name k.chart.kind .outline (.column name))) := by
  obtain ⟨name, hrefusal⟩ := refusal?_of_not_expressible hk.sound h
  have hfails := failsFor_of_complete hk hcomplete
  rw [hrefusal] at hfails
  exact ⟨name, hfails⟩

theorem error_of_not_facetable (hk : k.Reachable) (hcomplete : Complete g k.chart) (hexpressible : Expressible g k.chart)
    (h : ¬Facetable g k.chart) :
    ofChart .shipped k.chart g.name false = .error (.rendering (.facetNotSupported g.name k.chart.kind)) := by
  have hfails := failsFor_of_complete hk hcomplete
  rwa [refusal?_of_expressible hk.sound hexpressible, refusedFacet?_of_not_facetable h] at hfails

/-- Every outcome of rendering a chart that calls lead to, in whatever grammar is asked for. Grammars that the
library does not hold are unknown. In the others the chart is rendered exactly if it is complete, expressible and
facetable; otherwise it is refused for a role that is needed and not bound, or else for the column that would
colour its lines, or else for its facet, and for nothing else. -/
theorem rendered_or_refused {k : Desk} (hk : k.Reachable) (grammar : String) :
    ((∀ g : Grammar, grammar ≠ g.name) → ofChart .shipped k.chart grammar false =
      .error (.rendering (.unknownGrammar grammar Registry.shipped.grammars))) ∧
    ∀ g : Grammar, grammar = g.name →
      ((∃ out, ofChart .shipped k.chart grammar false = .ok out) ↔
        Complete g k.chart ∧ Expressible g k.chart ∧ Facetable g k.chart) ∧
      (¬Complete g k.chart → ∃ role because, role ∈ g.needs k.chart.kind ∧ k.chart.source? role = none ∧
        ofChart .shipped k.chart grammar false =
          .error (.rendering (.missingBinding grammar k.chart.kind role because))) ∧
      (Complete g k.chart → ¬Expressible g k.chart → ∃ name, ofChart .shipped k.chart grammar false =
        .error (.rendering (.unsupportedBinding grammar k.chart.kind .outline (.column name)))) ∧
      (Complete g k.chart → Expressible g k.chart → ¬Facetable g k.chart →
        ofChart .shipped k.chart grammar false = .error (.rendering (.facetNotSupported grammar k.chart.kind))) := by
  constructor
  · intro hunknown
    refine ofChart_of_error ?_
    rw [rowsFor, Grammar.table_of_ne hunknown]
    rfl
  · rintro g rfl
    refine ⟨⟨?_, fun h => ok_of_complete hk h.1 h.2.1 h.2.2⟩,
      error_of_not_complete, error_of_not_expressible hk, error_of_not_facetable hk⟩
    -- A chart that is rendered is not refused, so none of the three conditions can fail.
    rintro ⟨out, hout⟩
    have hcomplete : Complete g k.chart := by
      by_contra h
      obtain ⟨role, because, -, -, herror⟩ := error_of_not_complete h
      rw [hout] at herror
      cases herror
    have hexpressible : Expressible g k.chart := by
      by_contra h
      obtain ⟨name, herror⟩ := error_of_not_expressible hk hcomplete h
      rw [hout] at herror
      cases herror
    refine ⟨hcomplete, hexpressible, ?_⟩
    by_contra h
    have herror := error_of_not_facetable hk hcomplete hexpressible h
    rw [hout] at herror
    cases herror

end Shipped

/-- A line chart with a facet, whose colour is bound to a column. -/
def Desk.colouredLines : Desk :=
  (Desk.mk .empty { kind := .line, facetLimit := 12 }).run [
    .define (.text "year") (.text "numeric") .null,
    .define (.text "sex") (.text "categorical") .null,
    .bind (.text "x") (.text "year"),
    .bind (.text "y") (.text "year"),
    .bind (.text "outline") (.text "sex"),
    .setFacet (.text "sex")]

theorem Desk.reachable_colouredLines : Desk.colouredLines.Reachable :=
  Desk.reachable_new .line _

namespace Shipped

open Rendering

/-- The layered grammar draws lines that are coloured by a column, and the imperative one refuses them. -/
theorem rendered_or_refused_colouredLines :
    Desk.colouredLines.Reachable ∧
      (∃ out, ofChart .shipped Desk.colouredLines.chart "layered" false = .ok out) ∧
      Complete .imperative Desk.colouredLines.chart ∧ ¬Expressible .imperative Desk.colouredLines.chart ∧
      ofChart .shipped Desk.colouredLines.chart "imperative" false =
        .error (.rendering (.unsupportedBinding "imperative" .line .outline (.column "sex"))) ∧
      ofChart .shipped Desk.colouredLines.chart "" false =
        .error (.rendering (.unknownGrammar "" Registry.shipped.grammars)) := by
  have hreach := Desk.reachable_colouredLines
  have hcomplete (g : Grammar) : Complete g Desk.colouredLines.chart := by cases g <;> decide
  have hcoloured : ¬Expressible .imperative Desk.colouredLines.chart := fun h => h ⟨rfl, rfl, "sex", rfl⟩
  obtain ⟨hlayered, -⟩ := (rendered_or_refused hreach "layered").2 .layered rfl
  obtain ⟨-, -, himperative, -⟩ := (rendered_or_refused hreach "imperative").2 .imperative rfl
  obtain ⟨name, hrefused⟩ := himperative (hcomplete _) hcoloured
  refine ⟨hreach, hlayered.mpr ⟨hcomplete _, ?_, ?_⟩, hcomplete _, hcoloured, ?_, ?_⟩
  · rintro ⟨himperative, -⟩
    cases himperative
  · refine .inr ⟨?_, ?_⟩ <;> decide
  · rw [hrefused]
    cases hrefused.symm.trans rfl
    rfl
  · exact (rendered_or_refused hreach "").1 fun g => by cases g <;> decide

end Shipped

end ChartGrammar
