import ChartGrammar.Proofs.Rendering.Carrying
import ChartGrammar.Proofs.Shipped.Conflicts
import ChartGrammar.Proofs.Shipped.Groups
import ChartGrammar.Proofs.Shipped.Refusals

/-! No column of a chart is lost silently in the grammars that the library holds. A column that is written for its
own role is there in the end, or is in conflict at the parameter of the role. The two columns that are folded into
another role's parameter are there without fail, since nothing is in conflict at that parameter. -/

namespace ChartGrammar

namespace Rendering

open Document

/-- A column is somewhere among the parameters, or there is a conflict at one that its origin writes. -/
def Kept (c : Chart) (rows : KindRows) (out : Rendering) (o : Origin) (name : String) : Prop :=
  (∃ e ∈ out.parameters, c.Carries name e.2) ∨
    ∃ w ∈ writesOf c rows o, ∃ f ∈ conflicts out.diagnostics, f.key.same w.name = true

end Rendering

namespace Shipped

open Rendering Document

variable {s : Schema} {c : Chart} {g : Grammar}

/-- Only the group of imperative bars and boxes is folded into something else. -/
theorem keeps_rows (g : Grammar) (k : Kind) (r : Role) : ¬(g = .imperative ∧ r = .group ∧ (k = .bar ∨ k = .boxplot)) →
    ((g.rows k).role? r).all (fun row => row.column?.all (·.keeps r)) = true := by
  revert k r
  cases g <;> decide

theorem takesAny_column {r : Role} {row : RoleRow} {w : ColumnWriter} (hrow : (g.rows c.kind).role? r = some row)
    (hw : row.column? = some w) : w.takesAny = true := by
  have htakes := takesAny_of_role? (takesAny_rows g c.kind) hrow
  simp only [RoleRow.takesAny, hw, Option.all_some, Bool.and_eq_true] at htakes
  exact htakes.1.1.1.1

/-- The group of bars is written beside the heights, or is what the labels or the counts are of. -/
theorem exists_write_of_bars {x name : String} (hx : c.source? .x = some (.column x))
    (hy : ∀ source, c.source? .y = some source → ∃ y, source = .column y)
    (hgroup : c.source? .group = some (.column name)) : ∃ o, ∃ u ∈ writesOf c Imperative.bar o,
      (u.name = .text "height" ∨ u.name = .text "names.arg") ∧ c.Carries name u.value := by
  have hcolumn := Chart.columnFor_of_source hgroup
  have haxis := Chart.columnFor_of_source hx
  cases hbound : c.source? .y with
  | none =>
      have hcounts := writesOf_x_counted hx hbound
      refine ⟨.role .x, _, by rw [hcounts]; exact List.mem_cons_self, .inl rfl, ?_⟩
      by_cases hsame : name = x
      · subst hsame
        exact ColumnWriter.carries_split _ _
      · rw [Chart.splitter_of_group hcolumn (by simpa using hsame)]
        exact ColumnWriter.carries_split_by _
  | some source =>
      obtain ⟨y, rfl⟩ := hy source hbound
      -- What stands along the axis does not split the heights, but is written as their labels.
      by_cases hsame : name = x
      · subst hsame
        have hlabels := writesOf_x_labels hx (by rw [hbound]; rfl)
        refine ⟨.role .x, _, by rw [hlabels]; exact List.mem_cons_self, .inr rfl, ?_⟩
        exact Chart.carries_head (by decide) _
      · have hheights := writesOf_y_heights hbound
        refine ⟨.role .y, _, by rw [hheights]; exact List.mem_cons_self, .inl rfl, ?_⟩
        rw [haxis, Chart.splitter_of_group hcolumn (by simpa using hsame)]
        exact ColumnWriter.carries_split_by _

theorem exists_write_of_boxes {y name : String} (hy : c.source? .y = some (.column y))
    (hgroup : c.source? .group = some (.column name)) : ∃ o, ∃ u ∈ writesOf c Imperative.boxplot o,
      u.name = .text "formula" ∧ c.Carries name u.value := by
  have hcolumn := Chart.columnFor_of_source hgroup
  refine ⟨.role .y, _, by rw [writesOf_y_formula hy hcolumn]; exact List.mem_cons_self, rfl, ?_⟩
  exact .formula (Chart.columnFor_of_source hy) hcolumn (.inr rfl)

/-- What no two origins clash at is there in the end. -/
theorem carried_of_free {d : Document} (hrecords : Records (Rendering.writes c (g.rows c.kind)) d)
    (hregular : ∀ w ∈ Rendering.writes c (g.rows c.kind), w.Regular) {o : Origin} {u : Parameter}
    (hu : u ∈ writesOf c (g.rows c.kind) o) {param name : String} (hparam : u.name = .text param)
    (hcarries : c.Carries name u.value) (hfree : ∀ e ∈ g.rivals c.kind, Clashing c (g.rows c.kind) e.1 e.2 →
      .text param ∉ (g.rows c.kind).paramsOf e.1) : ∃ e ∈ d.entries, c.Carries name e.2 := by
  refine (carried_or_conflict hrecords hregular (mem_writes_iff.mpr ⟨o, hu⟩) hcarries).resolve_right ?_
  rw [hparam]
  exact not_conflict_at hrecords hregular (writesOnce_rows g _) (onlyRivals_rows g _) hfree

theorem carried_of_folded (hc : c.Sound s) {d : Document} (hkind : c.kind = .bar ∨ c.kind = .boxplot)
    (hcomplete : Complete .imperative c) (hrecords : Records (Rendering.writes c (Grammar.imperative.rows c.kind)) d)
    (hregular : ∀ w ∈ Rendering.writes c (Grammar.imperative.rows c.kind), w.Regular) {name : String}
    (hgroup : c.source? .group = some (.column name)) : ∃ e ∈ d.entries, c.Carries name e.2 := by
  rcases hkind with hkind | hkind
  · obtain ⟨x, hx⟩ := hcomplete.exists_column hc (r := .x) (by rw [hkind]; decide)
    obtain ⟨o, u, hu, hname, hcarries⟩ :=
      exists_write_of_bars hx (fun source hsource => hc.exists_column (by decide) hsource) hgroup
    have hrows : Grammar.imperative.rows c.kind = Imperative.bar := by rw [hkind]; rfl
    have hfree (param : String) (hparam : param ≠ "col") : ∀ e ∈ Grammar.imperative.rivals c.kind,
        Clashing c (Grammar.imperative.rows c.kind) e.1 e.2 →
          .text param ∉ (Grammar.imperative.rows c.kind).paramsOf e.1 := by
      rw [hrows, hkind]
      simp only [Grammar.rivals, List.forall_mem_cons, List.not_mem_nil, false_implies, implies_true, and_true]
      refine ⟨fun hclash => absurd hclash (not_clashing_heights (by decide) rfl rfl), fun _ => ?_⟩
      rw [show Imperative.bar.paramsOf (.role .fill) = [.text "col", .text "col"] from rfl]
      simpa using hparam
    rw [← hrows] at hu
    rcases hname with hname | hname
    · exact carried_of_free hrecords hregular hu hname hcarries (hfree _ (by decide))
    · exact carried_of_free hrecords hregular hu hname hcarries (hfree _ (by decide))
  · obtain ⟨y, hy⟩ := hcomplete.exists_column hc (r := .y) (by rw [hkind]; decide)
    obtain ⟨o, u, hu, hname, hcarries⟩ := exists_write_of_boxes hy hgroup
    have hrows : Grammar.imperative.rows c.kind = Imperative.boxplot := by rw [hkind]; rfl
    rw [← hrows] at hu
    refine carried_of_free hrecords hregular hu hname hcarries ?_
    rw [hrows, hkind]
    simp only [Grammar.rivals, List.forall_mem_cons, List.not_mem_nil, false_implies, implies_true, and_true]
    rw [show Imperative.boxplot.paramsOf (.role .fill) = [.text "col", .text "col"] from rfl]
    simp

/-- No column that a rendering is asked for is lost silently, in whatever grammar: each column that is bound to a
role, and the column of the facet, is there in the end, or there is a conflict at the parameter that is written for
it. -/
theorem no_column_lost {k : Desk} (hk : k.Reachable) {grammar : String} {out : Rendering}
    (h : ofChart .shipped k.chart grammar false = .ok out) :
    ∃ rows, rowsFor .shipped k.chart grammar = .ok rows ∧
      (∀ r name, k.chart.source? r = some (.column name) → Kept k.chart rows out (.role r) name) ∧
      ∀ name, k.chart.facet? = some name → Kept k.chart rows out .facet name := by
  obtain ⟨rows, d, hrows, hout, hregular, hrecords⟩ := records_of_ofChart regular_shipped hk h
  obtain ⟨g, rfl⟩ := exists_grammar_of_rowsFor hrows
  obtain ⟨hmissing, rfl⟩ := rowsFor_name_eq_ok_iff.mp hrows
  have htakes := takesAny_rows g k.chart.kind
  have hkept {o : Origin} {u : Parameter} {name : String} (hu : u ∈ writesOf k.chart (g.rows k.chart.kind) o)
      (hcarries : k.chart.Carries name u.value) : Kept k.chart (g.rows k.chart.kind) out o name := by
    subst hout
    exact (carried_or_conflict hrecords hregular (mem_writes_iff.mpr ⟨o, hu⟩) hcarries).imp_right
      fun hconflict => ⟨u, hu, hconflict⟩
  refine ⟨_, hrows, fun r name hsource => ?_, fun name hfacet => ?_⟩
  · by_cases hfolded : g = .imperative ∧ r = .group ∧ (k.chart.kind = .bar ∨ k.chart.kind = .boxplot)
    · obtain ⟨rfl, rfl, hkind⟩ := hfolded
      subst hout
      exact .inl (carried_of_folded hk.sound hkind (missingRole?_rows.mp hmissing) hrecords hregular hsource)
    · obtain ⟨row, hrow, hhandles⟩ := handles_of_ok hk.sound hrows htakes h hsource
      obtain ⟨w, hw⟩ := Option.isSome_iff_exists.mp hhandles
      have hkeeps := keeps_rows g k.chart.kind r hfolded
      rw [hrow, Option.all_some, hw, Option.all_some] at hkeeps
      obtain ⟨u, hu, hcarries⟩ := exists_write_of_keeps hrow hw (takesAny_column hrow hw) hkeeps hsource
      exact hkept hu hcarries
  · obtain ⟨row, hrow⟩ := facet?_of_ok hk.sound hrows htakes h hfacet
    obtain ⟨u, hu, hcarries⟩ := exists_write_of_facet hrow hfacet
    exact hkept hu hcarries

end Shipped

/-- A bar chart, faceted, whose bars are grouped by one column and filled by another. -/
def Desk.filledGroups : Desk :=
  (Desk.mk .empty { kind := .bar, facetLimit := 12 }).run [
    .define (.text "day") (.text "categorical") .null,
    .define (.text "sex") (.text "categorical") .null,
    .define (.text "smoker") (.text "logical") .null,
    .bind (.text "x") (.text "day"),
    .bind (.text "group") (.text "sex"),
    .bind (.text "fill") (.text "smoker"),
    .setFacet (.text "day")]

theorem Desk.reachable_filledGroups : Desk.filledGroups.Reachable :=
  Desk.reachable_new .bar _

namespace Shipped

open Rendering Document

/-- The layered grammar maps the fill over the group, and says so; the facet's column is there. -/
theorem no_column_lost_filledGroups :
    Desk.filledGroups.Reachable ∧ ∃ out rows, ofChart .shipped Desk.filledGroups.chart "layered" false = .ok out ∧
      rowsFor .shipped Desk.filledGroups.chart "layered" = .ok rows ∧
      Kept Desk.filledGroups.chart rows out (.role .group) "sex" ∧
      Kept Desk.filledGroups.chart rows out .facet "day" ∧
      out.parameters = [(.text "geom", .text "geom_bar"), (.text "aes.x", .text "day"),
        (.text "aes.fill", .text "smoker"), (.text "facet_wrap", .text "~day")] := by
  have hreach := Desk.reachable_filledGroups
  obtain ⟨out, hout, hparameters⟩ : ∃ out, ofChart .shipped Desk.filledGroups.chart "layered" false = .ok out ∧
      out.parameters = [(.text "geom", .text "geom_bar"), (.text "aes.x", .text "day"),
        (.text "aes.fill", .text "smoker"), (.text "facet_wrap", .text "~day")] := ⟨_, rfl, rfl⟩
  obtain ⟨rows, hrows, hroles, hfacet⟩ := no_column_lost hreach hout
  exact ⟨hreach, out, rows, hout, hrows, hroles .group "sex" rfl, hfacet "day" rfl, hparameters⟩

end Shipped

end ChartGrammar
