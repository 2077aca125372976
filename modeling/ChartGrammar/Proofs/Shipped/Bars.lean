import ChartGrammar.Proofs.Rendering.StyleKeys
import ChartGrammar.Proofs.Shipped.Conflicts
import ChartGrammar.Proofs.Shipped.Groups

/-! Bars in the imperative grammar. The counts of what stands along the axis, the heights that are bound and the layout of
the groups are written by three writers, each of which looks for the column that splits the bars. They all find the same
one; and both grammars tell counted bars from bars with heights in the same way. -/

namespace ChartGrammar

open Shipped

namespace Chart

variable {c : Chart} {x g : String}

/-- The column, if any, that the bars along a column are split by: the group's, or else the fill's, but in no case the
column along the axis itself. -/
structure SplitBy (c : Chart) (x : String) (group? : Option String) : Prop where
  isSome_iff : group?.isSome = true ↔ ∃ r ∈ [Role.group, .fill], ∃ g, c.source? r = some (.column g) ∧ g ≠ x
  group : ∀ g, c.source? .group = some (.column g) → g ≠ x → group? = some g
  fill : (∀ g, c.source? .group = some (.column g) → g = x) →
    ∀ g, c.source? .fill = some (.column g) → g ≠ x → group? = some g

theorem otherColumn_eq_some_iff {r : Role} :
    c.otherColumn (some x) r = some g ↔ c.source? r = some (.column g) ∧ g ≠ x := by
  rw [otherColumn, Option.filter_eq_some_iff]
  constructor
  · rintro ⟨hcolumn, hother⟩
    exact ⟨source_of_columnFor hcolumn, by simpa using hother⟩
  · rintro ⟨hsource, hother⟩
    exact ⟨columnFor_of_source hsource, by simpa using hother⟩

theorem splitBy_splitter (c : Chart) (x : String) : c.SplitBy x (c.splitter (some x)) where
  isSome_iff := by
    rw [splitter, Option.isSome_or, Bool.or_eq_true, Option.isSome_iff_exists, Option.isSome_iff_exists]
    simp only [otherColumn_eq_some_iff, List.mem_cons, List.not_mem_nil, or_false, exists_eq_or_imp, exists_eq_left]
  group := fun g hsource hother => by
    rw [splitter, otherColumn_eq_some_iff.mpr ⟨hsource, hother⟩, Option.some_or]
  fill := fun hgroup g hsource hother => by
    have hnone : c.otherColumn (some x) .group = none := by
      rw [Option.eq_none_iff_forall_ne_some]
      intro name hname
      obtain ⟨hsource, hother⟩ := otherColumn_eq_some_iff.mp hname
      exact hother (hgroup name hsource)
    rw [splitter, hnone, otherColumn_eq_some_iff.mpr ⟨hsource, hother⟩, Option.none_or]

end Chart

/-- The entry for the column that splits bars, if there is one. -/
def ColumnWriter.byEntry (group? : Option String) : Entries :=
  group?.toList.map fun g => (.text "by", .text g)

theorem ColumnWriter.split_eq (fields : Entries) (group? : Option String) :
    split fields group? = .dict (fields ++ byEntry group?) := by
  cases group? with
  | none => simp [split, byEntry]
  | some g => rfl

namespace Rendering

variable {r : Registry} {c : Chart} {t : Table} {rows : KindRows} {strict : Bool} {d : Document} {k : StyleKey}
  {u v : Value} {row : StyleRow}

/-- All that is found about a style key whose row arranges the chart, and does not crop, is the explanation. -/
theorem Taken.about_arranged (h : Taken r c t rows strict d) (hset : c.style? k = some v)
    (hrow : rows.style? k = some row) (hcropping : row.cropping = none) {arranger : Arranger}
    (harranged : row.realization = .arranged arranger) {a : Arrangement} (hrun : arranger.run v c = .ok a) :
    about ⟨t.grammar, c.kind, d.entries, d.findings⟩ k = [finding .info .explained (.text a.explanation) k.name] := by
  rw [about, h.filter_styleKey?, hset, Option.elim_some, styleReports, styleSteps, hrow]
  simp only [hcropping, List.append_nil, styleRowSteps, harranged, hrun, attempt, List.filterMap_append, report?_writes]
  rfl

/-! ### What is written for bars -/

variable {x y : String}

theorem owned_height : Imperative.bar.OwnedBy "height" [.role .x, .role .y] := by
  decide +kernel

theorem owned_labels : Imperative.bar.OwnedBy "names.arg" [.role .x] := by
  decide +kernel

theorem puts_heights (hx : c.source? .x = some (.column x)) (hy : c.source? .y = some (.column y)) :
    (Puts c Imperative.bar "height" v ↔
      some (.dict ([(.text "column", .text y)] ++ ColumnWriter.byEntry (c.splitter (some x)))) = some v) ∧
    (Puts c Imperative.bar "names.arg" v ↔ some (.dict [(.text "column", .text x)]) = some v) := by
  have haxis := Chart.columnFor_of_source hx
  have hlabels := writesOf_x_labels hx (by rw [hy]; rfl)
  have hheights := writesOf_y_heights hy
  rw [puts_iff owned_height, puts_iff owned_labels]
  simp only [List.mem_cons, List.not_mem_nil, or_false, exists_eq_or_imp, exists_eq_left, hlabels, hheights, haxis,
    ColumnWriter.split_eq]
  simp

theorem puts_counts (hx : c.source? .x = some (.column x)) (hy : c.source? .y = none) :
    (Puts c Imperative.bar "height" v ↔ some (.dict ([(.text "column", .text x), (.text "stat", .text "count")]
      ++ ColumnWriter.byEntry (c.splitter (some x)))) = some v) ∧
    (Puts c Imperative.bar "names.arg" v ↔ none = some v) := by
  have hcounts := writesOf_x_counted hx hy
  have hnone : writesOf c Imperative.bar (.role .y) = [] := by
    rw [writesOf, hy]
    rfl
  rw [puts_iff owned_height, puts_iff owned_labels]
  simp only [List.mem_cons, List.not_mem_nil, or_false, exists_eq_or_imp, exists_eq_left, hcounts, hnone,
    ColumnWriter.split_eq]
  simp

/-- The arranger of bars in the imperative grammar. -/
def barArranger : Arranger :=
  .groupedBars (.text "beside") (.text "height.scale") (.tuple [.text "group", .text "fill"])

/-- The arrangement of bars for a layout: what it draws where a column splits the bars, which its explanation names. -/
structure LaysOut (group? : Option String) (layout : String) (a : Arrangement) : Prop where
  beside : ∀ v, (.text "beside", v) ∈ a.fragments ↔ (group?.map fun _ => .bool (layout == "dodge")) = some v
  scale : ∀ v, (.text "height.scale", v) ∈ a.fragments ↔
    (if layout = "fill" then group?.map fun _ => .text "proportion" else none) = some v
  named : ∀ g, group? = some g → ∃ before after, a.explanation = before ++ Text.quoted g ++ after

/-- A layout can be arranged in every chart: the texts in it can be written. -/
theorem exists_laysOut (hx : c.columnFor .x = some x) {layout : String} (hlayout : layout ∈ Shape.groupLayouts) :
    ∃ a, barArranger.run (.text layout) c = .ok a ∧ LaysOut (c.splitter (some x)) layout a := by
  have hgrouping : c.grouping (.tuple [.text "group", .text "fill"]) (c.columnFor .x) = .ok (c.splitter (some x)) := by
    rw [← hx]
    exact Chart.grouping_groupRoles
  rw [barArranger, Arranger.run, hgrouping]
  cases c.splitter (some x) with
  | none => exact ⟨_, rfl, by simp, by simp, by simp⟩
  | some g =>
      simp only [Shape.groupLayouts, List.mem_cons, List.not_mem_nil, or_false] at hlayout
      rcases hlayout with rfl | rfl | rfl
      all_goals
        refine ⟨_, rfl, fun v => by simp [eq_comm], fun v => by simp [eq_comm], fun _ hg => ?_⟩
        cases hg
      · exact ⟨_, _, by rw [String.append_assoc, String.append_assoc]⟩
      · exact ⟨_, _, rfl⟩
      · exact ⟨_, _, by rw [String.append_assoc, String.append_assoc]⟩

theorem puts_layout_iff {name : String} (howned : Imperative.bar.OwnedBy name [.style .groupLayout]) {a : Arrangement}
    (hset : c.style? .groupLayout = some u) (hrun : barArranger.run u c = .ok a) :
    Puts c Imperative.bar name v ↔ (.text name, v) ∈ a.fragments := by
  have hrow : Imperative.bar.style? .groupLayout = some ⟨.arranged barArranger, none, .null⟩ := rfl
  have houtcome : (Realization.arranged barArranger).outcome c u = .ok a.fragments := by
    rw [Realization.outcome, hrun]
    rfl
  rw [puts_iff howned]
  simp [writesOf, hset, styleWrites_of_row hrow, houtcome, written, Entries.writes]

theorem not_puts_layout {name : String} (howned : Imperative.bar.OwnedBy name [.style .groupLayout])
    (hunset : c.style? .groupLayout = none) : ¬ Puts c Imperative.bar name v := by
  rw [puts_iff howned]
  simp [writesOf, hunset]

end Rendering

namespace Shipped

open Rendering

/-- What the imperative grammar makes of bars along a column: their heights or counts, split by a group's column if there
is one, and the layout of the groups. -/
structure DrawsBars (c : Chart) (x : String) (group? : Option String) (out : Rendering) : Prop where
  /-- Heights that are bound are drawn, with the bars labelled by what stands along the axis. -/
  heights : ∀ source, c.source? .y = some source → ∃ y, source = .column y ∧
    out.HasAt "height" (some (.dict ([(.text "column", .text y)] ++ ColumnWriter.byEntry group?))) ∧
    out.HasAt "names.arg" (some (.dict [(.text "column", .text x)]))
  /-- Otherwise what stands along the axis is counted, and there are no labels. -/
  counts : c.source? .y = none →
    out.HasAt "height" (some (.dict ([(.text "column", .text x), (.text "stat", .text "count")]
      ++ ColumnWriter.byEntry group?))) ∧
    out.HasAt "names.arg" none
  /-- A layout is drawn where bars are split, and the explanation names the column that splits them. -/
  layout : ∀ v, c.style? .groupLayout = some v → ∃ layout ∈ Shape.groupLayouts, v = .text layout ∧
    out.HasAt "beside" (group?.map fun _ => .bool (layout == "dodge")) ∧
    out.HasAt "height.scale" (if layout = "fill" then group?.map fun _ => .text "proportion" else none) ∧
    ∀ g, group? = some g → ∃ f before after, out.about .groupLayout = [f] ∧ f.code = .explained ∧
      f.message = .text (before ++ Text.quoted g ++ after)
  noLayout : c.style? .groupLayout = none → out.HasAt "beside" none ∧ out.HasAt "height.scale" none

variable {k : Desk} {out : Rendering} {strict : Bool}

/-- In the layered grammar the geometry tells whether heights are bound. -/
theorem hasAt_geom (hk : k.Reachable) (hkind : k.chart.kind = .bar)
    (h : ofChart .shipped k.chart "layered" strict = .ok out) :
    out.HasAt "geom" (some (.text (if k.chart.hasRole .y then "geom_col" else "geom_bar"))) := by
  have howned : Layered.bar.OwnedBy "geom" [.kind] := by decide +kernel
  refine hasAt_of_rows (g := .layered) hk h fun v => ?_
  rw [hkind]
  refine (puts_iff howned).trans ?_
  simp only [List.mem_singleton, exists_eq_left, Option.some.injEq]
  show (∃ w ∈ [Parameter.mk (.text "geom") (if k.chart.hasRole .y then .text "geom_col" else .text "geom_bar") .kind], _)
    ↔ _
  cases k.chart.hasRole .y <;> simp

theorem about_groupLayout (hk : k.Reachable) (hkind : k.chart.kind = .bar)
    (h : ofChart .shipped k.chart "imperative" strict = .ok out) {v : Value} (hset : k.chart.style? .groupLayout = some v)
    {a : Arrangement} (hrun : barArranger.run v k.chart = .ok a) :
    out.about .groupLayout = [finding .info .explained (.text a.explanation) StyleKey.groupLayout.name] := by
  obtain ⟨rows, d, hrows, hd, rfl⟩ := ofChart_eq_ok_iff.mp h
  obtain ⟨-, rfl⟩ := rowsFor_name_eq_ok_iff (g := .imperative).mp hrows
  have htaken : Taken .shipped k.chart Imperative.table (Grammar.imperative.rows k.chart.kind) strict d :=
    ⟨Registry.fit_of_ofTables Registry.ofTables_shipped, List.mem_cons_self, Grammar.kind?_table .imperative _,
      hk.code_eq, hd⟩
  rw [hkind] at htaken
  exact htaken.about_arranged hset rfl rfl rfl hrun

theorem drawsBars (hk : k.Reachable) (hkind : k.chart.kind = .bar)
    (h : ofChart .shipped k.chart "imperative" strict = .ok out) {x : String}
    (hx : k.chart.source? .x = some (.column x)) : DrawsBars k.chart x (k.chart.splitter (some x)) out := by
  have haxis := Chart.columnFor_of_source hx
  have hhas {param : String} {v? : Option Value} (hputs : ∀ v, Puts k.chart Imperative.bar param v ↔ v? = some v) :
      out.HasAt param v? := by
    refine hasAt_of_rows (g := .imperative) hk h fun v => ?_
    rw [hkind]
    exact hputs v
  have hbeside : Imperative.bar.OwnedBy "beside" [.style .groupLayout] := by decide +kernel
  have hscale : Imperative.bar.OwnedBy "height.scale" [.style .groupLayout] := by decide +kernel
  constructor
  case heights =>
    intro source hsource
    obtain ⟨y, rfl⟩ := hk.sound.exists_column (by decide) hsource
    exact ⟨y, rfl, hhas fun v => (puts_heights hx hsource).1, hhas fun v => (puts_heights hx hsource).2⟩
  case counts =>
    intro hnone
    exact ⟨hhas fun v => (puts_counts hx hnone).1, hhas fun v => (puts_counts hx hnone).2⟩
  case layout =>
    intro v hset
    have hnormal := Chart.normalizeStyle_eq_ok_iff.mp (hk.sound.style .groupLayout v hset)
    obtain ⟨layout, hlayout, rfl⟩ := exists_text_of_word hnormal
    obtain ⟨a, hrun, hlays⟩ := exists_laysOut haxis hlayout
    refine ⟨layout, hlayout, rfl, hhas fun v => ?_, hhas fun v => ?_, fun g hg => ?_⟩
    · exact (puts_layout_iff hbeside hset hrun).trans (hlays.beside v)
    · exact (puts_layout_iff hscale hset hrun).trans (hlays.scale v)
    · obtain ⟨before, after, hnamed⟩ := hlays.named g hg
      exact ⟨_, before, after, about_groupLayout hk hkind h hset hrun, rfl, congrArg Value.text hnamed⟩
  case noLayout =>
    intro hunset
    constructor
    · exact hhas fun v => iff_of_false (not_puts_layout hbeside hunset) nofun
    · exact hhas fun v => iff_of_false (not_puts_layout hscale hunset) nofun

/-- Bars in both grammars. A bar chart that the imperative grammar renders stands along a column; its heights are those
that are bound, with labels, or else counts, without; they are split by the first column of the group and the fill
that is not the one along the axis, and the layout of the groups is drawn and explained for the same column. The
layered grammar renders the chart as well, and chooses the geometry of heights exactly if there are labels here. -/
theorem bars_by_group {k : Desk} (hk : k.Reachable) (hkind : k.chart.kind = .bar) {out : Rendering}
    (h : ofChart .shipped k.chart "imperative" false = .ok out) :
    ∃ x group?, k.chart.source? .x = some (.column x) ∧ k.chart.SplitBy x group? ∧ DrawsBars k.chart x group? out ∧
      (∃ other, ofChart .shipped k.chart "layered" false = .ok other) ∧
      ∀ strict other, ofChart .shipped k.chart "layered" strict = .ok other →
        ((.text "geom", .text "geom_col") ∈ other.parameters ↔ ∃ v, (.text "names.arg", v) ∈ out.parameters) := by
  obtain ⟨rows, d, hrows, -⟩ := ofChart_eq_ok_iff.mp h
  have hcomplete : Complete .imperative k.chart := missingRole?_rows.mp (rowsFor_name_eq_ok_iff.mp hrows).1
  obtain ⟨x, hx⟩ := hcomplete.exists_column hk.sound (r := .x) (by rw [hkind]; decide)
  have hbars := drawsBars hk hkind h hx
  refine ⟨x, _, hx, Chart.splitBy_splitter k.chart x, hbars, ?_, fun strict other hother => ?_⟩
  · refine ok_of_complete (g := .layered) hk ?_ (fun hlines => nomatch hlines.1) (.inr ⟨?_, ?_⟩)
    · intro r hr
      rw [hkind] at hr
      rw [List.mem_singleton.mp hr, hx]
      rfl
    · rw [hkind]
      decide
    · exact fun hpoints => nomatch hpoints.1
  · rw [hasAt_geom hk hkind hother, show k.chart.hasRole .y = (k.chart.source? .y).isSome from rfl]
    cases hy : k.chart.source? .y with
    | none =>
        obtain ⟨-, hlabels⟩ := hbars.counts hy
        refine iff_of_false (by simp) ?_
        rintro ⟨v, hv⟩
        exact Option.some_ne_none v ((hlabels v).mp hv).symm
    | some source =>
        obtain ⟨y, -, -, hlabels⟩ := hbars.heights source hy
        exact iff_of_true rfl ⟨_, (hlabels _).mpr rfl⟩

end Shipped

/-- A bar chart whose heights are bound, grouped by what stands along the axis and filled by another column, as
proportions. -/
def Desk.filledProportions : Desk :=
  (Desk.mk .empty { kind := .bar, facetLimit := 12 }).run [
    .define (.text "day") (.text "categorical") .null,
    .define (.text "tip") (.text "numeric") .null,
    .define (.text "sex") (.text "categorical") .null,
    .bind (.text "x") (.text "day"),
    .bind (.text "y") (.text "tip"),
    .bind (.text "group") (.text "day"),
    .bind (.text "fill") (.text "sex"),
    .setStyle (.text "groupLayout") (.text "fill")]

theorem Desk.reachable_filledProportions : Desk.filledProportions.Reachable :=
  Desk.reachable_new .bar _

namespace Shipped

open Rendering

/-- The group along the axis splits nothing, so the bars are split by the fill. -/
theorem bars_by_group_filledProportions : Desk.filledProportions.Reachable ∧ ∃ out x group?,
    ofChart .shipped Desk.filledProportions.chart "imperative" false = .ok out ∧
    Desk.filledProportions.chart.SplitBy x group? ∧ group? = some "sex" ∧
    DrawsBars Desk.filledProportions.chart x group? out ∧
    (.text "height.scale", .text "proportion") ∈ out.parameters ∧ ∃ v, (.text "names.arg", v) ∈ out.parameters := by
  have hreach := Desk.reachable_filledProportions
  obtain ⟨out, hout⟩ : ∃ out, ofChart .shipped Desk.filledProportions.chart "imperative" false = .ok out := ⟨_, rfl⟩
  obtain ⟨x, group?, hx, hsplit, hbars, -⟩ := bars_by_group hreach rfl hout
  cases hx
  have hgroup : group? = some "sex" :=
    hsplit.fill (fun g hg => by cases hg; rfl) "sex" rfl (by decide)
  obtain ⟨layout, -, hlayout, -, hscale, -⟩ := hbars.layout (.text "fill") rfl
  cases hlayout
  obtain ⟨y, -, -, hlabels⟩ := hbars.heights (.column "tip") rfl
  refine ⟨hreach, out, "day", group?, hout, hsplit, hgroup, hbars, (hscale _).mpr ?_, _, (hlabels _).mpr rfl⟩
  rw [hgroup]
  rfl

end Shipped

end ChartGrammar
