import ChartGrammar.Proofs.Chart.History
import ChartGrammar.Proofs.Chart.RoundTrip
import ChartGrammar.Proofs.Rendering.Insertion

/-! The number of panels. The limit with which a chart was created is not looked up again, whatever becomes of the
environment: from then on a numeric facet whose number of distinct values is not known to stay within this very limit is
warned of once, and the warning is the last thing that is found in every rendering of the chart. -/

namespace ChartGrammar

namespace Chart

variable {c : Chart} {column : Column}

/-- The column is numeric, and it is not known that the number of its distinct values is within the limit. -/
def Overflows (limit : Int) (column : Column) : Prop :=
  column.type = .numeric ∧ ∀ n, column.cardinality = some n → (Number.whole limit).lt n = true

/-- The finding about the facet says that there may be too many panels. -/
def IsPanelWarning (f : Diagnostic) : Prop :=
  f.severity = .warning ∧ f.code = .facetCardinality ∧ f.key = .text Role.facet.name

/-- A column that overflows is warned of, and no other. -/
theorem facetFinding?_of_overflows (h : Overflows c.facetLimit column) :
    ∃ f, c.facetFinding? column = some f ∧ IsPanelWarning f := by
  obtain ⟨htype, hcount⟩ := h
  unfold facetFinding?
  cases hcardinality : column.cardinality with
  | none =>
      simp only [htype]
      exact ⟨_, rfl, rfl, rfl, rfl⟩
  | some n =>
      simp only [htype, hcount n hcardinality]
      exact ⟨_, rfl, rfl, rfl, rfl⟩

theorem facetFinding?_of_not_overflows (h : ¬Overflows c.facetLimit column) : c.facetFinding? column = none := by
  by_contra hfound
  obtain ⟨f, hf⟩ := Option.ne_none_iff_exists'.mp hfound
  apply h
  simp only [facetFinding?, Option.ite_none_right_eq_some, Bool.and_eq_true, beq_iff_eq] at hf
  obtain ⟨⟨htype, hexcessive⟩, -⟩ := hf
  refine ⟨htype, fun n hn => ?_⟩
  rw [hn] at hexcessive
  exact hexcessive

end Chart

/-! ### Sketches -/

namespace Easel

variable {e : Easel} {limit : Int}

/-- The facet is set to a column that overflows. -/
def Overflows (limit : Int) (e : Easel) : Prop :=
  ∃ name column, e.sketch.facet? = some name ∧ e.schema.find? name = some column ∧ Chart.Overflows limit column

/-- The sketch has one warning of its panels if its facet overflows and no finding otherwise, and what it has ends every
rendering of the chart, which says nothing else about panels. -/
structure WarnsOfPanels (limit : Int) (e : Easel) : Prop where
  warned : Overflows limit e → ∃ f, e.sketch.findings = [f] ∧ Chart.IsPanelWarning f
  silent : ¬Overflows limit e → e.sketch.findings = []
  last : ∀ (r : Registry) (grammar : String) (strict : Bool) (out : Rendering),
    Rendering.ofChart r e.sketch.chart grammar strict = .ok out →
      ∃ before, out.diagnostics = before ++ e.sketch.findings ∧ ∀ f ∈ before, f.code ≠ .facetCardinality

theorem findings_of_reachable (h : e.desk.Reachable) : e.sketch.findings =
    ((e.sketch.facet?.bind e.schema.find?).bind e.sketch.chart.facetFinding?).toList :=
  h.settled.findings

theorem warned_of_overflows (h : e.desk.Reachable) (hoverflows : Overflows e.sketch.facetLimit e) :
    ∃ f, e.sketch.findings = [f] ∧ Chart.IsPanelWarning f := by
  obtain ⟨name, column, hfacet, hfound, hcolumn⟩ := hoverflows
  obtain ⟨f, hf, hwarning⟩ := Chart.facetFinding?_of_overflows (c := e.sketch.chart) hcolumn
  refine ⟨f, ?_, hwarning⟩
  rw [findings_of_reachable h, hfacet, Option.bind_some, hfound, Option.bind_some, hf]
  rfl

theorem silent_of_not_overflows (h : e.desk.Reachable) (hoverflows : ¬Overflows e.sketch.facetLimit e) :
    e.sketch.findings = [] := by
  rw [findings_of_reachable h]
  cases hfacet : e.sketch.facet? with
  | none => rfl
  | some name =>
      rw [Option.bind_some]
      cases hfound : e.schema.find? name with
      | none => rfl
      | some column =>
          rw [Option.bind_some, Chart.facetFinding?_of_not_overflows]
          · rfl
          · exact fun hcolumn => hoverflows ⟨name, column, hfacet, hfound, hcolumn⟩

end Easel

namespace Rendering

variable {c : Chart} {rows : KindRows} {r : Registry} {grammar : String} {strict : Bool} {out : Rendering}

/-- The finding is about the number of panels. -/
def ofPanels (f : Diagnostic) : Bool :=
  f.code == .facetCardinality

theorem not_ofPanels {f : Diagnostic} (h : f.code ≠ .facetCardinality) : ofPanels f = false :=
  beq_false_of_ne h

/-- Up to the findings of the chart itself, nothing is said about panels. -/
theorem silent_beforeFindings : SilentOn ofPanels (kindSteps c grammar rows
    ++ c.bindings.flatMap (bindingSteps c grammar rows) ++ c.bindings.flatMap (carriedSteps c rows)
    ++ c.styles.flatMap (styleSteps r c grammar rows) ++ facetSteps c grammar rows) := by
  have hconflict (f : Diagnostic) (h : f.code = .conflict) : ofPanels f = false :=
    not_ofPanels (by rw [h]; decide)
  have hexplained (key : String) (message : Value) : ofPanels (finding .info .explained message key) = false := rfl
  refine SilentOn.append (.append (.append (.append ?_ ?_) ?_) ?_) ?_
  · exact silent_kindSteps hconflict (hexplained _)
  · exact .flatMap fun b _ => silent_bindingSteps hconflict (hexplained _) fun _ _ _ => rfl
  · exact .flatMap fun b _ => silent_carriedSteps (fun _ _ _ _ => rfl) b
  · exact .flatMap fun e _ => silent_styleSteps hconflict fun _ _ _ hcode => not_ofPanels hcode
  · exact silent_facetSteps hconflict (hexplained _)

/-- A rendering ends with the findings of the chart, and what comes before them is not about panels. -/
theorem exists_before_of_ofChart (h : ofChart r c grammar strict = .ok out) :
    ∃ before, out.diagnostics = before ++ c.diagnostics ∧ ∀ f ∈ before, f.code ≠ .facetCardinality := by
  obtain ⟨rows, -, h⟩ := bind_eq_ok_iff.mp h
  obtain ⟨d, hrun, hout⟩ := bind_eq_ok_iff.mp h
  cases hout
  rw [steps, Document.run_append] at hrun
  obtain ⟨middle, hmiddle, hlast⟩ := bind_eq_ok_iff.mp hrun
  rw [Document.run_reports] at hlast
  cases hlast
  refine ⟨middle.findings, rfl, fun f hf hcode => ?_⟩
  have hnone : middle.findings.filter ofPanels = [] := Document.filter_run silent_beforeFindings hmiddle
  exact List.filter_eq_nil_iff.mp hnone f hf (beq_iff_eq.mpr hcode)

end Rendering

namespace Easel

open Settings (Misgiven FixesLimit readLimit limitVariable)

theorem create_name (kind : Kind) (env : Environment) (limit : Value) : Sketch.create env (.text kind.name) limit =
    (Chart.readFacetLimit env limit).map fun n => { kind, facetLimit := n } := by
  have hkind : Vocabulary.ofValue? (.text kind.name) = some kind := Vocabulary.ofValue?_eq_some_iff.mpr rfl
  rw [Sketch.create, Chart.create, hkind]
  cases Chart.readFacetLimit env limit <;> rfl

/-- What is found on a sketch after calls is about the limit that it was created with. -/
theorem warnsOfPanels_run {s : Schema} (hs : s.Built) {env : Environment} {kind limit : Value} {k : Sketch}
    (hcreate : Sketch.create env kind limit = .ok k) (calls : List Call) :
    WarnsOfPanels k.facetLimit ((Easel.mk s k).run calls) := by
  have hdesk := desk_run ⟨s, k⟩ calls
  have hreach : ((Easel.mk s k).run calls).desk.Reachable := by
    rw [hdesk]
    exact (Desk.Reachable.create hs (Sketch.chart_of_create hcreate).1).run calls
  have hlimit : ((Easel.mk s k).run calls).sketch.facetLimit = k.facetLimit := by
    have hkept := Desk.facetLimit_run ⟨s, k.chart⟩ calls
    rwa [show (Desk.mk s k.chart).run calls = ((Easel.mk s k).run calls).desk from hdesk.symm] at hkept
  rw [← hlimit]
  exact ⟨warned_of_overflows hreach, silent_of_not_overflows hreach,
    fun r grammar strict out h => Rendering.exists_before_of_ofChart h⟩

/-- Where a limit that is given can be written, and the place of the tables can be read if none is given, a sketch of a
kind is created unless its limit is misgiven, and then it is a fault of construction. The limit that was fixed decides
after any calls whether the sketch has the warning of its panels, and with it every rendering. -/
theorem panels_warned_after_calls {s : Schema} (hs : s.Built) (kind : Kind) (env : Environment) (limit : Value)
    (hlegible : limit.legible = true) (htables : limit = .null → ∃ tables, Settings.readTables env = .ok tables) :
    let created := Sketch.create env (.text kind.name) limit
    ((∃ fault, created = .error fault) ↔ Misgiven readLimit env limit) ∧
    (∀ fault, created = .error fault → ∃ f, fault = .construction f ∧
      (f = .facetLimitNotPositive limit ∨ ∃ g, f = .settings g)) ∧
    ∀ k, created = .ok k → ∃ n, FixesLimit env limit n ∧ ∀ calls : List Call,
      WarnsOfPanels n ((Easel.mk s k).run calls) := by
  intro created
  have hcreated : created = (Chart.readFacetLimit env limit).map fun n => { kind, facetLimit := n } :=
    create_name kind env limit
  cases Settings.limitCase env limit with
  | fixed n hfixes hgiven _ hread =>
      rw [hread] at hcreated
      refine ⟨iff_of_false ?_ hgiven, fun fault h => ?_, fun k h => ⟨n, hfixes, fun calls => ?_⟩⟩
      · rintro ⟨fault, h⟩
        rw [hcreated] at h
        cases h
      · rw [hcreated] at h
        cases h
      · have hwarns := warnsOfPanels_run hs h calls
        rw [hcreated] at h
        cases h
        exact hwarns
  | refused f hmisgiven _ hf hread =>
      rw [hread] at hcreated
      refine ⟨iff_of_true ⟨_, hcreated⟩ hmisgiven, fun fault h => ?_, fun k h => ?_⟩
      · rw [hcreated] at h
        cases h
        exact ⟨f, rfl, hf⟩
      · rw [hcreated] at h
        cases h
  | illegible _ hillegible _ =>
      rw [hlegible] at hillegible
      cases hillegible
  | homeless hnull _ hhomeless _ =>
      obtain ⟨tables, hok⟩ := htables hnull
      rw [hhomeless] at hok
      cases hok

/-- Blanks around the limit of the environment are dropped. A further facet is refused, and nothing is said twice. -/
theorem panels_warned_after_calls_ages :
    let env : Environment := { bindings := [(limitVariable, " +5 ")] }
    let calls := [
      Call.define (.text "age") (.text "numeric") (.int 6),
      .bind (.text "facet") (.text "age"),
      .setFacet (.text "age")]
    let sketch : Sketch := { kind := .bar, facetLimit := 5 }
    let e := (Easel.mk .empty sketch).run calls
    Schema.Built .empty ∧ Settings.readTables env = .ok .shipped ∧ Sketch.create env (.text "bar") .null = .ok sketch ∧
      ∃ f, e.sketch.findings = [f] ∧ Chart.IsPanelWarning f := by
  intro env calls sketch e
  have htables : Settings.readTables env = .ok .shipped := rfl
  have hcreate : Sketch.create env (.text "bar") .null = .ok sketch := rfl
  obtain ⟨-, -, hfixed⟩ := panels_warned_after_calls .empty .bar env .null rfl fun _ => ⟨_, htables⟩
  obtain ⟨n, hfixes, hwarns⟩ := hfixed sketch hcreate
  have hfive : n = 5 := by
    cases hfixes with
    | set hset hread =>
        cases hset
        have hplus : readLimit " +5 " = some 5 := rfl
        rw [hplus] at hread
        exact (Option.some.inj hread).symm
    | default hunset => cases hunset
  subst hfive
  have hoverflows : Overflows 5 e := by
    refine ⟨"age", ⟨"age", .numeric, some (.whole 6)⟩, by decide, by decide +kernel, rfl, fun m hm => ?_⟩
    cases hm
    decide
  exact ⟨.empty, htables, hcreate, (hwarns calls).warned hoverflows⟩

/-- A separator before the limit of the environment is dropped like a blank, although no integer is read with it. A limit
below one of too many digits is misgiven, and yet no fault of construction; and a home directory that is not known is in
the way where no limit is misgiven. -/
theorem not_misgiven_separator :
    (¬ ∀ (kind : Kind) (env : Environment) (limit : Value),
      (∃ fault, Sketch.create env (.text kind.name) limit = .error fault) ↔ Misgiven Text.integer? env limit) ∧
    (Misgiven readLimit {} (.int (-Text.leastTooLong)) ∧
      Sketch.create {} (.text "bar") (.int (-Text.leastTooLong)) = .error (.misuse .tooLong)) ∧
    ¬Misgiven readLimit { bindings := [(Settings.tablesVariable, "~nobody/tables")] } .null ∧
      Sketch.create { bindings := [(Settings.tablesVariable, "~nobody/tables")] } (.text "bar") .null =
        .error (.misuse .homeless) := by
  have hbelow {n : Int} (hneg : n < 1) (hlong : (Value.int n).legible = false) :
      Misgiven readLimit {} (.int n) ∧ Sketch.create {} (.text "bar") (.int n) = .error (.misuse .tooLong) := by
    refine ⟨.given (fun h => Value.noConfusion h) fun m hm => by rwa [← Value.int.inj hm], ?_⟩
    have hread : Chart.readFacetLimit {} (.int n) = .error (.misuse .tooLong) := by
      rw [Chart.readFacetLimit, if_pos hneg, Fault.about_of_not_legible hlong]
    exact (create_name .bar {} (.int n)).trans (by rw [hread]; rfl)
  refine ⟨fun h => ?_, hbelow ?_ ?_, ?_, rfl⟩
  · have hread : Text.integer? "\x1f5" = none := rfl
    have hmisgiven : Misgiven Text.integer? { bindings := [(limitVariable, "\x1f5")] } .null := by
      refine .set rfl fun n hn => ?_
      rw [hread] at hn
      cases hn
    obtain ⟨fault, hfault⟩ := (h .bar _ .null).mpr hmisgiven
    cases hfault
  · have hpos : 0 < Text.leastTooLong := Text.leastTooLong_pos
    omega
  · rw [Value.legible_neg]
    exact Value.legible_leastTooLong
  · rw [Settings.misgiven_null_iff]
    rintro ⟨_, hset, -⟩
    cases hset

end Easel

end ChartGrammar
