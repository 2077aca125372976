import ChartGrammar.Proofs.Chart.History
import ChartGrammar.Proofs.Rendering.OtherGrammars
import ChartGrammar.Proofs.Table.Reading

/-! What a warning about cropping lists. Its text names all other grammars whose row for the style key crops in some
way, each with its own way and in the order of their names. The text says of them that they differ; so it says the
truth exactly if none of them crops as the grammar at hand does. -/

namespace ChartGrammar

/-- The table's row for the style key crops in the given way. -/
def Table.Crops (t : Table) (kind : Kind) (key : StyleKey) (cropping : Cropping) : Prop :=
  ∃ row, t.style? kind key = some row ∧ row.cropping = some cropping

/-- A table has one row for the style key at most. -/
theorem Table.Crops.unique {t : Table} {kind : Kind} {key : StyleKey} {cropping other : Cropping}
    (h : t.Crops kind key cropping) (hother : t.Crops kind key other) : cropping = other := by
  obtain ⟨row, hrow, hcropping⟩ := h
  obtain ⟨row', hrow', hcropping'⟩ := hother
  cases hrow.symm.trans hrow'
  exact Option.some.inj (hcropping.symm.trans hcropping')

namespace Registry

/-- The row for the style key of a grammar other than the one at hand crops in the given way. -/
def CropsElsewhere (r : Registry) (kind : Kind) (key : StyleKey) (grammar : String) (m : String × Cropping) : Prop :=
  m.1 ≠ grammar ∧ ∃ t ∈ r.tables, t.grammar = m.1 ∧ t.Crops kind key m.2

variable {r : Registry} {kind : Kind} {key : StyleKey} {grammar : String}

/-- The ways of cropping are listed in strictly ascending order of the grammars' names. -/
theorem croppings_pairwise (h : Fit r.tables) (kind : Kind) (key : StyleKey) :
    (r.croppings kind key).Pairwise fun a b => a.1 < b.1 := by
  refine List.pairwise_filterMap.mpr ((sorted_pairwise h).imp fun {t u} hlt m hm n hn => ?_)
  rw [← (cropping_entry_iff t).mp hm |>.1, ← (cropping_entry_iff u).mp hn |>.1]
  exact hlt

theorem mem_filter_croppings_iff {m : String × Cropping} :
    m ∈ ((r.croppings kind key).filter fun m => m.1 != grammar) ↔ r.CropsElsewhere kind key grammar m := by
  rw [List.mem_filter, bne_iff_ne, and_comm, Registry.mem_croppings_iff]
  exact Iff.rfl

end Registry

namespace Rendering

/-! ### The text of the warning -/

/-- What is listed in the warning: the names of grammars, each with its way of cropping. -/
def listingText (listed : List (String × Cropping)) : String :=
  ", ".intercalate (listed.map fun m => m.1 ++ ": " ++ m.2.name)

/-- The text of the warning, with what is listed in it. -/
def croppingText (key : StyleKey) (cropping : Cropping) (grammar : String) (listed : List (String × Cropping)) :
    String :=
  key.name ++ " is " ++ cropping.name ++ " in grammar " ++ Text.quoted grammar ++ " (" ++ behaviour cropping
    ++ "); other grammars differ (" ++ listingText listed ++ ")."

theorem length_listingText_cons (m : String × Cropping) (listed : List (String × Cropping)) :
    (listingText (m :: listed)).length = m.1.length + 2 + m.2.name.length +
      if listed = [] then 0 else 2 + (listingText listed).length := by
  have hcolon : (": " : String).length = 2 := rfl
  have hcomma : (", " : String).length = 2 := rfl
  cases listed with
  | nil => simp [listingText, String.length_append, hcolon]
  | cons n listed =>
      simp only [listingText, List.map_cons, String.intercalate_cons_cons, String.length_append, reduceCtorEq,
        ↓reduceIte]
      omega

/-- To leave out anything makes the listing shorter. -/
theorem eq_or_length_listingText_lt {part whole : List (String × Cropping)} (h : part.Sublist whole) :
    part = whole ∨ (listingText part).length < (listingText whole).length := by
  induction h with
  | slnil => exact .inl rfl
  | @cons part whole m _ ih =>
      right
      have hlength := length_listingText_cons m whole
      by_cases hlast : whole = []
      · subst hlast
        rcases ih with rfl | hlt
        · have hempty : (listingText []).length = 0 := rfl
          omega
        · exact absurd hlt (Nat.not_lt_zero _)
      · rw [if_neg hlast] at hlength
        rcases ih with rfl | hlt <;> omega
  | @cons_cons part whole m _ ih =>
      rcases ih with rfl | hlt
      · exact .inl rfl
      · right
        have hwhole : whole ≠ [] := by
          rintro rfl
          exact Nat.not_lt_zero _ hlt
        rw [length_listingText_cons, length_listingText_cons, if_neg hwhole]
        split <;> omega

/-- So the text tells a listing from any part of it. -/
theorem eq_of_croppingText_eq {key : StyleKey} {cropping : Cropping} {grammar : String}
    {part whole : List (String × Cropping)} (h : part.Sublist whole)
    (htext : croppingText key cropping grammar part = croppingText key cropping grammar whole) : part = whole := by
  rcases eq_or_length_listingText_lt h with heq | hlt
  · exact heq
  · have hlength := congrArg String.length htext
    simp only [croppingText, String.length_append] at hlength
    omega

end Rendering

/-- The finding lists just the grammars and ways of cropping that are meant, in strictly ascending order of names. -/
def Diagnostic.Lists (f : Diagnostic) (key : StyleKey) (cropping : Cropping) (grammar : String)
    (meant : String × Cropping → Prop) : Prop :=
  ∃ listed : List (String × Cropping), listed.Pairwise (fun a b => a.1 < b.1) ∧ (∀ m, m ∈ listed ↔ meant m) ∧
    f.message = .text (Rendering.croppingText key cropping grammar listed)

/-- A finding that lists all that is meant lists what differs exactly if all that is meant differs. -/
theorem Diagnostic.Lists.differing_iff {f : Diagnostic} {key : StyleKey} {cropping : Cropping} {grammar : String}
    {meant : String × Cropping → Prop} (h : f.Lists key cropping grammar meant) :
    f.Lists key cropping grammar (fun m => meant m ∧ m.2 ≠ cropping) ↔ ∀ m, meant m → m.2 ≠ cropping := by
  obtain ⟨listed, hsorted, hmem, htext⟩ := h
  constructor
  · rintro ⟨differing, hsorted', hmem', htext'⟩ m hm
    have hpart : differing.Sublist listed :=
      sublist_of_pairwise_lt hsorted' hsorted fun n hn => (hmem n).mpr ((hmem' n).mp hn).1
    rw [htext', Value.text.injEq] at htext
    have hsame : differing = listed := Rendering.eq_of_croppingText_eq hpart htext
    exact ((hmem' m).mp (hsame ▸ (hmem m).mpr hm)).2
  · intro hdiffer
    refine ⟨listed, hsorted, fun m => ?_, htext⟩
    rw [hmem m]
    exact ⟨fun hm => ⟨hm, hdiffer m hm⟩, And.left⟩

namespace Rendering

open Document

variable {r : Registry} {c : Chart} {t : Table} {grammar : String} {rows : KindRows} {strict : Bool} {d : Document}
  {kind : Kind} {key : StyleKey} {cropping : Cropping} {f : Diagnostic}

/-! ### Where the warning comes from -/

/-- The warning lists what is listed of the other grammars, whether or not it differs. -/
theorem lists_of_croppingSteps (hr : Registry.Fit r.tables)
    (hf : .report f ∈ croppingSteps r kind grammar key cropping) : f.severity = .warning ∧ f.key = .text key.name ∧
      f.Lists key cropping grammar (r.CropsElsewhere kind key grammar) := by
  dsimp only [croppingSteps] at hf
  split at hf
  · exact absurd hf List.not_mem_nil
  · cases List.mem_singleton.mp hf
    refine ⟨rfl, rfl, (r.croppings kind key).filter fun m => m.1 != grammar, ?_, fun m => ?_, rfl⟩
    · exact (Registry.croppings_pairwise hr kind key).filter _
    · exact Registry.mem_filter_croppings_iff

/-- Only the steps for style keys warn of cropping. -/
theorem Taken.exists_styleSteps (h : Taken r c t rows strict d) (hf : f ∈ d.findings)
    (hcode : f.code = .croppingSemantics) : ∃ e ∈ c.styles, .report f ∈ styleSteps r c t.grammar rows e := by
  have hwarns : f.warnsOfCropping = true := beq_iff_eq.mpr hcode
  have hconflict (g : Diagnostic) (hg : g.code = .conflict) : g.warnsOfCropping = false := by
    rw [Diagnostic.warnsOfCropping, hg]
    rfl
  have hmem : .report f ∈ steps r c t.grammar rows := (mem_findings_iff h.run hwarns).mp hf
  have hbefore : SilentOn Diagnostic.warnsOfCropping
      (openingSteps c t.grammar rows ++ c.bindings.flatMap (carriedSteps c rows)) := by
    refine (SilentOn.append ?_ (.flatMap fun b _ => ?_)).append (.flatMap fun b _ => ?_)
    · exact silent_kindSteps hconflict fun _ => rfl
    · exact silent_bindingSteps hconflict (fun _ => rfl) fun _ _ _ => rfl
    · exact silent_carriedSteps (fun _ _ _ _ => rfl) b
  have hfacet : SilentOn Diagnostic.warnsOfCropping (facetSteps c t.grammar rows) :=
    silent_facetSteps hconflict fun _ => rfl
  have hpanels : SilentOn Diagnostic.warnsOfCropping (c.diagnostics.map .report) := by
    refine .reports fun g hg => ?_
    rw [Diagnostic.warnsOfCropping, h.findings g hg]
    rfl
  unfold steps at hmem
  rcases List.mem_append.mp hmem with hmem | hmem
  · rcases List.mem_append.mp hmem with hmem | hmem
    · rcases List.mem_append.mp hmem with hmem | hmem
      · exact absurd hmem (hbefore.not_report hwarns)
      · exact List.mem_flatMap.mp hmem
    · exact absurd hmem (hfacet.not_report hwarns)
  · exact absurd hmem (hpanels.not_report hwarns)

/-- The steps for a style key warn of cropping only where the key's row crops. -/
theorem Taken.exists_croppingSteps (h : Taken r c t rows strict d) (hf : f ∈ d.findings)
    (hcode : f.code = .croppingSemantics) : ∃ key v cropping, c.style? key = some v ∧
      t.Crops c.kind key cropping ∧ .report f ∈ croppingSteps r c.kind t.grammar key cropping := by
  obtain ⟨⟨key, v⟩, he, hf⟩ := h.exists_styleSteps hf hcode
  have hfail (fault : Fault) : .fail fault ∉ styleSteps r c t.grammar rows (key, v) :=
    fun hfault => not_fail_of_run h.run fault (mem_steps_of_styleSteps he hfault)
  unfold styleSteps at hf hfail
  cases hrow : rows.style? key with
  | none =>
      rw [hrow] at hf
      cases List.mem_singleton.mp hf
      cases hcode
  | some row =>
      simp only [hrow, List.mem_append, not_or] at hf hfail
      rcases hf with hf | hf
      · -- What is reported of the row itself has one of the other codes.
        have hverdict : f.code ∈ verdict (some row) v := by
          rw [← (report?_styleRowSteps fun fault => (hfail fault).1).1]
          exact List.mem_map_of_mem (Step.mem_filterMap_report?.mpr hf)
        exact absurd hcode (mem_ofStyles_of_mem_verdict hverdict).2
      · cases hcropping : row.cropping with
        | none =>
            rw [hcropping] at hf
            exact absurd hf List.not_mem_nil
        | some cropping =>
            rw [hcropping] at hf
            exact ⟨key, v, cropping, Chart.mem_styles.mp he, ⟨row, (h.style? key).trans hrow, hcropping⟩, hf⟩

/-- Where the row of a style key that is set crops, and another grammar's row crops otherwise, it is warned of. -/
theorem Taken.exists_warning (h : Taken r c t rows strict d) {v : Value} (hset : c.style? key = some v)
    (hcrops : t.Crops c.kind key cropping) (hdiffers : r.CropsOtherwise c.kind key t.grammar cropping) :
    ∃ f ∈ d.findings, f.code = .croppingSemantics ∧ f.key = .text key.name := by
  obtain ⟨row, hrow, hcropping⟩ := hcrops
  rcases h.croppingWarnings key with ⟨hone, -⟩ | ⟨-, hnever⟩
  · have hmem : Code.croppingSemantics ∈
        (about ⟨t.grammar, c.kind, d.entries, d.findings⟩ key).map Diagnostic.code := by
      apply List.count_pos_iff.mp
      exact Nat.lt_of_lt_of_eq Nat.zero_lt_one hone.symm
    obtain ⟨f, hf, hcode⟩ := List.mem_map.mp hmem
    obtain ⟨hf, hkey⟩ := List.mem_filter.mp hf
    have habout : f.styleKey? = some key := beq_iff_eq.mp hkey
    rw [Diagnostic.styleKey?, hcode, if_pos (by decide)] at habout
    exact ⟨f, hf, hcode, Vocabulary.ofValue?_eq_some_iff.mp habout⟩
  · exact absurd ⟨v, row, cropping, hset, hrow, hcropping, hdiffers⟩ hnever

/-! ### The listing -/

/-- The warning is about the style key and lists the ways of cropping of all other grammars. -/
structure ListsElsewhere (r : Registry) (kind : Kind) (key : StyleKey) (cropping : Cropping) (grammar : String)
    (f : Diagnostic) : Prop where
  severity : f.severity = .warning
  about : f.key = .text key.name
  /-- Each other grammar whose row crops is listed, with its own way of cropping. -/
  others : f.Lists key cropping grammar (r.CropsElsewhere kind key grammar)
  /-- Just those that differ are listed exactly if none of the others crops alike. -/
  differing : f.Lists key cropping grammar (fun m => r.CropsElsewhere kind key grammar m ∧ m.2 ≠ cropping) ↔
    ∀ m, r.CropsElsewhere kind key grammar m → m.2 ≠ cropping

theorem Taken.exists_listsElsewhere (h : Taken r c t rows strict d) (hf : f ∈ d.findings)
    (hcode : f.code = .croppingSemantics) : ∃ key v cropping, c.style? key = some v ∧ t.Crops c.kind key cropping ∧
      ListsElsewhere r c.kind key cropping t.grammar f := by
  obtain ⟨key, v, cropping, hset, hcrops, hsteps⟩ := h.exists_croppingSteps hf hcode
  obtain ⟨hseverity, hkey, hothers⟩ := lists_of_croppingSteps h.fit hsteps
  exact ⟨key, v, cropping, hset, hcrops, hseverity, hkey, hothers, hothers.differing_iff⟩

/-- A warning about cropping is about a style key that is set and whose row crops. It lists each other grammar whose row
for the key crops, be it alike or not, with its own way of cropping and in the order of names. -/
theorem lists_other_croppings {tables : List Table} (hr : Registry.ofTables tables = .ok r) {desk : Desk}
    (hdesk : desk.Reachable) {out : Rendering} (hout : ofChart r desk.chart grammar strict = .ok out)
    (hf : f ∈ out.diagnostics) (hcode : f.code = .croppingSemantics) :
    ∃ t ∈ tables, t.grammar = grammar ∧ ∃ key v cropping, desk.chart.style? key = some v ∧
      t.Crops desk.chart.kind key cropping ∧ ListsElsewhere r desk.chart.kind key cropping grammar f := by
  obtain ⟨rows, d, hrows, hrun, rfl⟩ := ofChart_eq_ok_iff.mp hout
  obtain ⟨t, ht, rfl, hkind⟩ := exists_table_of_rowsFor hrows
  have htaken : Taken r desk.chart t rows strict d :=
    ⟨Registry.fit_of_ofTables hr, ht, hkind, hdesk.code_eq, hrun⟩
  rw [Registry.tables_of_ofTables hr] at ht
  exact ⟨t, ht, rfl, htaken.exists_listsElsewhere hf hcode⟩

/-- Limits along an axis of bars crop in one grammar of the library otherwise than in the other, so the warning lists
just what differs. -/
theorem lists_other_croppings_styledBars : ∃ out f,
    ofChart .shipped Desk.styledBars.chart "imperative" false = .ok out ∧ f ∈ out.diagnostics ∧
      f.code = .croppingSemantics ∧ ListsElsewhere .shipped .bar .axisLimitY .visual "imperative" f := by
  have hreach := Desk.reachable_styledBars
  have hbuilt := Registry.ofTables_shipped
  obtain ⟨out, hout⟩ : ∃ out, ofChart .shipped Desk.styledBars.chart "imperative" false = .ok out :=
    Shipped.ok_of_complete (g := .imperative) hreach (by decide) (fun h => nomatch h.2.1) (.inl rfl)
  have hown : Shipped.Imperative.table.Crops .bar .axisLimitY .visual := ⟨_, rfl, rfl⟩
  obtain ⟨f, hf, hcode, hkey⟩ : ∃ f ∈ out.diagnostics, f.code = .croppingSemantics ∧
      f.key = .text StyleKey.axisLimitY.name := by
    obtain ⟨rows, d, hrows, hrun, rfl⟩ := ofChart_eq_ok_iff.mp hout
    have hmem : Shipped.Imperative.table ∈ Registry.shipped.tables := List.mem_cons_self
    have hfit := Registry.fit_of_ofTables hbuilt
    have htaken : Taken .shipped Desk.styledBars.chart Shipped.Imperative.table rows false d := by
      obtain ⟨t, ht, hgrammar, hkind⟩ := exists_table_of_rowsFor hrows
      cases hfit.eq_of_grammar ht hmem hgrammar
      exact ⟨hfit, hmem, hkind, hreach.code_eq, hrun⟩
    have hset : Desk.styledBars.chart.style? .axisLimitY = some (.tuple [.int 0, .int 10]) := rfl
    refine htaken.exists_warning hset hown ?_
    exact ⟨Shipped.Layered.table, by simp [Registry.shipped], by decide, _, .destructive, rfl, rfl, by decide⟩
  obtain ⟨t, ht, hgrammar, key, v, cropping, -, hcrops, hlists⟩ := lists_other_croppings hbuilt hreach hout hf hcode
  cases (Registry.fit_of_ofTables hbuilt).eq_of_grammar ht List.mem_cons_self hgrammar
  cases Call.text_name_inj.mp (hlists.about.symm.trans hkey)
  cases hcrops.unique hown
  exact ⟨out, f, hout, hf, hcode, hlists⟩

end Rendering

/-- The rows of a small grammar that takes limits along the axis and crops in the given way. -/
def Table.limitPayload (grammar : String) (cropping : Cropping) : Entries :=
  let scalar (param : String) : Value := .dict [(.text "write", .text "scalar"), (.text "param", .text param)]
  let limit : Value :=
    .dict [(.text "write", .text "pair"), (.text "param", .text "xlim"), (.text "cropping", .text cropping.name)]
  let styles : Entries := [(.text "title", scalar "title"), (.text "xLabel", scalar "x_title"),
    (.text "yLabel", scalar "y_title"), (.text "axisLimitX", limit)]
  ((smallPayload fun _ => []).insert (.text "grammar") (.text grammar)).insert (.text "defaults")
    (.dict [(.text "styles", .dict styles)])

/-- Bars with limits along the axis. -/
def Desk.limitedBars : Desk :=
  (Desk.mk .empty { kind := .bar, facetLimit := 12 }).run [.setStyle (.text "axisLimitX") (.list [.int 0, .int 10])]

theorem Desk.reachable_limitedBars : Desk.limitedBars.Reachable :=
  Desk.reachable_new .bar _

namespace Rendering

/-- Of three grammars two crop alike; the warning in one of them says of the other that it differs. -/
theorem not_lists_differing_limitedBars : ¬∀ (payloads : List Entries) (tables : List Table) (r : Registry)
    (desk : Desk) (grammar : String) (strict : Bool) (out : Rendering) (f : Diagnostic),
    List.Forall₂ (fun payload t => Table.parse "<memory>" (.dict payload) = .ok t) payloads tables →
    Registry.ofTables tables = .ok r → desk.Reachable → ofChart r desk.chart grammar strict = .ok out →
    f ∈ out.diagnostics → f.code = .croppingSemantics →
    ∃ t ∈ tables, t.grammar = grammar ∧ ∃ key cropping, f.key = .text key.name ∧ t.Crops desk.chart.kind key cropping ∧
      f.Lists key cropping grammar fun m => r.CropsElsewhere desk.chart.kind key grammar m ∧ m.2 ≠ cropping := by
  intro h
  obtain ⟨t, u, v, r, rows, ht, hu, hv, hr, hrows, hkind, hgrammar, hown, hbeta, halike, hgamma, hdiffers, hsteps⟩ :
      ∃ t u v r rows, Table.parse "<memory>" (.dict (Table.limitPayload "alpha" .visual)) = .ok t ∧
        Table.parse "<memory>" (.dict (Table.limitPayload "beta" .visual)) = .ok u ∧
        Table.parse "<memory>" (.dict (Table.limitPayload "gamma" .destructive)) = .ok v ∧
        Registry.ofTables [t, u, v] = .ok r ∧ rowsFor r Desk.limitedBars.chart t.grammar = .ok rows ∧
        t.kind? .bar = some rows ∧ t.grammar = "alpha" ∧ t.Crops .bar .axisLimitX .visual ∧ u.grammar = "beta" ∧
        u.Crops .bar .axisLimitX .visual ∧ v.grammar = "gamma" ∧ v.Crops .bar .axisLimitX .destructive ∧
        steps r Desk.limitedBars.chart t.grammar rows = [.write (.text "mark") (.text "bar") .kind,
          .write (.text "xlim") (.tuple [.int 0, .int 10]) (.style .axisLimitX)] ++
            (croppingSteps r .bar t.grammar .axisLimitX .visual ++ [] ++ [] ++ []) :=
    ⟨_, _, _, _, _, rfl, rfl, rfl, rfl, rfl, rfl, rfl, ⟨_, rfl, rfl⟩, rfl, ⟨_, rfl, rfl⟩, rfl, ⟨_, rfl, rfl⟩, rfl⟩
  have hfit := Registry.fit_of_ofTables hr
  have htables := Registry.tables_of_ofTables hr
  have hmem : ∀ w ∈ [t, u, v], w ∈ r.tables := by
    rw [htables]
    exact fun _ hw => hw
  have hreach := Desk.reachable_limitedBars
  obtain ⟨d, hrun⟩ : ∃ d,
      Document.empty.run t.grammar false (steps r Desk.limitedBars.chart t.grammar rows) = .ok d := by
    rw [hsteps]
    dsimp only [croppingSteps]
    split <;> exact ⟨_, rfl⟩
  have htaken : Taken r Desk.limitedBars.chart t rows false d :=
    ⟨hfit, hmem t (by simp), hkind, hreach.code_eq, hrun⟩
  have hotherwise : r.CropsOtherwise .bar .axisLimitX t.grammar .visual := by
    obtain ⟨row, hrow, hcropping⟩ := hdiffers
    refine ⟨v, hmem v (by simp), ?_, row, .destructive, hrow, hcropping, by decide⟩
    rw [hgamma, hgrammar]
    decide
  have hset : Desk.limitedBars.chart.style? .axisLimitX = some (.tuple [.int 0, .int 10]) := rfl
  obtain ⟨f, hf, hcode, hkey⟩ := htaken.exists_warning hset hown hotherwise
  have hout : ofChart r Desk.limitedBars.chart t.grammar false = .ok ⟨t.grammar, .bar, d.entries, d.findings⟩ :=
    ofChart_eq_ok_iff.mpr ⟨rows, d, hrows, hrun, rfl⟩
  obtain ⟨w, hw, hsame, key, cropping, habout, hcrops, hlists⟩ := h _ [t, u, v] r Desk.limitedBars t.grammar false _ f
    (.cons ht (.cons hu (.cons hv .nil))) hr hreach hout hf hcode
  cases hfit.eq_of_grammar (hmem w hw) htaken.mem hsame
  cases Call.text_name_inj.mp (habout.symm.trans hkey)
  cases hcrops.unique hown
  obtain ⟨key, -, cropping, -, hcrops', hall⟩ := htaken.exists_listsElsewhere hf hcode
  cases Call.text_name_inj.mp (hall.about.symm.trans hkey)
  cases hcrops'.unique hown
  refine hall.differing.mp hlists ("beta", .visual) ⟨?_, u, hmem u (by simp), hbeta, halike⟩ rfl
  rw [hgrammar]
  decide

end Rendering

end ChartGrammar
