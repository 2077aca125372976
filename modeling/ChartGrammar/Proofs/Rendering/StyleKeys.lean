import ChartGrammar.Proofs.Registry.Tables
import ChartGrammar.Proofs.Rendering.Reports
import ChartGrammar.Proofs.Shipped.Refusals

/-! What becomes of the style keys of a chart. Findings of four codes are about style keys; in a rendering they are
just what the steps for the keys report, in canonical order. Each key that is set is either unknown, explained,
unsupported or merged, and the warning about cropping stands beside it exactly if another grammar crops
otherwise. -/

namespace ChartGrammar

/-- The place of a style key in the canonical order. -/
def StyleKey.place (k : StyleKey) : Nat :=
  (Vocabulary.all : List StyleKey).idxOf k

/-- The codes of findings about style keys. -/
def Code.ofStyles : List Code :=
  [.unknownToGrammar, .unsupported, .explained, .croppingSemantics]

/-- The style key that a finding is about, if its code is one of those for style keys and it is keyed by one. -/
def Diagnostic.styleKey? (f : Diagnostic) : Option StyleKey :=
  if f.code ∈ Code.ofStyles then Vocabulary.ofValue? f.key else none

/-- Another grammar's row for the style key crops in another way. -/
def Registry.CropsOtherwise (r : Registry) (kind : Kind) (key : StyleKey) (grammar : String) (cropping : Cropping) :
    Prop :=
  ∃ t ∈ r.tables, t.grammar ≠ grammar ∧ ∃ row other, t.style? kind key = some row ∧ row.cropping = some other ∧
    other ≠ cropping

/-- What is found about a style key for a row, or for want of one: the key is unknown, its row restructures the
chart, the row writes nothing for the value, or there is nothing to say. -/
def Rendering.verdict (row? : Option StyleRow) (v : Value) : List Code :=
  match row? with
  | none => [.unknownToGrammar]
  | some row =>
    match row.realization with
    | .arranged _ => [.explained]
    | .written w =>
      match w.run v with
      | .ok [] => [.unsupported]
      | _ => []

namespace Rendering

open Document

variable {r : Registry} {c : Chart} {grammar : String} {rows : KindRows} {row : StyleRow} {e : StyleKey × Value}
  {strict : Bool} {d : Document} {out : Rendering} {k : StyleKey} {v : Value}

/-! ### Findings about style keys -/

/-- The finding is about a style key. -/
def aboutStyle (f : Diagnostic) : Bool :=
  f.styleKey?.isSome

theorem not_aboutStyle_of_code {f : Diagnostic} (h : f.code ∉ Code.ofStyles) : aboutStyle f = false := by
  rw [aboutStyle, Diagnostic.styleKey?, if_neg h]
  rfl

/-- Conflicts are not about style keys, whatever they are keyed by. -/
theorem not_aboutStyle_of_conflict (f : Diagnostic) (h : f.code = .conflict) : aboutStyle f = false :=
  not_aboutStyle_of_code (by rw [h]; decide)

/-- No style key has the name. -/
theorem not_aboutStyle_of_key {f : Diagnostic} {name : String} (hkey : f.key = .text name)
    (h : (Vocabulary.ofName? name : Option StyleKey) = none) : aboutStyle f = false := by
  have hnone : (Vocabulary.ofValue? f.key : Option StyleKey) = none := by rw [hkey]; exact h
  rw [aboutStyle, Diagnostic.styleKey?, hnone, ite_self]
  rfl

/-- Roles and style keys have different names. -/
theorem ofName?_role (role : Role) : (Vocabulary.ofName? role.name : Option StyleKey) = none := by
  cases role <;> rfl

theorem name_styleKey_ne (role : Role) (k : StyleKey) : k.name ≠ role.name := by
  revert k
  cases role <;> decide

/-- A finding about a style key is reported, or it is not there. -/
theorem reportedOnly_aboutStyle (steps : List Step) : ReportedOnly aboutStyle steps := by
  intro s _ hreport
  cases s with
  | write param value origin => exact fun _ => not_aboutStyle_of_conflict _ rfl
  | report f => cases hreport
  | carried role column into => exact fun _ => not_aboutStyle_of_key rfl (ofName?_role role)
  | fail fault => trivial

theorem silent_beforeStyles : SilentOn aboutStyle (openingSteps c grammar rows ++
    c.bindings.flatMap (carriedSteps c rows)) := by
  refine SilentOn.append (SilentOn.append ?_ (SilentOn.flatMap fun b _ => ?_)) (SilentOn.flatMap fun b _ => ?_)
  · exact silent_kindSteps not_aboutStyle_of_conflict fun _ => not_aboutStyle_of_key rfl rfl
  · exact silent_bindingSteps not_aboutStyle_of_conflict (fun _ => not_aboutStyle_of_key rfl (ofName?_role b.role))
      fun _ _ _ => not_aboutStyle_of_key rfl (ofName?_role b.role)
  · exact silent_carriedSteps (fun _ role _ _ => not_aboutStyle_of_key rfl (ofName?_role role)) b

theorem silent_afterStyles (h : ∀ f ∈ c.diagnostics, f.code = .facetCardinality) :
    SilentOn aboutStyle (facetSteps c grammar rows ++ c.diagnostics.map .report) := by
  refine (silent_facetSteps not_aboutStyle_of_conflict fun _ => not_aboutStyle_of_key rfl rfl).append ?_
  exact .reports fun f hf => not_aboutStyle_of_code (by rw [h f hf]; decide)

/-! ### The reports for one style key -/

/-- What the steps for a style key report. -/
def styleReports (r : Registry) (c : Chart) (grammar : String) (rows : KindRows) (e : StyleKey × Value) :
    List Diagnostic :=
  (styleSteps r c grammar rows e).filterMap Step.report?

/-- The row of a style key crops, and another grammar's row crops otherwise. -/
def CroppingDiffers (r : Registry) (kind : Kind) (grammar : String) (row? : Option StyleRow) (key : StyleKey) : Prop :=
  ∃ row cropping, row? = some row ∧ row.cropping = some cropping ∧ r.CropsOtherwise kind key grammar cropping

theorem report?_writes (params : Entries) (origin : Origin) :
    (Step.writes params origin).filterMap Step.report? = [] :=
  List.filterMap_eq_nil_iff.mpr fun s hs => by
    obtain ⟨e, -, rfl⟩ := List.mem_map.mp hs
    rfl

theorem exists_ok_of_attempt {α : Type} {outcome : Except Misuse α} {steps : α → List Step}
    (hfail : ∀ fault, .fail fault ∉ attempt outcome steps) : ∃ a, outcome = .ok a := by
  cases outcome with
  | ok a => exact ⟨a, rfl⟩
  | error m => exact absurd List.mem_cons_self (hfail (.misuse m))

/-- What is reported for a row, cropping apart: one finding for each code of the verdict, keyed by the style key. -/
theorem report?_styleRowSteps (hfail : ∀ fault, .fail fault ∉ styleRowSteps c grammar row k v) :
    ((styleRowSteps c grammar row k v).filterMap Step.report?).map Diagnostic.code = verdict (some row) v ∧
      ∀ f ∈ (styleRowSteps c grammar row k v).filterMap Step.report?, f.key = .text k.name := by
  unfold styleRowSteps at hfail ⊢
  unfold verdict
  cases hrealization : row.realization with
  | arranged arranger =>
      simp only [hrealization] at hfail ⊢
      obtain ⟨arrangement, hrun⟩ := exists_ok_of_attempt hfail
      simp only [hrun, attempt, List.filterMap_append, report?_writes]
      exact ⟨rfl, List.forall_mem_singleton.mpr rfl⟩
  | written w =>
      simp only [hrealization] at hfail ⊢
      obtain ⟨params, hrun⟩ := exists_ok_of_attempt hfail
      rw [hrun]
      cases params with
      | nil => exact ⟨rfl, List.forall_mem_singleton.mpr rfl⟩
      | cons param params =>
          simp only [attempt, List.isEmpty_cons, Bool.false_eq_true, ↓reduceIte, report?_writes]
          exact ⟨rfl, fun f hf => absurd hf List.not_mem_nil⟩

/-- The ways of cropping that are listed differ exactly if another grammar crops otherwise than the one at hand. -/
theorem all_croppings_eq_false_iff (hr : Registry.Fit r.tables) {t : Table} (ht : t ∈ r.tables) {kind : Kind}
    (hrow : t.style? kind k = some row) {cropping : Cropping} (hcropping : row.cropping = some cropping) :
    ((r.croppings kind k).all fun m => m.2 == cropping) = false ↔ r.CropsOtherwise kind k t.grammar cropping := by
  have hany : ((r.croppings kind k).all fun m => m.2 == cropping) = false ↔
      ∃ m ∈ r.croppings kind k, m.2 ≠ cropping := by
    simp [List.all_eq_false]
  rw [hany]
  constructor
  · rintro ⟨⟨grammar, other⟩, hmem, hother⟩
    obtain ⟨u, hu, rfl, row', hrow', hcropping'⟩ := Registry.mem_croppings_iff.mp hmem
    refine ⟨u, hu, fun hgrammar => ?_, row', other, hrow', hcropping', hother⟩
    -- The table at hand has only one row for the key.
    rw [hr.eq_of_grammar hu ht hgrammar, hrow, Option.some.injEq] at hrow'
    rw [← hrow', hcropping, Option.some.injEq] at hcropping'
    exact hother hcropping'.symm
  · rintro ⟨u, hu, -, row', other, hrow', hcropping', hother⟩
    exact ⟨(u.grammar, other), Registry.mem_croppings_iff.mpr ⟨u, hu, rfl, row', hrow', hcropping'⟩, hother⟩

theorem report?_croppingSteps (r : Registry) (kind : Kind) (grammar : String) (k : StyleKey) (cropping : Cropping) :
    ((croppingSteps r kind grammar k cropping).filterMap Step.report?).map Diagnostic.code =
        (if (r.croppings kind k).all fun m => m.2 == cropping then [] else [.croppingSemantics]) ∧
      ∀ f ∈ (croppingSteps r kind grammar k cropping).filterMap Step.report?, f.key = .text k.name := by
  dsimp only [croppingSteps]
  split
  · exact ⟨rfl, fun f hf => absurd hf List.not_mem_nil⟩
  · exact ⟨rfl, List.forall_mem_singleton.mpr rfl⟩

/-- What is reported for a style key: the verdict on its row, and then the warning about cropping if there is one. -/
structure ReportsFor (r : Registry) (c : Chart) (t : Table) (e : StyleKey × Value) (first crop : List Diagnostic) :
    Prop where
  verdict : first.map Diagnostic.code = verdict (t.style? c.kind e.1) e.2
  cropping : CroppingDiffers r c.kind t.grammar (t.style? c.kind e.1) e.1 ∧
      crop.map Diagnostic.code = [.croppingSemantics] ∨
    ¬CroppingDiffers r c.kind t.grammar (t.style? c.kind e.1) e.1 ∧ crop = []
  key : ∀ f ∈ first ++ crop, f.key = .text e.1.name

theorem exists_reportsFor (hr : Registry.Fit r.tables) {t : Table} (ht : t ∈ r.tables)
    (hkind : t.kind? c.kind = some rows) (hfail : ∀ fault, .fail fault ∉ styleSteps r c t.grammar rows e) :
    ∃ first crop, styleReports r c t.grammar rows e = first ++ crop ∧ ReportsFor r c t e first crop := by
  have hstyle : t.style? c.kind e.1 = rows.style? e.1 := by rw [Table.style?, hkind, Option.bind_some]
  unfold styleReports
  unfold styleSteps at hfail ⊢
  cases hrow : rows.style? e.1 with
  | none =>
      rw [hrow] at hstyle
      refine ⟨_, [], (List.append_nil _).symm, ?_, .inr ⟨?_, rfl⟩, List.forall_mem_singleton.mpr rfl⟩
      · rw [hstyle]
        rfl
      · simp [CroppingDiffers, hstyle]
  | some row =>
      rw [hrow] at hstyle
      simp only [hrow, List.mem_append, not_or] at hfail
      obtain ⟨hverdict, hkey⟩ := report?_styleRowSteps fun fault => (hfail fault).1
      rw [← hstyle] at hverdict
      simp only [List.filterMap_append]
      cases hcropping : row.cropping with
      | none =>
          refine ⟨_, [], rfl, hverdict, .inr ⟨?_, rfl⟩, ?_⟩
          · simp [CroppingDiffers, hstyle, hcropping]
          · rwa [List.append_nil]
      | some cropping =>
          obtain ⟨hcodes, hkey'⟩ := report?_croppingSteps r c.kind t.grammar e.1 cropping
          have hdiffers : CroppingDiffers r c.kind t.grammar (t.style? c.kind e.1) e.1 ↔
              ((r.croppings c.kind e.1).all fun m => m.2 == cropping) = false := by
            rw [all_croppings_eq_false_iff hr ht hstyle hcropping]
            simp [CroppingDiffers, hstyle, hcropping]
          refine ⟨_, _, rfl, hverdict, ?_, List.forall_mem_append.mpr ⟨hkey, hkey'⟩⟩
          rw [hdiffers]
          cases hall : (r.croppings c.kind e.1).all fun m => m.2 == cropping with
          | false =>
              rw [hall] at hcodes
              exact .inl ⟨rfl, hcodes⟩
          | true =>
              rw [hall] at hcodes
              exact .inr ⟨by decide, List.map_eq_nil_iff.mp hcodes⟩

theorem mem_ofStyles_of_mem_verdict {row? : Option StyleRow} {code : Code} (h : code ∈ verdict row? v) :
    code ∈ Code.ofStyles ∧ code ≠ .croppingSemantics := by
  unfold verdict at h
  split at h
  · rw [List.mem_singleton.mp h]
    decide
  split at h
  · rw [List.mem_singleton.mp h]
    decide
  split at h
  · rw [List.mem_singleton.mp h]
    decide
  · exact absurd h List.not_mem_nil

variable {t : Table} {first crop : List Diagnostic}

theorem ReportsFor.code_first (h : ReportsFor r c t e first crop) {f : Diagnostic} (hf : f ∈ first) :
    f.code ∈ Code.ofStyles ∧ f.code ≠ .croppingSemantics := by
  have hmem : f.code ∈ first.map Diagnostic.code := List.mem_map_of_mem hf
  rw [h.verdict] at hmem
  exact mem_ofStyles_of_mem_verdict hmem

theorem ReportsFor.code_crop (h : ReportsFor r c t e first crop) {f : Diagnostic} (hf : f ∈ crop) :
    f.code = .croppingSemantics := by
  have hmem : f.code ∈ crop.map Diagnostic.code := List.mem_map_of_mem hf
  rcases h.cropping with ⟨-, hcodes⟩ | ⟨-, rfl⟩
  · rw [hcodes] at hmem
    exact List.mem_singleton.mp hmem
  · exact absurd hf List.not_mem_nil

/-- What is reported for a style key is about it. -/
theorem ReportsFor.styleKey? (h : ReportsFor r c t e first crop) {f : Diagnostic} (hf : f ∈ first ++ crop) :
    f.styleKey? = some e.1 := by
  have hcode : f.code ∈ Code.ofStyles := by
    rcases List.mem_append.mp hf with hf | hf
    · exact (h.code_first hf).1
    · rw [h.code_crop hf]
      decide
  rw [Diagnostic.styleKey?, if_pos hcode]
  exact Vocabulary.ofValue?_eq_some_iff.mpr (h.key f hf)

/-- Cropping apart, the codes of the reports are the verdict. -/
theorem ReportsFor.filter_codes (h : ReportsFor r c t e first crop) :
    ((first ++ crop).map Diagnostic.code).filter (· != .croppingSemantics) =
      Rendering.verdict (t.style? c.kind e.1) e.2 := by
  have hfirst : (first.map Diagnostic.code).filter (· != .croppingSemantics) = first.map Diagnostic.code := by
    refine List.filter_eq_self.mpr fun code hcode => ?_
    obtain ⟨f, hf, rfl⟩ := List.mem_map.mp hcode
    exact bne_iff_ne.mpr (h.code_first hf).2
  have hcrop : (crop.map Diagnostic.code).filter (· != .croppingSemantics) = [] := by
    refine List.filter_eq_nil_iff.mpr fun code hcode => ?_
    obtain ⟨f, hf, rfl⟩ := List.mem_map.mp hcode
    rw [h.code_crop hf]
    decide
  rw [List.map_append, List.filter_append, hfirst, hcrop, List.append_nil, h.verdict]

/-- Cropping is warned of once or not at all. -/
theorem ReportsFor.count_cropping (h : ReportsFor r c t e first crop) :
    CroppingDiffers r c.kind t.grammar (t.style? c.kind e.1) e.1 ∧
        ((first ++ crop).map Diagnostic.code).count .croppingSemantics = 1 ∨
      ¬CroppingDiffers r c.kind t.grammar (t.style? c.kind e.1) e.1 ∧
        ((first ++ crop).map Diagnostic.code).count .croppingSemantics = 0 := by
  have hfirst : (first.map Diagnostic.code).count .croppingSemantics = 0 := by
    refine List.count_eq_zero.mpr fun hmem => ?_
    obtain ⟨f, hf, hcode⟩ := List.mem_map.mp hmem
    exact (h.code_first hf).2 hcode
  rw [List.map_append, List.count_append, hfirst, Nat.zero_add]
  rcases h.cropping with ⟨hdiffers, hcodes⟩ | ⟨hnever, rfl⟩
  · exact .inl ⟨hdiffers, by rw [hcodes]; rfl⟩
  · exact .inr ⟨hnever, rfl⟩

/-! ### The style keys of a chart -/

/-- Style keys are processed in canonical order, each once. -/
theorem styles_pairwise (c : Chart) : c.styles.Pairwise fun a b => a.1.place < b.1.place := by
  have hall : (Vocabulary.all : List StyleKey).Pairwise fun a b => a.place < b.place := by decide
  rw [Chart.styles, List.pairwise_filterMap]
  refine hall.imp fun {a b} hplace e he f hf => ?_
  obtain ⟨v, -, rfl⟩ := Option.map_eq_some_iff.mp he
  obtain ⟨u, -, rfl⟩ := Option.map_eq_some_iff.mp hf
  exact hplace

/-- What is gathered from all style keys and belongs to one of them is what is gathered from that one. -/
theorem flatMap_styles {α : Type} {gather : StyleKey × Value → List α} (hset : c.style? k = some v)
    (hother : ∀ e ∈ c.styles, e.1 ≠ k → gather e = []) : c.styles.flatMap gather = gather (k, v) := by
  obtain ⟨before, after, hsplit⟩ := List.append_of_mem (Chart.mem_styles.mpr hset)
  have hplaces := styles_pairwise c
  rw [hsplit, List.pairwise_append, List.pairwise_cons] at hplaces
  obtain ⟨-, ⟨hafter, -⟩, hbefore⟩ := hplaces
  rw [hsplit] at hother ⊢
  have hnone_before : before.flatMap gather = [] := by
    refine List.flatMap_eq_nil_iff.mpr fun e he => hother e (List.mem_append_left _ he) ?_
    rintro rfl
    exact Nat.lt_irrefl _ (hbefore e he (e.1, v) List.mem_cons_self)
  have hnone_after : after.flatMap gather = [] := by
    refine List.flatMap_eq_nil_iff.mpr fun e he => ?_
    refine hother e (List.mem_append_right _ (List.mem_cons_of_mem _ he)) ?_
    rintro rfl
    exact Nat.lt_irrefl _ (hafter e he)
  rw [List.flatMap_append, List.flatMap_cons, hnone_before, hnone_after, List.nil_append, List.append_nil]

theorem filter_reports_of_silent {p : Diagnostic → Bool} {steps : List Step} (h : SilentOn p steps) :
    (steps.filterMap Step.report?).filter p = [] :=
  List.filter_eq_nil_iff.mpr fun _ hf hp => h.not_report hp (Step.mem_filterMap_report?.mp hf)

/-- The steps of a chart in the grammar of one of a registry's tables, taken to their end. -/
structure Taken (r : Registry) (c : Chart) (t : Table) (rows : KindRows) (strict : Bool) (d : Document) : Prop where
  fit : Registry.Fit r.tables
  mem : t ∈ r.tables
  kind : t.kind? c.kind = some rows
  findings : ∀ f ∈ c.diagnostics, f.code = .facetCardinality
  run : Document.empty.run t.grammar strict (steps r c t.grammar rows) = .ok d

theorem Taken.style? (h : Taken r c t rows strict d) (k : StyleKey) : t.style? c.kind k = rows.style? k := by
  rw [Table.style?, h.kind, Option.bind_some]

theorem mem_steps_of_styleSteps (he : e ∈ c.styles) {s : Step} (hs : s ∈ styleSteps r c grammar rows e) :
    s ∈ steps r c grammar rows := by
  have hstyles := List.mem_flatMap.mpr ⟨e, he, hs⟩
  exact List.mem_append_left _ (List.mem_append_left _ (List.mem_append_right _ hstyles))

theorem Taken.exists_reportsFor (h : Taken r c t rows strict d) (he : e ∈ c.styles) :
    ∃ first crop, styleReports r c t.grammar rows e = first ++ crop ∧ ReportsFor r c t e first crop :=
  Rendering.exists_reportsFor h.fit h.mem h.kind fun fault hfault =>
    not_fail_of_run h.run fault (mem_steps_of_styleSteps he hfault)

theorem Taken.styleKey? (h : Taken r c t rows strict d) (he : e ∈ c.styles) {f : Diagnostic}
    (hf : f ∈ styleReports r c t.grammar rows e) : f.styleKey? = some e.1 := by
  obtain ⟨first, crop, hsplit, hspec⟩ := h.exists_reportsFor he
  rw [hsplit] at hf
  exact hspec.styleKey? hf

/-- The findings about style keys are what the steps for the keys report, in canonical order. -/
theorem Taken.filter_aboutStyle (h : Taken r c t rows strict d) :
    d.findings.filter aboutStyle = c.styles.flatMap (styleReports r c t.grammar rows) := by
  have hsteps : steps r c t.grammar rows =
      (openingSteps c t.grammar rows ++ c.bindings.flatMap (carriedSteps c rows))
        ++ c.styles.flatMap (styleSteps r c t.grammar rows)
        ++ (facetSteps c t.grammar rows ++ c.diagnostics.map .report) := by
    simp only [steps, openingSteps, List.append_assoc]
  rw [filter_run_reports (reportedOnly_aboutStyle _) h.run, hsteps, List.filterMap_append, List.filterMap_append,
    List.filter_append, List.filter_append, filter_reports_of_silent silent_beforeStyles,
    filter_reports_of_silent (silent_afterStyles h.findings), List.filterMap_flatMap]
  show [] ++ ([] ++ (c.styles.flatMap (styleReports r c t.grammar rows)).filter aboutStyle ++ []) = _
  rw [List.append_nil, List.nil_append, List.nil_append, List.filter_eq_self]
  intro f hf
  obtain ⟨e, he, hf⟩ := List.mem_flatMap.mp hf
  rw [aboutStyle, h.styleKey? he hf]
  rfl

/-- The findings about a style key are what the steps for it report. -/
theorem Taken.filter_styleKey? (h : Taken r c t rows strict d) (k : StyleKey) :
    d.findings.filter (fun f => f.styleKey? == some k) =
      (c.style? k).elim [] fun v => styleReports r c t.grammar rows (k, v) := by
  have hsub : d.findings.filter (fun f => f.styleKey? == some k) =
      (d.findings.filter aboutStyle).filter fun f => f.styleKey? == some k := by
    rw [List.filter_filter]
    refine List.filter_congr fun f _ => ?_
    cases hkey : f.styleKey? <;> simp [aboutStyle, hkey]
  have hother (e : StyleKey × Value) (he : e ∈ c.styles) (hne : e.1 ≠ k) :
      (styleReports r c t.grammar rows e).filter (fun f => f.styleKey? == some k) = [] := by
    refine List.filter_eq_nil_iff.mpr fun f hf => ?_
    rw [h.styleKey? he hf]
    simpa using hne
  rw [hsub, h.filter_aboutStyle, List.filter_flatMap]
  cases hset : c.style? k with
  | none =>
      refine List.flatMap_eq_nil_iff.mpr fun e he => hother e he ?_
      rintro rfl
      rw [Chart.mem_styles.mp he] at hset
      cases hset
  | some v =>
      rw [flatMap_styles hset hother]
      refine List.filter_eq_self.mpr fun f hf => ?_
      rw [h.styleKey? (Chart.mem_styles.mpr hset) hf]
      exact beq_self_eq_true _

/-- The keys of the findings come in canonical order. -/
theorem Taken.ordered (h : Taken r c t rows strict d) :
    (d.findings.filterMap Diagnostic.styleKey?).Pairwise fun k l => k.place ≤ l.place := by
  have hkeys : d.findings.filterMap Diagnostic.styleKey? =
      (d.findings.filter aboutStyle).filterMap Diagnostic.styleKey? := by
    rw [List.filterMap_filter]
    refine List.filterMap_congr fun f _ => ?_
    cases hkey : f.styleKey? <;> simp [aboutStyle, hkey]
  have hkey {e : StyleKey × Value} (he : e ∈ c.styles) {l : StyleKey}
      (hl : l ∈ (styleReports r c t.grammar rows e).filterMap Diagnostic.styleKey?) : l = e.1 := by
    obtain ⟨f, hf, hl⟩ := List.mem_filterMap.mp hl
    rw [h.styleKey? he hf] at hl
    exact (Option.some.inj hl).symm
  rw [hkeys, h.filter_aboutStyle, List.filterMap_flatMap, List.pairwise_flatMap]
  constructor
  · refine fun e he => List.pairwise_of_forall_mem_list fun k hk l hl => ?_
    exact Nat.le_of_eq (by rw [hkey he hk, hkey he hl])
  · refine (styles_pairwise c).imp_of_mem fun {a b} ha hb hplace k hk l hl => ?_
    rw [hkey ha hk, hkey hb hl]
    exact Nat.le_of_lt hplace

/-- A row whose steps do not fail realizes the value by some parameters, and the steps write them all. -/
theorem exists_outcome (hfail : ∀ fault, .fail fault ∉ styleRowSteps c grammar row k v) :
    ∃ params, row.realization.outcome c v = .ok params ∧
      ∀ e ∈ params, .write e.1 e.2 (.style k) ∈ styleRowSteps c grammar row k v := by
  obtain ⟨params, houtcome⟩ : ∃ params, row.realization.outcome c v = .ok params := by
    unfold styleRowSteps at hfail
    cases hrealization : row.realization with
    | arranged arranger =>
        simp only [hrealization] at hfail
        obtain ⟨arrangement, hrun⟩ := exists_ok_of_attempt hfail
        exact ⟨arrangement.fragments, by rw [Realization.outcome, hrun]; rfl⟩
    | written w =>
        simp only [hrealization] at hfail
        exact exists_ok_of_attempt hfail
  refine ⟨params, houtcome, fun e he => ?_⟩
  have hwrite : ⟨e.1, e.2, .style k⟩ ∈ (styleRowSteps c grammar row k v).filterMap Step.write? := by
    rw [(holds_styleRowSteps row k v).writes, houtcome]
    exact List.mem_map.mpr ⟨e, he, rfl⟩
  obtain ⟨s, hs, hwrite⟩ := List.mem_filterMap.mp hwrite
  cases s with
  | write param value origin =>
      cases hwrite
      exact hs
  | report | carried | fail => cases hwrite

/-- What the row of a style key makes of its value is there in the end. -/
theorem Taken.keeps (h : Taken r c t rows strict d) (hset : c.style? k = some v) (hrow : rows.style? k = some row) :
    ∃ params, row.realization.outcome c v = .ok params ∧ ∀ e ∈ params, d.Keeps e.1 e.2 := by
  have hmem {s : Step} (hs : s ∈ styleRowSteps c t.grammar row k v) : s ∈ steps r c t.grammar rows := by
    refine mem_steps_of_styleSteps (Chart.mem_styles.mpr hset) ?_
    unfold styleSteps
    rw [hrow]
    exact List.mem_append_left _ hs
  obtain ⟨params, houtcome, hwrites⟩ := exists_outcome fun fault hfault => not_fail_of_run h.run fault (hmem hfault)
  exact ⟨params, houtcome, fun e he => keeps_of_mem (hmem (hwrites e he)) h.run⟩

/-! ### The account -/

/-- The findings about a style key. -/
def about (out : Rendering) (k : StyleKey) : List Diagnostic :=
  out.diagnostics.filter fun f => f.styleKey? == some k

/-- The codes of the findings about a style key, cropping apart. -/
def verdicts (out : Rendering) (k : StyleKey) : List Code :=
  ((out.about k).map Diagnostic.code).filter (· != .croppingSemantics)

/-- The number of warnings about the cropping of a style key. -/
def croppingWarnings (out : Rendering) (k : StyleKey) : Nat :=
  ((out.about k).map Diagnostic.code).count .croppingSemantics

/-- The parameter is merged: it is there, with the value unless its name is in conflict. -/
def Merges (out : Rendering) (e : Value × Value) : Prop :=
  ∃ q ∈ out.parameters, (q.1 = e.1 ∨ q.1.same e.1 = true) ∧ (q.2 = e.2 ∨ q.2.same e.2 = true ∨
    ∃ f ∈ conflicts out.diagnostics, q.1.same f.key = true)

/-- The rendering in a grammar accounts for every style key of the chart. -/
structure AccountsForStyles (r : Registry) (c : Chart) (t : Table) (out : Rendering) : Prop where
  /-- A key that is set has the verdict on its row, and no other. -/
  verdict : ∀ k v, c.style? k = some v → out.verdicts k = Rendering.verdict (t.style? c.kind k) v
  /-- Where there is a row, all that it makes of the value is merged. -/
  merged : ∀ k v row, c.style? k = some v → t.style? c.kind k = some row →
    ∃ params, row.realization.outcome c v = .ok params ∧ ∀ e ∈ params, out.Merges e
  /-- There is at most one warning about the cropping of a key. -/
  cropping_le : ∀ k, out.croppingWarnings k ≤ 1
  /-- There is one if the key is set, its row crops and another grammar's row crops otherwise, and only then. -/
  cropping : ∀ k, out.croppingWarnings k = 1 ↔ ∃ v row cropping, c.style? k = some v ∧
    t.style? c.kind k = some row ∧ row.cropping = some cropping ∧ r.CropsOtherwise c.kind k t.grammar cropping
  /-- Nothing is found about a key that is not set. -/
  unset : ∀ k, c.style? k = none → out.about k = []
  /-- The findings come in the order of the keys. -/
  ordered : (out.diagnostics.filterMap Diagnostic.styleKey?).Pairwise fun k l => k.place ≤ l.place

theorem Taken.about_unset (h : Taken r c t rows strict d) (hset : c.style? k = none) :
    about ⟨t.grammar, c.kind, d.entries, d.findings⟩ k = [] := by
  rw [about, h.filter_styleKey?, hset, Option.elim_none]

theorem Taken.about_set (h : Taken r c t rows strict d) (hset : c.style? k = some v) : ∃ first crop,
    about ⟨t.grammar, c.kind, d.entries, d.findings⟩ k = first ++ crop ∧ ReportsFor r c t (k, v) first crop := by
  obtain ⟨first, crop, hsplit, hspec⟩ := h.exists_reportsFor (Chart.mem_styles.mpr hset)
  refine ⟨first, crop, ?_, hspec⟩
  rw [about, h.filter_styleKey?, hset, Option.elim_some, hsplit]

/-- The warnings about the cropping of a key are one or none, as the rows have it. -/
theorem Taken.croppingWarnings (h : Taken r c t rows strict d) (k : StyleKey) :
    let warnings := Rendering.croppingWarnings ⟨t.grammar, c.kind, d.entries, d.findings⟩ k
    let differs := ∃ v row cropping, c.style? k = some v ∧ t.style? c.kind k = some row ∧
      row.cropping = some cropping ∧ r.CropsOtherwise c.kind k t.grammar cropping
    warnings = 1 ∧ differs ∨ warnings = 0 ∧ ¬differs := by
  intro warnings differs
  cases hset : c.style? k with
  | none =>
      refine .inr ⟨?_, ?_⟩
      · show (List.map _ (about _ k)).count _ = 0
        rw [h.about_unset hset]
        rfl
      · rintro ⟨v, row, cropping, hset', -⟩
        rw [hset] at hset'
        cases hset'
  | some v =>
      obtain ⟨first, crop, hsplit, hspec⟩ := h.about_set hset
      have hwarnings : warnings = ((first ++ crop).map Diagnostic.code).count .croppingSemantics := by
        show (List.map _ (about _ k)).count _ = _
        rw [hsplit]
      have hdiffers : differs ↔ CroppingDiffers r c.kind t.grammar (t.style? c.kind k) k := by
        simp [differs, CroppingDiffers, hset]
      rw [hwarnings, hdiffers]
      exact hspec.count_cropping.imp And.symm And.symm

/-- Whatever the registry, the chart and the grammar, a rendering accounts for every style key of the chart. -/
theorem accounts_for_styles {tables : List Table} (hr : Registry.ofTables tables = .ok r) {desk : Desk}
    (hdesk : desk.Reachable) (h : ofChart r desk.chart grammar strict = .ok out) :
    ∃ t ∈ tables, t.grammar = grammar ∧ AccountsForStyles r desk.chart t out := by
  obtain ⟨rows, d, hrows, hrun, rfl⟩ := ofChart_eq_ok_iff.mp h
  obtain ⟨t, ht, rfl, hkind⟩ := exists_table_of_rowsFor hrows
  have htaken : Taken r desk.chart t rows strict d :=
    ⟨Registry.fit_of_ofTables hr, ht, hkind, hdesk.code_eq, hrun⟩
  refine ⟨t, Registry.tables_of_ofTables hr ▸ ht, rfl, ?_⟩
  constructor
  case verdict =>
    intro k v hset
    obtain ⟨first, crop, hsplit, hspec⟩ := htaken.about_set hset
    rw [verdicts, hsplit]
    exact hspec.filter_codes
  case merged =>
    intro k v row hset hrow
    rw [htaken.style?] at hrow
    obtain ⟨params, houtcome, hkeeps⟩ := htaken.keeps hset hrow
    refine ⟨params, houtcome, fun e he => ?_⟩
    obtain ⟨q, hq, hkept⟩ := hkeeps e he
    exact ⟨(q.name, q.value), List.mem_map.mpr ⟨q, hq, rfl⟩, hkept⟩
  case cropping_le =>
    intro k
    rcases htaken.croppingWarnings k with ⟨hone, -⟩ | ⟨hnone, -⟩
    · exact Nat.le_of_eq hone
    · exact Nat.le_trans (Nat.le_of_eq hnone) (Nat.zero_le 1)
  case cropping =>
    intro k
    rcases htaken.croppingWarnings k with ⟨hone, hdiffers⟩ | ⟨hnone, hnever⟩
    · exact iff_of_true hone hdiffers
    · exact iff_of_false (hnone.trans_ne Nat.zero_ne_one) hnever
  case unset => exact fun k hset => htaken.about_unset hset
  case ordered => exact htaken.ordered

end Rendering

/-- A bar chart with a style key of each sort: one that is written, one that the imperative grammar has no means for,
one that bars do not have, one that restructures them, and one that the grammars crop in different ways. -/
def Desk.styledBars : Desk :=
  (Desk.mk .empty { kind := .bar, facetLimit := 12 }).run [
    .define (.text "sex") (.text "categorical") .null,
    .bind (.text "x") (.text "sex"),
    .setStyle (.text "axisLimitY") (.list [.int 0, .int 10]),
    .setStyle (.text "groupLayout") (.text "dodge"),
    .setStyle (.text "binCount") (.int 3),
    .setStyle (.text "opacity") (.int 1),
    .setStyle (.text "title") (.text "Bars")]

theorem Desk.reachable_styledBars : Desk.styledBars.Reachable :=
  Desk.reachable_new .bar _

namespace Rendering

theorem accounts_for_styles_styledBars :
    Registry.ofTables [Shipped.Imperative.table, Shipped.Layered.table] = .ok .shipped ∧
      Desk.styledBars.Reachable ∧ ∃ out, ofChart .shipped Desk.styledBars.chart "imperative" false = .ok out ∧
      out.verdicts .title = [] ∧ out.Merges (.text "main", .text "Bars") ∧ out.verdicts .opacity = [.unsupported] ∧
      out.verdicts .binCount = [.unknownToGrammar] ∧ out.verdicts .groupLayout = [.explained] ∧
      out.croppingWarnings .axisLimitY = 1 ∧ out.about .fillColor = [] := by
  have hbuilt := Registry.ofTables_shipped
  have hreach := Desk.reachable_styledBars
  obtain ⟨out, hout⟩ : ∃ out, ofChart .shipped Desk.styledBars.chart "imperative" false = .ok out :=
    Shipped.ok_of_complete (g := .imperative) hreach (by decide) (fun h => nomatch h.2.1) (.inl rfl)
  obtain ⟨t, ht, hgrammar, haccounts⟩ := accounts_for_styles hbuilt hreach hout
  obtain rfl : t = Shipped.Imperative.table := by
    rcases List.mem_pair.mp ht with rfl | rfl
    · rfl
    · exact absurd hgrammar (by decide)
  refine ⟨hbuilt, hreach, out, hout, haccounts.verdict .title _ rfl, ?_, haccounts.verdict .opacity _ rfl,
    haccounts.verdict .binCount _ rfl, haccounts.verdict .groupLayout _ rfl, ?_, haccounts.unset .fillColor rfl⟩
  · obtain ⟨params, hparams, hmerged⟩ := haccounts.merged .title _ _ rfl rfl
    cases hparams
    exact hmerged _ List.mem_cons_self
  · refine (haccounts.cropping .axisLimitY).mpr ⟨_, _, .visual, rfl, rfl, rfl, ?_⟩
    exact ⟨Shipped.Layered.table, by simp [Registry.shipped], by decide, _, .destructive, rfl, rfl, by decide⟩

end Rendering

end ChartGrammar
