import ChartGrammar.Proofs.Rendering.Origins
import ChartGrammar.Proofs.Rendering.Trips

/-! What is too long to be shown. Rows that take whatever comes to their place are tripped over only for that, and only
where they show something. Texts and truth values are never too long, whatever they are; so neither are rows that show
nothing else, nor a chart with no such value in it, unless for what a finding has to tell. -/

namespace ChartGrammar

/-- The normal forms of a shape are texts or truth values. -/
def Shape.isShort : Shape → Bool
  | text | colour | flag | word _ => true
  | _ => false

theorem Shape.legible_of_normalize? {shape : Shape} (hshort : shape.isShort = true) {v u : Value}
    (h : shape.normalize? v = some u) : u.legible = true := by
  cases normalize?_eq_some_iff.mp h <;> first | rfl | cases hshort

/-- What comes from an origin is made of texts and truth values, apart from what the rows hold. -/
def Origin.isShort : Origin → Bool
  | .role r => r.literalShape?.all Shape.isShort
  | .style k => k.shape.isShort
  | _ => true

namespace StyleWriter

/-- Whether a writer makes a text of its value. -/
def shows : StyleWriter → Bool
  | template .. => true
  | _ => false

/-- Whether there are values that a writer writes nothing for. -/
def mayWriteNothing : StyleWriter → Bool
  | mapped .. => true
  | nothing => true
  | _ => false

variable {w : StyleWriter} {v : Value}

theorem shows_of_run (h : w.run v = .error .tooLong) : w.shows = true := by
  cases w with
  | template => rfl
  | scalar | legendPosition | nothing => cases h
  | pair param =>
      rw [run, bind_eq_error_iff] at h
      obtain h | ⟨bound, -, h⟩ := h
      · unfold bounds at h
        split at h <;> cases h
      · cases h
  | nested param field =>
      rw [run] at h
      split at h <;> cases h
  | mapped param words =>
      rw [run, bind_eq_error_iff, Entries.lookup] at h
      obtain h | ⟨word?, -, h⟩ := h
      · split at h <;> cases h
      · split at h <;> cases h

theorem mayWriteNothing_of_run (h : w.run v = .ok []) : w.mayWriteNothing = true := by
  cases w with
  | mapped | nothing => rfl
  | scalar | legendPosition => cases h
  | pair | template =>
      obtain ⟨u, -, h⟩ := bind_eq_ok_iff.mp h
      cases h
  | nested param field =>
      rw [run] at h
      split at h <;> cases h

end StyleWriter

theorem Arranger.mem_values_of_mem_params {a : Arranger} {v : Value} (h : v ∈ a.params) : v ∈ a.values := by
  cases a with
  | groupedBars => exact List.mem_append_left [_] h

/-- The values in a document after a step are those that it had, or that the step writes. -/
theorem Document.values_of_step {P : Value → Prop} {grammar : String} {strict : Bool} {d e : Document} {s : Step}
    (hd : ∀ p ∈ d.parameters, P p.value) (hs : ∀ w, s.write? = some w → P w.value)
    (h : d.step grammar strict s = .ok e) : ∀ p ∈ e.parameters, P p.value := by
  cases s with
  | write param value origin =>
      have hvalue : P value := hs _ rfl
      cases writeCase h with
      | new =>
          exact List.forall_mem_append.mpr ⟨hd, List.forall_mem_singleton.mpr hvalue⟩
      | repeated => exact hd
      | override =>
          refine List.forall_mem_map.mpr fun p hp => ?_
          split
          · exact hvalue
          · exact hd p hp
  | report finding =>
      cases h
      exact hd
  | carried role column into =>
      cases carriedCase h with
      | found | dropped => exact hd
  | fail fault => cases h

/-- The values in a document after some steps are those that it had, or that the steps write. -/
theorem Document.values_of_run {P : Value → Prop} {grammar : String} {strict : Bool} {d e : Document} {steps : List Step}
    (hd : ∀ p ∈ d.parameters, P p.value) (hsteps : ∀ s ∈ steps, ∀ w, s.write? = some w → P w.value)
    (h : d.run grammar strict steps = .ok e) : ∀ p ∈ e.parameters, P p.value := by
  induction steps generalizing d with
  | nil =>
      cases h
      exact hd
  | cons s steps ih =>
      rw [run_cons] at h
      obtain ⟨next, hstep, hrest⟩ := bind_eq_ok_iff.mp h
      rw [List.forall_mem_cons] at hsteps
      exact ih (values_of_step hd hsteps.1 hstep) hsteps.2 hrest

/-- Whether the realization of a style key shows only what is short, if the key has normal forms of a shape. -/
def Realization.isBrief (shape : Shape) : Realization → Bool
  | written w => !w.shows || shape.isShort
  | arranged arranger => shape.isShort && arranger.params.all Value.legible

/-- Whether a role's row shows only what is short. -/
def RoleRow.isBrief (role : Role) (row : RoleRow) : Bool :=
  row.literal?.all (fun w => !(w.shows || w.mayWriteNothing) || role.literalShape?.all Shape.isShort)
    && row.consumedInto.legible

/-- Whether the rows of a kind show only what is short. -/
def KindRows.isBrief (rows : KindRows) : Bool :=
  rows.roles.all (fun e => e.2.isBrief e.1) && rows.styles.all (fun e => e.2.realization.isBrief e.1.shape)

variable {r : Registry} {c : Chart} {grammar : String} {rows : KindRows} {s : Schema} {role : Role} {row : RoleRow}

namespace Rendering

theorem isBrief_of_role? (hbrief : rows.isBrief = true) (hrow : rows.role? role = some row) :
    row.isBrief role = true := by
  rw [KindRows.isBrief, Bool.and_eq_true] at hbrief
  exact List.all_eq_true.mp hbrief.1 (role, row) (mem_of_lookup hrow)

/-- What the rows have to show of a chart is not too long. -/
structure ShowsShort (c : Chart) (rows : KindRows) : Prop where
  /-- A literal is shown by its writer, or else by the finding that nothing is written for it. -/
  literal : ∀ {role row w v}, rows.role? role = some row → row.literal? = some w →
    w.shows = true ∨ w.mayWriteNothing = true → c.source? role = some (.literal v) → v.legible = true
  /-- A style value may be shown by its writer. -/
  written : ∀ {key row w v}, rows.style? key = some row → row.realization = .written w → w.shows = true →
    c.style? key = some v → v.legible = true
  /-- What arranges the chart explains itself by the style value and the names of parameters. -/
  arranged : ∀ {key row arranger v}, rows.style? key = some row → row.realization = .arranged arranger →
    c.style? key = some v → v.legible = true ∧ ∀ u ∈ arranger.params, u.legible = true

/-- Rows that show only what is short. -/
theorem showsShort_of_isBrief (hc : c.Sound s) (hbrief : rows.isBrief = true) : ShowsShort c rows := by
  have hnormal {key : StyleKey} {v : Value} (hset : c.style? key = some v) : key.shape.normalize? v = some v :=
    Chart.normalizeStyle_eq_ok_iff.mp (hc.style key v hset)
  have hstyle {key : StyleKey} {row : StyleRow} (hrow : rows.style? key = some row) :
      row.realization.isBrief key.shape = true := by
    rw [KindRows.isBrief, Bool.and_eq_true] at hbrief
    exact List.all_eq_true.mp hbrief.2 (key, row) (mem_of_lookup hrow)
  constructor
  case literal =>
    intro role row w v hrow hw hshown hsource
    obtain ⟨shape, hshape, hnormal⟩ := hc.literal hsource
    have hrowBrief := isBrief_of_role? hbrief hrow
    simp only [RoleRow.isBrief, hw, hshape, Option.all_some, Bool.and_eq_true, Bool.or_eq_true, Bool.not_eq_true',
      Bool.or_eq_false_iff] at hrowBrief
    refine Shape.legible_of_normalize? (hrowBrief.1.resolve_left ?_) hnormal
    rintro ⟨hshows, hnothing⟩
    rcases hshown with h | h
    · cases hshows.symm.trans h
    · cases hnothing.symm.trans h
  case written =>
    intro key row w v hrow hw hshows hset
    have hshort := hstyle hrow
    rw [hw, Realization.isBrief, hshows] at hshort
    exact Shape.legible_of_normalize? hshort (hnormal hset)
  case arranged =>
    intro key row arranger v hrow harranged hset
    have hshort := hstyle hrow
    rw [harranged, Realization.isBrief, Bool.and_eq_true] at hshort
    exact ⟨Shape.legible_of_normalize? hshort.1 (hnormal hset), fun u hu => List.all_eq_true.mp hshort.2 u hu⟩

end Rendering

/-- Nothing that is bound or set is too long to be written. -/
structure Chart.Legible (c : Chart) : Prop where
  literal : ∀ role v, c.source? role = some (.literal v) → v.legible = true
  style : ∀ key v, c.style? key = some v → v.legible = true

/-- Nothing that the writers of a kind hold is too long to be written, and no parameter that columns are folded into. -/
def KindRows.isLegible (rows : KindRows) : Bool :=
  rows.values.all Value.legible && rows.roles.all fun e => e.2.consumedInto.legible

theorem KindRows.legible_values (h : rows.isLegible = true) : ∀ v ∈ rows.values, v.legible = true := by
  rw [KindRows.isLegible, Bool.and_eq_true] at h
  exact List.all_eq_true.mp h.1

namespace Rendering

/-- Charts and rows with nothing in them that is too long. -/
theorem showsShort_of_legible (hc : c.Legible) (hrows : rows.isLegible = true) : ShowsShort c rows where
  literal _ _ _ hsource := hc.literal _ _ hsource
  written _ _ _ hset := hc.style _ _ hset
  arranged {key row arranger v} hrow harranged hset := by
    refine ⟨hc.style key v hset, fun u hu => ?_⟩
    refine KindRows.of_style? (KindRows.legible_values hrows) hrow u ?_
    rw [harranged]
    exact Arranger.mem_values_of_mem_params hu

/-- The writers for what is bound are not misused where rows take everything and what they show is short. -/
theorem not_tooLong_bindingOutcome (hc : c.Sound s) (htakes : rows.takesAny = true) (hshort : ShowsShort c rows)
    {b : Binding} (hb : b ∈ c.bindings) : bindingOutcome c rows b ≠ .error .tooLong := by
  intro h
  cases bindingCase c "" rows b with
  | refused _ houtcome => cases houtcome.symm.trans h
  | @column row w name hrow hw hsource _ houtcome =>
      have htaken := takesAny_of_role? htakes hrow
      simp only [RoleRow.takesAny, hw, Option.all_some, Bool.and_eq_true] at htaken
      obtain ⟨params, hrun⟩ := ColumnWriter.run_of_takesAny htaken.1.1.1.1 name c
      cases hrun.symm.trans (houtcome.symm.trans h)
  | @literal row w v hrow hw hsource _ houtcome =>
      have herror := houtcome.symm.trans h
      have hbound := Chart.mem_bindings.mp hb
      rw [hsource] at hbound
      obtain ⟨shape, hshape, hnormal⟩ := hc.literal hbound
      have htaken := takesAny_of_role? htakes hrow
      simp only [RoleRow.takesAny, hw, hshape, Option.all_some, Bool.and_eq_true] at htaken
      have hlegible := hshort.literal hrow hw (.inl (StyleWriter.shows_of_run herror)) hbound
      obtain ⟨params, hrun⟩ := (StyleWriter.yields_run htaken.1.1.1.2 hnormal).exists_ok hlegible
      cases hrun.symm.trans herror

theorem not_tooLong_styleOutcome (hc : c.Sound s) (htakes : rows.takesAny = true) (hshort : ShowsShort c rows)
    {e : StyleKey × Value} (he : e ∈ c.styles) : styleOutcome c rows e ≠ .error .tooLong := by
  intro h
  have hset := Chart.mem_styles.mp he
  have hnormal := Chart.normalizeStyle_eq_ok_iff.mp (hc.style e.1 e.2 hset)
  unfold styleOutcome at h
  cases hrow : rows.style? e.1 with
  | none =>
      simp only [hrow] at h
      cases h
  | some row =>
      simp only [hrow] at h
      have htaken := takesAny_of_style? htakes hrow
      cases hrealization : row.realization with
      | written w =>
          simp only [hrealization, Realization.outcome, StyleRow.takesAny, Realization.takes,
            Bool.and_eq_true] at h htaken
          have hlegible := hshort.written hrow hrealization (StyleWriter.shows_of_run h) hset
          obtain ⟨params, hrun⟩ := (StyleWriter.yields_run htaken.1 hnormal).exists_ok hlegible
          cases hrun.symm.trans h
      | arranged arranger =>
          simp only [hrealization, Realization.outcome, StyleRow.takesAny, Realization.takes,
            Bool.and_eq_true] at h htaken
          have hlegible : (Value.tuple (e.2 :: arranger.params)).legible = true := by
            rw [Value.legible, Value.areLegible_iff, List.forall_mem_cons]
            exact hshort.arranged hrow hrealization hset
          obtain ⟨arrangement, hrun⟩ := (Arranger.yields_run htaken.1 e.2 c).exists_ok hlegible
          rw [hrun] at h
          cases h

/-- Where rows take everything and what they show is short, only a finding can be too long to be told. -/
theorem hasUntold_of_trips (hc : c.Sound s) (htakes : rows.takesAny = true) (hshort : ShowsShort c rows)
    (h : Trips r c grammar rows .tooLong) : HasUntold r c grammar rows := by
  cases h with
  | binding hb h => exact absurd h (not_tooLong_bindingOutcome hc htakes hshort hb)
  | @note role name row w _ _ hbound hrow hw hrun hstructural h =>
      have htaken := takesAny_of_role? htakes hrow
      simp only [RoleRow.takesAny, hstructural, Bool.and_eq_true, Bool.not_true, Bool.false_or] at htaken
      obtain ⟨message, hok⟩ := (Template.yields_apply Template.names_column htaken.1.1.2 (.text name)).exists_ok rfl
      cases hok.symm.trans h
  | literal hbound hrow hw hrun hlong =>
      rw [hshort.literal hrow hw (.inr (StyleWriter.mayWriteNothing_of_run hrun)) hbound] at hlong
      cases hlong
  | style he h => exact absurd h (not_tooLong_styleOutcome hc htakes hshort he)
  | @facetNote name row _ hfacet hrow hstructural h =>
      simp only [KindRows.takesAny, hrow, Option.all_some, FacetRow.takesAny, hstructural, Bool.and_eq_true,
        Bool.not_true, Bool.false_or] at htakes
      obtain ⟨message, hok⟩ := (Template.yields_apply Template.names_column htakes.2.1 (.text name)).exists_ok rfl
      cases hok.symm.trans h
  | untold h => exact h

/-- What comes from a short origin through rows of short values is short. -/
theorem legible_writesOf (hc : c.Sound s) (h : ∀ v ∈ rows.values, v.legible = true) {o : Origin}
    (ho : o.isShort = true) : ∀ w ∈ writesOf c rows o, w.name.legible = true ∧ w.value.legible = true := by
  have hP := Value.hereditary_legible
  cases o with
  | kind => exact inherits_kindWrites hP h
  | role r =>
      rw [writesOf]
      cases hsource : c.source? r with
      | none => exact fun w hw => absurd hw List.not_mem_nil
      | some source =>
          refine inherits_bindingWrites hP h fun v hv => ?_
          rw [show source = .literal v from hv] at hsource
          obtain ⟨shape, hshape, hnormal⟩ := hc.literal hsource
          rw [Origin.isShort, hshape] at ho
          exact Shape.legible_of_normalize? ho hnormal
  | style k =>
      rw [writesOf]
      cases hset : c.style? k with
      | none => exact fun w hw => absurd hw List.not_mem_nil
      | some v =>
          have hnormal := Chart.normalizeStyle_eq_ok_iff.mp (hc.style k v hset)
          exact inherits_styleWrites hP h (Shape.legible_of_normalize? ho hnormal)
  | facet => exact inherits_facetWrites hP h

/-! ### What findings have to tell -/

/-- A finding that is too long to be told is one of a conflict between two origins, or of a parameter that should carry
a column. -/
theorem exists_of_hasUntold (hregular : ∀ w ∈ writes c rows, w.Regular)
    (hfindings : ∀ f ∈ c.diagnostics, f.code ≠ .conflict) (h : HasUntold r c grammar rows) :
    (∃ o o', ∃ u ∈ writesOf c rows o, ∃ w ∈ writesOf c rows o', u.name.same w.name = true ∧ u.value.Differ w.value ∧
      (w.name.legible && u.value.legible && w.value.legible) = false) ∨
    ∃ role row, rows.role? role = some row ∧ row.consumedInto.legible = false := by
  obtain ⟨done, s, rest, d, hsplit, hdone, huntold⟩ := h
  have hholds : Holds (steps r c grammar rows) (writes c rows) := holds_steps hfindings
  have hmem : s ∈ steps r c grammar rows := by
    rw [hsplit]
    exact List.mem_append_right _ List.mem_cons_self
  cases s with
  | write param value origin =>
      obtain ⟨-, previous, hfind, hvalue, hlong⟩ := huntold
      have hdoneSteps : ∀ t ∈ done, t ∈ steps r c grammar rows := fun t ht => by
        rw [hsplit]
        exact List.mem_append_left _ ht
      have hdoneWrites : ∀ u ∈ done.filterMap Step.write?, u ∈ writes c rows := by
        intro u hu
        obtain ⟨t, ht, hwrite⟩ := List.mem_filterMap.mp hu
        rw [← hholds.writes]
        exact List.mem_filterMap.mpr ⟨t, hdoneSteps t ht, hwrite⟩
      -- The document is in step with the writes so far, so what stands at the name is one of them.
      have hrecords := Document.records_run Document.records_empty (fun t ht => hholds.quiet t (hdoneSteps t ht))
        (fun u hu => hregular u (hdoneWrites u hu)) hdone
      rw [List.nil_append] at hrecords
      obtain ⟨q, hstanding, hmark⟩ := hrecords.standing?_eq_some hfind
      obtain ⟨hq, hname⟩ := Ledger.mem_of_standing? hstanding
      have hw : (⟨param, value, origin⟩ : Parameter) ∈ writes c rows := by
        rw [← hholds.writes]
        exact List.mem_filterMap.mpr ⟨_, hmem, rfl⟩
      obtain ⟨o, ho⟩ := mem_writes_iff.mp (hdoneWrites q hq)
      obtain ⟨o', ho'⟩ := mem_writes_iff.mp hw
      have hsame : q.value = previous.value := Document.value_of_mark hmark
      refine .inl ⟨o, o', q, ho, _, ho', hname, ?_, ?_⟩
      · rw [Value.Differ, hsame]
        exact hvalue
      · rw [hsame]
        exact hlong
  | carried role column into =>
      cases accounted_steps _ hmem with
      | carried _ hrow => exact .inr ⟨_, _, hrow, huntold.2.2⟩
  | report | fail => exact huntold.elim

/-- Where nothing in a chart and in the rows is too long, nothing that is written is. -/
theorem legible_writes (hc : c.Legible) (hrows : rows.isLegible = true) :
    ∀ w ∈ writes c rows, w.name.legible = true ∧ w.value.legible = true :=
  inherits_writes Value.hereditary_legible (KindRows.legible_values hrows) hc.literal hc.style

/-- Where nothing in a chart and in the rows is too long, no finding is. -/
theorem not_hasUntold_of_legible (hc : c.Legible) (hrows : rows.isLegible = true) : ¬HasUntold r c grammar rows := by
  rintro ⟨done, s, rest, d, hsplit, hdone, huntold⟩
  have haccounted (t : Step) (ht : t ∈ done ++ [s]) : Accounted r c grammar rows t := by
    refine accounted_steps t ?_
    rw [hsplit, List.append_cons]
    exact List.mem_append_left rest ht
  have hlegible (t : Step) (ht : t ∈ done ++ [s]) (w : Parameter) (hw : t.write? = some w) :
      w.name.legible = true ∧ w.value.legible = true := by
    cases haccounted t ht with
    | write hmem =>
        cases hw
        exact legible_writes hc hrows _ hmem
    | report | carried | unsupported | unfaceted | misuse => cases hw
  have hstands : ∀ p ∈ d.parameters, p.value.legible = true :=
    Document.values_of_run (P := fun v => v.legible = true) (fun p hp => absurd hp List.not_mem_nil)
      (fun t ht w hw => (hlegible t (List.mem_append_left _ ht) w hw).2) hdone
  have hs : s ∈ done ++ [s] := List.mem_append_right _ List.mem_cons_self
  cases s with
  | write param value origin =>
      obtain ⟨-, previous, hfind, -, hlong⟩ := huntold
      obtain ⟨hname, hvalue⟩ := hlegible _ hs ⟨param, value, origin⟩ rfl
      rw [Document.isTellable, hname, hvalue, hstands previous (List.mem_of_find?_eq_some hfind)] at hlong
      cases hlong
  | carried role column into =>
      cases haccounted _ hs with
      | carried _ hrow =>
          rw [KindRows.isLegible, Bool.and_eq_true] at hrows
          have hinto := List.all_eq_true.mp hrows.2 _ (mem_of_lookup hrow)
          cases hinto.symm.trans huntold.2.2
  | report | fail => exact huntold.elim

end Rendering

end ChartGrammar
