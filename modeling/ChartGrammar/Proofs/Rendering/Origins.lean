import ChartGrammar.Proofs.Rendering.Conflicts
import ChartGrammar.Proofs.Writer.Taking

/-! Conflicts by what is in conflict. Every write comes from the kind, a role, a style key or the facet, and none
of these writes to a name twice. So there is a conflict exactly if two of them write to one name and disagree on
its value; and which of them can meet at a name is read off the rows. -/

namespace ChartGrammar

namespace Origin

/-- The origins, in the order in which they write. -/
def all : List Origin :=
  .kind :: ((Vocabulary.all : List Role).map .role ++ (Vocabulary.all : List StyleKey).map .style ++ [.facet])

theorem mem_all (o : Origin) : o ∈ all := by
  cases o with
  | kind => exact List.mem_cons_self
  | role r => simp [all, Vocabulary.mem_all]
  | style k => simp [all, Vocabulary.mem_all]
  | facet => simp [all]

/-- What is said of all origins is decided by going through them. -/
instance decidableForall (p : Origin → Prop) [DecidablePred p] : Decidable (∀ o, p o) :=
  decidable_of_iff (∀ o ∈ all, p o) ⟨fun h o => h o (mem_all o), fun h o _ => h o⟩

end Origin

/-! ### Names -/

theorem Entries.AtMostOne.sublist {es : Entries} {names : List Value} (h : es.AtMostOne names) :
    (es.map Prod.fst).Sublist names := by
  rcases h with rfl | ⟨name, hname, value, rfl⟩
  · exact List.nil_sublist _
  · exact List.singleton_sublist.mpr hname

theorem Realization.sublist_outcome {realization : Realization} {c : Chart} {v : Value} {params : Entries}
    (h : realization.outcome c v = .ok params) : (params.map Prod.fst).Sublist realization.params := by
  cases realization with
  | written w => exact (StyleWriter.atMostOne_run h).sublist
  | arranged arranger =>
      cases harranged : arranger.run v c with
      | error m =>
          rw [outcome, harranged] at h
          cases h
      | ok arrangement =>
          rw [outcome, harranged] at h
          cases h
          exact Arranger.sublist_run harranged

/-- The two values do not count as the same. -/
def Value.Differ (a b : Value) : Prop :=
  a.same b = false

instance : DecidableRel Value.Differ :=
  fun a b => inferInstanceAs (Decidable (a.same b = false))

namespace KindRows

/-- The names that an origin may write to. -/
def paramsOf (rows : KindRows) : Origin → List Value
  | .kind => rows.selector.params
  | .role r => (rows.role? r).elim [] RoleRow.params
  | .style k => (rows.style? k).elim [] fun row => row.realization.params
  | .facet => rows.facet?.elim [] fun row => row.writer.params

/-- Where an origin may write to several names at once, no two of them are the same. -/
def WritesOnce (rows : KindRows) : Prop :=
  rows.selector.params.Pairwise Value.Differ ∧ ∀ e ∈ rows.styles, e.2.realization.params.Pairwise Value.Differ

instance (rows : KindRows) : Decidable rows.WritesOnce :=
  inferInstanceAs (Decidable (_ ∧ _))

/-- No two origins but those that are paired here may write to the same name. -/
def OnlyRivals (rows : KindRows) (pairs : List (Origin × Origin)) : Prop :=
  ∀ o o', (∃ a ∈ rows.paramsOf o, ∃ b ∈ rows.paramsOf o', a.same b = true) →
    o = o' ∨ (o, o') ∈ pairs ∨ (o', o) ∈ pairs

instance (rows : KindRows) (pairs : List (Origin × Origin)) : Decidable (rows.OnlyRivals pairs) :=
  inferInstanceAs (Decidable (∀ _ _, _ → _))

end KindRows

namespace Rendering

open Document Ledger

variable {c : Chart} {rows : KindRows} {o o' : Origin}

/-- The writes of one origin. -/
def writesOf (c : Chart) (rows : KindRows) : Origin → List Parameter
  | .kind => kindWrites c rows
  | .role r => (c.source? r).elim [] fun source => bindingWrites c rows ⟨r, source⟩
  | .style k => (c.style? k).elim [] fun v => styleWrites c rows (k, v)
  | .facet => facetWrites c rows

/-- Some writes disagree with others on the value of a name. -/
def Disagree (us vs : List Parameter) : Prop :=
  ∃ u ∈ us, ∃ v ∈ vs, u.name.same v.name = true ∧ u.value.Differ v.value

@[simp] theorem disagree_nil_left (vs : List Parameter) : ¬Disagree [] vs := by
  simp [Disagree]

@[simp] theorem disagree_nil_right (us : List Parameter) : ¬Disagree us [] := by
  simp [Disagree]

@[simp] theorem disagree_singleton {u v : Parameter} :
    Disagree [u] [v] ↔ u.name.same v.name = true ∧ u.value.Differ v.value := by
  simp [Disagree]

/-- Two origins write unequal values to one name. -/
def Clashing (c : Chart) (rows : KindRows) (o o' : Origin) : Prop :=
  Disagree (writesOf c rows o) (writesOf c rows o')

theorem mem_writes_iff {w : Parameter} : w ∈ writes c rows ↔ ∃ o, w ∈ writesOf c rows o := by
  simp only [writes, List.mem_append, List.mem_flatMap]
  constructor
  · rintro (((hw | ⟨b, hb, hw⟩) | ⟨e, he, hw⟩) | hw)
    · exact ⟨.kind, hw⟩
    · refine ⟨.role b.role, ?_⟩
      rw [writesOf, Chart.mem_bindings.mp hb]
      exact hw
    · refine ⟨.style e.1, ?_⟩
      rw [writesOf, Chart.mem_styles.mp he]
      exact hw
    · exact ⟨.facet, hw⟩
  · rintro ⟨o, hw⟩
    cases o with
    | kind => exact .inl (.inl (.inl hw))
    | role r =>
        rw [writesOf] at hw
        cases hsource : c.source? r with
        | none => simp [hsource] at hw
        | some source =>
            rw [hsource] at hw
            exact .inl (.inl (.inr ⟨⟨r, source⟩, Chart.mem_bindings.mpr hsource, hw⟩))
    | style k =>
        rw [writesOf] at hw
        cases hset : c.style? k with
        | none => simp [hset] at hw
        | some v =>
            rw [hset] at hw
            exact .inl (.inr ⟨(k, v), Chart.mem_styles.mpr hset, hw⟩)
    | facet => exact .inr hw

/-! ### The names that an origin writes to -/

theorem mem_written {outcome : Except Misuse Entries} {w : Parameter} (hw : w ∈ written outcome o) :
    ∃ params, outcome = .ok params ∧ w.name ∈ params.map Prod.fst := by
  unfold written at hw
  split at hw
  · next params =>
      obtain ⟨e, he, rfl⟩ := List.mem_map.mp hw
      exact ⟨params, rfl, List.mem_map_of_mem he⟩
  · exact absurd hw List.not_mem_nil

/-- What is made of a binding is at most one parameter, with a name from the role's row. -/
theorem atMostOne_bindingOutcome {b : Binding} {params : Entries} (h : bindingOutcome c rows b = .ok params) :
    params.AtMostOne (rows.paramsOf (.role b.role)) := by
  have hmore {names : List Value} (hsub : ∀ name ∈ names, name ∈ rows.paramsOf (.role b.role))
      (hone : params.AtMostOne names) : params.AtMostOne (rows.paramsOf (.role b.role)) :=
    hone.imp_right fun ⟨name, hname, hvalue⟩ => ⟨name, hsub name hname, hvalue⟩
  unfold bindingOutcome at h
  split at h
  · next row name hrow hsource =>
      cases hw : row.column? with
      | none =>
          rw [hw] at h
          cases h
          exact .inl rfl
      | some w =>
          rw [hw] at h
          refine hmore (fun name hname => ?_) (ColumnWriter.atMostOne_run h)
          rw [KindRows.paramsOf, hrow, Option.elim_some, RoleRow.params, hw]
          exact List.mem_append_left _ hname
  · next row value hrow hsource =>
      cases hw : row.literal? with
      | none =>
          rw [hw] at h
          cases h
          exact .inl rfl
      | some w =>
          rw [hw] at h
          refine hmore (fun name hname => ?_) (StyleWriter.atMostOne_run h)
          rw [KindRows.paramsOf, hrow, Option.elim_some, RoleRow.params, hw]
          exact List.mem_append_right _ hname
  · cases h
    exact .inl rfl

theorem sublist_styleOutcome {e : StyleKey × Value} {params : Entries} (h : styleOutcome c rows e = .ok params) :
    (params.map Prod.fst).Sublist (rows.paramsOf (.style e.1)) := by
  unfold styleOutcome at h
  rw [KindRows.paramsOf]
  split at h
  · next row hrow =>
      rw [hrow]
      exact Realization.sublist_outcome h
  · cases h
    exact List.nil_sublist _

/-- An origin writes to no other names than it may. -/
theorem name_mem_paramsOf {w : Parameter} (hw : w ∈ writesOf c rows o) : w.name ∈ rows.paramsOf o := by
  cases o with
  | kind =>
      obtain ⟨e, he, rfl⟩ := List.mem_map.mp hw
      rw [KindRows.paramsOf, ← rows.selector.map_fst_run c]
      exact List.mem_map_of_mem he
  | role r =>
      rw [writesOf] at hw
      cases hsource : c.source? r with
      | none => simp [hsource] at hw
      | some source =>
          rw [hsource] at hw
          obtain ⟨params, hok, hname⟩ := mem_written hw
          exact (atMostOne_bindingOutcome hok).sublist.subset hname
  | style k =>
      rw [writesOf] at hw
      cases hset : c.style? k with
      | none => simp [hset] at hw
      | some v =>
          rw [hset] at hw
          obtain ⟨params, hok, hname⟩ := mem_written hw
          exact (sublist_styleOutcome hok).subset hname
  | facet =>
      change w ∈ facetWrites c rows at hw
      unfold facetWrites at hw
      split at hw
      · next name row _ hrow =>
          obtain ⟨e, he, rfl⟩ := List.mem_map.mp hw
          rw [KindRows.paramsOf, hrow]
          exact (row.writer.atMostOne_run (.text name)).sublist.subset (List.mem_map_of_mem he)
      · exact absurd hw List.not_mem_nil

/-! ### No origin clashes with itself -/

/-- No two of the writes are to the same name. -/
def OncePerName (ws : List Parameter) : Prop :=
  ws.Pairwise fun v w => v.name.Differ w.name

theorem oncePerName_nil : OncePerName [] :=
  List.Pairwise.nil

theorem oncePerName_writes {params : Entries} (h : (params.map Prod.fst).Pairwise Value.Differ) (o : Origin) :
    OncePerName (params.writes o) := by
  rw [List.pairwise_map] at h
  exact List.pairwise_map.mpr h

theorem oncePerName_of_atMostOne {params : Entries} {names : List Value} (h : params.AtMostOne names) (o : Origin) :
    OncePerName (params.writes o) := by
  rcases h with rfl | ⟨name, -, value, rfl⟩
  · exact oncePerName_nil
  · exact List.pairwise_singleton _ _

theorem oncePerName_written {outcome : Except Misuse Entries}
    (h : ∀ params, outcome = .ok params → OncePerName (params.writes o)) : OncePerName (written outcome o) := by
  unfold written
  split
  · exact h _ rfl
  · exact oncePerName_nil

theorem oncePerName_writesOf (honce : rows.WritesOnce) (o : Origin) : OncePerName (writesOf c rows o) := by
  cases o with
  | kind =>
      refine oncePerName_writes ?_ _
      rw [rows.selector.map_fst_run c]
      exact honce.1
  | role r =>
      rw [writesOf]
      cases c.source? r with
      | none => exact oncePerName_nil
      | some source =>
          exact oncePerName_written fun params hok => oncePerName_of_atMostOne (atMostOne_bindingOutcome hok) _
  | style k =>
      rw [writesOf]
      cases c.style? k with
      | none => exact oncePerName_nil
      | some v =>
          refine oncePerName_written fun params hok => oncePerName_writes ?_ _
          refine List.Pairwise.sublist (sublist_styleOutcome hok) ?_
          rw [KindRows.paramsOf]
          cases hrow : rows.style? k with
          | none => exact List.Pairwise.nil
          | some row => exact honce.2 (k, row) (mem_of_lookup hrow)
  | facet =>
      rw [writesOf, facetWrites]
      split
      · next name row _ _ => exact oncePerName_of_atMostOne (row.writer.atMostOne_run _) _
      · exact oncePerName_nil

theorem not_disagree_self {ws : List Parameter} (hregular : ∀ w ∈ ws, w.Regular) (honce : OncePerName ws) :
    ¬Disagree ws ws := by
  -- A later write and an earlier one are no more to the same name than the other way around.
  have hback : ws.Pairwise fun v w => w.name.same v.name = true → ¬w.value.Differ v.value := by
    refine honce.imp_of_mem fun {v w} _ hw hdiffer hsame => ?_
    rw [Value.Differ, Value.same_symm (hregular w hw).1 hsame] at hdiffer
    cases hdiffer
  have hforth : ws.Pairwise fun v w => v.name.same w.name = true → ¬v.value.Differ w.value := by
    refine honce.imp fun {v w} hdiffer hsame => ?_
    rw [Value.Differ, hsame] at hdiffer
    cases hdiffer
  have hself : ∀ w ∈ ws, w.name.same w.name = true → ¬w.value.Differ w.value := by
    intro w hw _
    rw [Value.Differ, Value.same_self (hregular w hw).2]
    exact Bool.noConfusion
  rintro ⟨u, hu, v, hv, hname, hvalue⟩
  exact List.Pairwise.forall_of_forall_of_flip hself hforth hback hu hv hname hvalue

theorem Disagree.symm {us vs : List Parameter} (hus : ∀ u ∈ us, u.Regular) (hvs : ∀ v ∈ vs, v.Regular)
    (h : Disagree us vs) : Disagree vs us := by
  obtain ⟨u, hu, v, hv, hname, hvalue⟩ := h
  refine ⟨v, hv, u, hu, Value.same_symm (hus u hu).1 hname, ?_⟩
  rw [Value.Differ, ← Bool.not_eq_true]
  intro hback
  rw [Value.Differ, Value.same_symm (hvs v hv).2 hback] at hvalue
  cases hvalue

/-- Something clashes exactly if one of the paired origins clashes with its partner. -/
theorem exists_clashing_iff (hregular : ∀ w ∈ writes c rows, w.Regular) (honce : rows.WritesOnce)
    {pairs : List (Origin × Origin)} (honly : rows.OnlyRivals pairs) :
    (∃ o o', Clashing c rows o o') ↔ ∃ e ∈ pairs, Clashing c rows e.1 e.2 := by
  have hof (o : Origin) : ∀ w ∈ writesOf c rows o, w.Regular :=
    fun w hw => hregular w (mem_writes_iff.mpr ⟨o, hw⟩)
  constructor
  · rintro ⟨o, o', hclash⟩
    obtain ⟨u, hu, v, hv, hname, -⟩ := id hclash
    rcases honly o o' ⟨u.name, name_mem_paramsOf hu, v.name, name_mem_paramsOf hv, hname⟩ with rfl | hmem | hmem
    · exact absurd hclash (not_disagree_self (hof o) (oncePerName_writesOf honce o))
    · exact ⟨(o, o'), hmem, hclash⟩
    · exact ⟨(o', o), hmem, hclash.symm (hof o) (hof o')⟩
  · rintro ⟨e, -, hclash⟩
    exact ⟨e.1, e.2, hclash⟩

/-! ### Conflicts -/

/-- There is a conflict exactly if two unequal values are written to one name. -/
theorem exists_conflict_iff {ws : List Parameter} {d : Document} (h : Records ws d) (hregular : ∀ w ∈ ws, w.Regular) :
    (∃ f ∈ d.findings, f.code = .conflict) ↔ Disagree ws ws := by
  have hconflicts : (∃ f ∈ d.findings, f.code = .conflict) ↔ ∃ e, e ∈ overrides ws := by
    have hmem (f : Diagnostic) : f ∈ Document.conflicts d.findings ↔ f ∈ d.findings ∧ f.code = .conflict := by
      simp [Document.conflicts]
    simp only [← hmem, h.conflicts, List.mem_map]
    constructor
    · rintro ⟨f, e, he, -⟩
      exact ⟨e, he⟩
    · rintro ⟨e, he⟩
      exact ⟨overrideWarning e, e, he, rfl⟩
  rw [hconflicts]
  constructor
  · rintro ⟨e, he⟩
    obtain ⟨hfirst, hsecond, hname, hvalue⟩ := mem_of_override he
    exact ⟨e.1, hfirst, e.2, hsecond, hname, hvalue⟩
  · rintro ⟨first, hfirst, second, hsecond, hname, hvalue⟩
    have hself := Value.same_self (hregular second hsecond).1
    obtain ⟨e, he, -⟩ := (exists_override_iff hregular).mpr ⟨first, hfirst, second, hsecond, hname, hself, hvalue⟩
    exact ⟨e, he⟩

/-- A rendering has a conflict exactly if one of the paired origins clashes with its partner. -/
theorem conflict_iff_exists_clashing {d : Document} (h : Records (writes c rows) d)
    (hregular : ∀ w ∈ writes c rows, w.Regular) (honce : rows.WritesOnce) {pairs : List (Origin × Origin)}
    (honly : rows.OnlyRivals pairs) :
    (∃ f ∈ d.findings, f.code = .conflict) ↔ ∃ e ∈ pairs, Clashing c rows e.1 e.2 := by
  rw [exists_conflict_iff h hregular, ← exists_clashing_iff hregular honce honly]
  constructor
  · rintro ⟨u, hu, v, hv, hdiffer⟩
    obtain ⟨o, ho⟩ := mem_writes_iff.mp hu
    obtain ⟨o', ho'⟩ := mem_writes_iff.mp hv
    exact ⟨o, o', u, ho, v, ho', hdiffer⟩
  · rintro ⟨o, o', u, hu, v, hv, hdiffer⟩
    exact ⟨u, mem_writes_iff.mpr ⟨o, hu⟩, v, mem_writes_iff.mpr ⟨o', hv⟩, hdiffer⟩

/-- Nothing is in conflict at a name that no two origins clash at. -/
theorem not_conflict_at {d : Document} (h : Records (writes c rows) d)
    (hregular : ∀ w ∈ writes c rows, w.Regular) (honce : rows.WritesOnce) {pairs : List (Origin × Origin)}
    (honly : rows.OnlyRivals pairs) {param : String}
    (hfree : ∀ e ∈ pairs, Clashing c rows e.1 e.2 → .text param ∉ rows.paramsOf e.1) :
    ¬∃ f ∈ conflicts d.findings, f.key.same (.text param) = true := by
  rw [h.conflict_iff, exists_override_iff hregular]
  rintro ⟨u, hu, v, hv, hnameu, hnamev, hdiffer⟩
  have huname := Value.same_text_right_iff.mp hnameu
  have hvname := Value.same_text_right_iff.mp hnamev
  obtain ⟨o, ho⟩ := mem_writes_iff.mp hu
  obtain ⟨o', ho'⟩ := mem_writes_iff.mp hv
  have hof (o : Origin) : ∀ w ∈ writesOf c rows o, w.Regular :=
    fun w hw => hregular w (mem_writes_iff.mpr ⟨o, hw⟩)
  have hclash : Clashing c rows o o' := ⟨u, ho, v, ho', by rwa [hvname], hdiffer⟩
  have hparamu := name_mem_paramsOf ho
  have hparamv := name_mem_paramsOf ho'
  rw [huname] at hparamu
  rw [hvname] at hparamv
  rcases honly o o' ⟨_, hparamu, _, hparamv, Value.same_text_iff.mpr rfl⟩ with rfl | hmem | hmem
  · exact not_disagree_self (hof o) (oncePerName_writesOf honce o) hclash
  · exact hfree _ hmem hclash hparamu
  · exact hfree _ hmem (hclash.symm (hof o) (hof o')) hparamv

end Rendering

end ChartGrammar
